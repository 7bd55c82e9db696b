/-
FileSharing.Lib.Unwinding — two runs of a machine that an observer cannot
tell apart.

An observer sees a part of the state (its view), some of the labels, and
some output of a step. The two conditions of `Unwinding` are about single
steps: a step the observer does not see leaves its view and shows it
nothing; two steps it sees as one and the same, from states it sees as one
and the same, end in such states with related outputs.

`Unwinding.runs_agree` is what follows for whole runs, of any two lengths:
if the observer saw the same labels, it has the same view and was shown
related outputs.
-/
import FileSharing.Lib.Transition

namespace FileSharing.Lib

/-- An observer of a machine, with the two conditions on single steps. -/
structure Unwinding {σ α ε : Type} (M : Machine σ α ε) (ν β ω : Type) where
  view : σ → ν
  visible : α → Option β
  output : Transition σ α → Option ω
  related : ω → ω → Prop
  quiet : ∀ {s a s'}, M.step s a = .ok s' → visible a = none →
    view s' = view s ∧ output ⟨s, a, s'⟩ = none
  consistent : ∀ {s₁ a₁ s₁' s₂ a₂ s₂' b}, M.step s₁ a₁ = .ok s₁' → M.step s₂ a₂ = .ok s₂' →
    visible a₁ = some b → visible a₂ = some b → view s₁ = view s₂ →
    view s₁' = view s₂' ∧ Option.Rel related (output ⟨s₁, a₁, s₁'⟩) (output ⟨s₂, a₂, s₂'⟩)

namespace Unwinding

variable {σ α ε ν β ω : Type} {M : Machine σ α ε} (U : Unwinding M ν β ω)

/-- The labels the observer saw. -/
def seen (tr : Trace σ α) : List β := tr.filterMap fun t => U.visible t.label

/-- The outputs the observer was shown. -/
def outputs (tr : Trace σ α) : List ω := tr.filterMap U.output

/-- Nothing seen: the view is the one of the beginning. -/
theorem quiet_run {tr : Trace σ α} {s : σ} (h : M.Run tr s) (hseen : U.seen tr = []) :
    U.view s = U.view M.init ∧ U.outputs tr = [] := by
  induction h with
  | start => exact ⟨rfl, rfl⟩
  | @next tr s s' a hrun hallowed hok ih =>
    unfold seen at hseen
    rw [List.filterMap_cons] at hseen
    cases hv : U.visible a with
    | some b => simp [hv] at hseen
    | none =>
      simp only [hv] at hseen
      obtain ⟨hview, hout⟩ := U.quiet hok hv
      obtain ⟨hview', hout'⟩ := ih hseen
      refine ⟨hview.trans hview', ?_⟩
      unfold outputs
      rw [List.filterMap_cons, hout]
      exact hout'

/-- The last step that was seen; nothing after it shows. -/
theorem last_seen {tr : Trace σ α} {s : σ} (h : M.Run tr s) {b : β} {bs : List β}
    (hseen : U.seen tr = b :: bs) :
    ∃ t older, M.Run older t.pre ∧ M.step t.pre t.label = .ok t.post ∧
      U.visible t.label = some b ∧ U.seen older = bs ∧ U.view s = U.view t.post ∧
      U.outputs tr = (U.output t).toList ++ U.outputs older := by
  induction h with
  | start => cases hseen
  | @next tr s s' a hrun hallowed hok ih =>
    unfold seen at hseen
    rw [List.filterMap_cons] at hseen
    cases hv : U.visible a with
    | some x =>
      simp only [hv, List.cons.injEq] at hseen
      refine ⟨⟨s, a, s'⟩, tr, hrun, hok, hseen.1 ▸ hv, hseen.2, rfl, ?_⟩
      unfold outputs
      rw [List.filterMap_cons]
      cases U.output ⟨s, a, s'⟩ <;> rfl
    | none =>
      simp only [hv] at hseen
      obtain ⟨hview, hout⟩ := U.quiet hok hv
      obtain ⟨t, older, hold, hstep, hvis, hrest, hview', houts⟩ := ih hseen
      refine ⟨t, older, hold, hstep, hvis, hrest, hview.trans hview', ?_⟩
      rw [← houts]
      unfold outputs
      rw [List.filterMap_cons, hout]

/-- **Runs that look the same are the same to the observer.** -/
theorem runs_agree {tr₁ tr₂ : Trace σ α} {s₁ s₂ : σ} (h₁ : M.Run tr₁ s₁) (h₂ : M.Run tr₂ s₂)
    (hseen : U.seen tr₁ = U.seen tr₂) :
    U.view s₁ = U.view s₂ ∧ List.Forall₂ U.related (U.outputs tr₁) (U.outputs tr₂) := by
  -- on what was seen, the newest first
  generalize hbs : U.seen tr₁ = bs at hseen
  induction bs generalizing tr₁ tr₂ s₁ s₂ with
  | nil =>
    obtain ⟨hview₁, hout₁⟩ := U.quiet_run h₁ hbs
    obtain ⟨hview₂, hout₂⟩ := U.quiet_run h₂ hseen.symm
    refine ⟨hview₁.trans hview₂.symm, ?_⟩
    rw [hout₁, hout₂]
    exact List.Forall₂.nil
  | cons b bs ih =>
    obtain ⟨t₁, older₁, hold₁, hok₁, hvis₁, hrest₁, hview₁, hout₁⟩ := U.last_seen h₁ hbs
    obtain ⟨t₂, older₂, hold₂, hok₂, hvis₂, hrest₂, hview₂, hout₂⟩ := U.last_seen h₂ hseen.symm
    obtain ⟨hpre, houts⟩ := ih hold₁ hold₂ hrest₁ hrest₂.symm
    obtain ⟨hpost, hrel⟩ := U.consistent hok₁ hok₂ hvis₁ hvis₂ hpre
    refine ⟨(hview₁.trans hpost).trans hview₂.symm, ?_⟩
    rw [hout₁, hout₂]
    generalize U.output t₁ = o₁ at hrel
    generalize U.output t₂ = o₂ at hrel
    cases hrel with
    | none => exact houts
    | some hr => exact List.Forall₂.cons hr houts

end Unwinding

end FileSharing.Lib
