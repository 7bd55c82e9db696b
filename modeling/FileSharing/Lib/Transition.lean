/-
FileSharing.Lib.Transition — labelled machines, their runs, and the
accounting of tokens along a run.

A `Machine` is an initial state, a contract saying which labels its
surroundings may present in which state, and a step function that may fail
(a panic of the modelled program). A `Run` is the record of the steps
taken so far, NEWEST FIRST: with that order the older part of a run is a
tail, and an induction on the run meets the last step at the head.

Two rules carry the developments above this module:

* `Run.invariant` — what the initial state has and every allowed step
  keeps, every reached state has. The predicate also sees the record, so
  that statements about the past ("an id some earlier step returned") are
  invariants like any other.
* `Accounting` — a token discipline. Steps ISSUE tokens, and a state
  HOLDS some of them. If a held token was issued, and an issued one is
  new, then (`Accounting.issued_cases`) every token ever issued is either
  held now and was never given up, or not held now and was given up by
  exactly one step; and a token given up is never held again
  (`Accounting.gone_stays_gone`), so that a step which needs it does not
  come after one that gave it up (`Accounting.pairwise_not_after`).
-/
import Mathlib.Data.List.Basic

namespace FileSharing.Lib

/-! ## Machines and runs -/

/-- A labelled machine. `allowed` is the contract of the surroundings,
`step` the program: it either reaches a next state or fails. -/
structure Machine (σ α ε : Type) where
  init : σ
  allowed : σ → α → Prop
  step : σ → α → Except ε σ

/-- One step taken: the state before, the label, the state after. -/
structure Transition (σ α : Type) where
  pre : σ
  label : α
  post : σ

/-- The record of a run, newest step first. -/
abbrev Trace (σ α : Type) : Type := List (Transition σ α)

variable {σ α ε : Type}

/-- The runs of a machine, with the state each has reached. -/
inductive Machine.Run (M : Machine σ α ε) : Trace σ α → σ → Prop where
  | start : M.Run [] M.init
  | next {tr : Trace σ α} {s s' : σ} {a : α} :
      M.Run tr s → M.allowed s a → M.step s a = .ok s' → M.Run (⟨s, a, s'⟩ :: tr) s'

/-- The invariant rule. The predicate may speak about the run so far. -/
theorem Machine.Run.invariant {M : Machine σ α ε} {I : Trace σ α → σ → Prop}
    (hinit : I [] M.init)
    (hstep : ∀ {tr s a s'}, M.Run tr s → I tr s → M.allowed s a → M.step s a = .ok s' →
      I (⟨s, a, s'⟩ :: tr) s')
    {tr : Trace σ α} {s : σ} (h : M.Run tr s) : I tr s := by
  induction h with
  | start => exact hinit
  | next hrun hallowed hok ih => exact hstep hrun ih hallowed hok

/-- The older part of a run is a run, and it ended where the next step began. -/
theorem Machine.Run.tail {M : Machine σ α ε} {t : Transition σ α} {tr : Trace σ α} {s : σ}
    (h : M.Run (t :: tr) s) :
    M.Run tr t.pre ∧ M.allowed t.pre t.label ∧ M.step t.pre t.label = .ok t.post ∧ s = t.post := by
  cases h with
  | next hrun hallowed hok => exact ⟨hrun, hallowed, hok, rfl⟩

/-- A record leads to one state. -/
theorem Machine.Run.eq_of_trace {M : Machine σ α ε} {tr : Trace σ α} {s s' : σ} (h : M.Run tr s)
    (h' : M.Run tr s') : s = s' := by
  cases tr with
  | nil =>
    cases h
    cases h'
    rfl
  | cons t tr =>
    obtain ⟨-, -, -, rfl⟩ := h.tail
    exact h'.tail.2.2.2.symm

/-- Every step of a run starts where an older run of the machine ended. -/
theorem Machine.Run.of_append {M : Machine σ α ε} {t : Transition σ α}
    {newer older : Trace σ α} {s : σ} (h : M.Run (newer ++ t :: older) s) :
    M.Run older t.pre ∧ M.allowed t.pre t.label ∧ M.step t.pre t.label = .ok t.post := by
  induction newer generalizing s with
  | nil =>
    obtain ⟨hrun, hallowed, hok, -⟩ := h.tail
    exact ⟨hrun, hallowed, hok⟩
  | cons u newer ih => exact ih h.tail.1

theorem Machine.Run.of_suffix {M : Machine σ α ε} {t : Transition σ α} {older tr : Trace σ α}
    {s : σ} (h : M.Run tr s) (hs : t :: older <:+ tr) : M.Run (t :: older) t.post := by
  obtain ⟨newer, rfl⟩ := hs
  obtain ⟨hrun, hallowed, hok⟩ := h.of_append
  exact hrun.next hallowed hok

/-- Run a list of labels, oldest first, without looking at the contract.
This is how concrete runs are computed. -/
def Machine.exec (M : Machine σ α ε) : Trace σ α → σ → List α → Except ε (Trace σ α × σ)
  | tr, s, [] => .ok (tr, s)
  | tr, s, a :: as =>
    match M.step s a with
    | .ok s' => M.exec (⟨s, a, s'⟩ :: tr) s' as
    | .error e => .error e

/-- The labels of a computed run meet the contract one after the other. -/
def Machine.AllAllowed (M : Machine σ α ε) : σ → List α → Prop
  | _, [] => True
  | s, a :: as => M.allowed s a ∧
    match M.step s a with
    | .ok s' => M.AllAllowed s' as
    | .error _ => False

instance Machine.decidableAllAllowed (M : Machine σ α ε) [∀ s a, Decidable (M.allowed s a)] :
    ∀ (s : σ) (as : List α), Decidable (M.AllAllowed s as)
  | _, [] => .isTrue trivial
  | s, a :: as =>
    have : Decidable (match M.step s a with
        | .ok s' => M.AllAllowed s' as
        | .error _ => False) :=
      match M.step s a with
      | .ok s' => M.decidableAllAllowed s' as
      | .error _ => .isFalse id
    inferInstanceAs (Decidable (_ ∧ _))

/-- A computed run whose labels meet the contract is a run. -/
theorem Machine.Run.of_exec {M : Machine σ α ε} (as : List α) :
    ∀ {tr tr' : Trace σ α} {s s' : σ}, M.Run tr s → M.AllAllowed s as →
      M.exec tr s as = .ok (tr', s') → M.Run tr' s' := by
  induction as with
  | nil =>
    intro tr tr' s s' hrun _ h
    simp only [exec, Except.ok.injEq, Prod.mk.injEq] at h
    obtain ⟨rfl, rfl⟩ := h
    exact hrun
  | cons a as ih =>
    intro tr tr' s s' hrun hall h
    obtain ⟨ha, hrest⟩ := hall
    simp only [exec] at h
    cases hs : M.step s a with
    | error e => simp [hs] at h
    | ok s₁ =>
      simp only [hs] at h hrest
      exact ih (hrun.next ha hs) hrest h

/-- A run goes on with a list of labels that meets the contract; `P` is
checked of the run it computes. -/
theorem Machine.Run.exists_extension {M : Machine σ α ε} {tr : Trace σ α} {s : σ}
    (h : M.Run tr s) (as : List α) (P : Trace σ α → σ → Bool) (hall : M.AllAllowed s as)
    (hP : (match M.exec tr s as with
      | .ok (tr', s') => P tr' s'
      | .error _ => false) = true) :
    ∃ tr' s', M.Run tr' s' ∧ P tr' s' = true := by
  cases hexec : M.exec tr s as with
  | error e => simp [hexec] at hP
  | ok r =>
    obtain ⟨tr', s'⟩ := r
    simp only [hexec] at hP
    exact ⟨tr', s', .of_exec as h hall hexec, hP⟩

/-- A list of labels that meets the contract is a run; `P` is checked of
the run it computes. -/
theorem Machine.exists_run_of_labels {M : Machine σ α ε} (as : List α)
    (P : Trace σ α → σ → Bool) (hall : M.AllAllowed M.init as)
    (hP : (match M.exec [] M.init as with
      | .ok (tr, s) => P tr s
      | .error _ => false) = true) :
    ∃ tr s, M.Run tr s ∧ P tr s = true :=
  Machine.Run.start.exists_extension as P hall hP

/-- The record of a computed run has the labels it was computed from. -/
theorem Machine.exec_labels {M : Machine σ α ε} {as : List α} :
    ∀ {tr tr' : Trace σ α} {s s' : σ}, M.exec tr s as = .ok (tr', s') →
      tr'.map (·.label) = as.reverse ++ tr.map (·.label) := by
  induction as with
  | nil =>
    intro tr tr' s s' h
    simp only [exec, Except.ok.injEq, Prod.mk.injEq] at h
    rw [h.1]
    rfl
  | cons a as ih =>
    intro tr tr' s s' h
    simp only [exec] at h
    cases hs : M.step s a with
    | error e => simp [hs] at h
    | ok s₁ =>
      simp only [hs] at h
      rw [ih h, List.reverse_cons, List.append_assoc]
      rfl

/-- As `exists_run_of_labels`, cut at the step of label `a`: `P` is checked
of the steps after it, of the step, and of the state at the end. -/
theorem Machine.exists_run_split {M : Machine σ α ε} (as : List α) (a : α) (bs : List α)
    (P : Trace σ α → Transition σ α → σ → Bool) (hall : M.AllAllowed M.init (as ++ a :: bs))
    (hP : (match M.exec [] M.init (as ++ a :: bs) with
      | .ok (tr, s) =>
        match tr.drop bs.length with
        | t :: _ => P (tr.take bs.length) t s
        | [] => false
      | .error _ => false) = true) :
    ∃ newer t older s, M.Run (newer ++ t :: older) s ∧ t.label = a ∧
      newer.map (·.label) = bs.reverse ∧ P newer t s = true := by
  cases h : M.exec [] M.init (as ++ a :: bs) with
  | error e => simp [h] at hP
  | ok r =>
    obtain ⟨tr, s⟩ := r
    simp only [h] at hP
    have hlabels := exec_labels h
    cases hdrop : tr.drop bs.length with
    | nil => simp [hdrop] at hP
    | cons t older =>
      simp only [hdrop] at hP
      have hsplit : tr.take bs.length ++ t :: older = tr := hdrop ▸ List.take_append_drop _ tr
      have hcut : (tr.take bs.length).map (·.label) ++ (t :: older).map (·.label) =
          bs.reverse ++ a :: as.reverse := by
        rw [← List.map_append, hsplit, hlabels]
        simp
      have hlen : bs.length ≤ tr.length := by
        have := congrArg List.length hlabels
        simp at this
        omega
      obtain ⟨hnewer, hrest⟩ := List.append_inj hcut (by simp [hlen])
      exact ⟨tr.take bs.length, t, older, s, hsplit.symm ▸ .of_exec _ .start hall h,
        (List.cons.inj hrest).1, hnewer, hP⟩

/-! ## Token accounting -/

/-- A token discipline for a machine: which step issues which token, and
which tokens a state holds. A token is issued once, is held from then on,
and comes to be held in no other way. -/
structure Accounting (M : Machine σ α ε) (τ : Type) where
  issued : Transition σ α → Option τ
  held : σ → τ → Prop
  /-- The runs the discipline is claimed for. -/
  within : Trace σ α → Prop
  within_tail : ∀ {t tr}, within (t :: tr) → within tr
  init_held : ∀ x, ¬ held M.init x
  held_step : ∀ {t tr s}, M.Run (t :: tr) s → within (t :: tr) →
    ∀ x, held t.post x → held t.pre x ∨ issued t = some x
  issued_held : ∀ {t tr s}, M.Run (t :: tr) s → within (t :: tr) →
    ∀ x, issued t = some x → held t.post x
  issued_new : ∀ {t tr s}, M.Run (t :: tr) s → within (t :: tr) →
    ∀ x, issued t = some x → ∀ u ∈ tr, issued u ≠ some x

namespace Accounting

variable {M : Machine σ α ε} {τ : Type} (A : Accounting M τ)

/-- A step gives a token up when it held it before and does not after. -/
def GivesUp (x : τ) (t : Transition σ α) : Prop := A.held t.pre x ∧ ¬ A.held t.post x

/-- The token was issued at some step of the record. -/
def Issued (tr : Trace σ α) (x : τ) : Prop := ∃ t ∈ tr, A.issued t = some x

/-- What is held was issued. -/
theorem held_issued {tr : Trace σ α} {s : σ} (h : M.Run tr s) (hw : A.within tr) {x : τ}
    (hx : A.held s x) : A.Issued tr x := by
  induction tr generalizing s with
  | nil => cases h; exact absurd hx (A.init_held x)
  | cons t tr ih =>
    obtain ⟨hrun, -, -, rfl⟩ := h.tail
    rcases A.held_step h hw x hx with hpre | hnew
    · obtain ⟨u, hu, hux⟩ := ih hrun (A.within_tail hw) hpre
      exact ⟨u, List.mem_cons_of_mem _ hu, hux⟩
    · exact ⟨t, List.mem_cons_self, hnew⟩

/-- A step that issues a token did not hold it before, nor did any older step. -/
theorem not_held_before_issue {t : Transition σ α} {tr : Trace σ α} {s : σ}
    (h : M.Run (t :: tr) s) (hw : A.within (t :: tr)) {x : τ} (hx : A.issued t = some x) :
    ¬ A.held t.pre x := by
  intro hheld
  obtain ⟨u, hu, hux⟩ := A.held_issued h.tail.1 (A.within_tail hw) hheld
  exact A.issued_new h hw x hx u hu hux

/-- No step gives up a token that was never issued. -/
theorem not_givesUp_of_not_issued {tr : Trace σ α} {s : σ} (h : M.Run tr s)
    (hw : A.within tr) {x : τ} (hx : ¬ A.Issued tr x) : ∀ t ∈ tr, ¬ A.GivesUp x t := by
  induction tr generalizing s with
  | nil => simp
  | cons u tr ih =>
    have hold : ¬ A.Issued tr x := fun ⟨v, hv, hvx⟩ => hx ⟨v, List.mem_cons_of_mem _ hv, hvx⟩
    intro t ht
    rcases List.mem_cons.mp ht with rfl | ht
    · exact fun hg => hold (A.held_issued h.tail.1 (A.within_tail hw) hg.1)
    · exact ih h.tail.1 (A.within_tail hw) hold t ht

/-- **Every issued token is accounted for.** It is held and no step gave
it up, or it is not held and exactly one step gave it up. -/
theorem issued_cases {tr : Trace σ α} {s : σ} (h : M.Run tr s) (hw : A.within tr) {x : τ}
    (hx : A.Issued tr x) :
    (A.held s x ∧ ∀ t ∈ tr, ¬ A.GivesUp x t) ∨
    (¬ A.held s x ∧ ∃ newer t older, tr = newer ++ t :: older ∧ A.GivesUp x t ∧
      (∀ u ∈ newer, ¬ A.GivesUp x u) ∧ ∀ u ∈ older, ¬ A.GivesUp x u) := by
  induction tr generalizing s with
  | nil => obtain ⟨t, ht, -⟩ := hx; simp at ht
  | cons u tr ih =>
    obtain ⟨hrun, -, -, rfl⟩ := h.tail
    have hw' := A.within_tail hw
    by_cases hnew : A.issued u = some x
    · -- issued just now: held, and the older steps cannot have given it up
      have hold : ¬ A.Issued tr x := fun ⟨v, hv, hvx⟩ => A.issued_new h hw x hnew v hv hvx
      refine Or.inl ⟨A.issued_held h hw x hnew, fun t ht => ?_⟩
      rcases List.mem_cons.mp ht with rfl | ht
      · exact fun hg => A.not_held_before_issue h hw hnew hg.1
      · exact A.not_givesUp_of_not_issued hrun hw' hold t ht
    · have hx' : A.Issued tr x := by
        obtain ⟨t, ht, htx⟩ := hx
        rcases List.mem_cons.mp ht with rfl | ht
        · exact absurd htx hnew
        · exact ⟨t, ht, htx⟩
      rcases ih hrun hw' hx' with ⟨hheld, hnone⟩ | ⟨hgone, newer, t, older, rfl, hg, hn, ho⟩
      · by_cases hpost : A.held u.post x
        · refine Or.inl ⟨hpost, fun t ht => ?_⟩
          rcases List.mem_cons.mp ht with rfl | ht
          · exact fun hg => hg.2 hpost
          · exact hnone t ht
        · exact Or.inr ⟨hpost, [], u, tr, rfl, ⟨hheld, hpost⟩, by simp, hnone⟩
      · have hpost : ¬ A.held u.post x := fun hp => by
          rcases A.held_step h hw x hp with hpre | hi
          · exact hgone hpre
          · exact hnew hi
        refine Or.inr ⟨hpost, u :: newer, t, older, rfl, hg, fun v hv => ?_, ho⟩
        rcases List.mem_cons.mp hv with rfl | hv
        · exact fun hg' => hgone hg'.1
        · exact hn v hv

/-- A token that was issued and is no longer held is not held again. -/
theorem gone_stays_gone {newer older : Trace σ α} {s s' : σ} (h : M.Run older s)
    (h' : M.Run (newer ++ older) s') (hw : A.within (newer ++ older)) {x : τ}
    (hx : A.Issued older x) (hgone : ¬ A.held s x) : ¬ A.held s' x := by
  induction newer generalizing s' with
  | nil =>
    cases older with
    | nil => obtain ⟨t, ht, -⟩ := hx; simp at ht
    | cons t older =>
      obtain ⟨-, -, -, rfl⟩ := h.tail
      obtain ⟨-, -, -, rfl⟩ := h'.tail
      exact hgone
  | cons u newer ih =>
    obtain ⟨hrun, -, -, rfl⟩ := h'.tail
    intro hheld
    rcases A.held_step h' hw x hheld with hpre | hi
    · exact ih hrun (A.within_tail hw) hpre
    · obtain ⟨t, ht, htx⟩ := hx
      exact A.issued_new h' hw x hi t (List.mem_append_right _ ht) htx

/-- Where a step marked by `P` leaves an issued token unheld, it is not
held in any later state. -/
theorem not_held_after {tr : Trace σ α} {s : σ} (h : M.Run tr s) (hw : A.within tr) {x : τ}
    {P : Transition σ α → Prop}
    (hP : ∀ {t older}, t :: older <:+ tr → P t → A.Issued older x ∧ ¬ A.held t.post x)
    {u : Transition σ α} (hu : u ∈ tr) (hPu : P u) : ¬ A.held s x := by
  obtain ⟨newer, older, rfl⟩ := List.append_of_mem hu
  obtain ⟨⟨v, hv, hvx⟩, hgone⟩ := hP (List.suffix_append _ _) hPu
  exact A.gone_stays_gone (h.of_suffix (List.suffix_append _ _)) h hw
    ⟨v, List.mem_cons_of_mem _ hv, hvx⟩ hgone

/-- **Order of steps**: no step that needs the token comes after one that
leaves it unheld. -/
theorem pairwise_not_after {tr : Trace σ α} {s : σ} (h : M.Run tr s) (hw : A.within tr) {x : τ}
    {P Q : Transition σ α → Prop}
    (hP : ∀ {t older}, t :: older <:+ tr → P t → A.Issued older x ∧ ¬ A.held t.post x)
    (hQ : ∀ {t older}, t :: older <:+ tr → Q t → A.held t.pre x) :
    tr.Pairwise fun t u => Q t → ¬ P u := by
  induction tr generalizing s with
  | nil => exact .nil
  | cons t tr ih =>
    have hlift : ∀ {l : Trace σ α}, l <:+ tr → l <:+ t :: tr := fun hs =>
      hs.trans (List.suffix_cons t tr)
    refine .cons (fun u hu hQt hPu => ?_)
      (ih h.tail.1 (A.within_tail hw) (fun hs => hP (hlift hs)) fun hs => hQ (hlift hs))
    exact A.not_held_after h.tail.1 (A.within_tail hw) (fun hs => hP (hlift hs)) hu hPu
      (hQ List.suffix_rfl hQt)

end Accounting

end FileSharing.Lib
