/-
FileSharing.Lib.Simulation — one machine inside another.

A program is modelled in layers, and the machine of an outer layer drives
the machine of an inner one: each of its steps is some steps, none, one or
several, of the inner machine. A `Drives` says what the outer state shows
of the inner one and which steps of it a step is, and that these meet the
inner contract and lead where the view says. So the record of every run of
the outer machine has the record of a run of the inner one in it
(`Drives.run`), and what was proved of the inner runs holds inside the
outer ones.

The inner machine may have taken steps before the outer one began. A
machine inside a machine inside a third is inside the third
(`Drives.trans`).
-/
import FileSharing.Lib.Transition

namespace FileSharing.Lib

variable {σ τ υ α β γ ε ε' ε'' : Type}

/-! ## Several steps -/

/-- Allowed steps, the newest first, lead from one state to another. -/
inductive Machine.Steps (N : Machine τ β ε) (x : τ) : Trace τ β → τ → Prop where
  | nil : N.Steps x [] x
  | cons {tr : Trace τ β} {y z : τ} {b : β} :
      N.Steps x tr y → N.allowed y b → N.step y b = .ok z → N.Steps x (⟨y, b, z⟩ :: tr) z

namespace Machine

variable {N : Machine τ β ε} {x y z : τ} {tr newer older : Trace τ β}

theorem Steps.single {b : β} (ha : N.allowed x b) (h : N.step x b = .ok y) :
    N.Steps x [⟨x, b, y⟩] y :=
  .cons .nil ha h

theorem Steps.append (h : N.Steps x older y) (h' : N.Steps y newer z) :
    N.Steps x (newer ++ older) z := by
  induction h' with
  | nil => exact h
  | cons _ ha hok ih => exact .cons ih ha hok

/-- A run goes on with several steps. -/
theorem Run.append_steps (h : N.Run older x) (h' : N.Steps x newer y) :
    N.Run (newer ++ older) y := by
  induction h' with
  | nil => exact h
  | cons _ ha hok ih => exact .next ih ha hok

end Machine

/-! ## Machines that drive machines -/

/-- The machine `N` as a part of the machine `M`. -/
structure Drives (M : Machine σ α ε) (N : Machine τ β ε') where
  /-- What a state of the outer machine shows of the inner one. -/
  view : σ → τ
  /-- The steps of the inner machine that a step is, newest first. -/
  shows : Transition σ α → Trace τ β
  /-- The runs this is claimed for. -/
  within : Trace σ α → Prop
  within_tail : ∀ {t tr}, within (t :: tr) → within tr
  /-- What the inner machine did before. -/
  before : Trace τ β
  before_run : N.Run before (view M.init)
  steps : ∀ {t tr s}, M.Run (t :: tr) s → within (t :: tr) →
    N.Steps (view t.pre) (shows t) (view t.post)

namespace Drives

variable {M : Machine σ α ε} {N : Machine τ β ε'} {O : Machine υ γ ε''} {tr : Trace σ α} {s : σ}

/-- A `Drives` for every run. -/
def always (view : σ → τ) (shows : Transition σ α → Trace τ β) (before : Trace τ β)
    (hbefore : N.Run before (view M.init))
    (hsteps : ∀ {t tr s}, M.Run (t :: tr) s → N.Steps (view t.pre) (shows t) (view t.post)) :
    Drives M N where
  view := view
  shows := shows
  within _ := True
  within_tail := id
  before := before
  before_run := hbefore
  steps h _ := hsteps h

/-- The inner steps of a record. -/
def part (D : Drives M N) (tr : Trace σ α) : Trace τ β := tr.flatMap D.shows ++ D.before

theorem part_cons (D : Drives M N) (t : Transition σ α) (tr : Trace σ α) :
    D.part (t :: tr) = D.shows t ++ D.part tr := by
  simp [part]

/-- Where an inner step is in the record: in a step of the outer machine, with
the older part of that step and the older inner record before it, or before
the outer machine began. -/
theorem part_suffix (D : Drives M N) {x : Transition τ β} {older : Trace τ β}
    (h : x :: older <:+ D.part tr) :
    (∃ newer t before a b, tr = newer ++ t :: before ∧ D.shows t = a ++ x :: b ∧
      older = b ++ D.part before) ∨ x :: older <:+ D.before := by
  induction tr with
  | nil => exact .inr h
  | cons t tr ih =>
    obtain ⟨front, hfront⟩ := h
    rw [part_cons] at hfront
    rcases List.append_eq_append_iff.mp hfront with ⟨b, hshows, hrest⟩ | ⟨c, -, hrest⟩
    · cases b with
      | nil =>
        rcases ih ⟨[], hrest⟩ with ⟨newer, u, before, a, b, rfl, hu, hb⟩ | hbefore
        · exact .inl ⟨t :: newer, u, before, a, b, rfl, hu, hb⟩
        · exact .inr hbefore
      | cons y b =>
        obtain ⟨rfl, hb⟩ := List.cons.inj hrest
        exact .inl ⟨[], t, tr, front, b, rfl, hshows, hb⟩
    · rcases ih ⟨c, hrest.symm⟩ with ⟨newer, u, before, a, b, rfl, hu, hb⟩ | hbefore
      · exact .inl ⟨t :: newer, u, before, a, b, rfl, hu, hb⟩
      · exact .inr hbefore

/-- **Every run has a run of its part in it.** -/
theorem run (D : Drives M N) (h : M.Run tr s) (hw : D.within tr) :
    N.Run (D.part tr) (D.view s) := by
  induction tr generalizing s with
  | nil =>
    cases h
    exact D.before_run
  | cons t tr ih =>
    obtain ⟨hrun, -, -, rfl⟩ := h.tail
    rw [part_cons]
    exact (ih hrun (D.within_tail hw)).append_steps (D.steps h hw)

/-- Several inner steps are several steps of what is inside the inner
machine. -/
theorem steps_of_steps (E : Drives N O) {older newer : Trace τ β} {x y : τ}
    (hrun : N.Run older x) (h : N.Steps x newer y) (hw : E.within (newer ++ older)) :
    O.Steps (E.view x) (newer.flatMap E.shows) (E.view y) := by
  induction h with
  | nil => exact .nil
  | @cons newer y z b hs ha hok ih =>
    have hstep := E.steps (.next (hrun.append_steps hs) ha hok) hw
    exact (ih (E.within_tail hw)).append hstep

theorem within_of_append (E : Drives N O) {newer older : Trace τ β}
    (hw : E.within (newer ++ older)) : E.within older := by
  induction newer with
  | nil => exact hw
  | cons t newer ih => exact ih (E.within_tail hw)

/-- **A part of a part is a part.** -/
def trans (D : Drives M N) (E : Drives N O) (hbefore : E.within D.before) : Drives M O where
  view := fun s => E.view (D.view s)
  shows := fun t => (D.shows t).flatMap E.shows
  within := fun tr => D.within tr ∧ E.within (D.part tr)
  within_tail := by
    intro t tr hw
    rw [D.part_cons] at hw
    exact ⟨D.within_tail hw.1, E.within_of_append hw.2⟩
  before := E.part D.before
  before_run := E.run D.before_run hbefore
  steps := by
    intro t tr s h hw
    rw [D.part_cons] at hw
    exact E.steps_of_steps (D.run h.tail.1 (D.within_tail hw.1)) (D.steps h hw.1) hw.2

theorem part_trans (D : Drives M N) (E : Drives N O) (hbefore : E.within D.before)
    (tr : Trace σ α) : (D.trans E hbefore).part tr = E.part (D.part tr) := by
  induction tr with
  | nil => simp [part, trans]
  | cons t tr ih =>
    rw [part_cons, part_cons, ih]
    simp [part, trans]

end Drives

end FileSharing.Lib
