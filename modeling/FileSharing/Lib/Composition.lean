/-
FileSharing.Lib.Composition — machines around a medium.

A family of machines, each of which takes its own steps, and a medium
between them that has a state of its own. The medium restricts what the
machines may be presented with (a message arrives only when it was sent),
and its own steps may look at all of them. Any order of steps is a run.

In every run each machine of the family makes a run of its own
(`composedDrives`), so what was proved of it alone holds in the composition;
and each of its steps is a step of the whole (`node_of_mem`).
-/
import Mathlib.Logic.Function.Basic
import FileSharing.Lib.Simulation

namespace FileSharing.Lib

variable {ι σ α μ β ε : Type}

/-- The states of the machines, and that of the medium. -/
structure Composed (ι σ μ : Type) where
  nodes : ι → σ
  medium : μ

inductive ComposedLabel (ι α β : Type) where
  | node (i : ι) (a : α)
  | medium (b : β)

/-- What is between the machines. -/
structure Medium (ι σ α μ β : Type) where
  init : μ
  /-- What it lets a machine be presented with. -/
  admits : Composed ι σ μ → ι → α → Prop
  allowed : Composed ι σ μ → β → Prop
  step : Composed ι σ μ → β → μ

/-- One step. -/
def Composed.step [DecidableEq ι] (M : ι → Machine σ α ε) (K : Medium ι σ α μ β)
    (s : Composed ι σ μ) : ComposedLabel ι α β → Except ε (Composed ι σ μ)
  | .node i a =>
    match (M i).step (s.nodes i) a with
    | .ok x => .ok { s with nodes := Function.update s.nodes i x }
    | .error e => .error e
  | .medium b => .ok { s with medium := K.step s b }

/-- When each step may be taken. -/
def Composed.Allowed (M : ι → Machine σ α ε) (K : Medium ι σ α μ β) (s : Composed ι σ μ) :
    ComposedLabel ι α β → Prop
  | .node i a => (M i).allowed (s.nodes i) a ∧ K.admits s i a
  | .medium b => K.allowed s b

/-- The whole as a machine. -/
def composed [DecidableEq ι] (M : ι → Machine σ α ε) (K : Medium ι σ α μ β) :
    Machine (Composed ι σ μ) (ComposedLabel ι α β) ε where
  init := ⟨fun i => (M i).init, K.init⟩
  allowed := Composed.Allowed M K
  step := Composed.step M K

instance [DecidableEq ι] (M : ι → Machine σ α ε) (K : Medium ι σ α μ β)
    [∀ i x a, Decidable ((M i).allowed x a)] [∀ s i a, Decidable (K.admits s i a)]
    [∀ s b, Decidable (K.allowed s b)] (s : Composed ι σ μ) :
    ∀ a, Decidable ((composed M K).allowed s a)
  | .node i a => inferInstanceAs (Decidable ((M i).allowed (s.nodes i) a ∧ K.admits s i a))
  | .medium b => inferInstanceAs (Decidable (K.allowed s b))

variable [DecidableEq ι] {M : ι → Machine σ α ε} {K : Medium ι σ α μ β}

/-- What each step does. -/
inductive ComposedStepped (M : ι → Machine σ α ε) (K : Medium ι σ α μ β) (s : Composed ι σ μ) :
    ComposedLabel ι α β → Composed ι σ μ → Prop where
  | node (i : ι) (a : α) (x : σ) : (M i).allowed (s.nodes i) a → K.admits s i a →
      (M i).step (s.nodes i) a = .ok x →
      ComposedStepped M K s (.node i a) { s with nodes := Function.update s.nodes i x }
  | medium (b : β) : K.allowed s b →
      ComposedStepped M K s (.medium b) { s with medium := K.step s b }

theorem Composed.step_stepped {s s' : Composed ι σ μ} {a : ComposedLabel ι α β}
    (ha : s.Allowed M K a) (h : s.step M K a = .ok s') : ComposedStepped M K s a s' := by
  cases a with
  | node i a =>
    simp only [step] at h
    cases hx : (M i).step (s.nodes i) a with
    | error e => simp [hx] at h
    | ok x =>
      simp only [hx, Except.ok.injEq] at h
      exact h ▸ .node i a x ha.1 ha.2 hx
  | medium b =>
    obtain rfl := Except.ok.inj h
    exact .medium b ha

theorem run_composedStepped {t : Transition (Composed ι σ μ) (ComposedLabel ι α β)}
    {tr : Trace (Composed ι σ μ) (ComposedLabel ι α β)} {s : Composed ι σ μ}
    (h : (composed M K).Run (t :: tr) s) : ComposedStepped M K t.pre t.label t.post := by
  obtain ⟨-, ha, hok, -⟩ := h.tail
  exact Composed.step_stepped ha hok

/-! ## The machines of the family -/

/-- The steps of one machine that a step is. -/
def nodeSteps (i : ι) (t : Transition (Composed ι σ μ) (ComposedLabel ι α β)) : Trace σ α :=
  match t.label with
  | .node j a => if j = i then [⟨t.pre.nodes i, a, t.post.nodes i⟩] else []
  | .medium _ => []

theorem nodeSteps_steps {t : Transition (Composed ι σ μ) (ComposedLabel ι α β)}
    (h : ComposedStepped M K t.pre t.label t.post) (i : ι) :
    (M i).Steps (t.pre.nodes i) (nodeSteps i t) (t.post.nodes i) := by
  obtain ⟨s, label, s'⟩ := t
  unfold nodeSteps
  dsimp only at h ⊢
  cases h with
  | medium b _ => exact .nil
  | node j a x ha _ hok =>
    dsimp only
    by_cases hj : j = i
    · subst hj
      rw [if_pos rfl, Function.update_self]
      exact .single ha hok
    · rw [if_neg hj, Function.update_of_ne (Ne.symm hj)]
      exact .nil

theorem composed_init_run (i : ι) : (M i).Run [] ((composed M K).init.nodes i) := .start

/-- **Each machine makes a run of its own.** -/
def composedDrives (M : ι → Machine σ α ε) (K : Medium ι σ α μ β) (i : ι) :
    Drives (composed M K) (M i) :=
  .always (fun s => s.nodes i) (nodeSteps i) [] (composed_init_run i) fun h =>
    nodeSteps_steps (run_composedStepped h) i

variable {i : ι}

theorem composedDrives_part (tr : Trace (Composed ι σ μ) (ComposedLabel ι α β)) :
    (composedDrives M K i).part tr = tr.flatMap (nodeSteps i) := by
  simp [composedDrives, Drives.always, Drives.part]

/-- A step of the machine is a step of the whole. -/
theorem node_of_mem {t : Transition (Composed ι σ μ) (ComposedLabel ι α β)} {x : Transition σ α}
    (h : x ∈ nodeSteps i t) :
    t.label = .node i x.label ∧ t.pre.nodes i = x.pre := by
  unfold nodeSteps at h
  split at h
  · rename_i j a hlabel
    split at h
    · rename_i hj
      subst hj
      obtain rfl := List.mem_singleton.mp h
      exact ⟨hlabel, rfl⟩
    · cases h
  · cases h

end FileSharing.Lib
