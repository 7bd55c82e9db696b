/-
FileSharing.Lib.LexicalPath — Unix paths as byte strings: joining, and
lexical resolution of `.` and `..`.

A path is the bytes it is made of. `push` joins as `PathBuf::push` does: an
absolute argument REPLACES the base, a relative one is appended after a
separator. `resolve` reads a path from left to right and lets every `..`
take back the name before it; what cannot be taken back is a climb above
the start (or nothing, at the root). No file system is asked.

The main result is `inside_push_iff`: when the joined path lies inside the
base, said about base and argument alone. It rests on
`resolveFrom_normalForm`: a relative path acts on wherever one is as its
own normal form does, so many steps up and then a list of names.
-/
import Mathlib.Data.List.Basic
import Mathlib.Data.List.Induction

namespace FileSharing.Lib

/-! ## Components and lexical resolution -/

variable {ν : Type}

/-- One component of a path that lexical resolution looks at. -/
inductive Component (ν : Type) where
  | parent
  | name (n : ν)

/-- A resolved path: from the root or from the working directory, so many
steps up, then these names. -/
structure Resolved (ν : Type) where
  absolute : Bool
  ups : Nat
  names : List ν
  deriving DecidableEq

namespace Resolved

/-- The working directory. -/
def here : Resolved ν := ⟨false, 0, []⟩

/-- Follow one component. At the root `..` stays at the root. -/
def step (p : Resolved ν) : Component ν → Resolved ν
  | .name n => { p with names := p.names ++ [n] }
  | .parent =>
    if p.names.isEmpty then
      if p.absolute then p else { p with ups := p.ups + 1 }
    else { p with names := p.names.dropLast }

/-- Go `k` steps up. -/
def up (p : Resolved ν) (k : Nat) : Resolved ν where
  absolute := p.absolute
  ups := if p.absolute then p.ups else p.ups + (k - p.names.length)
  names := p.names.take (p.names.length - k)

/-- Go down into the names. -/
def down (p : Resolved ν) (ns : List ν) : Resolved ν := { p with names := p.names ++ ns }

/-- `p` is `d` or lies below it, as far as the names tell. -/
def Inside (d p : Resolved ν) : Prop :=
  p.absolute = d.absolute ∧ p.ups = d.ups ∧ d.names.IsPrefix p.names

theorem up_zero (p : Resolved ν) : p.up 0 = p := by
  unfold up
  simp

theorem down_nil (p : Resolved ν) : p.down [] = p := by
  unfold down
  simp

/-- One more step up. -/
theorem up_step_parent (p : Resolved ν) (k : Nat) : (p.up k).step .parent = p.up (k + 1) := by
  unfold step up
  by_cases hk : k < p.names.length
  · have hne : p.names.take (p.names.length - k) ≠ [] := by
      intro h
      have := congrArg List.length h
      simp only [List.length_take, List.length_nil] at this
      omega
    have htake : (p.names.take (p.names.length - k)).dropLast =
        p.names.take (p.names.length - (k + 1)) := by
      rw [List.dropLast_eq_take, List.length_take, List.take_take]
      congr 1
      omega
    have h₁ : k - p.names.length = 0 := by omega
    have h₂ : k + 1 - p.names.length = 0 := by omega
    simp [hne, htake, h₁, h₂]
  · have h₁ : p.names.length - k = 0 := by omega
    have h₂ : p.names.length - (k + 1) = 0 := by omega
    have h₃ : k + 1 - p.names.length = k - p.names.length + 1 := by omega
    cases hp : p.absolute <;> simp [h₁, h₂, h₃, Nat.add_assoc]

/-- A step up takes back the last name gone down into. -/
theorem down_step_parent (p : Resolved ν) {ns : List ν} (h : ns ≠ []) :
    (p.down ns).step .parent = p.down ns.dropLast := by
  unfold step down
  simp [h, List.dropLast_append_of_ne_nil]

theorem down_step_name (p : Resolved ν) (ns : List ν) (n : ν) :
    (p.down ns).step (.name n) = p.down (ns ++ [n]) := by
  unfold step down
  simp

/-- **A relative path acts as its normal form**: wherever one starts, so
many steps up and then these names. -/
theorem resolveFrom_normalForm (p : Resolved ν) (cs : List (Component ν)) :
    cs.foldl step p = (p.up (cs.foldl step here).ups).down (cs.foldl step here).names := by
  induction cs using List.reverseRecOn with
  | nil => simp [here, up_zero, down_nil]
  | append_singleton cs c ih =>
    rw [List.foldl_append, List.foldl_append, ih]
    have habs : (cs.foldl step here).absolute = false := by
      -- no component makes a path absolute
      have hkeep : ∀ (q : Resolved ν) (c : Component ν), (q.step c).absolute = q.absolute := by
        intro q c
        cases c with
        | name n => rfl
        | parent =>
          unfold step
          dsimp only
          split
          · split <;> rfl
          · rfl
      have hfold : ∀ (q : Resolved ν), (cs.foldl step q).absolute = q.absolute := by
        clear ih
        induction cs with
        | nil => exact fun _ => rfl
        | cons c cs ih' => exact fun q => (ih' (q.step c)).trans (hkeep q c)
      exact hfold here
    cases c with
    | name n =>
      simp only [List.foldl_cons, List.foldl_nil, down_step_name]
      rfl
    | parent =>
      simp only [List.foldl_cons, List.foldl_nil]
      by_cases hns : (cs.foldl step here).names = []
      · rw [hns, down_nil, up_step_parent]
        simp [step, hns, habs, down_nil]
      · rw [down_step_parent _ hns]
        simp [step, hns]

/-- Up and down again stays inside exactly if one does not climb above the
start and comes back through the names one left. -/
theorem inside_up_down_iff (d : Resolved ν) (k : Nat) (ns : List ν) :
    Inside d ((d.up k).down ns) ↔
      (d.absolute = true ∨ k ≤ d.names.length) ∧
      (d.names.drop (d.names.length - k)).IsPrefix ns := by
  have hnames : d.names.IsPrefix (d.names.take (d.names.length - k) ++ ns) ↔
      (d.names.drop (d.names.length - k)).IsPrefix ns := by
    have h : (d.names.take (d.names.length - k) ++ d.names.drop (d.names.length - k)).IsPrefix
        (d.names.take (d.names.length - k) ++ ns) ↔
        (d.names.drop (d.names.length - k)).IsPrefix ns := List.prefix_append_right_inj _
    rwa [List.take_append_drop] at h
  have hups : (if d.absolute then d.ups else d.ups + (k - d.names.length)) = d.ups ↔
      (d.absolute = true ∨ k ≤ d.names.length) := by
    cases d.absolute with
    | true => simp
    | false =>
      simp only [Bool.false_eq_true, if_false, false_or]
      omega
  unfold Inside down up
  simp only [true_and, hnames, hups]

end Resolved

/-! ## Byte strings -/

/-- A path, as its bytes. -/
abbrev Path : Type := List UInt8

namespace Path

/-- `'/'`. -/
def slash : UInt8 := 47

/-- `'.'`. -/
def dot : UInt8 := 46

/-- The path starts with a slash. -/
def isAbsolute (p : Path) : Bool := p.head? = some slash

/-- `PathBuf::push`, and `Path::join`. -/
def push (base path : Path) : Path :=
  if isAbsolute path then path
  else if base = [] ∨ base.getLast? = some slash then base ++ path
  else base ++ slash :: path

/-- The parts between the slashes, empty ones included. -/
def segments : Path → List (List UInt8)
  | [] => [[]]
  | b :: rest =>
    if b = slash then [] :: segments rest
    else
      match segments rest with
      | [] => [[b]]
      | seg :: segs => (b :: seg) :: segs

/-- The component a part stands for; empty parts and `.` stand for none. -/
def component (seg : List UInt8) : Option (Component (List UInt8)) :=
  if seg = [] ∨ seg = [dot] then none
  else if seg = [dot, dot] then some .parent
  else some (.name seg)

/-- The components of a path. -/
def components (p : Path) : List (Component (List UInt8)) := (segments p).filterMap component

/-- Lexical resolution. -/
def resolve (p : Path) : Resolved (List UInt8) :=
  (components p).foldl Resolved.step ⟨isAbsolute p, 0, []⟩

theorem segments_ne_nil (p : Path) : segments p ≠ [] := by
  cases p with
  | nil => simp [segments]
  | cons b rest =>
    unfold segments
    split
    · simp
    · split <;> simp

/-- A slash separates. -/
theorem segments_append (p q : Path) : segments (p ++ slash :: q) = segments p ++ segments q := by
  induction p with
  | nil => simp [segments]
  | cons b rest ih =>
    simp only [List.cons_append, segments, ih]
    split
    · rfl
    · cases h : segments rest with
      | nil => exact absurd h (segments_ne_nil rest)
      | cons seg segs => rfl

theorem components_append (p q : Path) :
    components (p ++ slash :: q) = components p ++ components q := by
  simp [components, segments_append]

/-- Joining a relative path appends its components. -/
theorem components_push (base path : Path) (h : isAbsolute path = false) :
    components (push base path) = components base ++ components path := by
  unfold push
  rw [h]
  simp only [Bool.false_eq_true, if_false]
  split
  · rename_i hbase
    rcases hbase with rfl | hlast
    · rfl
    · -- a base that ends in a slash has an empty last part
      obtain ⟨init, rfl⟩ : ∃ init, base = init ++ [slash] := by
        rw [List.getLast?_eq_some_iff] at hlast
        exact hlast
      rw [List.append_assoc, List.singleton_append, components_append, components_append]
      have hnil : components [] = [] := rfl
      rw [hnil, List.append_nil]
  · exact components_append base path

theorem isAbsolute_push (base path : Path) (h : isAbsolute path = false) :
    isAbsolute (push base path) = isAbsolute base := by
  unfold push
  rw [h]
  simp only [Bool.false_eq_true, if_false]
  cases base with
  | nil => simpa [isAbsolute] using h
  | cons b rest => split <;> simp [isAbsolute]

/-- Resolving a joined path goes on from the resolved base. -/
theorem resolve_push (base path : Path) (h : isAbsolute path = false) :
    resolve (push base path) =
      ((resolve base).up (resolve path).ups).down (resolve path).names := by
  have hfrom : resolve (push base path) = (components path).foldl Resolved.step (resolve base) := by
    unfold resolve
    rw [isAbsolute_push base path h, components_push base path h, List.foldl_append]
  have hpath : resolve path = (components path).foldl Resolved.step Resolved.here := by
    unfold resolve
    rw [h]
    rfl
  rw [hfrom, hpath]
  exact Resolved.resolveFrom_normalForm _ _

theorem segments_of_no_slash {seg : List UInt8} (h : slash ∉ seg) : segments seg = [seg] := by
  induction seg with
  | nil => rfl
  | cons b rest ih =>
    have hb : b ≠ slash := fun heq => h (heq ▸ List.mem_cons_self)
    have hrest := ih fun hmem => h (List.mem_cons_of_mem b hmem)
    rw [segments, if_neg hb, hrest]

/-- A part without a slash is all of its path. -/
theorem components_of_no_slash {seg : List UInt8} (h : slash ∉ seg) :
    components seg = (component seg).toList := by
  rw [components, segments_of_no_slash h]
  cases hseg : component seg with
  | none => rw [List.filterMap_cons_none hseg, List.filterMap_nil, Option.toList_none]
  | some c => rw [List.filterMap_cons_some hseg, List.filterMap_nil, Option.toList_some]

theorem isAbsolute_of_no_slash {seg : List UInt8} (h : slash ∉ seg) : isAbsolute seg = false := by
  cases seg with
  | nil => rfl
  | cons b rest =>
    have hb : b ≠ slash := fun heq => h (heq ▸ List.mem_cons_self)
    simpa [isAbsolute] using hb

/-- Joining one part is one step of the resolution. -/
theorem resolve_push_of_no_slash (base : Path) {seg : List UInt8} (h : slash ∉ seg) :
    resolve (push base seg) = (component seg).elim (resolve base) (resolve base).step := by
  have habs := isAbsolute_of_no_slash h
  unfold resolve
  rw [isAbsolute_push base seg habs, components_push base seg habs, List.foldl_append,
    components_of_no_slash h]
  cases component seg <;> rfl

/-- A part leads to an entry of the base exactly if it is the entry's
name. -/
theorem resolve_push_eq_down_iff (base : Path) {seg name : List UInt8} (h : slash ∉ seg)
    (hname : component name = some (.name name)) :
    resolve (push base seg) = (resolve base).down [name] ↔ seg = name := by
  rw [resolve_push_of_no_slash base h]
  constructor
  · intro heq
    have hlength := congrArg (fun p => p.names.length) heq
    cases hseg : component seg with
    | none =>
      rw [hseg] at hlength
      simp [Resolved.down] at hlength
    | some c =>
      rw [hseg] at hlength heq
      cases c with
      | parent =>
        -- a step up makes the list of names no longer
        simp only [Option.elim_some, Resolved.step, Resolved.down, List.length_append,
          List.length_singleton] at hlength
        split at hlength
        · split at hlength <;> simp at hlength
        · simp only [List.length_dropLast] at hlength
          omega
      | name k =>
        have hk : k = seg := by
          unfold component at hseg
          split at hseg
          · cases hseg
          · split at hseg
            · cases hseg
            · exact (Component.name.inj (Option.some.inj hseg)).symm
        subst hk
        have hnames := congrArg Resolved.names heq
        exact List.singleton_inj.mp (List.append_cancel_left hnames)
  · rintro rfl
    rw [hname]
    rfl

/-- The place a part leads to. -/
def follow (p : Resolved (List UInt8)) (seg : List UInt8) : Resolved (List UInt8) :=
  (component seg).elim p p.step

/-- The places in which these parts are looked up, one after the other. -/
def placesFrom (p : Resolved (List UInt8)) : List (List UInt8) → List (Resolved (List UInt8))
  | [] => []
  | seg :: segs => p :: placesFrom (follow p seg) segs

/-- The places in which the parts of a path are looked up. After a slash at
its end that is also where it leads to. -/
def placesOf (p : Path) : List (Resolved (List UInt8)) :=
  placesFrom ⟨isAbsolute p, 0, []⟩ (segments p)

theorem placesFrom_append (p : Resolved (List UInt8)) (segs : List (List UInt8))
    (seg : List UInt8) :
    placesFrom p (segs ++ [seg]) = placesFrom p segs ++ [segs.foldl follow p] := by
  induction segs generalizing p with
  | nil => rfl
  | cons s segs ih => simp [placesFrom, ih]

theorem foldl_follow (p : Resolved (List UInt8)) (segs : List (List UInt8)) :
    segs.foldl follow p = (segs.filterMap component).foldl Resolved.step p := by
  rw [List.foldl_filterMap]
  congr 1
  funext q seg
  unfold follow
  cases component seg <;> rfl

/-- One part more is looked up where the base leads to. -/
theorem mem_placesOf_push {base : Path} {seg : List UInt8} (h : slash ∉ seg)
    {place : Resolved (List UInt8)} (hplace : place ∈ placesOf (push base seg)) :
    place ∈ placesOf base ∨ place = resolve base := by
  have habs := isAbsolute_of_no_slash h
  unfold placesOf at hplace ⊢
  rw [isAbsolute_push base seg habs] at hplace
  unfold push at hplace
  rw [habs] at hplace
  simp only [Bool.false_eq_true, if_false] at hplace
  split at hplace
  · rename_i hbase
    rcases hbase with rfl | hlast
    · rw [List.nil_append, segments_of_no_slash h] at hplace
      exact .inr (List.mem_singleton.mp hplace)
    · -- the base has an empty last part, and the new part is looked up in its place
      obtain ⟨init, rfl⟩ := List.getLast?_eq_some_iff.mp hlast
      have hempty : segments (init ++ [slash]) = segments init ++ [[]] := segments_append init []
      rw [List.append_assoc, List.singleton_append, segments_append, segments_of_no_slash h,
        placesFrom_append, ← placesFrom_append _ _ [], ← hempty] at hplace
      exact .inl hplace
  · rw [segments_append, segments_of_no_slash h, placesFrom_append, foldl_follow] at hplace
    exact (List.mem_append.mp hplace).imp_right List.mem_singleton.mp

/-- The argument stays inside the base. A relative one may climb inside the
base, above it only if it comes back through the same names, and above a
relative base not at all; an absolute one has to name the base itself. -/
def StaysInside (base path : Path) : Prop :=
  if isAbsolute path then (resolve base).Inside (resolve path)
  else
    ((resolve base).absolute = true ∨ (resolve path).ups ≤ (resolve base).names.length) ∧
    ((resolve base).names.drop ((resolve base).names.length - (resolve path).ups)).IsPrefix
      (resolve path).names

/-- **When a joined path lies inside the base.** -/
theorem inside_push_iff (base path : Path) :
    (resolve base).Inside (resolve (push base path)) ↔ StaysInside base path := by
  unfold StaysInside
  split
  · rename_i h
    rw [push, if_pos h]
  · rename_i h
    rw [resolve_push base path (by simpa using h)]
    exact Resolved.inside_up_down_iff _ _ _

end Path

end FileSharing.Lib
