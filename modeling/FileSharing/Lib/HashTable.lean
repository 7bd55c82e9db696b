/-
FileSharing.Lib.HashTable — finite maps and sets as a program keeps them
in hash tables, over arbitrary key and value types.

A `HashMap` is Mathlib's `AList`: an association list that carries the
proof that its keys are distinct, so a table with a doubled key cannot be
built. A `HashSet` is a map to `Unit`, as it is in Rust. What a hash table
does NOT promise is an order of iteration; code that iterates is given an
`IterOrder`, an arbitrary rearrangement of the keys, and every result
about such code holds for all of them.

`updateFirst` is the other update a table of lists sees: change the first
element that satisfies a test (`iter_mut().find(..)` followed by a write).
On a list whose keys are distinct it is a plain `map`
(`updateFirst_eq_map`), which is the form the membership lemmas use.
-/
import Mathlib.Algebra.GroupWithZero.Nat
import Mathlib.Data.List.AList

namespace FileSharing.Lib

/-! ## Maps and sets -/

/-- A hash map: association list with distinct keys. -/
abbrev HashMap (K V : Type) : Type := AList fun _ : K => V

/-- A hash set: a hash map to `Unit`. -/
abbrev HashSet (K : Type) : Type := HashMap K Unit

section Maps

variable {K V : Type} [DecidableEq K]

/-- Lookup after an insert, as one equation. -/
theorem lookup_insert_ite (m : HashMap K V) (k k' : K) (v : V) :
    (m.insert k v).lookup k' = if k' = k then some v else m.lookup k' := by
  by_cases h : k' = k
  · subst h; simp
  · simp [h]

/-- Lookup after an erase, as one equation. -/
theorem lookup_erase_ite (m : HashMap K V) (k k' : K) :
    (m.erase k).lookup k' = if k' = k then none else m.lookup k' := by
  by_cases h : k' = k
  · subst h; simp
  · simp [h]

/-- What is found after an insert was there or is what was inserted. -/
theorem lookup_of_insert {m : HashMap K V} {k k' : K} {v v' : V}
    (h : (m.insert k v).lookup k' = some v') : m.lookup k' = some v' ∨ v' = v := by
  rw [lookup_insert_ite] at h
  split at h
  · exact Or.inr (Option.some.inj h).symm
  · exact Or.inl h

/-- What is found after an erase was there. -/
theorem lookup_of_erase {m : HashMap K V} {k k' : K} {v : V}
    (h : (m.erase k).lookup k' = some v) : m.lookup k' = some v := by
  rw [lookup_erase_ite] at h
  split at h
  · cases h
  · exact h

end Maps

/-! ## Iteration order -/

/-- An order of iteration: some rearrangement of the keys. Nothing else
is known about the order in which a hash table yields its entries. -/
structure IterOrder (α : Type) where
  order : List α → List α
  perm : ∀ l, (order l).Perm l

/-- The order in which the table happens to store its entries. -/
def IterOrder.stored (α : Type) : IterOrder α := ⟨id, fun l => List.Perm.refl l⟩

variable {α : Type}

@[simp] theorem IterOrder.mem_order (o : IterOrder α) (l : List α) (x : α) :
    x ∈ o.order l ↔ x ∈ l := (o.perm l).mem_iff

theorem IterOrder.nodup_order (o : IterOrder α) {l : List α} (h : l.Nodup) :
    (o.order l).Nodup := (o.perm l).nodup_iff.mpr h

/-! ## Updating the first match -/

/-- Apply `f` to the first element that satisfies `p`. -/
def updateFirst (p : α → Bool) (f : α → α) : List α → List α
  | [] => []
  | x :: xs => if p x then f x :: xs else x :: updateFirst p f xs

/-- An update that keeps `g` keeps the `g` column of the list. -/
theorem map_updateFirst {β : Type} (p : α → Bool) (f : α → α) (g : α → β)
    (hg : ∀ x, g (f x) = g x) (l : List α) : (updateFirst p f l).map g = l.map g := by
  induction l with
  | nil => rfl
  | cons x xs ih =>
    unfold updateFirst
    split
    · simp [hg]
    · simp [ih]

section Keyed

variable {κ : Type} [DecidableEq κ]

/-- On a list with distinct keys, updating the first element with key `k`
is updating every element with key `k`. -/
theorem updateFirst_eq_map (key : α → κ) (k : κ) (f : α → α) {l : List α}
    (hn : (l.map key).Nodup) :
    updateFirst (fun x => key x = k) f l = l.map fun x => if key x = k then f x else x := by
  induction l with
  | nil => rfl
  | cons x xs ih =>
    simp only [List.map_cons, List.nodup_cons, List.mem_map, not_exists, not_and] at hn
    by_cases hx : key x = k
    · have hrest : xs.map (fun y => if key y = k then f y else y) = xs := by
        refine (List.map_congr_left fun y hy => ?_).trans (List.map_id xs)
        have hne : key y ≠ k := fun h => hn.1 y hy (h.trans hx.symm)
        simp [hne]
      simp [updateFirst, hx, hrest]
    · simp [updateFirst, hx, ih hn.2]

/-- On a list with distinct keys, setting position `i` is updating every
element with that position's key. -/
theorem set_eq_map (key : α → κ) (f : α → α) {l : List α} {i : Nat} {y : α}
    (hn : (l.map key).Nodup) (hi : l[i]? = some y) :
    l.set i (f y) = l.map fun x => if key x = key y then f x else x := by
  induction l generalizing i with
  | nil => simp at hi
  | cons x xs ih =>
    simp only [List.map_cons, List.nodup_cons, List.mem_map, not_exists, not_and] at hn
    cases i with
    | zero =>
      simp only [List.getElem?_cons_zero, Option.some.injEq] at hi
      subst hi
      have hrest : xs.map (fun z => if key z = key x then f z else z) = xs := by
        refine (List.map_congr_left fun z hz => ?_).trans (List.map_id xs)
        have hne : key z ≠ key x := fun h => hn.1 z hz h
        simp [hne]
      simp [hrest]
    | succ i =>
      simp only [List.getElem?_cons_succ] at hi
      have hne : key x ≠ key y := fun h => hn.1 y (List.mem_of_getElem? hi) h.symm
      simp [hne, ih hn.2 hi]

/-- On a list with distinct keys, erasing the first element with key `k`
is dropping every element with key `k`. -/
theorem eraseP_eq_filter (key : α → κ) (k : κ) {l : List α} (hn : (l.map key).Nodup) :
    l.eraseP (fun x => key x = k) = l.filter fun x => key x ≠ k := by
  induction l with
  | nil => rfl
  | cons x xs ih =>
    simp only [List.map_cons, List.nodup_cons, List.mem_map, not_exists, not_and] at hn
    by_cases hx : key x = k
    · have hrest : xs.filter (fun y => key y ≠ k) = xs := by
        refine List.filter_eq_self.mpr fun y hy => ?_
        simpa using fun h : key y = k => hn.1 y hy (h.trans hx.symm)
      simpa [hx] using hrest.symm
    · simpa [List.eraseP_cons, hx] using ih hn.2

/-- Looking an element up by its key finds it when keys are distinct. -/
theorem find?_eq_some_of_mem (key : α → κ) {l : List α} (hn : (l.map key).Nodup) {x : α}
    (hx : x ∈ l) : l.find? (fun y => key y = key x) = some x := by
  cases h : l.find? (fun y => key y = key x) with
  | none => exact absurd (List.find?_eq_none.mp h x hx) (by simp)
  | some y =>
    have hy : y ∈ l := List.mem_of_find?_eq_some h
    have hk : key y = key x := by simpa using List.find?_some h
    rw [List.inj_on_of_nodup_map hn hy hx hk]

/-- When one element changes, a sum over the list changes by that element. -/
theorem sum_update (key : α → κ) (f : α → α) (g : α → Nat) {l : List α} (hn : (l.map key).Nodup)
    {x : α} (hx : x ∈ l) :
    ((l.map fun y => if key y = key x then f y else y).map g).sum + g x =
      (l.map g).sum + g (f x) := by
  induction l with
  | nil => cases hx
  | cons y ys ih =>
    simp only [List.map_cons, List.nodup_cons, List.mem_map, not_exists, not_and] at hn
    simp only [List.map_cons, List.sum_cons]
    by_cases hy : key y = key x
    · -- `y` is `x`, and no other element has its key
      have hrest : ys.map (fun z => if key z = key x then f z else z) = ys := by
        refine (List.map_congr_left fun z hz => ?_).trans (List.map_id ys)
        have hne : key z ≠ key x := fun h => hn.1 z hz (h.trans hy.symm)
        simp [hne]
      have hxy : x = y := by
        rcases List.mem_cons.mp hx with h | h
        · exact h
        · exact absurd hy.symm (hn.1 x h)
      subst hxy
      rw [hrest, if_pos rfl]
      omega
    · have hmem : x ∈ ys := by
        rcases List.mem_cons.mp hx with h | h
        · exact absurd (h ▸ rfl) hy
        · exact h
      have := ih hn.2 hmem
      rw [if_neg hy]
      omega

end Keyed

end FileSharing.Lib
