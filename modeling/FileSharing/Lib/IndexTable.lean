/-
FileSharing.Lib.IndexTable — a table of records and an index into it.

A program that waits for several things at once keeps its records in one
table and, for every kind of thing it waits for, an index from the id of
the awaited thing to the key of the record. `Index P store index` says
that the index is right for the records of kind `P`: it points to such
records only, to no record twice, and to every one of them. The rules say
which updates keep it so: a record and its entry put in together, taken
out together, and records of other kinds put in or taken out alone.
-/
import FileSharing.Lib.HashTable

namespace FileSharing.Lib

variable {ι κ ρ : Type} [DecidableEq ι] [DecidableEq κ]

/-- The index is right for the records of kind `P`. -/
structure Index (P : ρ → Prop) (store : HashMap κ ρ) (index : HashMap ι κ) : Prop where
  injective : ∀ {i j k}, index.lookup i = some k → index.lookup j = some k → i = j
  sound : ∀ {i k}, index.lookup i = some k → ∃ v, store.lookup k = some v ∧ P v
  complete : ∀ {k v}, store.lookup k = some v → P v → ∃ i, index.lookup i = some k

namespace Index

variable {P : ρ → Prop} {store store' : HashMap κ ρ} {index : HashMap ι κ} {i : ι} {k : κ} {v : ρ}

theorem empty : Index P (∅ : HashMap κ ρ) (∅ : HashMap ι κ) where
  injective h := by simp at h
  sound h := by simp at h
  complete h := by simp at h

/-- A key that is not in the store is not pointed to. -/
theorem ne_of_lookup_none (h : Index P store index) (hk : store.lookup k = none) {j : ι} :
    index.lookup j ≠ some k := by
  intro hj
  obtain ⟨v, hv, -⟩ := h.sound hj
  rw [hk] at hv
  cases hv

/-- A new record with a new entry. -/
theorem insert_entry (h : Index P store index) (hk : store.lookup k = none)
    (hi : index.lookup i = none) (hv : P v) :
    Index P (store.insert k v) (index.insert i k) where
  injective := by
    intro a b c ha hb
    rw [lookup_insert_ite] at ha hb
    split at ha <;> split at hb
    · subst_vars
      rfl
    · obtain rfl := Option.some.inj ha
      exact absurd hb (h.ne_of_lookup_none hk)
    · obtain rfl := Option.some.inj hb
      exact absurd ha (h.ne_of_lookup_none hk)
    · exact h.injective ha hb
  sound := by
    intro a c ha
    rw [lookup_insert_ite] at ha
    rw [lookup_insert_ite]
    split at ha
    · obtain rfl := Option.some.inj ha
      exact ⟨v, if_pos rfl, hv⟩
    · have hne : c ≠ k := fun hc => h.ne_of_lookup_none hk (hc ▸ ha)
      rw [if_neg hne]
      exact h.sound ha
  complete := by
    intro c w hc hw
    rw [lookup_insert_ite] at hc
    split at hc
    · rename_i heq
      exact ⟨i, by rw [lookup_insert_ite, if_pos rfl, heq]⟩
    · obtain ⟨a, ha⟩ := h.complete hc hw
      have hne : a ≠ i := fun heq => by rw [heq, hi] at ha; cases ha
      exact ⟨a, by rw [lookup_insert_ite, if_neg hne, ha]⟩

/-- A new record of another kind. -/
theorem insert_other (h : Index P store index) (hk : store.lookup k = none) (hv : ¬ P v) :
    Index P (store.insert k v) index where
  injective := h.injective
  sound := by
    intro a c ha
    have hne : c ≠ k := fun hc => h.ne_of_lookup_none hk (hc ▸ ha)
    rw [lookup_insert_ite, if_neg hne]
    exact h.sound ha
  complete := by
    intro c w hc hw
    rw [lookup_insert_ite] at hc
    split at hc
    · obtain rfl := Option.some.inj hc
      exact absurd hw hv
    · exact h.complete hc hw

/-- An entry and its record are taken out. -/
theorem erase_entry (h : Index P store index) (hi : index.lookup i = some k) :
    Index P (store.erase k) (index.erase i) where
  injective := by
    intro a b c ha hb
    rw [lookup_erase_ite] at ha hb
    split at ha
    · cases ha
    · split at hb
      · cases hb
      · exact h.injective ha hb
  sound := by
    intro a c ha
    rw [lookup_erase_ite] at ha
    split at ha
    · cases ha
    · rename_i hne
      have hck : c ≠ k := fun hc => hne (h.injective (hc ▸ ha) hi)
      rw [lookup_erase_ite, if_neg hck]
      exact h.sound ha
  complete := by
    intro c w hc hw
    rw [lookup_erase_ite] at hc
    split at hc
    · cases hc
    · rename_i hne
      obtain ⟨a, ha⟩ := h.complete hc hw
      have hai : a ≠ i := fun heq => by
        rw [heq, hi] at ha
        exact hne (Option.some.inj ha).symm
      exact ⟨a, by rw [lookup_erase_ite, if_neg hai, ha]⟩

/-- Records of other kinds are taken out. -/
theorem remove_others (h : Index P store index)
    (hrem : ∀ c, store'.lookup c = store.lookup c ∨
      (store'.lookup c = none ∧ ∀ w, store.lookup c = some w → ¬ P w)) :
    Index P store' index where
  injective := h.injective
  sound := by
    intro a c ha
    obtain ⟨w, hw, hP⟩ := h.sound ha
    rcases hrem c with heq | ⟨-, hno⟩
    · exact ⟨w, heq.trans hw, hP⟩
    · exact absurd hP (hno w hw)
  complete := by
    intro c w hc hw
    rcases hrem c with heq | ⟨hnone, -⟩
    · exact h.complete (heq ▸ hc) hw
    · rw [hnone] at hc
      cases hc

/-- One record of another kind is taken out. -/
theorem erase_other (h : Index P store index) (hk : store.lookup k = some v) (hv : ¬ P v) :
    Index P (store.erase k) index := by
  refine h.remove_others fun c => ?_
  rw [lookup_erase_ite]
  split
  · rename_i heq
    subst heq
    refine Or.inr ⟨rfl, fun w hw => ?_⟩
    rw [hk] at hw
    exact Option.some.inj hw ▸ hv
  · exact Or.inl rfl

end Index

end FileSharing.Lib
