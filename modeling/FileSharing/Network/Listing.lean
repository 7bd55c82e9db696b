/-
FileSharing.Network.Listing — the names a node lists, and the files it then
opens under them.

A file name is bytes; a listed name is text. `to_string_lossy` gives every
name a text, but only the name that IS text, valid UTF-8, can be had back
from it. So an entry is opened under its listed name exactly if its name is
UTF-8 (`listed_opens_entry_iff`), and only such names are sure to be listed
apart.
-/
import FileSharing.Network.Confinement
import FileSharing.Network.Downloads
import FileSharing.FileGet.Wire

namespace FileSharing

open Lib

/-! ## Text and bytes -/

theorem utf8_eq_flatMap (s : String) : utf8 s = s.toList.flatMap String.utf8EncodeChar := by
  have hbytes : s.toByteArray = (s.toList.flatMap String.utf8EncodeChar).toByteArray :=
    String.utf8Encode_toList.symm
  rw [utf8, String.toUTF8_eq_toByteArray, hbytes, List.toList_data_toByteArray]

/-- The bytes are a text. -/
def IsUtf8 (name : List UInt8) : Prop := ∃ s, utf8 s = name

/-! ### Decoding what was encoded -/

theorem utf8First_one {b : UInt8} (h : b.toNat < 0x80) :
    utf8First b = ([Char.ofNat b.toNat], none) :=
  if_pos (UInt8.lt_iff_toNat_lt.mpr h)

theorem utf8First_two {b : UInt8} (h : 0xC2 ≤ b.toNat) (h' : b.toNat < 0xE0) :
    utf8First b = ([], some ⟨0x80, 0xBF, 0, b.toNat % 0x20⟩) := by
  unfold utf8First
  simp only [UInt8.lt_iff_toNat_lt, UInt8.reduceToNat]
  rw [if_neg (by omega), if_neg (by omega), if_pos h']

theorem utf8First_three {b : UInt8} (h : 0xE0 ≤ b.toNat) (h' : b.toNat < 0xF0) :
    utf8First b = ([], some ⟨if b = 0xE0 then 0xA0 else 0x80, if b = 0xED then 0x9F else 0xBF, 1,
      b.toNat % 0x10⟩) := by
  unfold utf8First
  simp only [UInt8.lt_iff_toNat_lt, UInt8.reduceToNat]
  rw [if_neg (by omega), if_neg (by omega), if_neg (by omega), if_pos h']

theorem utf8First_four {b : UInt8} (h : 0xF0 ≤ b.toNat) (h' : b.toNat < 0xF5) :
    utf8First b = ([], some ⟨if b = 0xF0 then 0x90 else 0x80, if b = 0xF4 then 0x8F else 0xBF, 2,
      b.toNat % 0x08⟩) := by
  unfold utf8First
  simp only [UInt8.lt_iff_toNat_lt, UInt8.reduceToNat]
  rw [if_neg (by omega), if_neg (by omega), if_neg (by omega), if_neg (by omega), if_pos h']

theorem utf8Next_last {u : Utf8Begun} {b : UInt8} (hmore : u.more = 0) (h : u.low ≤ b)
    (h' : b ≤ u.high) :
    utf8Next (some u) b = ([Char.ofNat (u.code * 0x40 + b.toNat % 0x40)], none) := by
  unfold utf8Next
  dsimp only
  rw [if_pos ⟨h, h'⟩, hmore]

theorem utf8Next_more {u : Utf8Begun} {b : UInt8} {more : Nat} (hmore : u.more = more + 1)
    (h : u.low ≤ b) (h' : b ≤ u.high) :
    utf8Next (some u) b =
      ([], some ⟨0x80, 0xBF, more, u.code * 0x40 + b.toNat % 0x40⟩) := by
  unfold utf8Next
  dsimp only
  rw [if_pos ⟨h, h'⟩, hmore]

theorem toNat_ofNat {n : Nat} (h : n < 0x100) : (UInt8.ofNat n).toNat = n := by
  rw [UInt8.toNat_ofNat']
  exact Nat.mod_eq_of_lt h

section Encoded

variable {v : Nat} {b₀ b₁ b₂ b₃ : UInt8}

/-- A following byte lies in the range of following bytes. -/
theorem following_range {n : Nat} {b : UInt8} (h : b.toNat = n % 0x40 + 0x80) :
    0x80 ≤ b ∧ b ≤ 0xBF := by
  simp only [UInt8.le_iff_toNat_le, UInt8.reduceToNat]
  omega

theorem utf8Lossy_two (hv : 0x80 ≤ v ∧ v ≤ 0x7FF) (h₀ : b₀.toNat = v / 64 % 0x20 + 0xC0)
    (h₁ : b₁.toNat = v % 0x40 + 0x80) (rest : List UInt8) :
    utf8Lossy none (b₀ :: b₁ :: rest) = Char.ofNat v :: utf8Lossy none rest := by
  obtain ⟨hlow, hhigh⟩ := following_range h₁
  have hcode : b₀.toNat % 0x20 * 0x40 + b₁.toNat % 0x40 = v := by omega
  rw [utf8Lossy, utf8Next, utf8First_two (by omega) (by omega)]
  dsimp only
  rw [utf8Lossy, utf8Next_last rfl hlow hhigh, hcode]
  rfl

theorem utf8Lossy_three (hv : 0x800 ≤ v ∧ v ≤ 0xFFFF) (hvalid : v < 0xD800 ∨ 0xDFFF < v)
    (h₀ : b₀.toNat = v / 4096 % 0x10 + 0xE0) (h₁ : b₁.toNat = v / 64 % 0x40 + 0x80)
    (h₂ : b₂.toNat = v % 0x40 + 0x80) (rest : List UInt8) :
    utf8Lossy none (b₀ :: b₁ :: b₂ :: rest) = Char.ofNat v :: utf8Lossy none rest := by
  -- no overlong form, and no surrogate
  have hlow : (if b₀ = 0xE0 then (0xA0 : UInt8) else 0x80) ≤ b₁ := by
    simp only [← UInt8.toNat_inj, UInt8.le_iff_toNat_le, UInt8.reduceToNat]
    split <;> simp only [UInt8.reduceToNat] <;> omega
  have hhigh : b₁ ≤ (if b₀ = 0xED then (0x9F : UInt8) else 0xBF) := by
    simp only [← UInt8.toNat_inj, UInt8.le_iff_toNat_le, UInt8.reduceToNat]
    split <;> simp only [UInt8.reduceToNat] <;> omega
  obtain ⟨hlow', hhigh'⟩ := following_range h₂
  have hcode : (b₀.toNat % 0x10 * 0x40 + b₁.toNat % 0x40) * 0x40 + b₂.toNat % 0x40 = v := by omega
  rw [utf8Lossy, utf8Next, utf8First_three (by omega) (by omega)]
  dsimp only
  rw [utf8Lossy, utf8Next_more rfl hlow hhigh]
  dsimp only
  rw [utf8Lossy, utf8Next_last rfl hlow' hhigh', hcode]
  rfl

theorem utf8Lossy_four (hv : 0x10000 ≤ v ∧ v < 0x110000)
    (h₀ : b₀.toNat = v / 262144 % 0x08 + 0xF0) (h₁ : b₁.toNat = v / 4096 % 0x40 + 0x80)
    (h₂ : b₂.toNat = v / 64 % 0x40 + 0x80) (h₃ : b₃.toNat = v % 0x40 + 0x80)
    (rest : List UInt8) :
    utf8Lossy none (b₀ :: b₁ :: b₂ :: b₃ :: rest) = Char.ofNat v :: utf8Lossy none rest := by
  -- no overlong form, and nothing above the last code point
  have hlow : (if b₀ = 0xF0 then (0x90 : UInt8) else 0x80) ≤ b₁ := by
    simp only [← UInt8.toNat_inj, UInt8.le_iff_toNat_le, UInt8.reduceToNat]
    split <;> simp only [UInt8.reduceToNat] <;> omega
  have hhigh : b₁ ≤ (if b₀ = 0xF4 then (0x8F : UInt8) else 0xBF) := by
    simp only [← UInt8.toNat_inj, UInt8.le_iff_toNat_le, UInt8.reduceToNat]
    split <;> simp only [UInt8.reduceToNat] <;> omega
  obtain ⟨hlow', hhigh'⟩ := following_range h₂
  obtain ⟨hlow'', hhigh''⟩ := following_range h₃
  have hcode : ((b₀.toNat % 0x08 * 0x40 + b₁.toNat % 0x40) * 0x40 + b₂.toNat % 0x40) * 0x40 +
      b₃.toNat % 0x40 = v := by
    omega
  rw [utf8Lossy, utf8Next, utf8First_four (by omega) (by omega)]
  dsimp only
  rw [utf8Lossy, utf8Next_more rfl hlow hhigh]
  dsimp only
  rw [utf8Lossy, utf8Next_more rfl hlow' hhigh']
  dsimp only
  rw [utf8Lossy, utf8Next_last rfl hlow'' hhigh'', hcode]
  rfl

end Encoded

/-- The bytes of a character are read as that character. -/
theorem utf8Lossy_encodeChar (c : Char) (rest : List UInt8) :
    utf8Lossy none (String.utf8EncodeChar c ++ rest) = c :: utf8Lossy none rest := by
  have hvalid : c.val.toNat < 0xD800 ∨ 0xDFFF < c.val.toNat ∧ c.val.toNat < 0x110000 := c.valid
  have hc : Char.ofNat c.val.toNat = c := Char.ofNat_toNat c
  unfold String.utf8EncodeChar
  dsimp only
  generalize c.val.toNat = v at hvalid hc
  subst hc
  split
  · rename_i hone
    have hv : (UInt8.ofNat v).toNat = v := toNat_ofNat (by omega)
    rw [List.singleton_append, utf8Lossy, utf8Next, utf8First_one (by omega), hv]
    rfl
  · split
    · exact utf8Lossy_two (by omega) (toNat_ofNat (by omega)) (toNat_ofNat (by omega)) rest
    · split
      · exact utf8Lossy_three (by omega) (by omega) (toNat_ofNat (by omega))
          (toNat_ofNat (by omega)) (toNat_ofNat (by omega)) rest
      · exact utf8Lossy_four (by omega) (toNat_ofNat (by omega)) (toNat_ofNat (by omega))
          (toNat_ofNat (by omega)) (toNat_ofNat (by omega)) rest

/-- **A name that is a text is listed as that text.** -/
theorem toStringLossy_utf8 (s : String) : toStringLossy (utf8 s) = s := by
  have hchars : ∀ cs : List Char, utf8Lossy none (cs.flatMap String.utf8EncodeChar) = cs := by
    intro cs
    induction cs with
    | nil => rfl
    | cons c cs ih => rw [List.flatMap_cons, utf8Lossy_encodeChar, ih]
  rw [toStringLossy, utf8_eq_flatMap, hchars, String.ofList_toList]

/-! ### No slash comes in -/

/-- What a sequence begun stands for is above the one-byte characters. -/
structure Utf8Begun.Above (u : Utf8Begun) : Prop where
  code : 1 ≤ u.code ∨ (0 < u.more ∧ 0x90 ≤ u.low.toNat)
  high : u.high.toNat ≤ 0xBF

theorem eq_of_charOfNat_eq_slash {n : Nat} (h : Char.ofNat n = '/') : n = 47 := by
  have hslash : '/'.toNat = 47 := rfl
  rw [← h] at hslash
  by_cases hvalid : n.isValidChar
  · rw [Char.ofNat, dif_pos hvalid] at hslash
    exact hslash
  · rw [Char.ofNat, dif_neg hvalid] at hslash
    cases hslash

/-- A longer sequence: its first byte says enough, or its second one must. -/
theorem above_of_first {b first low : UInt8} {more n : Nat} (hmore : 0 < more)
    (hlow : 0x90 ≤ low.toNat) (hn : b ≠ first → 1 ≤ n) :
    1 ≤ n ∨ (0 < more ∧ 0x90 ≤ (if b = first then low else 0x80).toNat) := by
  by_cases hb : b = first
  · rw [if_pos hb]
    exact Or.inr ⟨hmore, hlow⟩
  · exact Or.inl (hn hb)

/-- The first byte of a sequence: a slash is read only from a slash. -/
theorem utf8First_slash (b : UInt8) :
    ('/' ∈ (utf8First b).1 → b = Path.slash) ∧ ∀ u, (utf8First b).2 = some u → u.Above := by
  have hreplaced : '/' ∉ [replacementCharacter] := by decide
  unfold utf8First
  simp only [UInt8.lt_iff_toNat_lt, UInt8.reduceToNat]
  split
  · refine ⟨fun h => ?_, fun u hu => nomatch hu⟩
    have hb := eq_of_charOfNat_eq_slash (List.mem_singleton.mp h).symm
    exact UInt8.toNat_inj.mp hb
  · split
    · exact ⟨fun h => absurd h hreplaced, fun u hu => nomatch hu⟩
    · split
      · refine ⟨fun h => absurd h List.not_mem_nil, ?_⟩
        rintro _ ⟨⟩
        refine ⟨Or.inl ?_, Nat.le_refl _⟩
        dsimp only
        omega
      · split
        · refine ⟨fun h => absurd h List.not_mem_nil, ?_⟩
          rintro _ ⟨⟩
          refine ⟨above_of_first Nat.one_pos (by decide) fun hb => ?_, ?_⟩
          · rw [ne_eq, ← UInt8.toNat_inj] at hb
            simp only [UInt8.reduceToNat] at hb
            dsimp only
            omega
          · dsimp only
            split <;> decide
        · split
          · refine ⟨fun h => absurd h List.not_mem_nil, ?_⟩
            rintro _ ⟨⟩
            refine ⟨above_of_first Nat.two_pos (by decide) fun hb => ?_, ?_⟩
            · rw [ne_eq, ← UInt8.toNat_inj] at hb
              simp only [UInt8.reduceToNat] at hb
              dsimp only
              omega
            · dsimp only
              split <;> decide
          · exact ⟨fun h => absurd h hreplaced, fun u hu => nomatch hu⟩

theorem utf8Next_slash {begun : Option Utf8Begun} (hbegun : ∀ u, begun = some u → u.Above)
    (b : UInt8) :
    ('/' ∈ (utf8Next begun b).1 → b = Path.slash) ∧
      ∀ u, (utf8Next begun b).2 = some u → u.Above := by
  cases begun with
  | none => exact utf8First_slash b
  | some u =>
    have habove := hbegun u rfl
    unfold utf8Next
    dsimp only
    split
    · rename_i hrange
      simp only [UInt8.le_iff_toNat_le] at hrange
      have hhigh := habove.high
      cases hmore : u.more with
      | zero =>
        -- the character is complete, and too big for a slash
        refine ⟨fun h => ?_, fun u hu => nomatch hu⟩
        have hcode := eq_of_charOfNat_eq_slash (List.mem_singleton.mp h).symm
        rcases habove.code with hc | hc
        · omega
        · omega
      | succ more =>
        refine ⟨fun h => absurd h List.not_mem_nil, ?_⟩
        rintro _ ⟨⟩
        refine ⟨Or.inl ?_, Nat.le_refl _⟩
        dsimp only
        rcases habove.code with hc | hc
        · omega
        · omega
    · obtain ⟨hchar, hnext⟩ := utf8First_slash b
      refine ⟨fun h => ?_, hnext⟩
      rcases List.mem_cons.mp h with h | h
      · exact absurd h (by decide)
      · exact hchar h

theorem utf8Lossy_slash {begun : Option Utf8Begun} (hbegun : ∀ u, begun = some u → u.Above)
    {name : List UInt8} (h : '/' ∈ utf8Lossy begun name) : Path.slash ∈ name := by
  induction name generalizing begun with
  | nil =>
    cases begun with
    | none => cases h
    | some u =>
      rw [utf8Lossy, List.mem_singleton] at h
      revert h
      decide
  | cons b name ih =>
    obtain ⟨hchar, hnext⟩ := utf8Next_slash hbegun b
    rw [utf8Lossy] at h
    rcases List.mem_append.mp h with h | h
    · rw [hchar h]
      exact List.mem_cons_self
    · exact List.mem_cons_of_mem b (ih hnext h)

theorem slash_mem_encodeChar {c : Char} (h : Path.slash ∈ String.utf8EncodeChar c) : c = '/' := by
  have hc : Char.ofNat c.val.toNat = c := Char.ofNat_toNat c
  have hslash : Path.slash.toNat = 47 := rfl
  -- the bytes of a longer character are all above
  have hlow : ∀ n, 0x80 ≤ n → n < 0x100 → Path.slash ≠ UInt8.ofNat n := by
    intro n hn hn' he
    have heq := congrArg UInt8.toNat he
    rw [toNat_ofNat hn', hslash] at heq
    omega
  unfold String.utf8EncodeChar at h
  dsimp only at h
  generalize c.val.toNat = v at h hc
  subst hc
  split at h
  · have heq := congrArg UInt8.toNat (List.mem_singleton.mp h)
    rw [toNat_ofNat (by omega), hslash] at heq
    rw [← heq]
  · split at h
    · rcases List.mem_pair.mp h with h | h
      · exact absurd h (hlow _ (by omega) (by omega))
      · exact absurd h (hlow _ (by omega) (by omega))
    · split at h
      · simp only [List.mem_cons, List.not_mem_nil, or_false] at h
        rcases h with h | h | h <;> exact absurd h (hlow _ (by omega) (by omega))
      · simp only [List.mem_cons, List.not_mem_nil, or_false] at h
        rcases h with h | h | h | h <;> exact absurd h (hlow _ (by omega) (by omega))

/-- A name without a slash is listed without one. -/
theorem slash_not_mem_listed {name : List UInt8} (h : Path.slash ∉ name) :
    Path.slash ∉ utf8 (toStringLossy name) := by
  intro hslash
  rw [utf8_eq_flatMap, toStringLossy, String.toList_ofList] at hslash
  obtain ⟨c, hc, hslash⟩ := List.mem_flatMap.mp hslash
  rw [slash_mem_encodeChar hslash] at hc
  refine h (utf8Lossy_slash ?_ hc)
  rintro _ ⟨⟩

theorem isUtf8_iff (name : List UInt8) : IsUtf8 name ↔ utf8 (toStringLossy name) = name := by
  constructor
  · rintro ⟨s, rfl⟩
    rw [toStringLossy_utf8]
  · exact fun h => ⟨_, h⟩

instance (name : List UInt8) : Decidable (IsUtf8 name) :=
  decidable_of_iff _ (isUtf8_iff name).symm

/-! ## The files of a directory -/

namespace FileSystem

/-- The names of the files of a directory, its subdirectories left out. -/
def files (fs : FileSystem) (dir : Resolved (List UInt8)) : List (List UInt8) :=
  ((fs.dirEntries dir).filter fun entry => !entry.isDir).map (·.fileName)

/-- The entries of the directory have names as a directory can have them. -/
def WellNamed (fs : FileSystem) (dir : Resolved (List UInt8)) : Prop :=
  ∀ entry ∈ fs.dirEntries dir, Path.slash ∉ entry.fileName ∧ 0 ∉ entry.fileName ∧
    entry.fileName ≠ [] ∧ entry.fileName ≠ [Path.dot] ∧ entry.fileName ≠ [Path.dot, Path.dot]

/-- An entry of a directory is the one under its name. -/
theorem dirEntries_place {dir place : Resolved (List UInt8)} {name : List UInt8}
    (hlast : place.names.getLast? = some name) (hparent : place.parent = dir) :
    place = dir.down [name] := by
  obtain ⟨absolute, ups, names⟩ := place
  obtain ⟨init, rfl⟩ := List.getLast?_eq_some_iff.mp hlast
  subst hparent
  simp [Resolved.parent, Resolved.down]

theorem mem_dirEntries {fs : FileSystem} {dir : Resolved (List UInt8)} {entry : DirEntry} :
    entry ∈ fs.dirEntries dir ↔ ∃ e, fs.entries.lookup (dir.down [entry.fileName]) = some e ∧
      entry.isDir = decide (e = .directory) := by
  constructor
  · intro h
    obtain ⟨⟨place, e⟩, hmem, hentry⟩ := List.mem_filterMap.mp h
    dsimp only at hentry
    split at hentry
    · rename_i name hlast
      split at hentry
      · rename_i hparent
        cases hentry
        refine ⟨e, ?_, rfl⟩
        rw [← dirEntries_place hlast hparent]
        exact AList.mem_lookup_iff.mpr hmem
      · cases hentry
    · cases hentry
  · rintro ⟨e, hlook, hdir⟩
    refine List.mem_filterMap.mpr ⟨⟨_, e⟩, AList.mem_lookup_iff.mp hlook, ?_⟩
    obtain ⟨name, isDir⟩ := entry
    simp only at hdir
    simp [Resolved.down, Resolved.parent, hdir]

/-- No name stands for two entries. -/
theorem nodup_dirEntries (fs : FileSystem) (dir : Resolved (List UInt8)) :
    ((fs.dirEntries dir).map (·.fileName)).Nodup := by
  have hsub : ((fs.dirEntries dir).map fun entry => dir.down [entry.fileName]).Sublist
      fs.entries.keys := by
    unfold dirEntries AList.keys List.keys
    induction fs.entries.entries with
    | nil => exact List.Sublist.refl _
    | cons x xs ih =>
      rw [List.filterMap_cons]
      split
      · exact ih.cons _
      · rename_i entry hentry
        split at hentry
        · rename_i name hlast
          split at hentry
          · rename_i hparent
            cases hentry
            rw [List.map_cons, List.map_cons, dirEntries_place hlast hparent]
            exact ih.cons_cons _
          · cases hentry
        · cases hentry
  have hnodup := hsub.nodup fs.entries.keys_nodup
  refine List.Nodup.of_map (fun name => dir.down [name]) ?_
  rw [List.map_map]
  exact hnodup

theorem nodup_files (fs : FileSystem) (dir : Resolved (List UInt8)) : (fs.files dir).Nodup :=
  (nodup_dirEntries fs dir).sublist (List.filter_sublist.map _)

/-- A file is listed under the name it is found under. -/
theorem mem_files {fs : FileSystem} {dir : Resolved (List UInt8)} {name : List UInt8} :
    name ∈ fs.files dir ↔ ∃ bytes, fs.entries.lookup (dir.down [name]) = some (.file bytes) := by
  unfold files
  simp only [List.mem_map, List.mem_filter]
  constructor
  · rintro ⟨entry, ⟨hentry, hdir⟩, rfl⟩
    obtain ⟨e, hlook, hisDir⟩ := mem_dirEntries.mp hentry
    cases e with
    | file bytes => exact ⟨bytes, hlook⟩
    | directory => simp [hisDir] at hdir
  · rintro ⟨bytes, hlook⟩
    exact ⟨⟨name, false⟩, ⟨mem_dirEntries.mpr ⟨_, hlook, rfl⟩, rfl⟩, rfl⟩

theorem WellNamed.component {fs : FileSystem} {dir : Resolved (List UInt8)}
    (h : fs.WellNamed dir) {name : List UInt8} (hname : name ∈ fs.files dir) :
    Path.slash ∉ name ∧ Path.component name = some (.name name) := by
  obtain ⟨entry, hentry, rfl⟩ := List.mem_map.mp hname
  obtain ⟨hslash, -, hempty, hdot, hdots⟩ := h entry (List.mem_filter.mp hentry).1
  refine ⟨hslash, ?_⟩
  rw [Path.component, if_neg, if_neg hdots]
  rintro (he | he)
  · exact hempty he
  · exact hdot he

/-! ## Listing, and opening what was listed -/

/-- When the directory can be read, the response has the text of the name
of every file. -/
theorem collectFileNames_entries (entries : List DirEntry) :
    collectFileNames (entries.map .ok) =
      .ok ((entries.filter fun entry => !entry.isDir).map fun entry =>
        toStringLossy entry.fileName) := by
  induction entries with
  | nil => rfl
  | cons entry entries ih =>
    rw [List.map_cons, collectFileNames, ih]
    cases hdir : entry.isDir <;> simp [hdir, bind, Except.bind]

/-- A path that can be listed leads to a directory. -/
theorem readDir_ok {fs : FileSystem} {path : Path} {entries : List (Except IoError DirEntry)}
    (h : fs.readDir path = .ok entries) :
    fs.obstacle path = none ∧ fs.isDirectory (Path.resolve path) = true ∧
      entries = (fs.dirEntries (Path.resolve path)).map .ok := by
  unfold readDir at h
  split at h
  · cases h
  · rename_i hobjection
    dsimp only at h
    split at h
    · rename_i hdir
      exact ⟨(Option.or_eq_none_iff.mp hobjection).2, hdir, (Except.ok.inj h).symm⟩
    · split at h <;> cases h

theorem listing {fs : FileSystem} {path : Path} {fileNames : List String}
    (h : (fs.readDir path >>= collectFileNames) = .ok fileNames) :
    fs.obstacle path = none ∧ fs.isDirectory (Path.resolve path) = true ∧
      fileNames = (fs.files (Path.resolve path)).map toStringLossy := by
  cases hread : fs.readDir path with
  | error e => simp [hread, bind, Except.bind] at h
  | ok entries =>
    obtain ⟨hway, hdir, rfl⟩ := readDir_ok hread
    simp only [hread, bind, Except.bind, collectFileNames_entries, Except.ok.injEq] at h
    refine ⟨hway, hdir, ?_⟩
    rw [files, List.map_map]
    exact h.symm

/-- A later request for the name opens this place, and no other, and unless
the operating system has something against it, what is sent is the file
there. -/
def Opens (fs : FileSystem) (sharingDir : Path) (name : String)
    (place : Resolved (List UInt8)) : Prop :=
  ∀ (debug : Bool) (env : Env) (l : EventLoop) (peer : PeerId) (r : RequestId)
    (channel : ChannelId), env.openRead = fs.openRead → l.sharingDir = sharingDir →
    ∃ path,
      (l.handleEvent debug env (.fileGet (.requestReceived peer r ⟨name⟩ channel))).opened =
        [path] ∧ Path.resolve path = place ∧
      ∀ bytes, fs.refuses path = none → fs.entries.lookup place = some (.file bytes) →
        .sendReader channel ⟨[.data bytes]⟩ ∈
          (l.handleEvent debug env (.fileGet (.requestReceived peer r ⟨name⟩ channel))).effects

/-- Where a request leads is a matter of its name alone. -/
theorem Opens.resolves {fs : FileSystem} {sharingDir : Path} {name : String}
    {place : Resolved (List UInt8)} (h : fs.Opens sharingDir name place) :
    Path.resolve (Path.push sharingDir (utf8 name)) = place := by
  obtain ⟨path, hopened, hplace, -⟩ := h false (fs.env ⟨0⟩ (.stored _) (.stored _))
    (.new (.init ⟨0⟩) sharingDir) ⟨0⟩ (.nth 0) ⟨0⟩ rfl rfl
  have hpath := (EventLoop.handleEvent_handled false (fs.env ⟨0⟩ (.stored _) (.stored _))
    (.new (.init ⟨0⟩) sharingDir)
    (.fileGet (.requestReceived ⟨0⟩ (.nth 0) ⟨name⟩ ⟨0⟩))).opened
  rw [hopened] at hpath
  rw [← hplace, List.singleton_inj.mp hpath]
  rfl

/-- When nothing is in the way, the place it leads to is opened. -/
theorem opens_of_resolves {fs : FileSystem} {sharingDir : Path} {name : String}
    {place : Resolved (List UInt8)}
    (hplace : Path.resolve (Path.push sharingDir (utf8 name)) = place)
    (hway : fs.obstacle (Path.push sharingDir (utf8 name)) = none) (hne : place.names ≠ []) :
    fs.Opens sharingDir name place := by
  intro debug env l peer r channel henv hdir
  subst hdir hplace
  refine ⟨_, (EventLoop.handleEvent_handled debug env l _).opened, rfl, ?_⟩
  intro bytes hrefuses hlook
  have hobjection : fs.objection (Path.push l.sharingDir (utf8 name)) = none :=
    Option.or_eq_none_iff.mpr ⟨hrefuses, hway⟩
  have hcontents : fs.contents (Path.push l.sharingDir (utf8 name)) = some bytes := by
    simp only [contents, hlook]
  have hread : env.openRead (Path.push l.sharingDir (utf8 name)) = .ok ⟨[.data bytes]⟩ := by
    rw [henv]
    simp [openRead, hobjection, isDirectory, hne, hlook, hcontents]
  unfold EventLoop.handleEvent
  simp only [hread]
  exact List.mem_cons_of_mem _ List.mem_cons_self

/-- A file is opened under its listed name exactly if its name is a
text. -/
theorem opens_listed_iff {fs : FileSystem} {sharingDir : Path}
    (hway : fs.obstacle sharingDir = none)
    (hdir : fs.isDirectory (Path.resolve sharingDir) = true)
    (hnamed : fs.WellNamed (Path.resolve sharingDir)) {name : List UInt8}
    (hname : name ∈ fs.files (Path.resolve sharingDir)) :
    fs.Opens sharingDir (toStringLossy name) ((Path.resolve sharingDir).down [name]) ↔
      IsUtf8 name := by
  obtain ⟨hslash, hcomponent⟩ := hnamed.component hname
  have hslash' := slash_not_mem_listed hslash
  have hresolves := Path.resolve_push_eq_down_iff sharingDir hslash' hcomponent
  rw [isUtf8_iff]
  constructor
  · intro h
    exact hresolves.mp h.resolves
  · intro h
    refine opens_of_resolves (hresolves.mpr h) (obstacle_push hway hdir hslash') ?_
    simp [Resolved.down]

/-- Texts are listed apart. -/
theorem nodup_listed_texts (fs : FileSystem) (dir : Resolved (List UInt8)) :
    (((fs.files dir).filter fun name => IsUtf8 name).map toStringLossy).Nodup := by
  refine List.Nodup.map_on ?_ ((nodup_files fs dir).filter _)
  intro name hname name' hname' heq
  have hutf8 := (isUtf8_iff name).mp (by simpa using (List.mem_filter.mp hname).2)
  have hutf8' := (isUtf8_iff name').mp (by simpa using (List.mem_filter.mp hname').2)
  rw [← hutf8, ← hutf8', heq]

end FileSystem

open FileSystem

/-- **What is listed and is a text is served**: the response has a name for
every file there is; the names that are texts are listed apart; and under
its listed name a file is opened exactly if its name is a text. -/
theorem listed_texts_open_entries {fs : FileSystem} {l : EventLoop} {debug : Bool} {env : Env}
    {peer : PeerId} {channel : ListFilesChannel} {fileNames : List String}
    (henv : env.readDir = fs.readDir) (hnamed : fs.WellNamed (Path.resolve l.sharingDir))
    (hlisted : .sendListFilesResponse channel fileNames ∈
      (l.handleEvent debug env (.listFiles (.request peer channel))).effects) :
    fileNames = (fs.files (Path.resolve l.sharingDir)).map toStringLossy ∧
    (fs.files (Path.resolve l.sharingDir)).Nodup ∧
    (((fs.files (Path.resolve l.sharingDir)).filter fun name => IsUtf8 name).map
      toStringLossy).Nodup ∧
    ∀ name ∈ fs.files (Path.resolve l.sharingDir),
      (∃ bytes, fs.entries.lookup ((Path.resolve l.sharingDir).down [name]) =
        some (.file bytes)) ∧
      (fs.Opens l.sharingDir (toStringLossy name) ((Path.resolve l.sharingDir).down [name]) ↔
        IsUtf8 name) := by
  have hh := EventLoop.handleEvent_handled debug env l (.listFiles (.request peer channel))
  generalize l.handleEvent debug env (.listFiles (.request peer channel)) = handled at hlisted hh
  cases hh with
  | ignored _ hi => cases hi
  | notListed _ _ e _ => simp at hlisted
  | directoryListed _ _ names hread =>
    obtain rfl : fileNames = names := by simpa using hlisted
    rw [henv] at hread
    obtain ⟨hway, hdir, hnames⟩ := listing hread
    refine ⟨hnames, nodup_files fs _, nodup_listed_texts fs _, fun name hname => ?_⟩
    exact ⟨mem_files.mp hname, opens_listed_iff hway hdir hnamed hname⟩

/-- The directory holds the files `a` and, in Latin-1, `ä`. -/
theorem listed_texts_open_entries_latin : ∃ fileNames,
    .sendListFilesResponse ⟨0⟩ fileNames ∈ ((sharingLoop.handleEvent true
      ((directoryWith [([97], [1]), ([0xE4], [2])]).env ⟨0⟩ (.stored _) (.stored _))
      (.listFiles (.request ⟨7⟩ ⟨0⟩))).effects) ∧
    (directoryWith [([97], [1]), ([0xE4], [2])]).Opens [100] (toStringLossy [97])
      ((Path.resolve [100]).down [[97]]) ∧
    ¬ (directoryWith [([97], [1]), ([0xE4], [2])]).Opens [100] (toStringLossy [0xE4])
      ((Path.resolve [100]).down [[0xE4]]) := by
  have hlisted : .sendListFilesResponse ⟨0⟩ ["\uFFFD", "a"] ∈ ((sharingLoop.handleEvent true
      ((directoryWith [([97], [1]), ([0xE4], [2])]).env ⟨0⟩ (.stored _) (.stored _))
      (.listFiles (.request ⟨7⟩ ⟨0⟩))).effects) := List.mem_cons_of_mem _ List.mem_cons_self
  have hnamed : (directoryWith [([97], [1]), ([0xE4], [2])]).WellNamed
      (Path.resolve sharingLoop.sharingDir) := by
    unfold WellNamed
    decide
  obtain ⟨-, -, -, hopens⟩ := listed_texts_open_entries rfl hnamed hlisted
  refine ⟨_, hlisted, (hopens [97] (by decide)).2.mpr (by decide), fun hopen => ?_⟩
  have hutf8 := (hopens [0xE4] (by decide)).2.mp hopen
  revert hutf8
  decide

/-- Two files, each with a name of one byte that is no text: both are listed
as U+FFFD, and neither can be asked for. -/
theorem lossy_names_collide :
    (directoryWith [([0xFF], [1]), ([0xFE], [2])]).WellNamed (Path.resolve [100]) ∧
    (sharingLoop.handleEvent true
      ((directoryWith [([0xFF], [1]), ([0xFE], [2])]).env ⟨0⟩ (.stored _) (.stored _))
      (.listFiles (.request ⟨7⟩ ⟨0⟩))).effects =
        [.readDir [100], .sendListFilesResponse ⟨0⟩ ["\uFFFD", "\uFFFD"]] ∧
    ¬ (["\uFFFD", "\uFFFD"] : List String).Nodup := by
  refine ⟨?_, rfl, by decide⟩
  unfold WellNamed
  decide

end FileSharing
