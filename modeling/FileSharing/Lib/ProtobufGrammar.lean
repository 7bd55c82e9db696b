/-
FileSharing.Lib.ProtobufGrammar — which bytes are a message of strings.

`Lib.Protobuf` decodes; this is the format it decodes, as a grammar: a
varint is at most ten groups of seven bits, a key is a tag and a wire type,
a message is a sequence of fields, and what is not a value of field 1 is
skipped as its wire type says. `decodeStrings_eq_some_iff` says that the
decoder accepts the grammar's bytes and no others, and with which values.
-/
import Mathlib.Tactic.Ring
import FileSharing.Lib.Protobuf

namespace FileSharing.Lib

/-! ## Varints -/

/-- Varints of at most so many groups. -/
inductive VarintIn : Nat → List UInt8 → Nat → Prop where
  | last {groups : Nat} {b : UInt8} :
      b.toNat < 128 → (groups = 0 → b.toNat < 2) → VarintIn (groups + 1) [b] b.toNat
  | more {groups : Nat} {b : UInt8} {bytes : List UInt8} {n : Nat} :
      128 ≤ b.toNat → VarintIn groups bytes n →
      VarintIn (groups + 1) (b :: bytes) (b.toNat % 128 + 128 * n)

/-- A varint and its value. It need not be the shortest. -/
def Varint (bytes : List UInt8) (n : Nat) : Prop := VarintIn 10 bytes n

theorem VarintIn.ne_nil {groups : Nat} {bytes : List UInt8} {n : Nat}
    (h : VarintIn groups bytes n) : bytes ≠ [] := by
  cases h <;> simp

theorem decodeVarintFrom_eq_some_iff {groups scale value v : Nat} {buf rest : List UInt8} :
    decodeVarintFrom groups scale value buf = some (v, rest) ↔
      ∃ bytes n, VarintIn groups bytes n ∧ buf = bytes ++ rest ∧ v = value + n * scale := by
  constructor
  · intro h
    induction groups generalizing scale value buf with
    | zero => cases h
    | succ groups ih =>
      cases buf with
      | nil => cases h
      | cons b buf =>
        unfold decodeVarintFrom at h
        dsimp only at h
        split at h
        · rename_i hlast
          split at h
          · cases h
          · rename_i hfits
            obtain ⟨rfl, rfl⟩ := Prod.mk.inj (Option.some.inj h)
            refine ⟨[b], b.toNat, .last hlast (by omega), rfl, ?_⟩
            rw [Nat.mod_eq_of_lt hlast]
        · rename_i hmore
          obtain ⟨bytes, n, hvarint, rfl, rfl⟩ := ih h
          refine ⟨b :: bytes, _, .more (Nat.le_of_not_lt hmore) hvarint, rfl, ?_⟩
          ring
  · intro h
    obtain ⟨bytes, n, hvarint, rfl, rfl⟩ := h
    induction hvarint generalizing scale value with
    | @last groups b hlast hfits =>
      have hnot : ¬ (groups = 0 ∧ 2 ≤ b.toNat) := by omega
      simp [decodeVarintFrom, hlast, hnot, Nat.mod_eq_of_lt hlast]
    | @more groups b bytes n hmore _ ih =>
      rw [List.cons_append, decodeVarintFrom, if_neg (Nat.not_lt.mpr hmore), ih]
      congr 2
      ring

theorem decodeVarint_eq_some_iff {n : Nat} {buf rest : List UInt8} :
    decodeVarint buf = some (n, rest) ↔ ∃ bytes, Varint bytes n ∧ buf = bytes ++ rest := by
  unfold decodeVarint Varint
  rw [decodeVarintFrom_eq_some_iff]
  simp

theorem Varint.decode {bytes : List UInt8} {n : Nat} (h : Varint bytes n) (rest : List UInt8) :
    decodeVarint (bytes ++ rest) = some (n, rest) :=
  decodeVarint_eq_some_iff.mpr ⟨bytes, h, rfl⟩

/-! ## Keys and values -/

/-- The key of a field. -/
def Key (bytes : List UInt8) (tag : Nat) (wireType : WireType) : Prop :=
  ∃ key, Varint bytes key ∧ key < 0x100000000 ∧ WireType.ofNat? (key % 8) = some wireType ∧
    key / 8 = tag ∧ tag ≠ 0

theorem Key.ne_nil {bytes : List UInt8} {tag : Nat} {wireType : WireType}
    (h : Key bytes tag wireType) : bytes ≠ [] := by
  obtain ⟨key, hvarint, -⟩ := h
  exact hvarint.ne_nil

theorem Key.length_pos {bytes : List UInt8} {tag : Nat} {wireType : WireType}
    (h : Key bytes tag wireType) : 0 < bytes.length :=
  List.length_pos_of_ne_nil h.ne_nil

theorem decodeKey_eq_some_iff {buf rest : List UInt8} {tag : Nat} {wireType : WireType} :
    decodeKey buf = some (tag, wireType, rest) ↔
      ∃ bytes, Key bytes tag wireType ∧ buf = bytes ++ rest := by
  unfold decodeKey Key
  constructor
  · intro h
    simp only [Option.bind_eq_bind, Option.bind_eq_some_iff, Prod.exists] at h
    obtain ⟨key, buf', hkey, h⟩ := h
    obtain ⟨bytes, hvarint, rfl⟩ := decodeVarint_eq_some_iff.mp hkey
    split at h
    · cases h
    · rename_i hlt
      obtain ⟨wireType', htype, h⟩ := Option.bind_eq_some_iff.mp h
      split at h
      · cases h
      · rename_i htag
        simp only [Option.some.injEq, Prod.mk.injEq] at h
        obtain ⟨rfl, rfl, rfl⟩ := h
        exact ⟨bytes, ⟨key, hvarint, Nat.lt_of_not_le hlt, htype, rfl, htag⟩, rfl⟩
  · intro h
    obtain ⟨bytes, ⟨key, hvarint, hlt, htype, rfl, htag⟩, rfl⟩ := h
    have hkey := hvarint.decode rest
    have hnot : ¬ 0x100000000 ≤ key := Nat.not_le.mpr hlt
    rw [hkey]
    simp only [Option.bind_eq_bind, Option.bind_some, if_neg hnot, htype, if_neg htag]

theorem takeExact_eq_some_iff {len : Nat} {buf value rest : List UInt8} :
    takeExact len buf = some (value, rest) ↔ value.length = len ∧ buf = value ++ rest := by
  unfold takeExact
  constructor
  · intro h
    split at h
    · cases h
    · rename_i hlen
      obtain ⟨rfl, rfl⟩ := Prod.mk.inj (Option.some.inj h)
      exact ⟨List.length_take_of_le (Nat.le_of_not_lt hlen), (List.take_append_drop len buf).symm⟩
  · intro h
    obtain ⟨rfl, rfl⟩ := h
    simp

/-- A length-delimited value: its length, and so many bytes. -/
def Delimited (bytes value : List UInt8) : Prop :=
  ∃ head, Varint head value.length ∧ bytes = head ++ value

theorem decodeBytes_eq_some_iff {buf value rest : List UInt8} :
    decodeBytes buf = some (value, rest) ↔ ∃ bytes, Delimited bytes value ∧ buf = bytes ++ rest := by
  unfold decodeBytes Delimited
  constructor
  · intro h
    simp only [Option.bind_eq_bind, Option.bind_eq_some_iff, Prod.exists] at h
    obtain ⟨len, buf', hlen, h⟩ := h
    obtain ⟨head, hvarint, rfl⟩ := decodeVarint_eq_some_iff.mp hlen
    obtain ⟨rfl, rfl⟩ := takeExact_eq_some_iff.mp h
    exact ⟨head ++ value, ⟨head, hvarint, rfl⟩, by simp⟩
  · intro h
    obtain ⟨bytes, ⟨head, hvarint, rfl⟩, rfl⟩ := h
    have hlen := hvarint.decode (value ++ rest)
    have htake : takeExact value.length (value ++ rest) = some (value, rest) :=
      takeExact_eq_some_iff.mpr ⟨rfl, rfl⟩
    simp [hlen, htake]

theorem Key.decode {bytes : List UInt8} {tag : Nat} {wireType : WireType}
    (h : Key bytes tag wireType) (rest : List UInt8) :
    decodeKey (bytes ++ rest) = some (tag, wireType, rest) :=
  decodeKey_eq_some_iff.mpr ⟨bytes, h, rfl⟩

theorem Delimited.decode {bytes value : List UInt8} (h : Delimited bytes value)
    (rest : List UInt8) : decodeBytes (bytes ++ rest) = some (value, rest) :=
  decodeBytes_eq_some_iff.mpr ⟨bytes, h, rfl⟩

/-! ## What is skipped -/

/-- A value that is no group. -/
inductive Scalar : WireType → List UInt8 → Prop where
  | varint {bytes : List UInt8} {n : Nat} : Varint bytes n → Scalar .varint bytes
  | sixtyFourBit {bytes : List UInt8} : bytes.length = 8 → Scalar .sixtyFourBit bytes
  | lengthDelimited {bytes value : List UInt8} : Delimited bytes value →
      Scalar .lengthDelimited bytes
  | thirtyTwoBit {bytes : List UInt8} : bytes.length = 4 → Scalar .thirtyTwoBit bytes

theorem skipScalar_eq_some_iff {wireType : WireType} {buf rest : List UInt8} :
    skipScalar wireType buf = some rest ↔ ∃ bytes, Scalar wireType bytes ∧ buf = bytes ++ rest := by
  constructor
  · intro h
    cases wireType with
    | varint =>
      obtain ⟨⟨n, rest'⟩, hn, rfl⟩ := Option.map_eq_some_iff.mp h
      obtain ⟨bytes, hvarint, rfl⟩ := decodeVarint_eq_some_iff.mp hn
      exact ⟨bytes, .varint hvarint, rfl⟩
    | sixtyFourBit =>
      obtain ⟨⟨value, rest'⟩, hvalue, rfl⟩ := Option.map_eq_some_iff.mp h
      obtain ⟨hlen, rfl⟩ := takeExact_eq_some_iff.mp hvalue
      exact ⟨value, .sixtyFourBit hlen, rfl⟩
    | lengthDelimited =>
      obtain ⟨⟨value, rest'⟩, hvalue, rfl⟩ := Option.map_eq_some_iff.mp h
      obtain ⟨bytes, hdelimited, rfl⟩ := decodeBytes_eq_some_iff.mp hvalue
      exact ⟨bytes, .lengthDelimited hdelimited, rfl⟩
    | thirtyTwoBit =>
      obtain ⟨⟨value, rest'⟩, hvalue, rfl⟩ := Option.map_eq_some_iff.mp h
      obtain ⟨hlen, rfl⟩ := takeExact_eq_some_iff.mp hvalue
      exact ⟨value, .thirtyTwoBit hlen, rfl⟩
    | startGroup => cases h
    | endGroup => cases h
  · intro h
    obtain ⟨bytes, hscalar, rfl⟩ := h
    cases hscalar with
    | varint hvarint => simp [skipScalar, hvarint.decode rest]
    | sixtyFourBit hlen => simp [skipScalar, takeExact_eq_some_iff.mpr ⟨hlen, rfl⟩]
    | lengthDelimited hdelimited => simp [skipScalar, hdelimited.decode rest]
    | thirtyTwoBit hlen => simp [skipScalar, takeExact_eq_some_iff.mpr ⟨hlen, rfl⟩]

theorem Scalar.skip {wireType : WireType} {bytes : List UInt8} (h : Scalar wireType bytes)
    (rest : List UInt8) : skipScalar wireType (bytes ++ rest) = some rest :=
  skipScalar_eq_some_iff.mpr ⟨bytes, h, rfl⟩

theorem Scalar.ne_group {wireType : WireType} {bytes : List UInt8} (h : Scalar wireType bytes) :
    wireType ≠ .endGroup ∧ wireType ≠ .startGroup := by
  cases h <;> simp

/-- The bytes that close the open groups, given by their tags, innermost
first. -/
inductive Closes : List Nat → List UInt8 → Prop where
  | nil : Closes [] []
  | close {tag : Nat} {tags : List Nat} {key bytes : List UInt8} :
      Key key tag .endGroup → Closes tags bytes → Closes (tag :: tags) (key ++ bytes)
  | opened {tag inner : Nat} {tags : List Nat} {key bytes : List UInt8} :
      Key key inner .startGroup → tags.length + 1 < recursionLimit →
      Closes (inner :: tag :: tags) bytes → Closes (tag :: tags) (key ++ bytes)
  | scalar {tag inner : Nat} {tags : List Nat} {wireType : WireType}
      {key value bytes : List UInt8} :
      Key key inner wireType → tags.length + 1 < recursionLimit → Scalar wireType value →
      Closes (tag :: tags) bytes → Closes (tag :: tags) (key ++ value ++ bytes)

theorem closes_of_skipGroups {fuel : Nat} {tags : List Nat} {buf rest : List UInt8}
    (h : skipGroups fuel tags buf = some rest) :
    ∃ bytes, Closes tags bytes ∧ buf = bytes ++ rest := by
  induction fuel generalizing tags buf with
  | zero =>
    cases tags with
    | nil =>
      obtain rfl := Option.some.inj h
      exact ⟨[], .nil, rfl⟩
    | cons tag tags => cases h
  | succ fuel ih =>
    cases tags with
    | nil =>
      obtain rfl := Option.some.inj h
      exact ⟨[], .nil, rfl⟩
    | cons tag tags =>
      simp only [skipGroups, Option.bind_eq_bind, Option.bind_eq_some_iff, Prod.exists] at h
      obtain ⟨inner, wireType, buf', hdecode, h⟩ := h
      obtain ⟨key, hkey, rfl⟩ := decodeKey_eq_some_iff.mp hdecode
      split at h
      · rename_i hend
        subst hend
        split at h
        · rename_i htag
          subst htag
          obtain ⟨bytes, hcloses, rfl⟩ := ih h
          exact ⟨key ++ bytes, .close hkey hcloses, by simp⟩
        · cases h
      · split at h
        · cases h
        · rename_i hdepth
          have hdepth := Nat.lt_of_not_le hdepth
          split at h
          · rename_i hstart
            subst hstart
            obtain ⟨bytes, hcloses, rfl⟩ := ih h
            exact ⟨key ++ bytes, .opened hkey hdepth hcloses, by simp⟩
          · obtain ⟨buf'', hskip, hrest⟩ := Option.bind_eq_some_iff.mp h
            obtain ⟨value, hscalar, rfl⟩ := skipScalar_eq_some_iff.mp hskip
            obtain ⟨bytes, hcloses, rfl⟩ := ih hrest
            exact ⟨key ++ value ++ bytes, .scalar hkey hdepth hscalar hcloses, by simp⟩

/-- As many rounds as there are bytes are enough. -/
theorem Closes.skip {tags : List Nat} {bytes : List UInt8} (h : Closes tags bytes)
    (rest : List UInt8) {fuel : Nat} (hfuel : bytes.length ≤ fuel) :
    skipGroups fuel tags (bytes ++ rest) = some rest := by
  induction h generalizing fuel with
  | nil => cases fuel <;> rfl
  | @close tag tags key bytes hkey _ ih =>
    have hpos := hkey.length_pos
    rw [List.length_append] at hfuel
    obtain ⟨fuel, rfl⟩ : ∃ k, fuel = k + 1 := ⟨fuel - 1, by omega⟩
    rw [List.append_assoc, skipGroups, hkey.decode]
    simpa using ih (by omega)
  | @opened tag inner tags key bytes hkey hdepth _ ih =>
    have hpos := hkey.length_pos
    rw [List.length_append] at hfuel
    obtain ⟨fuel, rfl⟩ : ∃ k, fuel = k + 1 := ⟨fuel - 1, by omega⟩
    rw [List.append_assoc, skipGroups, hkey.decode]
    simpa [Nat.not_le.mpr hdepth] using ih (by omega)
  | @scalar tag inner tags wireType key value bytes hkey hdepth hscalar _ ih =>
    have hpos := hkey.length_pos
    rw [List.length_append, List.length_append] at hfuel
    obtain ⟨fuel, rfl⟩ : ∃ k, fuel = k + 1 := ⟨fuel - 1, by omega⟩
    obtain ⟨hnotEnd, hnotStart⟩ := hscalar.ne_group
    rw [List.append_assoc, List.append_assoc, skipGroups, hkey.decode]
    simpa [hnotEnd, hnotStart, Nat.not_le.mpr hdepth, hscalar.skip] using ih (by omega)

/-- A value that is skipped, after the key it belongs to. -/
inductive Skipped (tag : Nat) : WireType → List UInt8 → Prop where
  | scalar {wireType : WireType} {bytes : List UInt8} : Scalar wireType bytes →
      Skipped tag wireType bytes
  | group {bytes : List UInt8} : Closes [tag] bytes → Skipped tag .startGroup bytes

theorem skipField_eq_some_iff {tag : Nat} {wireType : WireType} {buf rest : List UInt8} :
    skipField tag wireType buf = some rest ↔
      ∃ bytes, Skipped tag wireType bytes ∧ buf = bytes ++ rest := by
  unfold skipField
  constructor
  · intro h
    split at h
    · rename_i hstart
      subst hstart
      obtain ⟨bytes, hcloses, rfl⟩ := closes_of_skipGroups h
      exact ⟨bytes, .group hcloses, rfl⟩
    · obtain ⟨bytes, hscalar, rfl⟩ := skipScalar_eq_some_iff.mp h
      exact ⟨bytes, .scalar hscalar, rfl⟩
  · intro h
    obtain ⟨bytes, hskipped, rfl⟩ := h
    cases hskipped with
    | scalar hscalar =>
      rw [if_neg hscalar.ne_group.2]
      exact hscalar.skip rest
    | group hcloses =>
      rw [if_pos rfl]
      exact hcloses.skip rest (by simp)

/-! ## Messages of strings -/

section Strings

variable {α : Type} {fromBytes : List UInt8 → Option α}

/-- A message and the values of its field 1. -/
inductive Fields (fromBytes : List UInt8 → Option α) : List UInt8 → List α → Prop where
  | nil : Fields fromBytes [] []
  | value {key delimited bytes rest : List UInt8} {value : α} {values : List α} :
      Key key 1 .lengthDelimited → Delimited delimited bytes → fromBytes bytes = some value →
      Fields fromBytes rest values → Fields fromBytes (key ++ delimited ++ rest) (value :: values)
  | skipped {tag : Nat} {wireType : WireType} {key bytes rest : List UInt8} {values : List α} :
      Key key tag wireType → tag ≠ 1 → Skipped tag wireType bytes →
      Fields fromBytes rest values → Fields fromBytes (key ++ bytes ++ rest) values

theorem fields_of_decodeStringsFrom {fuel : Nat} {buf : List UInt8} {values : List α}
    (h : decodeStringsFrom fromBytes fuel buf = some values) : Fields fromBytes buf values := by
  induction fuel generalizing buf values with
  | zero =>
    cases buf with
    | nil =>
      obtain rfl := Option.some.inj h
      exact .nil
    | cons b buf => cases h
  | succ fuel ih =>
    cases buf with
    | nil =>
      obtain rfl := Option.some.inj h
      exact .nil
    | cons b buf =>
      simp only [decodeStringsFrom, Option.bind_eq_bind, Option.bind_eq_some_iff,
        Prod.exists] at h
      obtain ⟨tag, wireType, buf', hdecode, h⟩ := h
      obtain ⟨key, hkey, heq⟩ := decodeKey_eq_some_iff.mp hdecode
      rw [heq]
      split at h
      · rename_i htag
        subst htag
        split at h
        · rename_i htype
          subst htype
          simp only [Option.bind_eq_some_iff, Prod.exists] at h
          obtain ⟨bytes, buf'', hbytes, value, hvalue, values', hvalues, h⟩ := h
          obtain rfl := Option.some.inj h
          obtain ⟨delimited, hdelimited, hrest⟩ := decodeBytes_eq_some_iff.mp hbytes
          rw [hrest]
          rw [← List.append_assoc]
          exact .value hkey hdelimited hvalue (ih hvalues)
        · cases h
      · rename_i htag
        obtain ⟨buf'', hskip, hvalues⟩ := Option.bind_eq_some_iff.mp h
        obtain ⟨bytes, hskipped, hrest⟩ := skipField_eq_some_iff.mp hskip
        rw [hrest, ← List.append_assoc]
        exact .skipped hkey htag hskipped (ih hvalues)

/-- A round of the decoder, when there are bytes left. -/
theorem decodeStringsFrom_key {fuel tag : Nat} {wireType : WireType} {key : List UInt8}
    (hkey : Key key tag wireType) (rest : List UInt8) :
    decodeStringsFrom fromBytes (fuel + 1) (key ++ rest) =
      if tag = 1 then
        if wireType = .lengthDelimited then
          (decodeBytes rest).bind fun p => (fromBytes p.1).bind fun value =>
            (decodeStringsFrom fromBytes fuel p.2).bind fun values => some (value :: values)
        else none
      else (skipField tag wireType rest).bind (decodeStringsFrom fromBytes fuel) := by
  have hdecode := hkey.decode rest
  cases hbytes : key ++ rest with
  | nil => exact absurd (List.append_eq_nil_iff.mp hbytes).1 hkey.ne_nil
  | cons b buf =>
    rw [hbytes] at hdecode
    simp only [decodeStringsFrom, hdecode, Option.bind_eq_bind, Option.bind_some]

theorem Fields.decode {buf : List UInt8} {values : List α} (h : Fields fromBytes buf values)
    {fuel : Nat} (hfuel : buf.length ≤ fuel) :
    decodeStringsFrom fromBytes fuel buf = some values := by
  induction h generalizing fuel with
  | nil =>
    unfold decodeStringsFrom
    cases fuel <;> rfl
  | @value key delimited bytes rest value values hkey hdelimited hvalue _ ih =>
    have hpos := hkey.length_pos
    rw [List.length_append, List.length_append] at hfuel
    obtain ⟨fuel, rfl⟩ : ∃ k, fuel = k + 1 := ⟨fuel - 1, by omega⟩
    rw [List.append_assoc, decodeStringsFrom_key hkey, if_pos rfl, if_pos rfl,
      hdelimited.decode rest]
    simp [hvalue, ih (show rest.length ≤ fuel by omega)]
  | @skipped tag wireType key bytes rest values hkey htag hskipped _ ih =>
    have hpos := hkey.length_pos
    rw [List.length_append, List.length_append] at hfuel
    obtain ⟨fuel, rfl⟩ : ∃ k, fuel = k + 1 := ⟨fuel - 1, by omega⟩
    have hskip := skipField_eq_some_iff.mpr ⟨bytes, hskipped, (rfl : bytes ++ rest = _)⟩
    rw [List.append_assoc, decodeStringsFrom_key hkey, if_neg htag, hskip]
    exact ih (by omega)

/-- **The decoder accepts the messages and no other bytes.** -/
theorem decodeStrings_eq_some_iff {buf : List UInt8} {values : List α} :
    decodeStrings fromBytes buf = some values ↔ Fields fromBytes buf values :=
  ⟨fields_of_decodeStringsFrom, fun h => h.decode (Nat.le_refl _)⟩

end Strings

end FileSharing.Lib
