/-
FileSharing.Lib.Protobuf — as much of the protobuf wire format as a message
of strings needs: varints, keys, length-delimited values, and the skipping
of fields a message does not know.

Numbers are natural numbers; where the format bounds them (ten bytes and
64 bits for a varint, 32 bits for a key, 100 levels of nested groups) the
decoder has the same bound. Loops over a buffer run on a fuel: every round
takes a byte at least, so the length of the buffer is enough.

`decodeStrings_encodeStrings` is the round trip: the values of a string
field come back in order.
-/
import Mathlib.Data.List.Basic

namespace FileSharing.Lib

/-! ## Varints -/

/-- The varint encoding of a length; ten groups of seven bits hold any
`u64`. -/
def encodeVarint : Nat → Nat → List UInt8
  | 0, _ => []
  | fuel + 1, n =>
    if n < 128 then [UInt8.ofNat n]
    else UInt8.ofNat (n % 128 + 128) :: encodeVarint fuel (n / 128)

/-- Read on, with so many groups to go. The last of ten groups has one bit
left of the 64. -/
def decodeVarintFrom : Nat → Nat → Nat → List UInt8 → Option (Nat × List UInt8)
  | 0, _, _, _ => none
  | _ + 1, _, _, [] => none
  | groups + 1, scale, value, b :: rest =>
    let value := value + b.toNat % 128 * scale
    if b.toNat < 128 then
      if groups = 0 ∧ 2 ≤ b.toNat then none else some (value, rest)
    else decodeVarintFrom groups (scale * 128) value rest

/-- Decode a varint: its value, and the bytes after it. -/
def decodeVarint (buf : List UInt8) : Option (Nat × List UInt8) := decodeVarintFrom 10 1 0 buf

theorem toNat_ofNat_lt {n : Nat} (h : n < 256) : (UInt8.ofNat n).toNat = n := by
  simp only [UInt8.toNat_ofNat']
  omega

theorem decodeVarintFrom_encodeVarint (groups : Nat) (scale value n : Nat) (rest : List UInt8)
    (h : n < 2 * Nat.pow 128 groups) :
    decodeVarintFrom (groups + 1) scale value (encodeVarint (groups + 1) n ++ rest) =
      some (value + n * scale, rest) := by
  induction groups generalizing scale value n with
  | zero =>
    have hn : n < 2 := h
    have hbyte : (UInt8.ofNat n).toNat = n := toNat_ofNat_lt (by omega)
    have hmod : n % 128 = n := by omega
    have hlt : n < 128 := by omega
    have hnot : ¬ 2 ≤ n := by omega
    simp [encodeVarint, decodeVarintFrom, hlt, hbyte, hmod, hnot]
  | succ groups ih =>
    rw [encodeVarint]
    split
    · rename_i hlt
      have hbyte : (UInt8.ofNat n).toNat = n := toNat_ofNat_lt (by omega)
      have hmod : n % 128 = n := by omega
      simp [decodeVarintFrom, hlt, hbyte, hmod]
    · rename_i hge
      have hbyte : (UInt8.ofNat (n % 128 + 128)).toNat = n % 128 + 128 := toNat_ofNat_lt (by omega)
      have hdiv : n / 128 < 2 * Nat.pow 128 groups := by
        have hpow : Nat.pow 128 (groups + 1) = Nat.pow 128 groups * 128 := rfl
        omega
      have hmod : (n % 128 + 128) % 128 = n % 128 := by omega
      have hbig : ¬ n % 128 + 128 < 128 := by omega
      rw [List.cons_append, decodeVarintFrom, hbyte, if_neg hbig, hmod, ih _ _ _ hdiv]
      -- the two parts of the number come together again
      have hsum : n % 128 * scale + n / 128 * (scale * 128) = n * scale := by
        rw [Nat.mul_comm scale 128, ← Nat.mul_assoc, ← Nat.add_mul]
        congr 1
        omega
      rw [Nat.add_assoc, hsum]

/-- **Round trip of varints**, for every 64-bit number. -/
theorem decodeVarint_encodeVarint {n : Nat} (h : n < UInt64.size) (rest : List UInt8) :
    decodeVarint (encodeVarint 10 n ++ rest) = some (n, rest) := by
  have := decodeVarintFrom_encodeVarint 9 1 0 n rest h
  simpa [decodeVarint] using this

/-! ## Keys and values -/

/-- The wire types. -/
inductive WireType where
  | varint
  | sixtyFourBit
  | lengthDelimited
  | startGroup
  | endGroup
  | thirtyTwoBit
  deriving DecidableEq, Repr

/-- `WireType::try_from`. -/
def WireType.ofNat? : Nat → Option WireType
  | 0 => some .varint
  | 1 => some .sixtyFourBit
  | 2 => some .lengthDelimited
  | 3 => some .startGroup
  | 4 => some .endGroup
  | 5 => some .thirtyTwoBit
  | _ => none

/-- Decode the key of a field: its tag and its wire type. -/
def decodeKey (buf : List UInt8) : Option (Nat × WireType × List UInt8) := do
  let (key, buf) ← decodeVarint buf
  if 0x100000000 ≤ key then none
  else
    let wireType ← WireType.ofNat? (key % 8)
    if key / 8 = 0 then none else some (key / 8, wireType, buf)

/-- Take so many bytes, if there are as many. -/
def takeExact (len : Nat) (buf : List UInt8) : Option (List UInt8 × List UInt8) :=
  if buf.length < len then none else some (buf.take len, buf.drop len)

/-- Decode a length-delimited value. -/
def decodeBytes (buf : List UInt8) : Option (List UInt8 × List UInt8) := do
  let (len, buf) ← decodeVarint buf
  takeExact len buf

/-- Skip a value that is no group. -/
def skipScalar (wireType : WireType) (buf : List UInt8) : Option (List UInt8) :=
  match wireType with
  | .varint => (decodeVarint buf).map (·.2)
  | .sixtyFourBit => (takeExact 8 buf).map (·.2)
  | .lengthDelimited => (decodeBytes buf).map (·.2)
  | .thirtyTwoBit => (takeExact 4 buf).map (·.2)
  | .startGroup => none
  | .endGroup => none

/-- The nesting of groups a decoder follows. -/
def recursionLimit : Nat := 100

/-- Skip to the end of the groups that are open, innermost first. -/
def skipGroups : Nat → List Nat → List UInt8 → Option (List UInt8)
  | _, [], buf => some buf
  | 0, _ :: _, _ => none
  | fuel + 1, tag :: tags, buf => do
    let (innerTag, wireType, buf) ← decodeKey buf
    if wireType = .endGroup then
      if innerTag = tag then skipGroups fuel tags buf else none
    else if recursionLimit ≤ tags.length + 1 then none
    else if wireType = .startGroup then skipGroups fuel (innerTag :: tag :: tags) buf
    else
      let buf ← skipScalar wireType buf
      skipGroups fuel (tag :: tags) buf

/-- Skip a field the message does not have. -/
def skipField (tag : Nat) (wireType : WireType) (buf : List UInt8) : Option (List UInt8) :=
  if wireType = .startGroup then skipGroups buf.length [tag] buf else skipScalar wireType buf

/-! ## Messages of strings -/

section Strings

variable {α : Type} (fromBytes : List UInt8 → Option α)

/-- The values of field 1, a string, in the order in which they come; other
fields are skipped. -/
def decodeStringsFrom : Nat → List UInt8 → Option (List α)
  | _, [] => some []
  | 0, _ :: _ => none
  | fuel + 1, b :: rest => do
    let (tag, wireType, buf) ← decodeKey (b :: rest)
    if tag = 1 then
      if wireType = .lengthDelimited then
        let (bytes, buf) ← decodeBytes buf
        let value ← fromBytes bytes
        let values ← decodeStringsFrom fuel buf
        some (value :: values)
      else none
    else
      let buf ← skipField tag wireType buf
      decodeStringsFrom fuel buf

/-- Decode a message whose only field is a string field with tag 1. -/
def decodeStrings (buf : List UInt8) : Option (List α) := decodeStringsFrom fromBytes buf.length buf

/-- One value of field 1: key, length, bytes. -/
def encodeString (bytes : List UInt8) : List UInt8 :=
  0x0A :: (encodeVarint 10 bytes.length ++ bytes)

theorem decodeKey_encodeString (buf : List UInt8) :
    decodeKey (0x0A :: buf) = some (1, .lengthDelimited, buf) := rfl

theorem decodeBytes_encoded {bytes : List UInt8} (h : bytes.length < UInt64.size)
    (rest : List UInt8) :
    decodeBytes (encodeVarint 10 bytes.length ++ bytes ++ rest) = some (bytes, rest) := by
  unfold decodeBytes
  rw [List.append_assoc, decodeVarint_encodeVarint h]
  simp [takeExact]

variable {fromBytes}

theorem decodeStringsFrom_encodeStrings {toBytes : α → List UInt8} (values : List α)
    (hrt : ∀ v, fromBytes (toBytes v) = some v)
    (hlen : ∀ v ∈ values, (toBytes v).length < UInt64.size) {fuel : Nat}
    (hfuel : values.length ≤ fuel) :
    decodeStringsFrom fromBytes fuel (values.flatMap fun v => encodeString (toBytes v)) =
      some values := by
  induction values generalizing fuel with
  | nil =>
    unfold decodeStringsFrom
    simp
  | cons v values ih =>
    rw [List.length_cons] at hfuel
    obtain ⟨fuel, rfl⟩ : ∃ k, fuel = k + 1 := ⟨fuel - 1, by omega⟩
    have hrest := ih (fun x hx => hlen x (List.mem_cons_of_mem _ hx))
      (Nat.le_of_succ_le_succ hfuel)
    have hbytes := decodeBytes_encoded (hlen v List.mem_cons_self)
      (values.flatMap fun v => encodeString (toBytes v))
    rw [List.append_assoc] at hbytes
    rw [List.flatMap_cons]
    conv => lhs; rw [encodeString]
    rw [List.cons_append, decodeStringsFrom, decodeKey_encodeString]
    simp [hbytes, hrt, hrest]

/-- **Round trip**: the strings of a message come back. -/
theorem decodeStrings_encodeStrings {toBytes : α → List UInt8} (values : List α)
    (hrt : ∀ v, fromBytes (toBytes v) = some v)
    (hlen : ∀ v ∈ values, (toBytes v).length < UInt64.size) :
    decodeStrings fromBytes (values.flatMap fun v => encodeString (toBytes v)) = some values := by
  refine decodeStringsFrom_encodeStrings values hrt hlen ?_
  -- every value takes at least its key
  clear hlen
  induction values with
  | nil => simp
  | cons v values ih =>
    simp only [List.flatMap_cons, List.length_append, List.length_cons, encodeString] at ih ⊢
    omega

end Strings

end FileSharing.Lib
