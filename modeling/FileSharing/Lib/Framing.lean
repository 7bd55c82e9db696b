/-
FileSharing.Lib.Framing — length-delimited frames and their incremental
decoder.

A frame is its length in four bytes, most significant first, and the data.
The decoder keeps the bytes it has not used and remembers whether the head
of the current frame is already gone. `FrameDecoder.Awaits` is what is left
to come at any moment of a frame; it does not mention how the bytes were
cut, and `decode_awaits` keeps it.

Of bytes that need not be a frame, `decode_push_of_more` says that asking
for more forgets nothing, and `decode_eq_frame_iff` which bytes give a
frame.
-/
import Mathlib.Data.List.Basic

namespace FileSharing.Lib

/-! ## Frames -/

/-- The head of a frame: the length, most significant byte first. -/
def frameHead (n : Nat) : List UInt8 :=
  [UInt8.ofNat (n / 0x1000000), UInt8.ofNat (n / 0x10000), UInt8.ofNat (n / 0x100), UInt8.ofNat n]

/-- The length four bytes stand for. -/
def frameLength (b₀ b₁ b₂ b₃ : UInt8) : Nat :=
  b₀.toNat * 0x1000000 + b₁.toNat * 0x10000 + b₂.toNat * 0x100 + b₃.toNat

theorem frameLength_frameHead {n : Nat} (h : n < 0x100000000) :
    frameLength (UInt8.ofNat (n / 0x1000000)) (UInt8.ofNat (n / 0x10000))
      (UInt8.ofNat (n / 0x100)) (UInt8.ofNat n) = n := by
  simp only [frameLength, UInt8.toNat_ofNat']
  omega

/-! ## The decoder -/

/-- Where the decoder is in a frame. -/
inductive FrameState where
  | head
  | data (n : Nat)
  deriving DecidableEq, Repr

/-- A decoder: its state, and the bytes read and not used. -/
structure FrameDecoder where
  state : FrameState
  buffer : List UInt8
  deriving DecidableEq, Repr

/-- What one call of the decoder gives. -/
inductive Decoded where
  | frame (data : List UInt8)
  | more
  | tooBig
  deriving DecidableEq, Repr

namespace FrameDecoder

/-- A decoder before the first byte. -/
def new : FrameDecoder := ⟨.head, []⟩

/-- Bytes have arrived. -/
def push (d : FrameDecoder) (bytes : List UInt8) : FrameDecoder :=
  { d with buffer := d.buffer ++ bytes }

/-- The data of a frame of length `n`, if all of it is there. -/
def decodeData (n : Nat) (buffer : List UInt8) : FrameDecoder × Decoded :=
  if buffer.length < n then (⟨.data n, buffer⟩, .more)
  else (⟨.head, buffer.drop n⟩, .frame (buffer.take n))

/-- The next frame, with frames of at most `maxLen` bytes. -/
def decode (maxLen : Nat) (d : FrameDecoder) : FrameDecoder × Decoded :=
  match d.state with
  | .data n => decodeData n d.buffer
  | .head =>
    match d.buffer with
    | b₀ :: b₁ :: b₂ :: b₃ :: rest =>
      let n := frameLength b₀ b₁ b₂ b₃
      if maxLen < n then (d, .tooBig) else decodeData n rest
    | _ => (d, .more)

/-! ## What is still to come -/

/-- The decoder is in the frame of `data`, and `todo` is what it has not
read of it. -/
def Awaits (d : FrameDecoder) (data todo : List UInt8) : Prop :=
  match d.state with
  | .head => d.buffer ++ todo = frameHead data.length ++ data
  | .data n => n = data.length ∧ d.buffer ++ todo = data

theorem new_awaits (data : List UInt8) : new.Awaits data (frameHead data.length ++ data) := by
  show [] ++ _ = _
  rw [List.nil_append]

theorem push_awaits {d : FrameDecoder} {data bytes todo : List UInt8}
    (h : d.Awaits data (bytes ++ todo)) : (d.push bytes).Awaits data todo := by
  unfold Awaits push at *
  cases hs : d.state with
  | head =>
    simp only [hs] at h ⊢
    rw [List.append_assoc, h]
  | data n =>
    simp only [hs] at h ⊢
    rw [List.append_assoc]
    exact h

theorem decodeData_awaits {n : Nat} {buffer data todo : List UInt8} (hn : n = data.length)
    (h : buffer ++ todo = data) (htodo : todo ≠ []) :
    decodeData n buffer = (⟨.data n, buffer⟩, .more) := by
  have hlen : 0 < todo.length := List.length_pos_of_ne_nil htodo
  have hlt : buffer.length < n := by
    rw [hn, ← h, List.length_append]
    omega
  rw [decodeData, if_pos hlt]

/-- While bytes are missing the decoder asks for more. -/
theorem decode_awaits {maxLen : Nat} {d : FrameDecoder} {data todo : List UInt8}
    (h : d.Awaits data todo) (hmax : data.length ≤ maxLen) (hlen : data.length < 0x100000000)
    (htodo : todo ≠ []) :
    ∃ d', d.decode maxLen = (d', .more) ∧ d'.Awaits data todo := by
  obtain ⟨state, buffer⟩ := d
  cases state with
  | data n => exact ⟨_, decodeData_awaits h.1 h.2 htodo, h⟩
  | head =>
    match buffer, h with
    | [], h => exact ⟨_, rfl, h⟩
    | [_], h => exact ⟨_, rfl, h⟩
    | [_, _], h => exact ⟨_, rfl, h⟩
    | [_, _, _], h => exact ⟨_, rfl, h⟩
    | b₀ :: b₁ :: b₂ :: b₃ :: rest, h =>
      -- the head is there, and it is the head of this frame
      simp only [Awaits, frameHead, List.cons_append, List.nil_append, List.cons.injEq] at h
      obtain ⟨rfl, rfl, rfl, rfl, h⟩ := h
      have hn := frameLength_frameHead hlen
      have hdata := decodeData_awaits rfl h htodo
      refine ⟨⟨.data data.length, rest⟩, ?_, rfl, h⟩
      simp only [decode, hn, hdata, if_neg (Nat.not_lt.mpr hmax)]

/-- With all of a frame read the decoder gives it. -/
theorem decode_complete {maxLen : Nat} {d : FrameDecoder} {data : List UInt8}
    (h : d.Awaits data []) (hmax : data.length ≤ maxLen) (hlen : data.length < 0x100000000) :
    (d.decode maxLen).2 = .frame data := by
  obtain ⟨state, buffer⟩ := d
  cases state with
  | data n =>
    obtain ⟨rfl, h⟩ := h
    have hbuffer : buffer = data := by simpa using h
    subst hbuffer
    simp [decode, decodeData]
  | head =>
    simp only [Awaits, List.append_nil] at h
    subst h
    have hn := frameLength_frameHead hlen
    have hnot : ¬ maxLen < data.length := Nat.not_lt.mpr hmax
    simp [decode, frameHead, decodeData, hn, hnot]

/-! ## Any bytes -/

@[simp] theorem push_nil (d : FrameDecoder) : d.push [] = d := by
  simp [push]

theorem push_push (d : FrameDecoder) (bytes more : List UInt8) :
    (d.push bytes).push more = d.push (bytes ++ more) := by
  simp [push]

theorem decodeData_eq_more {n : Nat} {buffer : List UInt8} {d : FrameDecoder}
    (h : decodeData n buffer = (d, .more)) : d = ⟨.data n, buffer⟩ := by
  unfold decodeData at h
  split at h
  · exact (Prod.mk.inj h).1.symm
  · exact absurd (Prod.mk.inj h).2 (by simp)

theorem decodeData_append_of_frame {n : Nat} {buffer data : List UInt8} (more : List UInt8)
    (h : (decodeData n buffer).2 = .frame data) : (decodeData n (buffer ++ more)).2 = .frame data := by
  unfold decodeData at h ⊢
  split at h
  · cases h
  · rename_i hlen
    have hle : n ≤ buffer.length := Nat.le_of_not_lt hlen
    have hnot : ¬ (buffer ++ more).length < n := by
      rw [List.length_append]
      omega
    rw [if_neg hnot, List.take_append_of_le_length hle]
    exact h

/-- A decoder that asked for more is as good as it was before. -/
theorem decode_push_of_more {maxLen : Nat} {d d' : FrameDecoder}
    (h : d.decode maxLen = (d', .more)) (bytes : List UInt8) :
    (d'.push bytes).decode maxLen = (d.push bytes).decode maxLen := by
  obtain ⟨state, buffer⟩ := d
  cases state with
  | data n =>
    obtain rfl := decodeData_eq_more h
    rfl
  | head =>
    match buffer, h with
    | [], h | [_], h | [_, _], h | [_, _, _], h =>
      obtain rfl := (Prod.mk.inj h).1
      rfl
    | b₀ :: b₁ :: b₂ :: b₃ :: rest, h =>
      simp only [decode] at h
      split at h
      · exact absurd (Prod.mk.inj h).2 (by simp)
      · rename_i hmax
        obtain rfl := decodeData_eq_more h
        simp [decode, push, hmax]

/-- What gives a frame gives it whatever comes after. -/
theorem decode_push_of_frame {maxLen : Nat} {d : FrameDecoder} {data : List UInt8}
    (h : (d.decode maxLen).2 = .frame data) (bytes : List UInt8) :
    ((d.push bytes).decode maxLen).2 = .frame data := by
  obtain ⟨state, buffer⟩ := d
  cases state with
  | data n => exact decodeData_append_of_frame bytes h
  | head =>
    match buffer, h with
    | [], h | [_], h | [_, _], h | [_, _, _], h => cases h
    | b₀ :: b₁ :: b₂ :: b₃ :: rest, h =>
      simp only [decode] at h
      split at h
      · cases h
      · rename_i hmax
        simpa [decode, push, hmax] using decodeData_append_of_frame bytes h

/-- What is too big stays too big. -/
theorem decode_push_of_tooBig {maxLen : Nat} {d : FrameDecoder}
    (h : (d.decode maxLen).2 = .tooBig) (bytes : List UInt8) :
    ((d.push bytes).decode maxLen).2 = .tooBig := by
  have hdata : ∀ n buffer, (decodeData n buffer).2 ≠ .tooBig := by
    intro n buffer
    unfold decodeData
    split <;> simp
  obtain ⟨state, buffer⟩ := d
  cases state with
  | data n => exact absurd h (hdata n buffer)
  | head =>
    match buffer, h with
    | [], h | [_], h | [_, _], h | [_, _, _], h => cases h
    | b₀ :: b₁ :: b₂ :: b₃ :: rest, h =>
      simp only [decode] at h
      split at h
      · rename_i hmax
        simp [decode, push, hmax]
      · exact absurd h (hdata _ rest)

theorem frameHead_frameLength (b₀ b₁ b₂ b₃ : UInt8) :
    frameHead (frameLength b₀ b₁ b₂ b₃) = [b₀, b₁, b₂, b₃] := by
  have h₀ := b₀.toNat_lt
  have h₁ := b₁.toNat_lt
  have h₂ := b₂.toNat_lt
  have h₃ := b₃.toNat_lt
  unfold frameHead frameLength
  simp only [List.cons.injEq, and_true, ← UInt8.toNat_inj, UInt8.toNat_ofNat']
  omega

theorem decodeData_eq_frame_iff {n : Nat} {buffer data : List UInt8} :
    (decodeData n buffer).2 = .frame data ↔ data.length = n ∧ ∃ tail, buffer = data ++ tail := by
  unfold decodeData
  constructor
  · intro h
    split at h
    · cases h
    · rename_i hlen
      obtain rfl := Decoded.frame.inj h
      exact ⟨List.length_take_of_le (Nat.le_of_not_lt hlen), buffer.drop n,
        (List.take_append_drop n buffer).symm⟩
  · intro h
    obtain ⟨rfl, tail, rfl⟩ := h
    rw [if_neg (by simp)]
    simp

/-- **The bytes that give a frame**: its head, its data, and anything after
them. -/
theorem decode_eq_frame_iff {maxLen : Nat} (hmax : maxLen < 0x100000000) {bytes data : List UInt8} :
    (decode maxLen ⟨.head, bytes⟩).2 = .frame data ↔
      data.length ≤ maxLen ∧ ∃ tail, bytes = frameHead data.length ++ data ++ tail := by
  constructor
  · intro h
    match bytes, h with
    | [], h | [_], h | [_, _], h | [_, _, _], h => cases h
    | b₀ :: b₁ :: b₂ :: b₃ :: rest, h =>
      have hhead := frameHead_frameLength b₀ b₁ b₂ b₃
      simp only [decode] at h
      generalize frameLength b₀ b₁ b₂ b₃ = n at h hhead
      split at h
      · cases h
      · rename_i hle
        obtain ⟨rfl, tail, rfl⟩ := decodeData_eq_frame_iff.mp h
        refine ⟨Nat.le_of_not_lt hle, tail, ?_⟩
        rw [hhead]
        rfl
  · intro h
    obtain ⟨hle, tail, rfl⟩ := h
    have hn := frameLength_frameHead (Nat.lt_of_le_of_lt hle hmax)
    have hnot : ¬ maxLen < data.length := Nat.not_lt.mpr hle
    simp only [frameHead, List.cons_append, List.nil_append, decode, hn, if_neg hnot]
    exact decodeData_eq_frame_iff.mpr ⟨rfl, tail, rfl⟩

end FrameDecoder

end FileSharing.Lib
