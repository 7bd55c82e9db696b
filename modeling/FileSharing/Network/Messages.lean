/-
FileSharing.Network.Messages — which bytes the two readers accept.

A node reads two kinds of messages from its peers, requests for a file and
lists of files, and reads what the peers like to send. `messages_survive_wire`
is about bytes that one of our writers made; here they are ANY bytes, cut
in any way.

How they are cut does not matter (`framedNext_chunks`). And what is accepted
is the format: a frame of at most 8 MiB whose data are a sequence of protobuf
fields with UTF-8 in every value of field 1 (`messages_accepted_iff`).
What comes after the frame is not looked at.
-/
import FileSharing.Lib.ProtobufGrammar
import FileSharing.Network.ListFilesCodec

namespace FileSharing

open Lib

/-! ## Cutting -/

/-- Bytes that are not all there yet are the same as before they were
looked at. -/
theorem framedEof_push_of_more {d d' : FrameDecoder}
    (h : d.decode maxFrameLength = (d', .more)) (bytes : List UInt8) :
    framedEof (d'.push bytes) = framedEof (d.push bytes) := by
  unfold framedEof
  rw [FrameDecoder.decode_push_of_more h]

/-- **Reading pieces is reading all of the bytes at the end.** -/
theorem framedNext_chunks (d : FrameDecoder) (chunks : List (List UInt8))
    (hcut : ∀ c ∈ chunks, c ≠ []) {eof : List ReadResult} (heof : EndOfStream eof) :
    framedNext d (chunks.map .data ++ eof) = framedEof (d.push chunks.flatten) := by
  induction chunks generalizing d with
  | nil =>
    rw [List.flatten_nil, FrameDecoder.push_nil]
    obtain rfl | ⟨rest, rfl⟩ := heof <;> rfl
  | cons chunk chunks ih =>
    have hchunk : chunk.isEmpty = false := by simpa using hcut chunk List.mem_cons_self
    have hrest := fun d' => ih d' fun c hc => hcut c (List.mem_cons_of_mem _ hc)
    rw [List.flatten_cons, ← FrameDecoder.push_push]
    simp only [List.map_cons, List.cons_append, framedNext, hchunk, Bool.false_eq_true, if_false]
    cases hdecode : (d.push chunk).decode maxFrameLength with
    | mk d' decoded =>
      cases decoded with
      | frame data =>
        have hframe := FrameDecoder.decode_push_of_frame (congrArg Prod.snd hdecode) chunks.flatten
        unfold framedEof
        cases hall : ((d.push chunk).push chunks.flatten).decode maxFrameLength with
        | mk d'' decoded' =>
          rw [hall] at hframe
          dsimp only at hframe
          rw [hframe]
      | tooBig =>
        have hbig := FrameDecoder.decode_push_of_tooBig (congrArg Prod.snd hdecode) chunks.flatten
        unfold framedEof
        cases hall : ((d.push chunk).push chunks.flatten).decode maxFrameLength with
        | mk d'' decoded' =>
          rw [hall] at hbig
          dsimp only at hbig
          rw [hbig]
      | more =>
        dsimp only
        rw [hrest d', framedEof_push_of_more hdecode]

section Receive

variable {α : Type} {decode : List UInt8 → Option α} {chunks : List (List UInt8)}
  {eof : List ReadResult}

theorem framedEof_eq_frame_iff {d : FrameDecoder} {data : List UInt8} :
    framedEof d = .ok (some data) ↔ (d.decode maxFrameLength).2 = .frame data := by
  unfold framedEof
  cases d.decode maxFrameLength with
  | mk d' decoded =>
    cases decoded with
    | frame data' => simp
    | tooBig => simp
    | more =>
      dsimp only
      split <;> simp

/-- A message is accepted when it is in the first frame of the bytes. -/
theorem receiveFramed_eq_ok_iff (hcut : ∀ c ∈ chunks, c ≠ []) (heof : EndOfStream eof) {m : α} :
    receiveFramed decode (chunks.map .data ++ eof) = .ok m ↔
      ∃ data tail, data.length ≤ maxFrameLength ∧ chunks.flatten = frameOf data ++ tail ∧
        decode data = some m := by
  unfold receiveFramed
  rw [framedNext_chunks _ chunks hcut heof]
  have hframe : ∀ data, framedEof (FrameDecoder.new.push chunks.flatten) = .ok (some data) ↔
      data.length ≤ maxFrameLength ∧ ∃ tail, chunks.flatten = frameOf data ++ tail := fun data =>
    framedEof_eq_frame_iff.trans (FrameDecoder.decode_eq_frame_iff (by decide))
  constructor
  · intro h
    cases hread : framedEof (FrameDecoder.new.push chunks.flatten) with
    | error e => simp [hread] at h
    | ok frame =>
      cases frame with
      | none => simp [hread] at h
      | some data =>
        obtain ⟨hlen, tail, hbytes⟩ := (hframe data).mp hread
        simp only [hread] at h
        split at h
        · rename_i message hdecode
          obtain rfl := Except.ok.inj h
          exact ⟨data, tail, hlen, hbytes, hdecode⟩
        · cases h
  · intro h
    obtain ⟨data, tail, hlen, hbytes, hdecode⟩ := h
    rw [(hframe data).mpr ⟨hlen, tail, hbytes⟩]
    simp only [hdecode]

end Receive

/-! ## The two messages -/

/-- **What the readers accept**, of any bytes in any pieces: the first frame
of them, if it is no longer than 8 MiB and its data are a message. The name
of a request is the last one it has, or none. -/
theorem messages_accepted_iff {chunks : List (List UInt8)} {eof : List ReadResult}
    (hcut : ∀ c ∈ chunks, c ≠ []) (heof : EndOfStream eof) :
    (∀ message, tokioReceiveMessage (chunks.map .data ++ eof) = .ok message ↔
      ∃ data tail names, data.length ≤ maxFrameLength ∧ chunks.flatten = frameOf data ++ tail ∧
        Fields fromUtf8 data names ∧ message = ⟨names.getLast?.getD ""⟩) ∧
    ∀ response, ListFilesCodec.readResponse (chunks.map .data ++ eof) = .ok response ↔
      ∃ data tail, data.length ≤ maxFrameLength ∧ chunks.flatten = frameOf data ++ tail ∧
        Fields fromUtf8 data response.fileNames := by
  constructor
  · intro message
    refine (receiveFramed_eq_ok_iff hcut heof).trans ?_
    constructor
    · intro h
      obtain ⟨data, tail, hlen, hbytes, hdecode⟩ := h
      obtain ⟨names, hnames, rfl⟩ := Option.map_eq_some_iff.mp hdecode
      exact ⟨data, tail, names, hlen, hbytes, decodeStrings_eq_some_iff.mp hnames, rfl⟩
    · intro h
      obtain ⟨data, tail, names, hlen, hbytes, hfields, rfl⟩ := h
      refine ⟨data, tail, hlen, hbytes, ?_⟩
      rw [FileGetMessage.decode, decodeStrings_eq_some_iff.mpr hfields]
      rfl
  · intro response
    refine (receiveFramed_eq_ok_iff hcut heof).trans ?_
    constructor
    · intro h
      obtain ⟨data, tail, hlen, hbytes, hdecode⟩ := h
      obtain ⟨names, hnames, rfl⟩ := Option.map_eq_some_iff.mp hdecode
      exact ⟨data, tail, hlen, hbytes, decodeStrings_eq_some_iff.mp hnames⟩
    · intro h
      obtain ⟨data, tail, hlen, hbytes, hfields⟩ := h
      refine ⟨data, tail, hlen, hbytes, ?_⟩
      rw [ListFilesResponse.decode, decodeStrings_eq_some_iff.mpr hfields]
      rfl

/-- Two names in one request, byte by byte, and something after it. -/
def twoNames : List (List UInt8) :=
  [[0], [0], [0], [6], [0x0A], [1], [97], [0x0A], [1], [98], [7]]

/-- The second name is the one asked for. -/
theorem messages_accepted_iff_twice : ∃ data tail names, data.length ≤ maxFrameLength ∧
    twoNames.flatten = frameOf data ++ tail ∧ Fields fromUtf8 data names ∧
    names.getLast?.getD "" = "b" := by
  have hcut : ∀ c ∈ twoNames, c ≠ [] := by decide
  have heof : EndOfStream [] := Or.inl rfl
  obtain ⟨hrequest, -⟩ := messages_accepted_iff hcut heof
  obtain ⟨data, tail, names, hlen, hbytes, hfields, hname⟩ :=
    (hrequest ⟨"b"⟩).mp (by decide +kernel)
  exact ⟨data, tail, names, hlen, hbytes, hfields, congrArg FileGetMessage.fileName hname.symm⟩

end FileSharing
