/-
FileSharing.FileGet.Wire — the receiving side of the request message
(`receive_message` in `file-get/src/protocol.rs`), and what the framed
transport keeps of a message.

`FramedRead` reads until its decoder has a frame, whatever pieces the
transport delivers; at the end of the stream it gives the decoder a last
chance and then says either that nothing was there or that bytes remain.

`SurvivesWire` says of a writer and a reader that they fit together. It is
a statement about any message type: the list of files goes through the
same frames.
-/
import FileSharing.FileGet.Protocol
import FileSharing.Lib.Framing

namespace FileSharing

open Lib

/-! ## Reading frames -/

/-- `FramedRead::next` at the end of the stream, that is `decode_eof`. -/
def framedEof (d : FrameDecoder) : Except IoError (Option (List UInt8)) :=
  match d.decode maxFrameLength with
  | (_, .frame data) => .ok (some data)
  | (_, .tooBig) => .error ⟨.invalidData⟩
  | (d, .more) =>
    -- "bytes remaining on stream"
    if d.buffer.isEmpty then .ok none else .error ⟨.other 0⟩

/-- `FramedRead::next`: read, decode, and read again while the decoder
wants more. -/
def framedNext : FrameDecoder → List ReadResult → Except IoError (Option (List UInt8))
  | d, [] => framedEof d
  | _, .error e :: _ => .error e
  | d, .data bytes :: rest =>
    if bytes.isEmpty then framedEof d
    else
      match (d.push bytes).decode maxFrameLength with
      | (_, .frame data) => .ok (some data)
      | (_, .tooBig) => .error ⟨.invalidData⟩
      | (d, .more) => framedNext d rest

/-- What both readers make of a stream: the first frame, decoded; no frame
and no message are an unexpected end. -/
def receiveFramed {α : Type} (decode : List UInt8 → Option α) (reads : List ReadResult) :
    Except IoError α :=
  match framedNext FrameDecoder.new reads with
  | .error e => .error e
  | .ok (some data) =>
    match decode data with
    | some message => .ok message
    | none => .error ⟨.unexpectedEof⟩
  | .ok none => .error ⟨.unexpectedEof⟩

/-! ## Decoding -/

/-- `String::from_utf8`. -/
def fromUtf8 (bytes : List UInt8) : Option String := String.fromUTF8? ⟨bytes.toArray⟩

/-- `FileGetMessage::decode`: the last value of a field that comes more
than once, and the default of one that does not come. -/
def FileGetMessage.decode (buf : List UInt8) : Option FileGetMessage :=
  (decodeStrings fromUtf8 buf).map fun names => ⟨names.getLast?.getD ""⟩

/-- `tokio_receive_message`. -/
def tokioReceiveMessage (socket : List ReadResult) : Except IoError FileGetMessage :=
  receiveFramed FileGetMessage.decode socket

theorem fromUtf8_utf8 (s : String) : fromUtf8 (utf8 s) = some s := by
  have hvalid := s.isValidUTF8
  simp only [fromUtf8, utf8, String.toUTF8_eq_toByteArray, String.fromUTF8?, Array.toArray_toList,
    hvalid, dif_pos]
  rfl

theorem utf8_eq_nil {s : String} (h : utf8 s = []) : s = "" := by
  have h1 := fromUtf8_utf8 s
  have h2 := fromUtf8_utf8 ""
  rw [h] at h1
  have hempty : utf8 "" = [] := rfl
  rw [hempty, h1] at h2
  exact Option.some.inj h2

/-- **Round trip of the request message.** -/
theorem FileGetMessage.decode_encode (m : FileGetMessage)
    (h : m.encode.length ≤ maxFrameLength) : FileGetMessage.decode m.encode = some m := by
  obtain ⟨name⟩ := m
  unfold FileGetMessage.encode at h ⊢
  by_cases hname : utf8 name = []
  · -- the default value is not on the wire
    obtain rfl := utf8_eq_nil hname
    rfl
  · have hne : (utf8 name).isEmpty = false := by simpa using hname
    simp only [hne, Bool.false_eq_true, if_false] at h ⊢
    have hlen : (utf8 name).length < UInt64.size := by
      simp only [List.length_cons, List.length_append, maxFrameLength] at h
      simp only [UInt64.size]
      omega
    have hrt := decodeStrings_encodeStrings [name] fromUtf8_utf8 (by simpa using hlen)
    simp only [List.flatMap_cons, List.flatMap_nil, List.append_nil, encodeString] at hrt
    simp [FileGetMessage.decode, hrt]

/-! ## A message through the frames -/

/-- `FramedWrite::send`: one frame, written and flushed. -/
def sendFramed (data : List UInt8) (writer : Sink) : Sink × Except IoError Unit :=
  match encodeFrame data with
  | .error e => (writer, .error e)
  | .ok frame =>
    match writer.write frame with
    | (writer, .error e) => (writer, .error e)
    | (writer, .ok ()) => writer.flush

/-- A frame: the head and the data. -/
def frameOf (data : List UInt8) : List UInt8 := frameHead data.length ++ data

theorem encodeFrame_eq {data : List UInt8} (h : data.length ≤ maxFrameLength) :
    encodeFrame data = .ok (frameOf data) := by
  rw [encodeFrame, if_neg (Nat.not_lt.mpr h)]
  rfl

theorem encodeFrame_tooLong {data : List UInt8} (h : maxFrameLength < data.length) :
    encodeFrame data = .error ⟨.invalidInput⟩ := by
  rw [encodeFrame, if_pos h]

theorem sendFramed_tooLong {data : List UInt8} (h : maxFrameLength < data.length) (w : Sink) :
    sendFramed data w = (w, .error ⟨.invalidInput⟩) := by
  rw [sendFramed, encodeFrame_tooLong h]

theorem sendFramed_faultless {data : List UInt8} (h : data.length ≤ maxFrameLength) {w : Sink}
    (hw : w.faults = []) : (sendFramed data w).2 = .ok () := by
  simp [sendFramed, encodeFrame_eq h, Sink.write, Sink.flush, hw]

/-- A flush writes nothing. -/
theorem Sink.flush_written (w : Sink) : w.flush.1.written = w.written := by
  unfold Sink.flush
  split <;> rfl

/-- A writer that returns `Ok` has taken all the bytes. -/
theorem Sink.write_ok {w w' : Sink} {bytes : List UInt8} (h : w.write bytes = (w', .ok ())) :
    w'.written = w.written ++ bytes := by
  unfold Sink.write at h
  split at h
  · obtain rfl := (Prod.mk.inj h).1
    rfl
  · obtain rfl := (Prod.mk.inj h).1
    rfl
  · exact absurd (Prod.mk.inj h).2 (by simp)

/-- When the sender returns `Ok`, the data were short enough and their frame
is written. -/
theorem sendFramed_ok {data : List UInt8} {w w' : Sink} (h : sendFramed data w = (w', .ok ())) :
    data.length ≤ maxFrameLength ∧ w'.written = w.written ++ frameOf data := by
  by_cases hmax : data.length ≤ maxFrameLength
  · refine ⟨hmax, ?_⟩
    rw [sendFramed, encodeFrame_eq hmax] at h
    cases hw : w.write (frameOf data) with
    | mk w₁ result =>
      cases result with
      | error e => simp [hw] at h
      | ok _ =>
        simp only [hw] at h
        have hflush : w'.written = w₁.written := by
          rw [← w₁.flush_written, h]
        rw [hflush, Sink.write_ok hw]
  · rw [sendFramed_tooLong (Nat.not_le.mp hmax)] at h
    exact absurd (Prod.mk.inj h).2 (by simp)

/-- However the rest of a frame is cut, all of it together is the frame. -/
theorem framedNext_complete {data : List UInt8} (hmax : data.length ≤ maxFrameLength)
    (chunks : List (List UInt8)) (rest : List ReadResult) (d : FrameDecoder)
    (hcut : ∀ c ∈ chunks, c ≠ []) (hne : chunks ≠ []) (h : d.Awaits data chunks.flatten) :
    framedNext d (chunks.map .data ++ rest) = .ok (some data) := by
  have hlen : data.length < 0x100000000 := by
    simp only [maxFrameLength] at hmax
    omega
  induction chunks generalizing d with
  | nil => exact absurd rfl hne
  | cons chunk chunks ih =>
    have hchunk : chunk.isEmpty = false := by simpa using hcut chunk List.mem_cons_self
    have hpush : (d.push chunk).Awaits data chunks.flatten := FrameDecoder.push_awaits h
    simp only [List.map_cons, List.cons_append, framedNext, hchunk, Bool.false_eq_true, if_false]
    by_cases hlast : chunks = []
    · subst hlast
      have hframe := FrameDecoder.decode_complete hpush hmax hlen
      cases hd : (d.push chunk).decode maxFrameLength with
      | mk d' decoded =>
        rw [hd] at hframe
        simp only at hframe
        subst hframe
        rfl
    · have htodo : chunks.flatten ≠ [] := by
        intro hnil
        obtain ⟨c, hc⟩ := List.exists_mem_of_ne_nil chunks hlast
        exact hcut c (List.mem_cons_of_mem _ hc) (List.flatten_eq_nil_iff.mp hnil c hc)
      obtain ⟨d', hd, hleft⟩ := FrameDecoder.decode_awaits hpush hmax hlen htodo
      rw [hd]
      exact ih d' (fun c hc => hcut c (List.mem_cons_of_mem _ hc)) hlast hleft

/-- The end of a stream, as a reader sees it: no more reads, or one that
gives no bytes. -/
def EndOfStream (reads : List ReadResult) : Prop := reads = [] ∨ ∃ rest, reads = .data [] :: rest

/-- A frame that is cut short is no frame. -/
theorem framedNext_truncated {data : List UInt8} (hmax : data.length ≤ maxFrameLength)
    (chunks : List (List UInt8)) (missing : List UInt8) (d : FrameDecoder)
    (hcut : ∀ c ∈ chunks, c ≠ []) (hmissing : missing ≠ [])
    (h : d.Awaits data (chunks.flatten ++ missing)) {eof : List ReadResult}
    (heof : EndOfStream eof) :
    ∀ frame, framedNext d (chunks.map .data ++ eof) ≠ .ok (some frame) := by
  have hlen : data.length < 0x100000000 := by
    simp only [maxFrameLength] at hmax
    omega
  induction chunks generalizing d with
  | nil =>
    intro frame
    have hd : framedNext d ([].map .data ++ eof) = framedEof d := by
      obtain rfl | ⟨rest, rfl⟩ := heof <;> rfl
    rw [hd, framedEof]
    obtain ⟨d', hmore, -⟩ := FrameDecoder.decode_awaits h hmax hlen hmissing
    rw [hmore]
    simp only
    split <;> simp
  | cons chunk chunks ih =>
    have hchunk : chunk.isEmpty = false := by simpa using hcut chunk List.mem_cons_self
    rw [List.flatten_cons, List.append_assoc] at h
    have hpush := FrameDecoder.push_awaits h
    have htodo : chunks.flatten ++ missing ≠ [] := by
      intro hnil
      exact hmissing (List.append_eq_nil_iff.mp hnil).2
    obtain ⟨d', hmore, hleft⟩ := FrameDecoder.decode_awaits hpush hmax hlen htodo
    simp only [List.map_cons, List.cons_append, framedNext, hchunk, Bool.false_eq_true, if_false,
      hmore]
    exact ih d' (fun c hc => hcut c (List.mem_cons_of_mem _ hc)) hleft

/-! ## Both ends together -/

/-- A writer and a reader of messages fit together. -/
structure SurvivesWire {α : Type} (encode : α → List UInt8)
    (write : α → Sink → Sink × Except IoError Unit) (read : List ReadResult → Except IoError α) :
    Prop where
  /-- A message within the limit is written by every writer that takes it. -/
  accepted : ∀ m w, (encode m).length ≤ maxFrameLength → w.faults = [] → (write m w).2 = .ok ()
  /-- What was written is read as the same message, in whatever pieces it
  arrives. -/
  returned : ∀ m w w', write m w = (w', .ok ()) →
    ∃ bytes, w'.written = w.written ++ bytes ∧
      ∀ (chunks : List (List UInt8)) (rest : List ReadResult), (∀ c ∈ chunks, c ≠ []) →
        chunks.flatten = bytes → read (chunks.map .data ++ rest) = .ok m
  /-- A part of it is no message, in whatever pieces it arrives. -/
  truncated : ∀ m w w', write m w = (w', .ok ()) →
    ∀ bytes, w'.written = w.written ++ bytes →
      ∀ (chunks : List (List UInt8)) (eof : List ReadResult), (∀ c ∈ chunks, c ≠ []) →
        chunks.flatten <+: bytes → chunks.flatten ≠ bytes → EndOfStream eof →
        ∃ e, read (chunks.map .data ++ eof) = .error e
  /-- A message over the limit is refused before anything is written. -/
  tooLong : ∀ m w, maxFrameLength < (encode m).length → ∃ e, write m w = (w, .error e)

/-- What does not come back as a frame is an error. -/
theorem receiveFramed_error {α : Type} {decode : List UInt8 → Option α} {reads : List ReadResult}
    (h : ∀ frame, framedNext FrameDecoder.new reads ≠ .ok (some frame)) :
    ∃ e, receiveFramed decode reads = .error e := by
  unfold receiveFramed
  split
  · exact ⟨_, rfl⟩
  · rename_i data hframe
    exact absurd hframe (h data)
  · exact ⟨_, rfl⟩

/-- Messages whose encoding decodes go through the frames. -/
theorem survivesWire_framed {α : Type} {encode : α → List UInt8} {decode : List UInt8 → Option α}
    (hrt : ∀ m, (encode m).length ≤ maxFrameLength → decode (encode m) = some m) :
    SurvivesWire encode (fun m => sendFramed (encode m)) (receiveFramed decode) where
  accepted := fun _ _ hmax hw => sendFramed_faultless hmax hw
  returned := by
    intro m w w' h
    obtain ⟨hmax, hwritten⟩ := sendFramed_ok h
    refine ⟨_, hwritten, ?_⟩
    intro chunks rest hcut hbytes
    have hne : chunks ≠ [] := by
      rintro rfl
      simp [frameOf, frameHead] at hbytes
    have hawaits : FrameDecoder.new.Awaits (encode m) chunks.flatten := by
      rw [hbytes]
      exact FrameDecoder.new_awaits _
    rw [receiveFramed, framedNext_complete hmax chunks rest _ hcut hne hawaits]
    simp only [hrt m hmax]
  truncated := by
    intro m w w' h bytes hbytes chunks eof hcut hpre hne heof
    obtain ⟨hmax, hwritten⟩ := sendFramed_ok h
    obtain rfl : bytes = frameOf (encode m) := by
      rw [hbytes] at hwritten
      exact List.append_cancel_left hwritten
    obtain ⟨missing, hmissing⟩ := hpre
    have hmissing_ne : missing ≠ [] := by
      rintro rfl
      rw [List.append_nil] at hmissing
      exact hne hmissing
    have hawaits : FrameDecoder.new.Awaits (encode m) (chunks.flatten ++ missing) := by
      rw [hmissing]
      exact FrameDecoder.new_awaits _
    have hnone := framedNext_truncated hmax chunks missing _ hcut hmissing_ne hawaits heof
    exact receiveFramed_error hnone
  tooLong := fun _ w h => ⟨_, sendFramed_tooLong h w⟩

end FileSharing
