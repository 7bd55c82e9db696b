/-
FileSharing.FileGet.Transfer — what a reported success says about the
transferred file.

The two upgrades run on the two ends of one substream. The bytes of the
file carry no length and no checksum: their end is the END OF THE STREAM,
and a serving side that stops early (its reader fails, its upgrade is
dropped or times out, its application dropped the response sender) ends
the stream just the same. `transfer_complete_iff` says when a success at
the requesting side means a complete file.

The request goes the other way in a length-delimited frame, where a
missing byte is an error; only the file does not.
-/
import FileSharing.FileGet.Protocol

namespace FileSharing

/-! ## What a reader holds -/

/-- All bytes a reader yields up to its end of file; none if a read fails
before that. -/
def contents : List ReadResult → Option (List UInt8)
  | [] => some []
  | .error _ :: _ => none
  | .data bytes :: rest =>
    if bytes.isEmpty then some [] else (contents rest).map (bytes ++ ·)

/-- The bytes a reader yields before its end of file or its first error. -/
def yielded : List ReadResult → List UInt8
  | [] => []
  | .error _ :: _ => []
  | .data bytes :: rest => if bytes.isEmpty then [] else bytes ++ yielded rest

/-- The error a reader comes to, if a read fails before its end of file. -/
def readError : List ReadResult → Option IoError
  | [] => none
  | .error e :: _ => some e
  | .data bytes :: rest => if bytes.isEmpty then none else readError rest

/-- A reader without an error holds what it yields. -/
theorem contents_eq_yielded {reads : List ReadResult} {c : List UInt8}
    (h : contents reads = some c) : yielded reads = c := by
  induction reads generalizing c with
  | nil => simpa [contents, yielded] using h
  | cons r rest ih =>
    cases r with
    | error e => simp [contents] at h
    | data bytes =>
      simp only [contents] at h
      simp only [yielded]
      split at h
      · rename_i hempty
        simp_all
      · rename_i hempty
        obtain ⟨d, hd, rfl⟩ := Option.map_eq_some_iff.mp h
        rw [if_neg hempty, ih hd]

/-! ## Copying -/

/-- Copying to a writer that takes everything writes what the reader
yields, and succeeds if and only if the reader reaches its end. -/
theorem tokioCopyStream_sound (reads : List ReadResult) (w : List UInt8) :
    (tokioCopyStream reads ⟨w, []⟩).1.written = w ++ yielded reads ∧
    ((tokioCopyStream reads ⟨w, []⟩).2 = .ok () ↔ (contents reads).isSome = true) := by
  induction reads generalizing w with
  | nil => simp [tokioCopyStream, Sink.flush, yielded, contents]
  | cons r rest ih =>
    cases r with
    | error e => simp [tokioCopyStream, yielded, contents]
    | data bytes =>
      simp only [tokioCopyStream, yielded, contents]
      split
      · simp [Sink.flush]
      · obtain ⟨hwritten, hok⟩ := ih (w ++ bytes)
        simp only [Sink.write]
        refine ⟨?_, ?_⟩
        · rw [hwritten, List.append_assoc]
        · rw [hok, Option.isSome_map]

/-- And fails with the error that the reader comes to. -/
theorem tokioCopyStream_readError {reads : List ReadResult} {e : IoError}
    (h : readError reads = some e) (w : List UInt8) :
    (tokioCopyStream reads ⟨w, []⟩).2 = .error e := by
  induction reads generalizing w with
  | nil => cases h
  | cons r rest ih =>
    cases r with
    | error e' =>
      obtain rfl := Option.some.inj h
      rfl
    | data bytes =>
      simp only [readError] at h
      simp only [tokioCopyStream]
      split at h
      · cases h
      · rename_i hne
        simp only [if_neg hne, Sink.write]
        exact ih h (w ++ bytes)

/-- Whatever the writer does: a copy that succeeds has written all it was
given. -/
theorem tokioCopyStream_chunks (chunks : List (List UInt8)) (hne : ∀ chunk ∈ chunks, chunk ≠ [])
    (writer : Sink) (h : (tokioCopyStream (chunks.map .data) writer).2 = .ok ()) :
    (tokioCopyStream (chunks.map .data) writer).1.written = writer.written ++ chunks.flatten := by
  induction chunks generalizing writer with
  | nil =>
    simp only [List.map_nil, tokioCopyStream, List.flatten_nil, List.append_nil] at h ⊢
    unfold Sink.flush
    split <;> rfl
  | cons chunk chunks ih =>
    have hchunk : chunk.isEmpty = false := by
      simpa [List.isEmpty_iff] using hne chunk List.mem_cons_self
    have hrest : ∀ c ∈ chunks, c ≠ [] := fun c hc => hne c (List.mem_cons_of_mem _ hc)
    simp only [List.map_cons, tokioCopyStream, hchunk, Bool.false_eq_true, if_false] at h ⊢
    cases hw : writer.write chunk with
    | mk writer' result =>
      cases result with
      | error e => simp [hw] at h
      | ok u =>
        simp only [hw] at h ⊢
        have hwritten : writer'.written = writer.written ++ chunk := by
          unfold Sink.write at hw
          split at hw <;> simp only [Prod.mk.injEq, reduceCtorEq, and_false] at hw <;>
            rw [← hw.1]
        rw [ih hrest writer' h, hwritten, List.flatten_cons, List.append_assoc]

/-! ## The two ends of a substream -/

/-- One run of the serving side. `dropped` says that the upgrade was given
up before its end (a timeout, a transport error, the end of its task);
`flushed` is how many bytes had gone out when it stopped without
returning `Ok`. -/
structure ServingRun where
  upgrade : FileGetInboundProtocol
  received : Except IoError FileGetMessage
  response : Option FileReader
  dropped : Bool
  flushed : Nat

/-- The bytes that arrive at the other end before the end of the stream:
everything written, if the upgrade returned `Ok`, for the copy ends with a
flush; else what had been flushed. -/
def ServingRun.arrived (v : ServingRun) : List UInt8 :=
  match v.dropped, v.upgrade.upgradeInbound v.received v.response ⟨[], []⟩ with
  | false, (socket, _, .returned (.ok _)) => socket.written
  | _, (socket, _, _) => socket.written.take v.flushed

/-- All bytes of the file the serving side was to send. -/
def ServingRun.served (v : ServingRun) : Option (List UInt8) :=
  match v.received, v.response with
  | .ok _, some reader => contents reader.reads
  | _, _ => none

/-- The serving side does its part: it gets the request and a reader that
reaches its end, and is not given up before the last byte is flushed. -/
def ServingRun.Completes (v : ServingRun) : Prop :=
  ∃ message reader file, v.received = .ok message ∧ v.response = some reader ∧
    contents reader.reads = some file ∧ (v.dropped = true → file.length ≤ v.flushed)

/-- What arrives when the file is there to be read. -/
theorem ServingRun.arrived_of_served (v : ServingRun) {file : List UInt8}
    (h : v.served = some file) :
    v.arrived = if v.dropped then file.take v.flushed else file := by
  unfold served at h
  split at h
  · rename_i message reader hreceived hresponse
    obtain ⟨hwritten, hok⟩ := tokioCopyStream_sound reader.reads []
    rw [contents_eq_yielded h, List.nil_append] at hwritten
    rw [h] at hok
    simp only [arrived, FileGetInboundProtocol.upgradeInbound, hreceived, hresponse]
    cases hcopy : tokioCopyStream reader.reads ⟨[], []⟩ with
    | mk socket result =>
      rw [hcopy] at hwritten hok
      simp only [Option.isSome_some, iff_true] at hok
      dsimp only at hwritten
      cases v.dropped <;> simp [hok, hwritten]
  · cases h

/-- **A success at the requesting side means a complete transfer exactly
when the serving side did its part.** For every content, every chunking of
the bytes that arrive, every way the local file takes them. -/
theorem transfer_complete_iff (v : ServingRun) (p : FileGetOutboundProtocol) (socket : Sink)
    (chunks : List (List UInt8)) (fileWriter : Sink) (harrive : chunks.flatten = v.arrived)
    (hne : ∀ chunk ∈ chunks, chunk ≠ [])
    (hok : (p.upgradeOutbound socket (chunks.map .data) fileWriter).2 = .ok ()) :
    (∃ file, v.served = some file ∧
      (p.upgradeOutbound socket (chunks.map .data) fileWriter).1.2.written =
        fileWriter.written ++ file) ↔ v.Completes := by
  have hwritten : (p.upgradeOutbound socket (chunks.map .data) fileWriter).1.2.written =
      fileWriter.written ++ v.arrived := by
    unfold FileGetOutboundProtocol.upgradeOutbound at hok ⊢
    cases hsend : tokioSendRequest ⟨p.fileName⟩ socket with
    | mk socket' result =>
      cases result with
      | error e => simp [hsend] at hok
      | ok u =>
        simp only [hsend] at hok ⊢
        rw [tokioCopyStream_chunks chunks hne fileWriter hok, harrive]
  rw [hwritten]
  constructor
  · rintro ⟨file, hserved, heq⟩
    have harrived : v.arrived = file := List.append_cancel_left heq
    rw [v.arrived_of_served hserved] at harrived
    unfold ServingRun.served at hserved
    split at hserved
    · rename_i message reader hreceived hresponse
      refine ⟨message, reader, file, hreceived, hresponse, hserved, fun hdropped => ?_⟩
      rw [hdropped, if_pos rfl] at harrived
      have hlength := congrArg List.length harrived
      rw [List.length_take] at hlength
      omega
    · cases hserved
  · rintro ⟨message, reader, file, hreceived, hresponse, hcontents, hflushed⟩
    have hserved : v.served = some file := by
      simp only [ServingRun.served, hreceived, hresponse, hcontents]
    refine ⟨file, hserved, ?_⟩
    rw [v.arrived_of_served hserved]
    split
    · rename_i hdropped
      rw [List.take_of_length_le (hflushed hdropped)]
    · rfl

/-- A file of three bytes, read in two pieces and arriving in two others. -/
theorem transfer_complete_iff_rechunked :
    ∃ file, ServingRun.served ⟨⟨⟨0⟩, ⟨0⟩, .nth 0⟩, .ok ⟨"a"⟩,
        some ⟨[.data [1, 2], .data [3]]⟩, false, 0⟩ = some file ∧
      (FileGetOutboundProtocol.upgradeOutbound ⟨.nth 0, "a", ⟨[]⟩⟩ ⟨[], []⟩
        ([[1], [2, 3]].map .data) ⟨[], []⟩).1.2.written = [] ++ file :=
  (transfer_complete_iff ⟨⟨⟨0⟩, ⟨0⟩, .nth 0⟩, .ok ⟨"a"⟩, some ⟨[.data [1, 2], .data [3]]⟩, false, 0⟩
    ⟨.nth 0, "a", ⟨[]⟩⟩ ⟨[], []⟩ [[1], [2, 3]] ⟨[], []⟩ (by decide) (by decide) (by decide)).mpr
    ⟨⟨"a"⟩, ⟨[.data [1, 2], .data [3]]⟩, [1, 2, 3], rfl, rfl, rfl, by simp⟩

/-- A reader that fails after two bytes: the requesting side reports a
success and has a file of two bytes. -/
theorem truncated_transfer_succeeds :
    ServingRun.arrived ⟨⟨⟨0⟩, ⟨0⟩, .nth 0⟩, .ok ⟨"a"⟩,
      some ⟨[.data [1, 2], .error ⟨.other 5⟩]⟩, false, 2⟩ = [[1, 2]].flatten ∧
    (FileGetOutboundProtocol.upgradeOutbound ⟨.nth 0, "a", ⟨[]⟩⟩ ⟨[], []⟩
      ([[1, 2]].map .data) ⟨[], []⟩).2 = .ok () ∧
    ¬ ∃ file, ServingRun.served ⟨⟨⟨0⟩, ⟨0⟩, .nth 0⟩, .ok ⟨"a"⟩,
        some ⟨[.data [1, 2], .error ⟨.other 5⟩]⟩, false, 2⟩ = some file ∧
      (FileGetOutboundProtocol.upgradeOutbound ⟨.nth 0, "a", ⟨[]⟩⟩ ⟨[], []⟩
        ([[1, 2]].map .data) ⟨[], []⟩).1.2.written = [] ++ file := by
  refine ⟨by decide, by decide, ?_⟩
  rintro ⟨file, hserved, -⟩
  cases hserved

end FileSharing
