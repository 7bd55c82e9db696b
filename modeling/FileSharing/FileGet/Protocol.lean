/-
FileSharing.FileGet.Protocol — the two upgrades of `/file-get/1.0.0`
(`file-get/src/protocol.rs`) and the copying and framing they use.

An `AsyncWrite` is a `Sink`: the bytes it has taken, and what its next
operations will do (take everything, or take some bytes and fail). With
that, `send_request`, `copy_stream` and `upgrade_outbound` are functions
of what the sockets and files give.

`upgrade_inbound` waits for the application in the middle, so it is cut at
its three `await` points: `FileGetInboundProtocol.resume` is the code
between two of them. `upgradeInbound` is the same code run through, for
given results of the awaits.

What is outside the crate is taken at its documented behaviour: prost's
proto3 encoding of one string field, `LengthDelimitedCodec`'s default
frame (4-byte big-endian length, frames of at most 8 MiB), and
`tokio::io::copy` (copy until a read gives no bytes, then flush; stop at
the first error of either side).
-/
import FileSharing.FileGet.Types
import FileSharing.Lib.Protobuf

namespace FileSharing

open Lib

/-! ## Writers -/

/-- A failing write: how many bytes it still took, and the error. -/
structure WriteFault where
  accepted : Nat
  error : IoError
  deriving DecidableEq, Repr

/-- A writer: the bytes taken so far, and what the next operations do
(`none` succeeds; past the end of the list everything succeeds). -/
structure Sink where
  written : List UInt8
  faults : List (Option WriteFault)
  deriving DecidableEq, Repr

/-- `write_all`. -/
def Sink.write (w : Sink) (bytes : List UInt8) : Sink × Except IoError Unit :=
  match w.faults with
  | [] => ({ w with written := w.written ++ bytes }, .ok ())
  | none :: faults => (⟨w.written ++ bytes, faults⟩, .ok ())
  | some f :: faults => (⟨w.written ++ bytes.take f.accepted, faults⟩, .error f.error)

/-- `flush`. -/
def Sink.flush (w : Sink) : Sink × Except IoError Unit :=
  match w.faults with
  | [] => (w, .ok ())
  | none :: faults => (⟨w.written, faults⟩, .ok ())
  | some f :: faults => (⟨w.written, faults⟩, .error f.error)

/-! ## Framing and encoding -/

/-- The UTF-8 bytes of a Rust `String`. -/
def utf8 (s : String) : List UInt8 := s.toUTF8.data.toList

/-- `FileGetMessage::encode`: field 1, wire type 2; the default value, the
empty string, is left out. -/
def FileGetMessage.encode (m : FileGetMessage) : List UInt8 :=
  let name := utf8 m.fileName
  if name.isEmpty then [] else 0x0A :: (encodeVarint 10 name.length ++ name)

/-- `LengthDelimitedCodec::max_frame_length`, by default. -/
def maxFrameLength : Nat := 8 * 1024 * 1024

/-- `LengthDelimitedCodec::encode`: the frame, or an error before any of
it is made. -/
def encodeFrame (data : List UInt8) : Except IoError (List UInt8) :=
  if maxFrameLength < data.length then .error ⟨.invalidInput⟩
  else
    let n := data.length
    .ok (UInt8.ofNat (n / 0x1000000) :: UInt8.ofNat (n / 0x10000) :: UInt8.ofNat (n / 0x100) ::
      UInt8.ofNat n :: data)

/-- `tokio_send_request`: one frame, written and flushed. -/
def tokioSendRequest (message : FileGetMessage) (writer : Sink) : Sink × Except IoError Unit :=
  match encodeFrame message.encode with
  | .error e => (writer, .error e)
  | .ok frame =>
    match writer.write frame with
    | (writer, .error e) => (writer, .error e)
    | (writer, .ok ()) => writer.flush

/-! ## Copying -/

/-- `tokio_copy_stream`, that is `tokio::io::copy`. -/
def tokioCopyStream : List ReadResult → Sink → Sink × Except IoError Unit
  | [], writer => writer.flush
  | .error e :: _, writer => (writer, .error e)
  | .data bytes :: rest, writer =>
    if bytes.isEmpty then writer.flush
    else
      match writer.write bytes with
      | (writer, .ok ()) => tokioCopyStream rest writer
      | (writer, .error e) => (writer, .error e)

/-! ## The outbound upgrade -/

/-- `FileGetOutboundProtocol::upgrade_outbound`. `socket` is the writing
side of the substream, `incoming` what reading from it gives, `fileWriter`
the local file. The result carries both writers as the upgrade leaves
them. -/
def FileGetOutboundProtocol.upgradeOutbound (p : FileGetOutboundProtocol) (socket : Sink)
    (incoming : List ReadResult) (fileWriter : Sink) : (Sink × Sink) × Except IoError Unit :=
  match tokioSendRequest ⟨p.fileName⟩ socket with
  | (socket, .error e) => ((socket, fileWriter), .error e)
  | (socket, .ok ()) =>
    let (fileWriter, result) := tokioCopyStream incoming fileWriter
    ((socket, fileWriter), result)

/-! ## The inbound upgrade -/

/-- Where an inbound upgrade is waiting. -/
inductive InboundPhase where
  /-- In `receive_message(&mut socket).await`. -/
  | receiving
  /-- In `self.response_receiver.await`. -/
  | awaitingReader
  /-- In `copy_stream(&mut reader, &mut socket).await`. -/
  | copying (reader : FileReader)
  deriving DecidableEq, Repr

/-- What an `await` returns. A reader of `none` is `Canceled`: the sender
of the response channel was dropped. -/
inductive InboundWake where
  | received (result : Except IoError FileGetMessage)
  | reader (result : Option FileReader)
  | copied (result : Except IoError Unit)

/-- What the upgrade does when its `await` returns. -/
inductive InboundProgress where
  /-- It goes on to the next `await`, perhaps after sending the request on
  the request channel. -/
  | goesOn (phase : InboundPhase) (sent : Option (RequestId × FileGetMessage))
  | returns (result : Except IoError Bool)
  | panics (panic : Panic)

/-- `FileGetInboundProtocol::upgrade_inbound` between two of its `await`
points. A wake-up that is not the one waited for leaves it waiting. -/
def FileGetInboundProtocol.resume (u : FileGetInboundProtocol) :
    InboundPhase → InboundWake → InboundProgress
  | .receiving, .received (.ok message) => .goesOn .awaitingReader (some (u.requestId, message))
  | .receiving, .received (.error e) => .returns (.error e)
  | .awaitingReader, .reader (some reader) => .goesOn (.copying reader) none
  | .awaitingReader, .reader none => .panics (.expect "Sender exists")
  | .copying _, .copied (.ok ()) => .returns (.ok true)
  | .copying _, .copied (.error e) => .returns (.error e)
  | phase, _ => .goesOn phase none

/-- How a future ends. -/
inductive FutureEnd where
  | returned (result : Except IoError Bool)
  | panicked (panic : Panic)

/-- `FileGetInboundProtocol::upgrade_inbound` run through: `received` is
what `receive_message` gives, `response` what the response channel gives,
`socket` the writing side of the substream. Besides the socket and the end
of the future it returns what went out on the request channel. -/
def FileGetInboundProtocol.upgradeInbound (u : FileGetInboundProtocol)
    (received : Except IoError FileGetMessage) (response : Option FileReader) (socket : Sink) :
    Sink × Option (RequestId × FileGetMessage) × FutureEnd :=
  match received with
  | .error e => (socket, none, .returned (.error e))
  | .ok message =>
    let sent := some (u.requestId, message)
    match response with
    | none => (socket, sent, .panicked (.expect "Sender exists"))
    | some reader =>
      match tokioCopyStream reader.reads socket with
      | (socket, .error e) => (socket, sent, .returned (.error e))
      | (socket, .ok ()) => (socket, sent, .returned (.ok true))

/-- The end of the future that resuming it reports, when it has ended. -/
def InboundProgress.end? : InboundProgress → Option FutureEnd
  | .goesOn _ _ => none
  | .returns result => some (.returned result)
  | .panics p => some (.panicked p)

/-- The cut-up upgrade is the upgrade: resumed with the same results of its
awaits, it ends as `upgradeInbound` does. -/
theorem FileGetInboundProtocol.resume_upgradeInbound (u : FileGetInboundProtocol)
    (received : Except IoError FileGetMessage) (response : Option FileReader) (socket : Sink) :
    some (u.upgradeInbound received response socket).2.2 =
      match u.resume .receiving (.received received) with
      | .goesOn phase _ =>
        match u.resume phase (.reader response), response with
        | .goesOn phase _, some reader =>
          (u.resume phase (.copied (tokioCopyStream reader.reads socket).2)).end?
        | progress, _ => progress.end?
      | progress => progress.end? := by
  cases received with
  | error e => rfl
  | ok message =>
    cases response with
    | none => rfl
    | some reader =>
      simp only [upgradeInbound, resume]
      cases h : tokioCopyStream reader.reads socket with
      | mk socket' copied => cases copied <;> rfl

end FileSharing
