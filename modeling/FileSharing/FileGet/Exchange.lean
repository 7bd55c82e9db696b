/-
FileSharing.FileGet.Exchange — the two upgrades of `/file-get/1.0.0` on the
two ends of one substream, as one machine.

`upgradeOutbound` and `upgradeInbound` say what each side makes of what its
socket gives. Here the sockets are the two directions of one substream, and
the sides take turns in any order: a piece of the frame is written, a piece
of it is read, the application answers, a piece of the file goes out, a
piece of it comes in. Each direction holds at most `window` bytes that were
written and not read. At any moment a socket may fail and a side may be
dropped (its timeout, the end of its connection task); what it had written
then arrives in part.

A side reads the end of the stream when nothing is left to read and the
other side is gone, for neither upgrade closes its half while it runs.
-/
import FileSharing.FileGet.Wire
import FileSharing.FileGet.Transfer
import FileSharing.Lib.Transition

namespace FileSharing

open Lib

/-! ## The two sides -/

/-- Where an outbound upgrade is waiting. -/
inductive OutboundPhase where
  /-- In `send_request(..).await`, `todo` being the part of the frame that is
  not written. -/
  | sending (todo : List UInt8)
  /-- In `copy_stream(&mut socket, &mut self.file_writer).await`. -/
  | copying
  deriving DecidableEq, Repr

/-- The upgrade of the requesting side. -/
inductive ClientSide where
  | running (phase : OutboundPhase)
  | ended (result : Except IoError Unit)
  | dropped
  deriving DecidableEq

deriving instance DecidableEq for FutureEnd

/-- The upgrade of the serving side. The reader of its `copying` phase is
what the application's reader has still to give. -/
inductive ServerSide where
  | running (phase : InboundPhase)
  | ended (result : FutureEnd)
  | dropped
  deriving DecidableEq

def ClientSide.isRunning : ClientSide → Bool
  | .running _ => true
  | _ => false

def ServerSide.isRunning : ServerSide → Bool
  | .running _ => true
  | _ => false

/-- Both sides and the substream between them. `announced` is what went out
on the request channel, `reader` what came back on the response channel,
`chunks` the pieces of the file the client has read, the first one first. -/
structure Exchange where
  client : ClientSide
  server : ServerSide
  toServer : List UInt8
  toClient : List UInt8
  decoder : FrameDecoder
  file : Sink
  announced : Option (RequestId × FileGetMessage)
  reader : Option FileReader
  chunks : List (List UInt8)

/-- What happens next. `kept` is how many of the bytes on their way from the
side that stops still arrive. -/
inductive ExchangeLabel where
  | clientWrites (n : Nat)
  | clientReads (n : Nat)
  /-- The client reads the end of the stream. -/
  | clientEnds
  | clientFails (e : IoError) (kept : Nat)
  | clientDropped (kept : Nat)
  | serverReads (n : Nat)
  | serverEof
  /-- The response channel gives a reader, or `Canceled`. -/
  | respond (response : Option FileReader)
  /-- The server goes on copying: its reader gives the next piece, of which
  `n` bytes are written, or its end or an error. -/
  | serverCopies (n kept : Nat)
  | serverFails (e : IoError) (kept : Nat)
  | serverDropped (kept : Nat)
  deriving DecidableEq, Repr

namespace Exchange

/-- The substream is negotiated and both upgrades begin. -/
def start (p : FileGetOutboundProtocol) (file : Sink) : Exchange where
  client :=
    match encodeFrame (FileGetMessage.encode ⟨p.fileName⟩) with
    | .ok frame => .running (.sending frame)
    | .error e => .ended (.error e)
  server := .running .receiving
  toServer := []
  toClient := []
  decoder := .new
  file := file
  announced := none
  reader := none
  chunks := []

/-! ## Steps of the client -/

/-- `send_request` writes `n` bytes of its frame. -/
def clientWrites (s : Exchange) (n : Nat) : Exchange :=
  match s.client with
  | .running (.sending todo) =>
    { s with
      toServer := s.toServer ++ todo.take n
      client := .running (if todo.length ≤ n then .copying else .sending (todo.drop n)) }
  | _ => s

/-- `copy_stream` reads `n` bytes and writes them to the file. -/
def clientReads (s : Exchange) (n : Nat) : Exchange :=
  let piece := s.toClient.take n
  let s := { s with toClient := s.toClient.drop n, chunks := s.chunks ++ [piece] }
  match s.file.write piece with
  | (file, .ok ()) => { s with file := file }
  | (file, .error e) => { s with file := file, client := .ended (.error e) }

/-- `copy_stream` reads the end of the stream and flushes the file. -/
def clientEnds (s : Exchange) : Exchange :=
  match s.file.flush with
  | (file, result) => { s with file := file, client := .ended result }

/-- The client is gone, and `kept` of the bytes it had written arrive. -/
def clientGone (s : Exchange) (side : ClientSide) (kept : Nat) : Exchange :=
  { s with client := side, toServer := s.toServer.take kept }

/-! ## Steps of the server -/

/-- `upgrade_inbound` is woken up. -/
def wake (u : FileGetInboundProtocol) (s : Exchange) (w : InboundWake) : Exchange :=
  match s.server with
  | .running phase =>
    match u.resume phase w with
    | .goesOn phase sent => { s with server := .running phase, announced := sent.or s.announced }
    | .returns result => { s with server := .ended (.returned result) }
    | .panics p => { s with server := .ended (.panicked p) }
  | _ => s

/-- What `receive_message` makes of what its frame reader gives. -/
def ofFrame : Except IoError (Option (List UInt8)) → Except IoError FileGetMessage
  | .error e => .error e
  | .ok (some data) =>
    match FileGetMessage.decode data with
    | some message => .ok message
    | none => .error ⟨.unexpectedEof⟩
  | .ok none => .error ⟨.unexpectedEof⟩

/-- `receive_message` reads `n` bytes. -/
def serverReads (u : FileGetInboundProtocol) (s : Exchange) (n : Nat) : Exchange :=
  let d := s.decoder.push (s.toServer.take n)
  let s := { s with toServer := s.toServer.drop n }
  match d.decode maxFrameLength with
  | (d, .more) => { s with decoder := d }
  | (_, .frame data) => s.wake u (.received (ofFrame (.ok (some data))))
  | (_, .tooBig) => s.wake u (.received (.error ⟨.invalidData⟩))

/-- `receive_message` reads the end of the stream. -/
def serverEof (u : FileGetInboundProtocol) (s : Exchange) : Exchange :=
  s.wake u (.received (ofFrame (framedEof s.decoder)))

/-- The response channel gives something. -/
def respond (u : FileGetInboundProtocol) (s : Exchange) (response : Option FileReader) : Exchange :=
  { s with reader := response }.wake u (.reader response)

/-- `kept` of the bytes the server had written arrive. -/
def keep (s : Exchange) (kept : Nat) : Exchange :=
  { s with toClient := s.toClient.take kept }

/-- `copy_stream` goes on: a piece of which not all bytes are written keeps
the others for the next time. -/
def serverCopies (u : FileGetInboundProtocol) (s : Exchange) (n kept : Nat) : Exchange :=
  match s.server with
  | .running (.copying reader) =>
    match reader.reads with
    | [] => s.wake u (.copied (.ok ()))
    | .error e :: _ => (s.keep kept).wake u (.copied (.error e))
    | .data bytes :: rest =>
      if bytes.isEmpty then s.wake u (.copied (.ok ()))
      else
        { s with
          toClient := s.toClient ++ bytes.take n
          server := .running (.copying
            ⟨if bytes.length ≤ n then rest else .data (bytes.drop n) :: rest⟩) }
  | _ => s

/-- The server's socket fails. -/
def serverFails (u : FileGetInboundProtocol) (s : Exchange) (e : IoError) (kept : Nat) : Exchange :=
  match s.server with
  | .running .receiving => s.wake u (.received (.error e))
  | .running (.copying _) => (s.keep kept).wake u (.copied (.error e))
  | _ => s

/-- The server is dropped. -/
def serverGone (s : Exchange) (kept : Nat) : Exchange :=
  { s.keep kept with server := .dropped }

/-! ## The machine -/

/-- One step. -/
def step (u : FileGetInboundProtocol) (s : Exchange) : ExchangeLabel → Exchange
  | .clientWrites n => s.clientWrites n
  | .clientReads n => s.clientReads n
  | .clientEnds => s.clientEnds
  | .clientFails e kept => s.clientGone (.ended (.error e)) kept
  | .clientDropped kept => s.clientGone .dropped kept
  | .serverReads n => s.serverReads u n
  | .serverEof => s.serverEof u
  | .respond response => s.respond u response
  | .serverCopies n kept => s.serverCopies u n kept
  | .serverFails e kept => s.serverFails u e kept
  | .serverDropped kept => s.serverGone kept

/-- When each step may be taken, on a substream that holds `window` bytes
each way. The server copies when its reader is at its end or fails, or when
there is room for `n` of the bytes it has. -/
def Allowed (window : Nat) (s : Exchange) : ExchangeLabel → Bool
  | .clientWrites n =>
    match s.client with
    | .running (.sending todo) =>
      0 < n && n ≤ todo.length && s.toServer.length + n ≤ window
    | _ => false
  | .clientReads n =>
    match s.client with
    | .running .copying => 0 < n && n ≤ s.toClient.length
    | _ => false
  | .clientEnds =>
    match s.client with
    | .running .copying => s.toClient.isEmpty && !s.server.isRunning
    | _ => false
  | .clientFails _ _ => s.client.isRunning
  | .clientDropped _ => s.client.isRunning
  | .serverReads n =>
    match s.server with
    | .running .receiving => 0 < n && n ≤ s.toServer.length
    | _ => false
  | .serverEof =>
    match s.server with
    | .running .receiving => s.toServer.isEmpty && !s.client.isRunning
    | _ => false
  | .respond _ =>
    match s.server with
    | .running .awaitingReader => true
    | _ => false
  | .serverCopies n _ =>
    match s.server with
    | .running (.copying ⟨.data bytes :: _⟩) =>
      bytes.isEmpty || (0 < n && n ≤ bytes.length && s.toClient.length + n ≤ window)
    | .running (.copying _) => true
    | _ => false
  | .serverFails _ _ =>
    match s.server with
    | .running .receiving | .running (.copying _) => true
    | _ => false
  | .serverDropped _ => s.server.isRunning

end Exchange

/-- A step in which nothing fails and nobody is dropped. An answer is a
reader of a whole file. -/
def ExchangeLabel.isCalm : ExchangeLabel → Bool
  | .respond (some reader) => (contents reader.reads).isSome
  | .respond none | .clientFails _ _ | .clientDropped _ | .serverFails _ _ | .serverDropped _ =>
    false
  | _ => true

/-- A success on both sides. -/
def Exchange.BothSucceeded (s : Exchange) : Prop :=
  s.client = .ended (.ok ()) ∧ s.server = .ended (.returned (.ok true))

instance (s : Exchange) : Decidable s.BothSucceeded := inferInstanceAs (Decidable (_ ∧ _))

/-- The two sides of one substream. A step of either is never a failure of
the machine: a panic of the serving side is an end of its future. -/
def exchangeMachine (p : FileGetOutboundProtocol) (u : FileGetInboundProtocol) (window : Nat)
    (file : Sink) : Machine Exchange ExchangeLabel Empty where
  init := Exchange.start p file
  allowed := fun s a => s.Allowed window a = true
  step := fun s a => .ok (s.step u a)

instance (p : FileGetOutboundProtocol) (u : FileGetInboundProtocol) (window : Nat) (file : Sink) :
    ∀ s a, Decidable ((exchangeMachine p u window file).allowed s a) :=
  fun _ _ => inferInstanceAs (Decidable (_ = true))

end FileSharing
