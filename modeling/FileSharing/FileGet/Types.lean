/-
FileSharing.FileGet.Types — the data of the `libp2p-file-get` crate
(`file-get/src/lib.rs`, `handler.rs`, `protocol.rs`): request ids and
their generator, the messages, the events the three layers exchange, and
the failures they report.

Identities that the crate only compares (`PeerId`, `ConnectionId`, the
identity of a oneshot channel) are wrappers of numbers. A `RequestId` is
the `u64` it is in the source, and `next_id` WRAPS, as `fetch_add` does;
results that need ids not to repeat say so.

A `Box<dyn AsyncWrite>` is known by the open file it writes to, a
`Box<dyn AsyncRead>` by the results its reads give. The sender half of a
oneshot channel is known by its channel.
-/
import FileSharing.Lib.HashTable

namespace FileSharing

/-! ## Identities -/

/-- `libp2p_core::PeerId`. -/
structure PeerId where
  key : Nat
  deriving DecidableEq, Repr

/-- `libp2p_core::connection::ConnectionId`. -/
structure ConnectionId where
  key : Nat
  deriving DecidableEq, Repr

/-- `libp2p_core::Multiaddr`. -/
structure Multiaddr where
  text : String
  deriving DecidableEq, Repr

/-- The identity of the pair of oneshot channels one `listen_protocol`
call makes. -/
structure ChannelId where
  key : Nat
  deriving DecidableEq, Repr

/-- `libp2p_core::ConnectedPoint`: how a connection came about. -/
inductive ConnectedPoint where
  | dialer (address : Multiaddr)
  | listener (localAddr sendBackAddr : Multiaddr)
  deriving DecidableEq, Repr

/-- The `match endpoint` of `on_connection_established` and
`on_address_change`: the dialed address, none for a listener. -/
def ConnectedPoint.dialedAddress : ConnectedPoint → Option Multiaddr
  | .dialer address => some address
  | .listener _ _ => none

/-- `RequestId(u64)`. -/
structure RequestId where
  val : UInt64
  deriving DecidableEq, Repr

/-- `RequestIdGenerator(AtomicU64)`. -/
structure RequestIdGenerator where
  next : UInt64
  deriving DecidableEq, Repr

/-- `RequestIdGenerator::new`. -/
def RequestIdGenerator.new : RequestIdGenerator := ⟨1⟩

/-- `RequestIdGenerator::next_id`: the id handed out and the counter left
behind. `fetch_add` wraps around. -/
def RequestIdGenerator.nextId (g : RequestIdGenerator) : RequestId × RequestIdGenerator :=
  (⟨g.next⟩, ⟨g.next + 1⟩)

/-! ## Time -/

/-- `std::time::Duration`, in some fixed unit. -/
abbrev Duration : Type := Nat

/-- `std::time::Instant`, in the same unit. -/
abbrev Instant : Type := Nat

/-! ## Readers, writers, errors -/

/-- `std::io::ErrorKind`, the kinds this program meets or makes. -/
inductive IoErrorKind where
  | notFound
  | permissionDenied
  | isADirectory
  | notADirectory
  | invalidInput
  | invalidData
  | unexpectedEof
  | connectionReset
  | other (code : Nat)
  deriving DecidableEq, Repr

/-- `std::io::Error`, known by its kind. -/
structure IoError where
  kind : IoErrorKind
  deriving DecidableEq, Repr

/-- What one read of an `AsyncRead` gives. A read of no bytes is the end of
the stream, as it is for `AsyncRead`. -/
inductive ReadResult where
  | data (bytes : List UInt8)
  | error (e : IoError)
  deriving DecidableEq, Repr

/-- A `Box<dyn AsyncRead>`: the results its reads will give, in order. Past
the last of them it is at its end. -/
structure FileReader where
  reads : List ReadResult
  deriving DecidableEq, Repr

/-- A `Box<dyn AsyncWrite>` over an open file, known by the file's path. -/
structure FileWriter where
  path : List UInt8
  deriving DecidableEq, Repr

/-- A panic of the program: where the source has an `expect`, an index, a
`debug_assert!` or a `panic!`, the model returns this. -/
inductive Panic where
  | expect (message : String)
  | indexOutOfBounds
  | debugAssert (message : String)
  | explicit (message : String)
  deriving DecidableEq, Repr

/-! ## Messages -/

/-- `FileGetMessage` (`file-get.proto`: one string, field 1). -/
structure FileGetMessage where
  fileName : String
  deriving DecidableEq, Repr

/-- `FileGetMessage::new`. -/
def FileGetMessage.new (fileName : String) : FileGetMessage := ⟨fileName⟩

/-- `FileGetOutboundProtocol`: an outbound request, which is also the
command the behaviour sends to a handler. -/
structure FileGetOutboundProtocol where
  requestId : RequestId
  fileName : String
  fileWriter : FileWriter
  deriving DecidableEq, Repr

/-- `FileGetInboundProtocol`: the sender of the request channel, the
receiver of the response channel, and the id drawn for the substream. -/
structure FileGetInboundProtocol where
  requestSender : ChannelId
  responseReceiver : ChannelId
  requestId : RequestId
  deriving DecidableEq, Repr

/-! ## Failures -/

/-- `OutboundFailure`. -/
inductive OutboundFailure where
  | dialFailure
  | timeout
  | connectionClosed
  | unsupportedProtocols
  deriving DecidableEq, Repr

/-- `InboundFailure`. -/
inductive InboundFailure where
  | timeout
  | connectionClosed
  | unsupportedProtocols
  | responseOmission
  deriving DecidableEq, Repr

/-- `multistream_select::NegotiationError`. -/
inductive NegotiationError where
  | protocolError
  | failed
  deriving DecidableEq, Repr

/-- `libp2p_core::UpgradeError<io::Error>`: the protocol negotiation
failed, or the upgrade itself did. -/
inductive UpgradeError where
  | select (e : NegotiationError)
  | apply (e : IoError)
  deriving DecidableEq, Repr

/-- `libp2p_swarm::ConnectionHandlerUpgrErr<io::Error>`. -/
inductive ConnectionHandlerUpgrErr where
  | timeout
  | timer
  | upgrade (e : UpgradeError)
  deriving DecidableEq, Repr

/-! ## Events -/

/-- `FileGetHandlerEvent`: what a handler tells the behaviour. The
response sender of a request is known by its channel. -/
inductive FileGetHandlerEvent where
  | request (requestId : RequestId) (message : FileGetMessage) (resSender : ChannelId)
  | response (requestId : RequestId)
  | responseSent (requestId : RequestId)
  | responseOmission (requestId : RequestId)
  | outboundTimeout (requestId : RequestId)
  | outboundUnsupportedProtocols (requestId : RequestId)
  | inboundTimeout (requestId : RequestId)
  | inboundUnsupportedProtocols (requestId : RequestId)
  deriving DecidableEq, Repr

/-- `FileGetEvent`: what the behaviour tells the application. -/
inductive FileGetEvent where
  | requestReceived (peerId : PeerId) (requestId : RequestId) (message : FileGetMessage)
      (resSender : ChannelId)
  | responseReceived (peerId : PeerId) (requestId : RequestId)
  | responseSent (peerId : PeerId) (requestId : RequestId)
  | outboundFailure (peerId : PeerId) (requestId : RequestId) (error : OutboundFailure)
  | inboundFailure (peerId : PeerId) (requestId : RequestId) (error : InboundFailure)
  deriving DecidableEq, Repr

/-- The peer and the request id every event of the behaviour carries. -/
def FileGetEvent.subject : FileGetEvent → PeerId × RequestId
  | .requestReceived p r _ _ => (p, r)
  | .responseReceived p r => (p, r)
  | .responseSent p r => (p, r)
  | .outboundFailure p r _ => (p, r)
  | .inboundFailure p r _ => (p, r)

/-- `FileGetConfig`. -/
structure FileGetConfig where
  timeout : Duration
  deriving DecidableEq, Repr

/-! ## Id generator -/

/-- The id the `n`-th call of `next_id` (counting from 0) on a new
generator returns. -/
def RequestId.nth (n : Nat) : RequestId := ⟨UInt64.ofNat (n + 1)⟩

/-- One more call gives the next id. -/
theorem RequestIdGenerator.nextId_nth {g : RequestIdGenerator} {n : Nat}
    (h : g.nextId.1 = RequestId.nth n) : g.nextId.2.nextId.1 = RequestId.nth (n + 1) := by
  simp only [nextId, RequestId.nth, RequestId.mk.injEq] at h ⊢
  rw [h, UInt64.ofNat_add (n + 1) 1]
  rfl

/-- Before the counter has gone round once, no id repeats. -/
theorem RequestId.nth_inj {m n : Nat} (hm : m < UInt64.size) (hn : n < UInt64.size)
    (h : RequestId.nth m = RequestId.nth n) : m = n := by
  simp only [RequestId.nth, RequestId.mk.injEq] at h
  have h' := congrArg UInt64.toNat h
  simp only [UInt64.toNat_ofNat'] at h'
  unfold UInt64.size at hm hn
  omega

/-- After `2 ^ 64` calls the first id comes again. -/
theorem RequestId.nth_wrap : RequestId.nth UInt64.size = RequestId.nth 0 := by
  decide

end FileSharing
