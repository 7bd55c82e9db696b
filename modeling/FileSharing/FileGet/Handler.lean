/-
FileSharing.FileGet.Handler — the per-connection state machine
(`file-get/src/handler.rs`).

`Handler` has the source's fields but one: the inbound id generator is an
`Arc` shared by the behaviour and all its handlers, so its counter lives
with the behaviour and is passed in and out of `listenProtocol`.

`FuturesUnordered` is a list of futures, each one still pending, completed
with a received request, or cancelled because the sending half was
dropped. `poll_next` yields ONE finished future, and which one is not
specified: the argument `pick` of `pollNext` chooses, and every result
about `Handler.poll` holds for every `pick`. Time enters as the argument
`now`.
-/
import FileSharing.FileGet.Types

namespace FileSharing

/-! ## The inbound futures -/

/-- The state of `req_receiver.map_ok(..)`. -/
inductive FutureState where
  | pending
  | received (requestId : RequestId) (message : FileGetMessage)
  | canceled
  deriving DecidableEq, Repr

/-- One entry of `inbound`: the receiving half of a request channel,
holding the response sender of the same substream. -/
structure InboundFuture where
  channel : ChannelId
  state : FutureState
  deriving DecidableEq, Repr

/-- A future that `poll_next` may yield. -/
def InboundFuture.isFinished (f : InboundFuture) : Bool :=
  match f.state with
  | .pending => false
  | .received _ _ => true
  | .canceled => true

/-- `FuturesUnordered::poll_next`: one of the finished futures leaves the
set, `pick` says which. -/
def pollNext (pick : Nat) (inbound : List InboundFuture) :
    Option InboundFuture × List InboundFuture :=
  let finished := inbound.filter InboundFuture.isFinished
  match finished[pick % finished.length]? with
  | some f => (some f, inbound.erase f)
  | none => (none, inbound)

/-! ## The handler -/

/-- `libp2p_swarm::KeepAlive`. -/
inductive KeepAlive where
  | until (t : Instant)
  | yes
  | no
  deriving DecidableEq, Repr

/-- `KeepAlive::is_yes`. -/
def KeepAlive.isYes : KeepAlive → Bool
  | .yes => true
  | _ => false

/-- `Handler`, without the shared id generator. -/
structure Handler where
  timeout : Duration
  keepAlive : KeepAlive
  pendingEvents : List FileGetHandlerEvent
  inbound : List InboundFuture
  outbound : List FileGetOutboundProtocol
  pendingError : Option ConnectionHandlerUpgrErr
  deriving DecidableEq, Repr

/-- `SubstreamProtocol<FileGetInboundProtocol, RequestId>`. -/
structure InboundSubstreamProtocol where
  upgrade : FileGetInboundProtocol
  info : RequestId
  timeout : Duration
  deriving DecidableEq, Repr

/-- `ConnectionEvent` with the fields the handler reads. -/
inductive ConnectionEvent where
  | fullyNegotiatedInbound (protocol : Bool) (info : RequestId)
  | fullyNegotiatedOutbound (info : RequestId)
  | listenUpgradeError (error : ConnectionHandlerUpgrErr) (info : RequestId)
  | dialUpgradeError (error : ConnectionHandlerUpgrErr) (info : RequestId)
  | addressChange
  deriving DecidableEq, Repr

/-- `ConnectionHandlerEvent`, what a ready `poll` returns. -/
inductive ConnectionHandlerEvent where
  | outboundSubstreamRequest (protocol : FileGetOutboundProtocol) (info : RequestId)
      (timeout : Duration)
  | custom (event : FileGetHandlerEvent)
  | close (error : ConnectionHandlerUpgrErr)
  deriving DecidableEq, Repr

namespace Handler

/-- `Handler::new`. -/
def new (timeout : Duration) : Handler where
  timeout := timeout
  keepAlive := .yes
  pendingEvents := []
  inbound := []
  outbound := []
  pendingError := none

/-- `Handler::listen_protocol`: draw an id, make the two channels, remember
the receiver. -/
def listenProtocol (h : Handler) (generator : RequestIdGenerator) (channel : ChannelId) :
    Handler × RequestIdGenerator × InboundSubstreamProtocol :=
  let (requestId, generator') := generator.nextId
  ({ h with inbound := h.inbound ++ [⟨channel, .pending⟩] }, generator',
    { upgrade := ⟨channel, channel, requestId⟩, info := requestId, timeout := h.timeout })

/-- `Handler::on_behaviour_event`. -/
def onBehaviourEvent (h : Handler) (request : FileGetOutboundProtocol) : Handler :=
  { h with keepAlive := .yes, outbound := h.outbound ++ [request] }

/-- Queue an event for the behaviour. -/
def queue (h : Handler) (event : FileGetHandlerEvent) : Handler :=
  { h with pendingEvents := h.pendingEvents ++ [event] }

/-- `Handler::on_connection_event`. -/
def onConnectionEvent (h : Handler) : ConnectionEvent → Handler
  | .fullyNegotiatedInbound sent requestId =>
    match sent with
    | true => h.queue (.responseSent requestId)
    | false => h.queue (.responseOmission requestId)
  | .fullyNegotiatedOutbound requestId => h.queue (.response requestId)
  | .listenUpgradeError error requestId =>
    match error with
    | .timeout => h.queue (.inboundTimeout requestId)
    | .upgrade _ => h.queue (.inboundUnsupportedProtocols requestId)
    | .timer => { h with pendingError := some .timer }
  | .dialUpgradeError error requestId =>
    match error with
    | .timeout => h.queue (.outboundTimeout requestId)
    | .upgrade _ => h.queue (.outboundUnsupportedProtocols requestId)
    | .timer => { h with pendingError := some .timer }
  | .addressChange => h

/-- `Handler::connection_keep_alive`. -/
def connectionKeepAlive (h : Handler) : KeepAlive := h.keepAlive

/-- `Handler::poll`; `none` is `Poll::Pending`. The shrinking of empty
queues has no effect on the state. -/
def poll (h : Handler) (now : Instant) (pick : Nat) : Handler × Option ConnectionHandlerEvent :=
  match h.pendingError with
  | some error => ({ h with pendingError := none }, some (.close error))
  | none =>
  match h.pendingEvents with
  | event :: rest => ({ h with pendingEvents := rest }, some (.custom event))
  | [] =>
  match h.outbound with
  | request :: rest =>
    ({ h with outbound := rest },
      some (.outboundSubstreamRequest request request.requestId h.timeout))
  | [] =>
  match pollNext pick h.inbound with
  | (some ⟨channel, .received requestId message⟩, inbound) =>
    ({ h with keepAlive := .yes, inbound := inbound },
      some (.custom (.request requestId message channel)))
  | (_, inbound) =>
    -- nothing finished, or a cancelled future was consumed
    if inbound.isEmpty && h.keepAlive.isYes then
      ({ h with inbound := inbound, keepAlive := .until (now + h.timeout * 2) }, none)
    else ({ h with inbound := inbound }, none)

end Handler

/-! ## The request channel, seen from the handler

The sending half of a request channel is in the upgrade future. What the
future does with it changes the state of the handler's receiving half. -/

/-- `request_sender.send((request_id, message))`. -/
def Handler.requestSent (h : Handler) (channel : ChannelId) (requestId : RequestId)
    (message : FileGetMessage) : Handler :=
  { h with inbound := h.inbound.map fun f =>
      if f.channel = channel then { f with state := .received requestId message } else f }

/-- The upgrade future is dropped before it sent the request. -/
def Handler.requestCanceled (h : Handler) (channel : ChannelId) : Handler :=
  { h with inbound := h.inbound.map fun f =>
      if f.channel = channel then { f with state := .canceled } else f }

end FileSharing
