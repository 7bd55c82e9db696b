/-
FileSharing.FileGet.System — `FileGet` composed with its per-connection
`Handler`s, the upgrades on their substreams, and the swarm and the
application around them, as one labelled machine.

The swarm side of an established connection is a `Link`: the handler, the
commands handed to it and not yet delivered, its substreams, and the
events it has emitted and the behaviour has not yet seen. Links are kept
in order of establishment. Every label is one atomic step of one party, so
a run is an interleaving of all of them:

* the application: `sendRequest`, `respond`, `dropResponder`;
* the swarm towards the behaviour: the four `FromSwarm` events the
  behaviour reads (and `swarmNotice`, the ones it ignores),
  `pollBehaviour`, and `deliverEvent`, which brings a handler's oldest
  event to it;
* the connection task: `deliverCommand`, `pollHandler`, `openInbound`,
  `inbound` and `endOutbound`.

`System.Allowed` is the contract of `libp2p-swarm`: connection ids are
fresh, closes and address changes concern established connections, handler
events come from established connections and in order, a `Dial` handed out
by `poll` is resolved at most once, a substream ends at most once. The
number `other_established` is computed from the links, which is what the
contract promises about it. A dial may also fail, and a connection be
established, without any `Dial` of this behaviour: other behaviours of the
node dial too.

A panic in an upgrade future kills the task of its connection: the link is
marked and takes no further step of its own.
-/
import FileSharing.Lib.Transition
import FileSharing.FileGet.Behaviour
import FileSharing.FileGet.Protocol

namespace FileSharing

open Lib

/-! ## Links -/

/-- An outbound substream being opened or upgraded. -/
structure OutboundSubstream where
  protocol : FileGetOutboundProtocol
  info : RequestId
  deriving DecidableEq, Repr

/-- The response channel of an inbound request. -/
inductive ResponseChannel where
  | empty
  | sent (reader : FileReader)
  | dropped
  deriving DecidableEq, Repr

/-- An inbound substream whose upgrade is running. -/
structure InboundSubstream where
  upgrade : FileGetInboundProtocol
  info : RequestId
  phase : InboundPhase
  response : ResponseChannel
  deriving DecidableEq, Repr

/-- The channel pair of an inbound substream, which names it. -/
def InboundSubstream.channel (sub : InboundSubstream) : ChannelId := sub.upgrade.requestSender

/-- The swarm side of one established connection. -/
structure Link where
  id : ConnectionId
  peer : PeerId
  endpoint : ConnectedPoint
  handler : Handler
  commands : List FileGetOutboundProtocol
  outbound : List OutboundSubstream
  inbound : List InboundSubstream
  events : List FileGetHandlerEvent
  closing : Option ConnectionHandlerUpgrErr
  panicked : Option Panic
  deriving DecidableEq, Repr

/-- What happens to an inbound substream. -/
inductive InboundEvent where
  /-- `receive_message` returns. -/
  | received (result : Except IoError FileGetMessage)
  /-- The upgrade is polled while it waits for the reader. -/
  | pollReader
  /-- `copy_stream` returns. -/
  | copied (result : Except IoError Unit)
  /-- The swarm gives the substream up: timeout, timer, no common protocol. -/
  | fails (error : ConnectionHandlerUpgrErr)
  /-- Another protocol of the node is negotiated on the substream. -/
  | otherProtocol

namespace Link

/-- A newly established connection. -/
def new (id : ConnectionId) (peer : PeerId) (endpoint : ConnectedPoint) (handler : Handler) :
    Link where
  id := id
  peer := peer
  endpoint := endpoint
  handler := handler
  commands := []
  outbound := []
  inbound := []
  events := []
  closing := none
  panicked := none

/-- The connection task is running. -/
def isLive (l : Link) : Bool := l.closing.isNone && l.panicked.isNone

/-- The endpoint of the connection changes. -/
def setEndpoint (new : ConnectedPoint) (l : Link) : Link :=
  { l with endpoint := new, handler := l.handler.onConnectionEvent .addressChange }

/-- The swarm queues a command for the handler. -/
def addCommand (request : FileGetOutboundProtocol) (l : Link) : Link :=
  { l with commands := l.commands ++ [request] }

/-- The oldest event of the handler has reached the behaviour. -/
def dropEvent (l : Link) : Link := { l with events := l.events.tail }

/-- The oldest command reaches the handler. -/
def deliverCommand (l : Link) : Link :=
  match l.commands with
  | [] => l
  | request :: rest => { l with commands := rest, handler := l.handler.onBehaviourEvent request }

/-- The connection task polls the handler and does what it asks for. -/
def pollHandler (now : Instant) (pick : Nat) (l : Link) : Link :=
  match l.handler.poll now pick with
  | (handler, none) => { l with handler := handler }
  | (handler, some (.custom event)) =>
    { l with handler := handler, events := l.events ++ [event] }
  | (handler, some (.outboundSubstreamRequest protocol info _)) =>
    { l with handler := handler, outbound := l.outbound ++ [⟨protocol, info⟩] }
  | (handler, some (.close error)) => { l with handler := handler, closing := some error }

/-- An outbound substream ends: its upgrade returned, or it failed. -/
def endOutbound (i : Nat) (result : Except ConnectionHandlerUpgrErr Unit) (l : Link) : Link :=
  match l.outbound[i]? with
  | none => l
  | some sub =>
    let event : ConnectionEvent :=
      match result with
      | .ok () => .fullyNegotiatedOutbound sub.info
      | .error error => .dialUpgradeError error sub.info
    { l with
      outbound := l.outbound.eraseIdx i
      handler := l.handler.onConnectionEvent event }

/-- The remote opens a substream: the handler is asked for its protocol. -/
def openInbound (generator : RequestIdGenerator) (channel : ChannelId) (l : Link) :
    Link × RequestIdGenerator :=
  let (handler, generator', protocol) := l.handler.listenProtocol generator channel
  ({ l with
      handler := handler
      inbound := l.inbound ++ [⟨protocol.upgrade, protocol.info, .receiving, .empty⟩] },
    generator')

/-- The substream is gone and its upgrade future dropped; if the request
was not passed on yet, its channel is cancelled. -/
def dropInbound (sub : InboundSubstream) (l : Link) : Link :=
  { l with
    inbound := l.inbound.filter (fun x => x.channel ≠ sub.channel)
    handler :=
      if sub.phase = .receiving then l.handler.requestCanceled sub.channel else l.handler }

/-- The substream ended with `event`. -/
def endInbound (sub : InboundSubstream) (event : ConnectionEvent) (l : Link) : Link :=
  let l := l.dropInbound sub
  { l with handler := l.handler.onConnectionEvent event }

/-- An `await` of the upgrade returns and the future runs on. -/
def resumeInbound (sub : InboundSubstream) (wake : InboundWake) (l : Link) : Link :=
  match sub.upgrade.resume sub.phase wake with
  | .goesOn phase sent =>
    let inbound := l.inbound.map fun x =>
      if x.channel = sub.channel then { x with phase := phase } else x
    match sent with
    | none => { l with inbound := inbound }
    | some (requestId, message) =>
      { l with
        inbound := inbound
        handler := l.handler.requestSent sub.channel requestId message }
  | .returns (.ok sent) => l.endInbound sub (.fullyNegotiatedInbound sent sub.info)
  | .returns (.error e) =>
    l.endInbound sub (.listenUpgradeError (.upgrade (.apply e)) sub.info)
  | .panics p => { l with panicked := some p }

/-- Something happens to the inbound substream with the given channel. -/
def inboundEvent (channel : ChannelId) (event : InboundEvent) (l : Link) : Link :=
  match l.inbound.find? (fun sub => sub.channel = channel) with
  | none => l
  | some sub =>
    match event with
    | .received result => l.resumeInbound sub (.received result)
    | .pollReader =>
      match sub.response with
      | .empty => l
      | .sent reader => l.resumeInbound sub (.reader (some reader))
      | .dropped => l.resumeInbound sub (.reader none)
    | .copied result => l.resumeInbound sub (.copied result)
    | .fails error => l.endInbound sub (.listenUpgradeError error sub.info)
    | .otherProtocol => l.dropInbound sub

/-- The application used or dropped the sender of a response channel. -/
def setResponse (channel : ChannelId) (response : ResponseChannel) (l : Link) : Link :=
  { l with inbound := l.inbound.map fun x =>
      if x.channel = channel then { x with response := response } else x }

end Link

/-! ## The system -/

/-- The whole: the behaviour, the links, the ids used so far, the dials
handed out and not resolved, the response senders the application holds,
and the number of the next channel pair. -/
structure System where
  fileGet : FileGet
  links : List Link
  usedIds : List ConnectionId
  dials : List PeerId
  responders : List ChannelId
  nextChannel : Nat
  deriving DecidableEq

/-- The steps of the system. -/
inductive Label where
  | sendRequest (peerId : PeerId) (request : FileGetMessage) (fileWriter : FileWriter)
  | connectionEstablished (peerId : PeerId) (connectionId : ConnectionId)
      (endpoint : ConnectedPoint) (resolvesDial : Bool)
  | connectionClosed (peerId : PeerId) (connectionId : ConnectionId)
      (outOrder inOrder : IterOrder RequestId)
  | addressChange (peerId : PeerId) (connectionId : ConnectionId) (new : ConnectedPoint)
  | dialFailure (peerId : Option PeerId) (resolvesDial : Bool)
  | swarmNotice (event : FromSwarm)
  | pollBehaviour
  | deliverEvent (connectionId : ConnectionId)
  | deliverCommand (connectionId : ConnectionId)
  | pollHandler (connectionId : ConnectionId) (now : Instant) (pick : Nat)
  | openInbound (connectionId : ConnectionId)
  | inbound (connectionId : ConnectionId) (channel : ChannelId) (event : InboundEvent)
  | endOutbound (connectionId : ConnectionId) (i : Nat)
      (result : Except ConnectionHandlerUpgrErr Unit)
  | respond (channel : ChannelId) (reader : FileReader)
  | dropResponder (channel : ChannelId)

namespace System

/-- Nothing connected, nothing requested. -/
def init (config : FileGetConfig) : System where
  fileGet := .fromConfig config
  links := []
  usedIds := []
  dials := []
  responders := []
  nextChannel := 0

/-- The established connections to a peer, in order of establishment. -/
def linksOf (s : System) (peerId : PeerId) : List Link :=
  s.links.filter fun l => l.peer = peerId

/-- A running connection task leads to the peer. -/
def reaches (s : System) (peerId : PeerId) : Bool :=
  s.links.any fun l => l.peer = peerId && l.isLive

/-- The peer is connected, but no task that leads to it runs any more. -/
def cutOff (s : System) (peerId : PeerId) : Bool :=
  !(s.linksOf peerId).isEmpty && !s.reaches peerId

/-- The established connection with the given id. -/
def link? (s : System) (connectionId : ConnectionId) : Option Link :=
  s.links.find? fun l => l.id = connectionId

/-- Change the link with the given id. -/
def updateLink (s : System) (connectionId : ConnectionId) (f : Link → Link) : System :=
  { s with links := s.links.map fun l => if l.id = connectionId then f l else l }

/-- The swarm carries out an action of the behaviour. A notification for a
connection that is gone is dropped. -/
def perform (s : System) : NetworkBehaviourAction → System
  | .dial peerId _ => { s with dials := peerId :: s.dials }
  | .notifyHandler _ connectionId event =>
    s.updateLink connectionId (Link.addCommand event)
  | .generateEvent (.requestReceived _ _ _ resSender) =>
    { s with responders := resSender :: s.responders }
  | .generateEvent _ => s

/-- The application sends a reader: `res_sender.send(..)`. -/
def sendReader (s : System) (channel : ChannelId) (reader : FileReader) : System :=
  { s with
    links := s.links.map (Link.setResponse channel (.sent reader))
    responders := s.responders.erase channel }

/-- The application drops a sender unused. -/
def dropSender (s : System) (channel : ChannelId) : System :=
  { s with
    links := s.links.map (Link.setResponse channel .dropped)
    responders := s.responders.erase channel }

/-- One step. `debug` is `cfg!(debug_assertions)`. -/
def step (debug : Bool) (s : System) : Label → Except Panic System
  | .sendRequest peerId request fileWriter => do
    let (fileGet, _) ← s.fileGet.sendRequest peerId request fileWriter
    .ok { s with fileGet := fileGet }
  | .connectionEstablished peerId connectionId endpoint resolvesDial => do
    let fileGet ← s.fileGet.onSwarmEvent (.stored _) (.stored _)
      (.connectionEstablished peerId connectionId endpoint (s.linksOf peerId).length)
    .ok { s with
      fileGet := fileGet
      links := s.links ++ [Link.new connectionId peerId endpoint fileGet.newHandler]
      usedIds := connectionId :: s.usedIds
      dials := if resolvesDial then s.dials.erase peerId else s.dials }
  | .connectionClosed peerId connectionId outOrder inOrder => do
    let fileGet ← s.fileGet.onSwarmEvent outOrder inOrder
      (.connectionClosed peerId connectionId)
    .ok { s with
      fileGet := fileGet
      links := s.links.filter fun l => l.id ≠ connectionId }
  | .addressChange peerId connectionId new => do
    let fileGet ← s.fileGet.onSwarmEvent (.stored _) (.stored _)
      (.addressChange peerId connectionId new)
    .ok { s.updateLink connectionId (Link.setEndpoint new) with fileGet := fileGet }
  | .dialFailure peerId resolvesDial => do
    let fileGet ← s.fileGet.onSwarmEvent (.stored _) (.stored _) (.dialFailure peerId)
    .ok { s with
      fileGet := fileGet
      dials :=
        match resolvesDial, peerId with
        | true, some p => s.dials.erase p
        | _, _ => s.dials }
  | .swarmNotice event => do
    let fileGet ← s.fileGet.onSwarmEvent (.stored _) (.stored _) event
    .ok { s with fileGet := fileGet }
  | .pollBehaviour =>
    match s.fileGet.poll with
    | (fileGet, none) => .ok { s with fileGet := fileGet }
    | (fileGet, some action) => .ok ({ s with fileGet := fileGet }.perform action)
  | .deliverEvent connectionId =>
    match s.link? connectionId with
    | none => .ok s
    | some l =>
      match l.events with
      | [] => .ok s
      | event :: _ => do
        let fileGet ← s.fileGet.onConnectionHandlerEvent debug l.peer connectionId event
        .ok { s.updateLink connectionId Link.dropEvent with fileGet := fileGet }
  | .deliverCommand connectionId => .ok (s.updateLink connectionId Link.deliverCommand)
  | .pollHandler connectionId now pick =>
    .ok (s.updateLink connectionId (Link.pollHandler now pick))
  | .openInbound connectionId =>
    match s.link? connectionId with
    | none => .ok s
    | some l =>
      let generator := s.fileGet.inboundIdGenerator
      let channel : ChannelId := ⟨s.nextChannel⟩
      .ok { s.updateLink connectionId (fun l => (l.openInbound generator channel).1) with
            fileGet :=
              { s.fileGet with inboundIdGenerator := (l.openInbound generator channel).2 }
            nextChannel := s.nextChannel + 1 }
  | .inbound connectionId channel event =>
    .ok (s.updateLink connectionId (Link.inboundEvent channel event))
  | .endOutbound connectionId i result =>
    .ok (s.updateLink connectionId (Link.endOutbound i result))
  | .respond channel reader => .ok (s.sendReader channel reader)
  | .dropResponder channel => .ok (s.dropSender channel)

/-! ## The contract -/

/-- The swarm events the behaviour ignores. -/
def isNotice : FromSwarm → Bool
  | .connectionEstablished .. => false
  | .connectionClosed .. => false
  | .addressChange .. => false
  | .dialFailure .. => false
  | _ => true

/-- When an event of a running inbound upgrade may come. A negotiation
fails, or picks another protocol, before the upgrade has anything; an
error of the upgrade itself comes out of `received` and `copied`. -/
def InboundAllowed (phase : InboundPhase) : InboundEvent → Bool
  | .received _ => phase = .receiving
  | .pollReader => phase = .awaitingReader
  | .copied _ => match phase with | .copying _ => true | _ => false
  | .fails .timeout => true
  | .fails .timer => true
  | .fails (.upgrade (.select _)) => phase = .receiving
  | .fails (.upgrade (.apply _)) => false
  | .otherProtocol => phase = .receiving

/-- There is a running connection task for the id, and it satisfies `p`. -/
def liveLink (s : System) (connectionId : ConnectionId) (p : Link → Bool) : Bool :=
  match s.link? connectionId with
  | none => false
  | some l => l.isLive && p l

/-- The contract of the surroundings: what may happen in a state. -/
def Allowed (s : System) : Label → Bool
  | .sendRequest _ _ _ => true
  | .connectionEstablished peerId connectionId _ resolvesDial =>
    connectionId ∉ s.usedIds && (!resolvesDial || peerId ∈ s.dials)
  | .connectionClosed peerId connectionId _ _ =>
    s.links.any fun l => l.peer = peerId && l.id = connectionId
  | .addressChange peerId connectionId _ =>
    s.links.any fun l => l.peer = peerId && l.id = connectionId
  | .dialFailure peerId resolvesDial =>
    !resolvesDial || match peerId with | some p => p ∈ s.dials | none => false
  | .swarmNotice event => isNotice event
  | .pollBehaviour => true
  | .deliverEvent connectionId =>
    match s.link? connectionId with | some l => !l.events.isEmpty | none => false
  | .deliverCommand connectionId => s.liveLink connectionId fun l => !l.commands.isEmpty
  | .pollHandler connectionId _ _ => s.liveLink connectionId fun _ => true
  | .openInbound connectionId => s.liveLink connectionId fun _ => true
  | .inbound connectionId channel event =>
    s.liveLink connectionId fun l =>
      match l.inbound.find? (fun sub => sub.channel = channel) with
      | some sub => InboundAllowed sub.phase event
      | none => false
  | .endOutbound connectionId i _ => s.liveLink connectionId fun l => i < l.outbound.length
  | .respond channel _ => channel ∈ s.responders
  | .dropResponder channel => channel ∈ s.responders

end System

/-- The composed system as a machine. -/
def fileGetSystem (config : FileGetConfig) (debug : Bool) : Machine System Label Panic where
  init := .init config
  allowed := fun s a => s.Allowed a = true
  step := System.step debug

instance (config : FileGetConfig) (debug : Bool) (s : System) (a : Label) :
    Decidable ((fileGetSystem config debug).allowed s a) :=
  inferInstanceAs (Decidable (s.Allowed a = true))

end FileSharing
