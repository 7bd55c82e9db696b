/-
FileSharing.FileGet.Behaviour — the network behaviour `FileGet`
(`file-get/src/lib.rs`).

Every method is a function from the state before to the state after; where
the source can panic (an `expect`, an index, a `debug_assert!`) the
function returns `Except Panic`. `debug` is `cfg!(debug_assertions)`: a
`debug_assert!` panics only in a debug build.

`VecDeque` and `SmallVec` are lists. Tables and sets are the hash tables
of `Lib.HashTable`; `on_connection_closed`, the one method that iterates
over two sets, takes the two orders of iteration.
-/
import FileSharing.FileGet.Handler

namespace FileSharing

open Lib

/-- `Connection`: what the behaviour knows about one connection. -/
structure Connection where
  id : ConnectionId
  address : Option Multiaddr
  pendingOutboundResponses : HashSet RequestId
  pendingInboundResponses : HashSet RequestId
  deriving DecidableEq

/-- `Connection::new`. -/
def Connection.new (id : ConnectionId) (address : Option Multiaddr) : Connection :=
  ⟨id, address, ∅, ∅⟩

/-- `NetworkBehaviourAction<FileGetEvent, Handler>`, the variants the
behaviour makes. -/
inductive NetworkBehaviourAction where
  | generateEvent (event : FileGetEvent)
  | dial (peerId : PeerId) (handler : Handler)
  | notifyHandler (peerId : PeerId) (connectionId : ConnectionId)
      (event : FileGetOutboundProtocol)
  deriving DecidableEq, Repr

/-- `FileGet`. -/
structure FileGet where
  requsetIdGenerator : RequestIdGenerator
  inboundIdGenerator : RequestIdGenerator
  config : FileGetConfig
  connected : HashMap PeerId (List Connection)
  pendingEvents : List NetworkBehaviourAction
  pendingOutboundRequests : HashMap PeerId (List FileGetOutboundProtocol)
  addresses : HashMap PeerId (List Multiaddr)
  deriving DecidableEq

/-- `FromSwarm`, with the fields the behaviour reads. -/
inductive FromSwarm where
  | connectionEstablished (peerId : PeerId) (connectionId : ConnectionId)
      (endpoint : ConnectedPoint) (otherEstablished : Nat)
  | connectionClosed (peerId : PeerId) (connectionId : ConnectionId)
  | addressChange (peerId : PeerId) (connectionId : ConnectionId) (new : ConnectedPoint)
  | dialFailure (peerId : Option PeerId)
  | listenFailure
  | newListener
  | newListenAddr
  | expiredListenAddr
  | listenerError
  | listenerClosed
  | newExternalAddr
  | expiredExternalAddr
  deriving DecidableEq, Repr

namespace FileGet

/-- `FileGet::from_config`. -/
def fromConfig (config : FileGetConfig) : FileGet where
  requsetIdGenerator := .new
  inboundIdGenerator := .new
  config := config
  connected := ∅
  pendingEvents := []
  pendingOutboundRequests := ∅
  addresses := ∅

/-- `NetworkBehaviour::new_handler`. -/
def newHandler (s : FileGet) : Handler := Handler.new s.config.timeout

/-- `pending_events.push_back(..)`. -/
def push (s : FileGet) (actions : List NetworkBehaviourAction) : FileGet :=
  { s with pendingEvents := s.pendingEvents ++ actions }

/-- `FileGet::add_address`. -/
def addAddress (s : FileGet) (peerId : PeerId) (address : Multiaddr) : FileGet :=
  { s with addresses :=
      s.addresses.insert peerId ((s.addresses.lookup peerId).getD [] ++ [address]) }

/-- `FileGet::remove_address`. -/
def removeAddress (s : FileGet) (peerId : PeerId) (address : Multiaddr) : FileGet :=
  match s.addresses.lookup peerId with
  | none => s
  | some addresses =>
    let kept := addresses.filter (· ≠ address)
    if kept.isEmpty then { s with addresses := s.addresses.erase peerId }
    else { s with addresses := s.addresses.insert peerId kept }

/-! ## Sending requests -/

/-- `FileGet::try_send_request`: hand the request to one of the peer's
connections, or give it back. -/
def trySendRequest (s : FileGet) (peerId : PeerId) (request : FileGetOutboundProtocol) :
    Except Panic (FileGet × Option FileGetOutboundProtocol) :=
  match s.connected.lookup peerId with
  | some connections =>
    if connections.isEmpty then .ok (s, some request)
    else
      let idx := request.requestId.val.toNat % connections.length
      match connections[idx]? with
      | some conn =>
        let conn' := { conn with
          pendingInboundResponses := conn.pendingInboundResponses.insert request.requestId () }
        .ok (({ s with connected := s.connected.insert peerId (connections.set idx conn') }).push
          [.notifyHandler peerId conn.id request], none)
      | none => .error .indexOutOfBounds
  | none => .ok (s, some request)

/-- `FileGet::send_request`: the new state and the id returned. -/
def sendRequest (s : FileGet) (peerId : PeerId) (request : FileGetMessage)
    (fileWriter : FileWriter) : Except Panic (FileGet × RequestId) := do
  let (requestId, generator) := s.requsetIdGenerator.nextId
  let s := { s with requsetIdGenerator := generator }
  let request : FileGetOutboundProtocol := ⟨requestId, request.fileName, fileWriter⟩
  match ← s.trySendRequest peerId request with
  | (s, some request) =>
    -- no connection yet: dial, and keep the request until one is there
    let s := s.push [.dial peerId s.newHandler]
    let buffered := (s.pendingOutboundRequests.lookup peerId).getD []
    .ok ({ s with pendingOutboundRequests :=
      s.pendingOutboundRequests.insert peerId (buffered ++ [request]) }, requestId)
  | (s, none) => .ok (s, requestId)

/-- The loop `for request in pending` of `on_connection_established`. The
second component is what the source throws away: the requests that
`try_send_request` gave back. -/
def sendBuffered (s : FileGet) (peerId : PeerId) :
    List FileGetOutboundProtocol → Except Panic (FileGet × List FileGetOutboundProtocol)
  | [] => .ok (s, [])
  | request :: rest => do
    let (s, back) ← s.trySendRequest peerId request
    let (s, backs) ← s.sendBuffered peerId rest
    .ok (s, back.toList ++ backs)

/-! ## Swarm events -/

/-- The state `on_connection_established` leaves after its `push`. -/
def addConnection (s : FileGet) (peerId : PeerId) (connectionId : ConnectionId)
    (endpoint : ConnectedPoint) : FileGet :=
  let connections := (s.connected.lookup peerId).getD []
  { s with
    connected := s.connected.insert peerId
      (connections ++ [Connection.new connectionId endpoint.dialedAddress]) }

/-- `FileGet::on_connection_established`. -/
def onConnectionEstablished (s : FileGet) (peerId : PeerId) (connectionId : ConnectionId)
    (endpoint : ConnectedPoint) (otherEstablished : Nat) : Except Panic FileGet :=
  let s := s.addConnection peerId connectionId endpoint
  if otherEstablished = 0 then
    match s.pendingOutboundRequests.lookup peerId with
    | some pending => do
      let s := { s with pendingOutboundRequests := s.pendingOutboundRequests.erase peerId }
      let (s, _) ← s.sendBuffered peerId pending
      .ok s
    | none => .ok s
  else .ok s

/-- The events `on_connection_closed` queues for a removed connection: the
first loop runs over `pending_outbound_responses`, the second over
`pending_inbound_responses`. -/
def closedEvents (outOrder inOrder : IterOrder RequestId) (peerId : PeerId) (conn : Connection) :
    List NetworkBehaviourAction :=
  (outOrder.order conn.pendingOutboundResponses.keys).map (fun requestId =>
      .generateEvent (.outboundFailure peerId requestId .connectionClosed)) ++
  (inOrder.order conn.pendingInboundResponses.keys).map fun requestId =>
      .generateEvent (.inboundFailure peerId requestId .connectionClosed)

/-- `FileGet::on_connection_closed`. -/
def onConnectionClosed (s : FileGet) (outOrder inOrder : IterOrder RequestId)
    (peerId : PeerId) (connectionId : ConnectionId) : Except Panic FileGet :=
  match s.connected.lookup peerId with
  | none =>
    .error (.expect "Expected some connections established to peer before closing.")
  | some connections =>
    match connections.find? (fun c => c.id = connectionId) with
    | none => .error (.expect "Expected connection to be establised before close.")
    | some conn =>
      let connections := connections.eraseP (fun c => c.id = connectionId)
      let connected :=
        if connections.isEmpty then s.connected.erase peerId
        else s.connected.insert peerId connections
      .ok ({ s with connected := connected }.push (closedEvents outOrder inOrder peerId conn))

/-- `FileGet::on_address_change`. -/
def onAddressChange (s : FileGet) (peerId : PeerId) (connectionId : ConnectionId)
    (new : ConnectedPoint) : Except Panic FileGet :=
  match s.connected.lookup peerId with
  | none =>
    .error (.expect "Address change can only happen for established connections.")
  | some connections =>
    match connections.find? (fun c => c.id = connectionId) with
    | none =>
      .error (.expect "Address change can only happen for established connections.")
    | some _ =>
      .ok { s with
        connected := s.connected.insert peerId
          (updateFirst (fun c => c.id = connectionId)
            (fun c => { c with address := new.dialedAddress }) connections) }

/-- `FileGet::one_dial_failure`. -/
def oneDialFailure (s : FileGet) : Option PeerId → FileGet
  | none => s
  | some peerId =>
    match s.pendingOutboundRequests.lookup peerId with
    | none => s
    | some pending =>
      { s with pendingOutboundRequests := s.pendingOutboundRequests.erase peerId }.push
        (pending.map fun (request : FileGetOutboundProtocol) =>
          .generateEvent (.outboundFailure peerId request.requestId .dialFailure))

/-- `NetworkBehaviour::on_swarm_event`. -/
def onSwarmEvent (s : FileGet) (outOrder inOrder : IterOrder RequestId) :
    FromSwarm → Except Panic FileGet
  | .connectionEstablished peerId connectionId endpoint otherEstablished =>
    s.onConnectionEstablished peerId connectionId endpoint otherEstablished
  | .connectionClosed peerId connectionId =>
    s.onConnectionClosed outOrder inOrder peerId connectionId
  | .addressChange peerId connectionId new => s.onAddressChange peerId connectionId new
  | .dialFailure peerId => .ok (s.oneDialFailure peerId)
  | .listenFailure => .ok s
  | .newListener => .ok s
  | .newListenAddr => .ok s
  | .expiredListenAddr => .ok s
  | .listenerError => .ok s
  | .listenerClosed => .ok s
  | .newExternalAddr => .ok s
  | .expiredExternalAddr => .ok s

/-! ## Handler events -/

/-- `connected.get_mut(peer_id).and_then(|cs| cs.iter_mut().find(..))`. -/
def findConnection (s : FileGet) (peerId : PeerId) (connectionId : ConnectionId) :
    Option Connection :=
  (s.connected.lookup peerId).bind fun connections =>
    connections.find? fun c => c.id = connectionId

/-- Write through the reference `find` gave. -/
def modifyConnection (s : FileGet) (peerId : PeerId) (connectionId : ConnectionId)
    (f : Connection → Connection) : FileGet :=
  match s.connected.lookup peerId with
  | none => s
  | some connections =>
    { s with
      connected := s.connected.insert peerId
        (updateFirst (fun c => c.id = connectionId) f connections) }

/-- `FileGet::remove_pending_inbound_response`: the new state, and whether
the id was there. -/
def removePendingInboundResponse (s : FileGet) (peerId : PeerId) (connectionId : ConnectionId)
    (requestId : RequestId) : FileGet × Bool :=
  match s.findConnection peerId connectionId with
  | none => (s, false)
  | some conn =>
    (s.modifyConnection peerId connectionId fun c =>
        { c with pendingInboundResponses := c.pendingInboundResponses.erase requestId },
      requestId ∈ conn.pendingInboundResponses)

/-- `FileGet::remove_pending_outbound_response`. -/
def removePendingOutboundResponse (s : FileGet) (peerId : PeerId) (connectionId : ConnectionId)
    (requestId : RequestId) : FileGet × Bool :=
  match s.findConnection peerId connectionId with
  | none => (s, false)
  | some conn =>
    (s.modifyConnection peerId connectionId fun c =>
        { c with pendingOutboundResponses := c.pendingOutboundResponses.erase requestId },
      requestId ∈ conn.pendingOutboundResponses)

/-- `debug_assert!(removed, ..)`, then go on. -/
def debugAssert (debug removed : Bool) (message : String) (s : FileGet) : Except Panic FileGet :=
  if debug && !removed then .error (.debugAssert message) else .ok s

/-- `NetworkBehaviour::on_connection_handler_event`. -/
def onConnectionHandlerEvent (debug : Bool) (s : FileGet) (peerId : PeerId)
    (connectionId : ConnectionId) : FileGetHandlerEvent → Except Panic FileGet
  | .request requestId message resSender =>
    let s := s.push [.generateEvent (.requestReceived peerId requestId message resSender)]
    match s.findConnection peerId connectionId with
    | some _ =>
      .ok (s.modifyConnection peerId connectionId fun c =>
        { c with pendingOutboundResponses := c.pendingOutboundResponses.insert requestId () })
    | none =>
      .ok (s.push [.generateEvent (.inboundFailure peerId requestId .connectionClosed)])
  | .response requestId => do
    let (s, removed) := s.removePendingInboundResponse peerId connectionId requestId
    let s ← debugAssert debug removed
      "Expect request_id to be pending before receiving response." s
    .ok (s.push [.generateEvent (.responseReceived peerId requestId)])
  | .responseSent requestId => do
    let (s, removed) := s.removePendingOutboundResponse peerId connectionId requestId
    let s ← debugAssert debug removed
      "Expect request_id to be pending before sending response." s
    .ok (s.push [.generateEvent (.responseSent peerId requestId)])
  | .responseOmission requestId => do
    let (s, removed) := s.removePendingOutboundResponse peerId connectionId requestId
    let s ← debugAssert debug removed
      "Expect request_id to be pending before sending response." s
    .ok (s.push [.generateEvent (.inboundFailure peerId requestId .responseOmission)])
  | .outboundTimeout requestId =>
    let (s, _) := s.removePendingInboundResponse peerId connectionId requestId
    .ok (s.push [.generateEvent (.outboundFailure peerId requestId .timeout)])
  | .outboundUnsupportedProtocols requestId =>
    let (s, _) := s.removePendingInboundResponse peerId connectionId requestId
    .ok (s.push [.generateEvent (.outboundFailure peerId requestId .unsupportedProtocols)])
  | .inboundTimeout requestId =>
    let (s, _) := s.removePendingOutboundResponse peerId connectionId requestId
    .ok (s.push [.generateEvent (.inboundFailure peerId requestId .timeout)])
  | .inboundUnsupportedProtocols requestId =>
    let (s, _) := s.removePendingOutboundResponse peerId connectionId requestId
    .ok (s.push [.generateEvent (.inboundFailure peerId requestId .unsupportedProtocols)])

/-- `NetworkBehaviour::poll`; `none` is `Poll::Pending`. -/
def poll (s : FileGet) : FileGet × Option NetworkBehaviourAction :=
  match s.pendingEvents with
  | event :: rest => ({ s with pendingEvents := rest }, some event)
  | [] => (s, none)

end FileGet

end FileSharing
