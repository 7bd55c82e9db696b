/-
FileSharing.Network.Overlay — processes of the program, and the substreams of
`/file-get/1.0.0` between them.

Some of the peers run this program (`ours`), of the others nothing is known.
The processes take their steps in any order, and between them are wires: a
wire is a substream whose ends are an outbound upgrade of one process and an
inbound upgrade of another, with the two upgrades at work on it as an
`Exchange`. What the swarm of a process tells of an upgrade on a wire is what
the exchange has come to: it ends with `Ok` when the exchange's client has,
it receives the message that the exchange has announced, and the exchange
gets the reader that the process has sent. A process learns of all this at
any later moment. An upgrade on a connection to one of `ours` that is not on
a wire yet tells nothing; an upgrade on a connection to another peer tells
anything.
-/
import FileSharing.Lib.Composition
import FileSharing.FileGet.ExchangeTheorems
import FileSharing.Network.FetchedFiles
import FileSharing.Network.ServedFiles

namespace FileSharing

open Lib FileGet

/-! ## Wires -/

/-- The two upgrades on the ends of a substream, each with the process and
the connection that it is on. `before` is the local file of the request when
the upgrade begins. -/
structure WireEnds where
  asker : PeerId
  askerConnection : ConnectionId
  request : FileGetOutboundProtocol
  server : PeerId
  serverConnection : ConnectionId
  upgrade : FileGetInboundProtocol
  before : Sink

/-- A substream, and what its upgrades are about. -/
structure Wire extends WireEnds where
  exchange : Exchange

inductive WireLabel where
  /-- The substream is negotiated. -/
  | opens (ends : WireEnds)
  /-- One of the upgrades of wire `k` goes on. -/
  | moves (k : Nat) (a : ExchangeLabel)

/-- The processes and the wires, the newest first. -/
abbrev Overlay : Type := Composed PeerId Process (List Wire)

abbrev OverlayLabel : Type := ComposedLabel PeerId ProcessLabel WireLabel

/-! ## What an upgrade tells its process -/

/-- How the outbound upgrade may end for its swarm. -/
def Exchange.endsClient (s : Exchange) : Except ConnectionHandlerUpgrErr Unit → Bool
  | .ok () => s.client = .ended (.ok ())
  | .error (.upgrade (.apply e)) => s.client = .ended (.error e)
  | .error _ => s.client = .dropped

/-- What may happen to the inbound upgrade for its swarm. -/
def Exchange.wakesServer (s : Exchange) : InboundEvent → Bool
  | .received (.ok m) => s.announced.map (·.2) = some m
  | .received (.error e) => s.announced = none && s.server = .ended (.returned (.error e))
  | .pollReader => true
  | .copied (.ok ()) => s.server = .ended (.returned (.ok true))
  | .copied (.error e) => s.announced ≠ none && s.server = .ended (.returned (.error e))
  | .fails _ => s.server = .dropped
  | .otherProtocol => false

/-- An end that an outbound upgrade comes to by itself. -/
def ofOutboundUpgrade : Except ConnectionHandlerUpgrErr Unit → Bool
  | .ok () => true
  | .error (.upgrade (.apply _)) => true
  | .error _ => false

/-- An event that comes out of an inbound upgrade. -/
def InboundEvent.ofUpgrade : InboundEvent → Bool
  | .received _ => true
  | .copied _ => true
  | _ => false

/-- The outbound upgrade of `p` for the request may end so. -/
def endAdmitted (ours : PeerId → Bool) (wires : List Wire) (p : PeerId) (l : Link)
    (request : FileGetOutboundProtocol) (result : Except ConnectionHandlerUpgrErr Unit) : Bool :=
  match wires.find? fun w => w.asker = p && w.askerConnection = l.id && w.request = request with
  | some w => w.server = l.peer && w.exchange.endsClient result
  | none => !(ours l.peer && ofOutboundUpgrade result)

/-- This may happen to the inbound upgrade of `p` on the channel. -/
def inboundAdmitted (ours : PeerId → Bool) (wires : List Wire) (p : PeerId) (l : Link)
    (ch : ChannelId) (event : InboundEvent) : Bool :=
  match wires.find? fun w =>
    w.server = p && w.serverConnection = l.id && w.upgrade.requestSender = ch with
  | some w => w.asker = l.peer && w.exchange.wakesServer event
  | none => !(ours l.peer && event.ofUpgrade)

/-- The swarm of `p` may take this step by itself. -/
def swarmAdmitted (ours : PeerId → Bool) (s : Overlay) (p : PeerId) : Label → Bool
  | .endOutbound c i result => (s.nodes p).swarm.links.all fun l =>
    l.id ≠ c || (l.outbound[i]?).all fun sub =>
      endAdmitted ours s.medium p l sub.protocol result
  | .inbound c ch event => (s.nodes p).swarm.links.all fun l =>
    l.id ≠ c || inboundAdmitted ours s.medium p l ch event
  | _ => true

/-- A peer of `ours` may take this step. -/
def admitted (ours : PeerId → Bool) (s : Overlay) (p : PeerId) (a : ProcessLabel) : Bool :=
  ours p && a.swarm?.all (swarmAdmitted ours s p)

/-! ## What a process tells its upgrades -/

/-- The response channel of the upgrade gives this. -/
def Wire.answers (w : Wire) (server : System) : ExchangeLabel → Bool
  | .respond response => server.links.any fun l => l.id = w.serverConnection &&
    l.inbound.any fun sub => sub.upgrade = w.upgrade &&
      match response with
      | some reader => sub.phase = .copying reader
      | none => sub.response = .dropped
  | _ => true

/-- The ends are upgrades that run and are not on a wire: one for a request
over a connection to the server, one that waits for a request on a connection
to the asker. -/
def WireEnds.free (e : WireEnds) (s : Overlay) : Bool :=
  ((s.nodes e.asker).swarm.links.any fun l =>
    l.id = e.askerConnection && l.peer = e.server && l.isLive &&
      l.outbound.any fun sub => sub.protocol = e.request) &&
  ((s.nodes e.server).swarm.links.any fun l =>
    l.id = e.serverConnection && l.peer = e.asker && l.isLive &&
      l.inbound.any fun sub => sub.upgrade = e.upgrade && sub.phase = .receiving) &&
  s.medium.all fun w => !(w.asker = e.asker && w.request = e.request) &&
    !(w.server = e.server && w.upgrade.requestSender = e.upgrade.requestSender)

/-- When each step of a wire may be taken. -/
def wireAllowed (ours : PeerId → Bool) (window : Nat) (s : Overlay) : WireLabel → Bool
  | .opens e => ours e.asker && ours e.server && e.free s
  | .moves k a =>
    match s.medium[k]? with
    | some w => w.exchange.Allowed window a && w.answers (s.nodes w.server).swarm a
    | none => false

/-- A step of a wire. -/
def wireStep (s : Overlay) : WireLabel → List Wire
  | .opens e => ⟨e, .start e.request e.before⟩ :: s.medium
  | .moves k a =>
    match s.medium[k]? with
    | some w => s.medium.set k ⟨w.toWireEnds, w.exchange.step w.upgrade a⟩
    | none => s.medium

/-- The wires, each direction of which holds `window` bytes. -/
def wires (ours : PeerId → Bool) (window : Nat) :
    Medium PeerId Process ProcessLabel (List Wire) WireLabel where
  init := []
  admits s p a := admitted ours s p a = true
  allowed s b := wireAllowed ours window s b = true
  step := wireStep

/-- The processes of `ours` and the wires between them as one machine. -/
def overlayMachine (config : FileGetConfig) (debug : Bool) (fits : String → Bool)
    (dial : PeerId → Except DialError Unit) (sharingDir : PeerId → Path) (ours : PeerId → Bool)
    (window : Nat) : Machine Overlay OverlayLabel Panic :=
  composed (fun p => processMachine config debug fits (dial p) (sharingDir p)) (wires ours window)

instance (ours : PeerId → Bool) (window : Nat) (s : Overlay) (p : PeerId) (a : ProcessLabel) :
    Decidable ((wires ours window).admits s p a) :=
  inferInstanceAs (Decidable (admitted ours s p a = true))

instance (ours : PeerId → Bool) (window : Nat) (s : Overlay) (b : WireLabel) :
    Decidable ((wires ours window).allowed s b) :=
  inferInstanceAs (Decidable (wireAllowed ours window s b = true))

instance (config : FileGetConfig) (debug : Bool) (fits : String → Bool)
    (dial : PeerId → Except DialError Unit) (sharingDir : PeerId → Path) (ours : PeerId → Bool)
    (window : Nat) (s : Overlay) (a : OverlayLabel) :
    Decidable ((overlayMachine config debug fits dial sharingDir ours window).allowed s a) :=
  inferInstanceAs (Decidable ((composed (fun p => processMachine config debug fits (dial p)
    (sharingDir p)) (wires ours window)).allowed s a))

end FileSharing
