/-
FileSharing.Network.Node — a node: the event loop, the commands and events
that reach it, and the swarm it drives, as one labelled machine.

`EventLoop::run` takes the next command or the next swarm event, whichever
is there, and handles it to the end. So a run is a sequence of handler
calls, with the swarm's own progress (connections, handlers, substreams)
between them:

* `command` — a command arrives on the channel and is handled;
* `event` — an event of another behaviour or of the swarm is handled;
* `pollFileGet` — the swarm polls `FileGet` and carries out its oldest
  action; if that action is an event, the loop handles it;
* `swarm` — any other step of `FileGet`'s side of the swarm;
* `lost` — another behaviour loses a request of the loop without an event;
* `dropSwarm` — the loop has stopped, and its swarm is gone.

What the record keeps besides the loop is what the outside knows: the
commands received, the answers sent, and of what the loop has asked the
other behaviours for the part that can still be answered: how many
discovers, which `list_files` requests.

Both are lost in two ways. `libp2p-rendezvous` sends a discover over a
connection that is there, and tells of no discover that its connection
takes along; so with the last task that leads to the rendezvous point all
discovers are lost, and one may be lost any time, with its substream or its
connection. `request-response` tells of every request that fails, but of
none whose connection task has panicked.

A handler that returns `Err` or panics stops the loop: `stopped` says how,
and nothing is handled any more. The connections have tasks of their own,
which go on until the swarm is gone. A panic inside the swarm is a failed
step.
-/
import FileSharing.FileGet.Placement
import FileSharing.Network.EventLoop

namespace FileSharing

open Lib

/-- A node. The lists are newest first. -/
structure Node where
  loop : EventLoop
  received : List CommandRequest
  answered : List (SenderId × Except FileSharingError CommandResponse)
  discovers : Nat
  listFilesSent : List ListFilesRequestId
  listFilesOpen : List (ListFilesRequestId × PeerId)
  stopped : Option Ended
  swarmGone : Bool

/-- What another behaviour may lose without an event. -/
inductive Lost where
  | discover
  | listFiles (requestId : ListFilesRequestId)

/-- The steps of a node. -/
inductive NodeLabel where
  | command (request : CommandRequest) (env : Env)
  | event (event : SwarmEvent) (env : Env)
  | pollFileGet (env : Env)
  | swarm (label : Label)
  | lost (what : Lost)
  | dropSwarm

namespace Node

/-- A discover is sent. Without a running connection nobody hears of it. -/
def discover (n : Node) (rendezvousNode : PeerId) : Node :=
  { n with
    discovers := if n.loop.swarm.reaches rendezvousNode then n.discovers + 1 else n.discovers }

/-- A `list_files` request is sent. A peer that is not connected is dialed. -/
def sendListFiles (n : Node) (peer : PeerId) (requestId : ListFilesRequestId) : Node :=
  { n with
    listFilesSent := requestId :: n.listFilesSent
    listFilesOpen :=
      if n.loop.swarm.cutOff peer then n.listFilesOpen else (requestId, peer) :: n.listFilesOpen }

/-- What one effect of a handler does outside the loop. A reader that is
sent, or a sender that is dropped, is noticed by the substream that waits
for it. -/
def perform (n : Node) : Effect → Node
  | .answer sender result => { n with answered := (sender, result) :: n.answered }
  | .discover node => n.discover node
  | .sendListFiles peer requestId => n.sendListFiles peer requestId
  | .sendReader resSender reader =>
    { n with loop := { n.loop with swarm := n.loop.swarm.sendReader resSender reader } }
  | .dropSender resSender =>
    { n with loop := { n.loop with swarm := n.loop.swarm.dropSender resSender } }
  | .register _ _ => n
  | .sendListFilesResponse _ _ => n
  | .openRead _ => n
  | .openWrite _ => n
  | .readDir _ => n
  | .sendFileGet _ _ => n

/-- A handler has run. -/
def after (n : Node) (h : Handled) : Node :=
  h.effects.foldl perform { n with loop := h.loop, stopped := h.ended }

/-- A request to another behaviour is done with. -/
def close (n : Node) : Lost → Node
  | .discover => { n with discovers := n.discovers - 1 }
  | .listFiles requestId =>
    { n with listFilesOpen := n.listFilesOpen.filter fun x => x.1 ≠ requestId }

/-- What an event of another behaviour tells about what is in flight. -/
def settle (n : Node) : SwarmEvent → Node
  | .rendezvous (.discovered _) => n.close .discover
  | .rendezvous .discoverFailed => n.close .discover
  | .listFiles (.response _ requestId _) => n.close (.listFiles requestId)
  | .listFiles (.outboundFailure _ requestId) => n.close (.listFiles requestId)
  | _ => n

/-- The swarm has taken a step of its own. Requests whose last connection
task is over are lost. -/
def withSwarm (n : Node) (swarm : System) : Node :=
  { n with
    loop := { n.loop with swarm := swarm }
    discovers :=
      if n.loop.rendezvousPointPeerId.any swarm.reaches then n.discovers else 0
    listFilesOpen := n.listFilesOpen.filter fun x => !swarm.cutOff x.2 }

/-- One step. -/
def step (fits : String → Bool) (debug : Bool) (n : Node) : NodeLabel → Except Panic Node
  | .command request env =>
    .ok ({ n with received := request :: n.received }.after (n.loop.handleCommand fits env request))
  | .event event env => .ok ((n.settle event).after (n.loop.handleEvent debug env event))
  | .pollFileGet env => do
    let swarm ← n.loop.swarm.step debug .pollBehaviour
    let loop := { n.loop with swarm := swarm }
    match n.loop.swarm.fileGet.pendingEvents with
    | .generateEvent event :: _ =>
      .ok ({ n with loop := loop }.after (loop.handleEvent debug env (.fileGet event)))
    | _ => .ok { n with loop := loop }
  | .swarm label => do
    let swarm ← n.loop.swarm.step debug label
    .ok (n.withSwarm swarm)
  | .lost what => .ok (n.close what)
  | .dropSwarm => .ok { n with swarmGone := true }

/-- The steps of the swarm that are not the loop's own doing. -/
def isOwn : Label → Bool
  | .sendRequest _ _ _ => true
  | .pollBehaviour => true
  | .respond _ _ => true
  | .dropResponder _ => true
  | _ => false

/-- The events that do not come out of `FileGet`. -/
def isForeign : SwarmEvent → Bool
  | .fileGet _ => false
  | _ => true

/-- The steps of a connection task. -/
def isTask : Label → Bool
  | .deliverCommand _ => true
  | .pollHandler _ _ _ => true
  | .openInbound _ => true
  | .inbound _ _ _ => true
  | .endOutbound _ _ _ => true
  | _ => false

/-- When a request can be lost. -/
def CanLose (n : Node) : Lost → Bool
  | .discover => 0 < n.discovers
  | .listFiles requestId => n.listFilesOpen.any fun x => x.1 = requestId &&
    n.loop.swarm.links.any fun l => l.peer = x.2 && l.panicked.isSome

/-- The contract: the loop runs; commands have ids and channels of their
own; `list_files` numbers its requests; the swarm keeps its contract. Of a
loop that has stopped the connection tasks are left, while its swarm is
there. -/
def Allowed (n : Node) : NodeLabel → Bool
  | .command request env => n.stopped.isNone &&
    request.commandRequestId ∉ n.received.map (·.commandRequestId) &&
    request.responseSender ∉ n.received.map (·.responseSender) &&
    env.listFilesId ∉ n.listFilesSent
  | .event event _ => n.stopped.isNone && isForeign event
  | .pollFileGet _ => n.stopped.isNone
  | .swarm label => !isOwn label && n.loop.swarm.Allowed label &&
    (n.stopped.isNone || isTask label && !n.swarmGone)
  | .lost what => n.stopped.isNone && n.CanLose what
  | .dropSwarm => n.stopped.isSome && !n.swarmGone

end Node

/-- What `init` leaves: a loop whose swarm has taken steps of its own, that
knows the rendezvous point and has handled nothing yet. -/
structure Started (config : FileGetConfig) (debug : Bool) where
  swarm : System
  trace : Trace System Label
  run : (fileGetSystem config debug).Run trace swarm
  noRequest : sends trace = 0
  rendezvousPointPeerId : PeerId
  sharingDir : Path

/-- The node when `run` is called. -/
def Started.node {config : FileGetConfig} {debug : Bool} (start : Started config debug) : Node where
  loop :=
    { EventLoop.new start.swarm start.sharingDir with
      rendezvousPointPeerId := some start.rendezvousPointPeerId }
  received := []
  answered := []
  discovers := 0
  listFilesSent := []
  listFilesOpen := []
  stopped := none
  swarmGone := false

/-- The node as a machine. -/
def nodeMachine {config : FileGetConfig} {debug : Bool} (fits : String → Bool)
    (start : Started config debug) : Machine Node NodeLabel Panic where
  init := start.node
  allowed := fun n a => n.Allowed a = true
  step := Node.step fits debug

instance {config : FileGetConfig} {debug : Bool} (fits : String → Bool)
    (start : Started config debug) (n : Node) (a : NodeLabel) :
    Decidable ((nodeMachine fits start).allowed n a) :=
  inferInstanceAs (Decidable (n.Allowed a = true))

end FileSharing
