/-
FileSharing.Network.Init — how a node comes up (`EventLoop::init`,
`src/network/mod.rs`): listening, then finding the rendezvous point.

Each of the two loops of `init` waits for the next swarm event or for its
own delay of three seconds, whichever is there first. A `Wake` is what it
got. What the swarm does by itself meanwhile is not the loop's doing and
stays out of the model, but for the events that tell of it.

The second loop takes ANY peer that identifies itself for the rendezvous
point. The node already listens, so other peers may come first;
`rendezvous_point_dialed_iff` says that this is the one thing that goes
wrong.
-/
import FileSharing.Network.Directory

namespace FileSharing

open Lib

/-! ## The two loops -/

/-- `SwarmEvent<ComposedEvent, ..>`, with the events that `init` or its
reader tells apart. -/
inductive InitEvent where
  | newListenAddr (address : Multiaddr)
  | listenerError
  | connectionEstablished (peer : PeerId) (endpoint : ConnectedPoint)
  | identifyReceived (peer : PeerId)
  | other
  deriving DecidableEq, Repr

/-- What a `select!` of `init` wakes up with. -/
inductive Wake where
  | event (e : InitEvent)
  | delay
  deriving DecidableEq, Repr

namespace EventLoop

/-- The address `start_listen` listens on. -/
def localAddress : Multiaddr := ⟨"/ip4/0.0.0.0/tcp/0"⟩

/-- `EventLoop::start_listen`: how it ends and the wakes after it; `none`
while it waits. -/
def startListen : List Wake → Option (Except FileSharingError Unit × List Wake)
  | [] => none
  | .event (.newListenAddr _) :: rest => some (.ok (), rest)
  | .event .listenerError :: rest => some (.error (.listenError localAddress), rest)
  | .event _ :: rest => startListen rest
  | .delay :: rest => some (.error (.listenError localAddress), rest)

/-- The loop of `conntect_rendezvous`. -/
def awaitIdentify (s : EventLoop) : List Wake → Option EventLoop
  | [] => none
  | .event (.identifyReceived peer) :: _ => some { s with rendezvousPointPeerId := some peer }
  | .event _ :: rest => awaitIdentify s rest
  | .delay :: _ => some s

/-- `EventLoop::conntect_rendezvous`; `dial` is `swarm.dial`. -/
def conntectRendezvous (s : EventLoop) (rendezvousPointAddress : Multiaddr)
    (dial : Multiaddr → Except DialError Unit) (wakes : List Wake) :
    Option (Except FileSharingError EventLoop) :=
  match dial rendezvousPointAddress with
  | .error e => some (.error (.dialError e))
  | .ok () => (s.awaitIdentify wakes).map fun s =>
    if s.rendezvousPointPeerId.isSome then .ok s else .error .rendezvousPointNotConnected

/-- `EventLoop::init`. -/
def init (s : EventLoop) (rendezvousPointAddress : Multiaddr)
    (dial : Multiaddr → Except DialError Unit) (wakes : List Wake) :
    Option (Except FileSharingError EventLoop) :=
  match startListen wakes with
  | none => none
  | some (.error e, _) => some (.error e)
  | some (.ok (), rest) => s.conntectRendezvous rendezvousPointAddress dial rest

/-! ## What they see -/

/-- The peer that identifies itself. -/
def identified : Wake → Option PeerId
  | .event (.identifyReceived peer) => some peer
  | _ => none

/-- The node listens now. -/
def listens : Wake → Bool
  | .event (.newListenAddr _) => true
  | _ => false

/-- The wakes after the one with which the node listens. -/
def afterListening (wakes : List Wake) : List Wake := (wakes.dropWhile (!listens ·)).tail

/-- The first peer that identifies itself before the delay. -/
def firstIdentified (wakes : List Wake) : Option PeerId :=
  (wakes.takeWhile (· ≠ .delay)).findSome? identified

/-- The wakes that the two loops throw away while they wait for theirs. -/
def passedOver (wakes : List Wake) : List Wake :=
  wakes.takeWhile (!listens ·) ++
    (afterListening wakes).takeWhile fun w => w ≠ .delay && (identified w).isNone

/-- The dial of the address reached the peer, before `init` returned. -/
def Reached (address : Multiaddr) (wakes : List Wake) (peer : PeerId) : Prop :=
  .event (.connectionEstablished peer (.dialer address)) ∈ passedOver wakes

theorem startListen_ok {wakes rest : List Wake} (h : startListen wakes = some (.ok (), rest)) :
    rest = afterListening wakes := by
  induction wakes with
  | nil => cases h
  | cons w wakes ih =>
    cases w with
    | delay => cases h
    | event e =>
      cases e with
      | newListenAddr _ =>
        cases h
        rfl
      | listenerError => cases h
      | connectionEstablished _ _ | identifyReceived _ | other => exact ih h

theorem awaitIdentify_eq {s s' : EventLoop} {wakes : List Wake}
    (h : s.awaitIdentify wakes = some s') :
    s' = { s with rendezvousPointPeerId :=
      (firstIdentified wakes).or s.rendezvousPointPeerId } := by
  induction wakes with
  | nil => cases h
  | cons w wakes ih =>
    cases w with
    | delay =>
      cases h
      rfl
    | event e =>
      cases e with
      | identifyReceived peer =>
        cases h
        rfl
      | newListenAddr _ | listenerError | connectionEstablished _ _ | other => exact ih h

/-- **The rendezvous point is whoever identifies itself first.** -/
theorem init_ok {swarm : System} {dir : Path} {address : Multiaddr}
    {dial : Multiaddr → Except DialError Unit} {wakes : List Wake} {l : EventLoop}
    (h : init (.new swarm dir) address dial wakes = some (.ok l)) :
    ∃ peer, firstIdentified (afterListening wakes) = some peer ∧
      l = { EventLoop.new swarm dir with rendezvousPointPeerId := some peer } := by
  unfold init at h
  cases hl : startListen wakes with
  | none =>
    rw [hl] at h
    cases h
  | some r =>
    obtain ⟨result, rest⟩ := r
    rw [hl] at h
    cases result with
    | error e => cases h
    | ok u =>
      obtain rfl := startListen_ok hl
      dsimp only [conntectRendezvous] at h
      cases hd : dial address with
      | error e =>
        rw [hd] at h
        cases h
      | ok u =>
        rw [hd] at h
        obtain ⟨s, hs, hl⟩ := Option.map_eq_some_iff.mp h
        have heq := awaitIdentify_eq hs
        cases hf : firstIdentified (afterListening wakes) with
        | none =>
          rw [hf] at heq
          subst heq
          cases hl
        | some peer =>
          rw [hf] at heq
          subst heq
          cases hl
          exact ⟨peer, rfl, rfl⟩

end EventLoop

/-! ## What the node asks of the rendezvous point -/

/-- The peer a `register` or a `discover` goes to. -/
def Effect.rendezvousNode : Effect → Option PeerId
  | .register _ node => some node
  | .discover node => some node
  | _ => none

namespace EventLoop

/-- A command makes the node register or discover at the rendezvous point. -/
theorem handleCommand_rendezvousNode {fits : String → Bool} {env : Env} {l : EventLoop}
    {request : CommandRequest} {effect : Effect} {peer : PeerId}
    (h : effect ∈ (l.handleCommand fits env request).effects)
    (hnode : effect.rendezvousNode = some peer) : l.rendezvousPointPeerId = some peer := by
  have hh := handleCommand_handled fits env l request
  generalize l.handleCommand fits env request = handled at h hh
  cases hh with
  | nameTooLong _ _ _ | noPoint _ _ => cases h
  | registered userName namespace_ node _ _ hr =>
    rcases List.mem_pair.mp h with rfl | rfl
    · exact hr.trans hnode
    · cases hnode
  | listPeers node _ hr =>
    rw [List.mem_singleton.mp h] at hnode
    exact hr.trans hnode
  | listFiles _ _ _ _ | nobodyListed _ _ _ | notOpened _ _ _ _ _ | notSent _ _ _ _ _ _ _ _ _ =>
    rw [List.mem_singleton.mp h] at hnode
    cases hnode
  | nobodyAsked _ _ _ _ _ _ | getFile _ _ _ _ _ _ _ _ _ _ =>
    rcases List.mem_pair.mp h with rfl | rfl <;> cases hnode

/-- No event makes the node register or discover. -/
theorem handleEvent_rendezvousNode {debug : Bool} {env : Env} {l : EventLoop} {event : SwarmEvent}
    {effect : Effect} (h : effect ∈ (l.handleEvent debug env event).effects) :
    effect.rendezvousNode = none := by
  have hh := handleEvent_handled debug env l event
  generalize l.handleEvent debug env event = handled at h hh
  cases hh with
  | ignored event hi => cases h
  | discovered registrations =>
    obtain ⟨a, -, rfl⟩ := List.mem_map.mp h
    rfl
  | directoryListed _ _ _ _ | served _ _ _ _ _ _ | notServed _ _ _ _ _ _ =>
    rcases List.mem_pair.mp h with rfl | rfl <;> rfl
  | notListed _ _ _ _ | listed _ _ _ _ _ _ _ | fetched _ _ _ _ _ _ _ =>
    rw [List.mem_singleton.mp h]
    rfl
  | listedForNobody _ _ _ _ _ _ _ he | fetchedForNobody _ _ _ _ he =>
    rw [he] at h
    cases h

end EventLoop

/-- The effects of a step: those of the handler it runs. -/
def Node.effects (fits : String → Bool) (debug : Bool) (n : Node) : NodeLabel → List Effect
  | .command request env => (n.loop.handleCommand fits env request).effects
  | .event event env => (n.loop.handleEvent debug env event).effects
  | .pollFileGet env =>
    match n.loop.swarm.step debug .pollBehaviour, n.loop.swarm.fileGet.pendingEvents with
    | .ok swarm, .generateEvent event :: _ =>
      ({ n.loop with swarm := swarm }.handleEvent debug env (.fileGet event)).effects
    | _, _ => []
  | .swarm _ => []
  | .lost _ => []
  | .dropSwarm => []

/-- What a step asks of a rendezvous point, it asks of the loop's. -/
theorem Node.effects_rendezvousNode {fits : String → Bool} {debug : Bool} {n : Node}
    {a : NodeLabel} {effect : Effect} {peer : PeerId} (h : effect ∈ n.effects fits debug a)
    (hnode : effect.rendezvousNode = some peer) : n.loop.rendezvousPointPeerId = some peer := by
  cases a with
  | command request env => exact EventLoop.handleCommand_rendezvousNode h hnode
  | event event env =>
    rw [EventLoop.handleEvent_rendezvousNode h] at hnode
    cases hnode
  | pollFileGet env =>
    unfold Node.effects at h
    dsimp only at h
    split at h
    · rw [EventLoop.handleEvent_rendezvousNode h] at hnode
      cases hnode
    · cases h
  | swarm _ | lost _ | dropSwarm => cases h

section Runs

variable {config : FileGetConfig} {debug : Bool} {start : Started config debug}

/-- A run keeps the rendezvous point it started with. -/
theorem run_rendezvousPointPeerId {fits : String → Bool} {tr : Trace Node NodeLabel} {n : Node}
    (h : (nodeMachine fits start).Run tr n) :
    n.loop.rendezvousPointPeerId = some start.rendezvousPointPeerId := by
  induction h with
  | start => rfl
  | next hrun hallowed hok ih => rw [(step_kept hok).2, ih]

/-- The rendezvous point is a peer that dialing its address reached, and
whatever a run registers or discovers, it does there. -/
def UsesDialed (start : Started config debug) (address : Multiaddr) (wakes : List Wake) : Prop :=
  ∃ peer, EventLoop.Reached address wakes peer ∧
    start.node.loop.rendezvousPointPeerId = some peer ∧
    ∀ fits tr n, (nodeMachine fits start).Run tr n → ∀ t ∈ tr,
      ∀ effect ∈ t.pre.effects fits debug t.label,
        ∀ q, effect.rendezvousNode = some q → q = peer

/-- **`init` finds the rendezvous point exactly if nobody else identifies
itself first.** -/
theorem rendezvous_point_dialed_iff {address : Multiaddr}
    {dial : Multiaddr → Except DialError Unit} {wakes : List Wake}
    (h : EventLoop.init (.new start.swarm start.sharingDir) address dial wakes =
      some (.ok start.node.loop)) :
    UsesDialed start address wakes ↔
      ∀ peer, EventLoop.firstIdentified (EventLoop.afterListening wakes) = some peer →
        EventLoop.Reached address wakes peer := by
  obtain ⟨first, hfirst, hloop⟩ := EventLoop.init_ok h
  have hpeer : start.node.loop.rendezvousPointPeerId = some first := by rw [hloop]
  constructor
  · rintro ⟨peer, hreached, hloop, -⟩ q hq
    rw [hfirst] at hq
    rw [hpeer] at hloop
    obtain rfl := Option.some.inj hq
    obtain rfl := Option.some.inj hloop
    exact hreached
  · intro hall
    refine ⟨first, hall first hfirst, hpeer, ?_⟩
    intro fits tr n hrun t ht effect heffect q hq
    obtain ⟨newer, older, rfl⟩ := List.append_of_mem ht
    have hpoint := run_rendezvousPointPeerId hrun.of_append.1
    have hq' := Node.effects_rendezvousNode heffect hq
    rw [hpoint] at hq'
    exact (Option.some.inj hq').symm.trans (Option.some.inj hpeer)

end Runs

/-- The wakes of a node that nobody else connects to before it has found
the rendezvous point, peer 1 at address `r`. -/
def quietWakes : List Wake :=
  [.event (.newListenAddr ⟨"a"⟩), .event (.connectionEstablished ⟨1⟩ (.dialer ⟨"r"⟩)),
    .event (.identifyReceived ⟨1⟩)]

theorem rendezvous_point_dialed_iff_quiet :
    UsesDialed (Started.fresh ⟨10⟩ true) ⟨"r"⟩ quietWakes := by
  have hinit : EventLoop.init (.new (Started.fresh ⟨10⟩ true).swarm
      (Started.fresh ⟨10⟩ true).sharingDir) ⟨"r"⟩ (fun _ => .ok ()) quietWakes =
      some (.ok (Started.fresh ⟨10⟩ true).node.loop) := rfl
  refine (rendezvous_point_dialed_iff hinit).mpr fun peer hpeer => ?_
  obtain rfl : (⟨1⟩ : PeerId) = peer := Option.some.inj hpeer
  exact List.mem_cons_self

/-- Peer 9 connects to the node that listens already, and identifies itself
before the rendezvous point does: `init` takes it. -/
theorem first_to_identify_is_taken :
    ¬ ∀ (swarm : System) (dir : Path) (address : Multiaddr)
      (dial : Multiaddr → Except DialError Unit) (wakes : List Wake) (l : EventLoop),
      EventLoop.init (.new swarm dir) address dial wakes = some (.ok l) →
        ∃ peer, l.rendezvousPointPeerId = some peer ∧ EventLoop.Reached address wakes peer := by
  intro h
  obtain ⟨peer, hpeer, hreached⟩ := h (.init ⟨10⟩) [100] ⟨"r"⟩ (fun _ => .ok ())
    [.event (.newListenAddr ⟨"a"⟩), .event (.connectionEstablished ⟨9⟩ (.listener ⟨"a"⟩ ⟨"b"⟩)),
      .event (.identifyReceived ⟨9⟩), .event (.connectionEstablished ⟨1⟩ (.dialer ⟨"r"⟩)),
      .event (.identifyReceived ⟨1⟩)] _ rfl
  obtain rfl : (⟨9⟩ : PeerId) = peer := Option.some.inj hpeer
  revert hreached
  unfold EventLoop.Reached
  decide

end FileSharing
