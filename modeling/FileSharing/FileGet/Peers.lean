/-
FileSharing.FileGet.Peers — peers do not interfere with each other.

All peers share one id counter, one queue of actions and the same tables.
Here `FileGet` is a machine of its own, with the calls it answers as
labels: `send_request`, the events of the swarm and of the handlers, `poll`
and the draws of inbound ids. No contract is put on them; a run is whatever
sequence of calls the behaviour survives (`run_fileGet`: the runs of the
composed system are among them).

Peer `q` sees its own entries of the two tables, the counter of requests,
and what is queued about it. A call about another peer touches none of that
(`Touches`), and what a call about `q` does depends on nothing else
(`Alike`). `Lib.Unwinding` makes of these two facts a statement about
pairs of runs.
-/
import FileSharing.FileGet.SystemTheorems
import FileSharing.Lib.Unwinding

namespace FileSharing

open Lib FileGet

/-! ## The behaviour as a machine -/

/-- The calls `FileGet` answers. A draw of an inbound id is a handler's
`listen_protocol`: the handlers share the generator. -/
inductive FileGetCall where
  | sendRequest (peerId : PeerId) (request : FileGetMessage) (fileWriter : FileWriter)
  | swarmEvent (outOrder inOrder : IterOrder RequestId) (event : FromSwarm)
  | handlerEvent (peerId : PeerId) (connectionId : ConnectionId) (event : FileGetHandlerEvent)
  | poll
  | drawInboundId

/-- The state a call leaves. -/
def FileGet.call (debug : Bool) (s : FileGet) : FileGetCall → Except Panic FileGet
  | .sendRequest peerId request fileWriter => (s.sendRequest peerId request fileWriter).map (·.1)
  | .swarmEvent outOrder inOrder event => s.onSwarmEvent outOrder inOrder event
  | .handlerEvent peerId connectionId event =>
    s.onConnectionHandlerEvent debug peerId connectionId event
  | .poll => .ok s.poll.1
  | .drawInboundId => .ok { s with inboundIdGenerator := s.inboundIdGenerator.nextId.2 }

/-- `FileGet` as a machine. -/
def fileGetMachine (config : FileGetConfig) (debug : Bool) : Machine FileGet FileGetCall Panic where
  init := .fromConfig config
  allowed := fun _ _ => True
  step := FileGet.call debug

instance (config : FileGetConfig) (debug : Bool) (s : FileGet) (a : FileGetCall) :
    Decidable ((fileGetMachine config debug).allowed s a) :=
  .isTrue trivial

/-! ## The runs of the composed system -/

/-- The call of the behaviour that a step of the composed system makes. -/
def Label.call? (s : System) : Label → Option FileGetCall
  | .sendRequest p m w => some (.sendRequest p m w)
  | .connectionEstablished p c ep _ =>
    some (.swarmEvent (.stored _) (.stored _)
      (.connectionEstablished p c ep (s.linksOf p).length))
  | .connectionClosed p c o i => some (.swarmEvent o i (.connectionClosed p c))
  | .addressChange p c ep => some (.swarmEvent (.stored _) (.stored _) (.addressChange p c ep))
  | .dialFailure peer _ => some (.swarmEvent (.stored _) (.stored _) (.dialFailure peer))
  | .swarmNotice event => some (.swarmEvent (.stored _) (.stored _) event)
  | .pollBehaviour => some .poll
  | .deliverEvent c =>
    (s.link? c).bind fun l => l.events.head?.map fun event => .handlerEvent l.peer c event
  | .openInbound c => (s.link? c).map fun _ => .drawInboundId
  | _ => none

/-- A step of the composed system makes its call, or leaves the behaviour
alone. -/
theorem step_call {debug : Bool} {s s' : System} {a : Label} (h : s.step debug a = .ok s') :
    (∃ call, a.call? s = some call ∧ s.fileGet.call debug call = .ok s'.fileGet) ∨
    (a.call? s = none ∧ s'.fileGet = s.fileGet) := by
  -- a call whose result is put back into the system
  have hput : ∀ {result : Except Panic FileGet} {f : FileGet → System},
      (∀ fg, (f fg).fileGet = fg) → (result >>= fun fg => .ok (f fg)) = .ok s' →
      result = .ok s'.fileGet := by
    intro result f hf h
    cases result with
    | error e => cases h
    | ok fg =>
      obtain rfl := Except.ok.inj h
      rw [hf]
  cases a with
  | sendRequest p m w =>
    refine Or.inl ⟨_, rfl, ?_⟩
    simp only [System.step] at h
    show (s.fileGet.sendRequest p m w).map (·.1) = _
    cases hs : s.fileGet.sendRequest p m w with
    | error e => simp [hs, bind, Except.bind] at h
    | ok result =>
      simp only [hs, bind, Except.bind, Except.ok.injEq] at h
      rw [← h]
      rfl
  | connectionEstablished p c ep resolves =>
    exact Or.inl ⟨_, rfl, hput (fun _ => rfl) h⟩
  | connectionClosed p c o i => exact Or.inl ⟨_, rfl, hput (fun _ => rfl) h⟩
  | addressChange p c ep => exact Or.inl ⟨_, rfl, hput (fun _ => rfl) h⟩
  | dialFailure peer resolves => exact Or.inl ⟨_, rfl, hput (fun _ => rfl) h⟩
  | swarmNotice event => exact Or.inl ⟨_, rfl, hput (fun _ => rfl) h⟩
  | pollBehaviour =>
    refine Or.inl ⟨_, rfl, ?_⟩
    simp only [System.step] at h
    unfold FileGet.call
    split at h
    · rename_i fileGet hpoll
      rw [← Except.ok.inj h, hpoll]
    · rename_i fileGet action hpoll
      rw [← Except.ok.inj h, hpoll, System.perform_fileGet]
  | deliverEvent c =>
    simp only [System.step] at h
    cases hl : s.link? c with
    | none =>
      simp only [hl, Except.ok.injEq] at h
      exact Or.inr ⟨by simp [Label.call?, hl], by rw [h]⟩
    | some l =>
      simp only [hl] at h
      cases he : l.events with
      | nil =>
        simp only [he, Except.ok.injEq] at h
        exact Or.inr ⟨by simp [Label.call?, hl, he], by rw [h]⟩
      | cons event rest =>
        simp only [he] at h
        exact Or.inl ⟨.handlerEvent l.peer c event, by simp [Label.call?, hl, he],
          hput (fun _ => rfl) h⟩
  | openInbound c =>
    simp only [System.step] at h
    cases hl : s.link? c with
    | none =>
      simp only [hl, Except.ok.injEq] at h
      exact Or.inr ⟨by simp [Label.call?, hl], by rw [h]⟩
    | some l =>
      simp only [hl, Except.ok.injEq] at h
      exact Or.inl ⟨.drawInboundId, by simp [Label.call?, hl], by rw [← h]; rfl⟩
  | deliverCommand c => exact Or.inr ⟨rfl, by rw [← Except.ok.inj h]; rfl⟩
  | pollHandler c now pick => exact Or.inr ⟨rfl, by rw [← Except.ok.inj h]; rfl⟩
  | inbound c ch event => exact Or.inr ⟨rfl, by rw [← Except.ok.inj h]; rfl⟩
  | endOutbound c i result => exact Or.inr ⟨rfl, by rw [← Except.ok.inj h]; rfl⟩
  | respond ch reader => exact Or.inr ⟨rfl, by rw [← Except.ok.inj h]; rfl⟩
  | dropResponder ch => exact Or.inr ⟨rfl, by rw [← Except.ok.inj h]; rfl⟩

/-- The calls of the behaviour in a run of the composed system. -/
def calls (tr : Trace System Label) : Trace FileGet FileGetCall :=
  tr.filterMap fun t =>
    (t.label.call? t.pre).map fun call => ⟨t.pre.fileGet, call, t.post.fileGet⟩

/-- **A run of the composed system is a run of the behaviour.** -/
theorem run_fileGet {config : FileGetConfig} {debug : Bool} {tr : Trace System Label} {s : System}
    (h : (fileGetSystem config debug).Run tr s) :
    (fileGetMachine config debug).Run (calls tr) s.fileGet := by
  induction h with
  | start => exact .start
  | @next tr s s' a hrun hallowed hok ih =>
    rcases step_call hok with ⟨call, hcall, hstep⟩ | ⟨hnone, hsame⟩
    · have hcalls : calls (⟨s, a, s'⟩ :: tr) = ⟨s.fileGet, call, s'.fileGet⟩ :: calls tr := by
        simp [calls, hcall]
      rw [hcalls]
      exact .next ih trivial hstep
    · have hcalls : calls (⟨s, a, s'⟩ :: tr) = calls tr := by
        simp [calls, hnone]
      rw [hcalls, hsame]
      exact ih

/-! ## What a peer sees -/

/-- The peer a swarm event is about. -/
def FromSwarm.peer? : FromSwarm → Option PeerId
  | .connectionEstablished peerId _ _ _ => some peerId
  | .connectionClosed peerId _ => some peerId
  | .addressChange peerId _ _ => some peerId
  | .dialFailure peerId => peerId
  | _ => none

/-- The peer an action is about. -/
def NetworkBehaviourAction.peer : NetworkBehaviourAction → PeerId
  | .generateEvent event => event.subject.1
  | .dial peerId _ => peerId
  | .notifyHandler peerId _ _ => peerId

/-- A call as a peer sees it. The orders of iteration are not part of it. -/
inductive PeerCall where
  | sendRequest (peerId : PeerId) (request : FileGetMessage) (fileWriter : FileWriter)
  | swarmEvent (event : FromSwarm)
  | handlerEvent (connectionId : ConnectionId) (event : FileGetHandlerEvent)
  deriving DecidableEq

/-- What peer `q` sees of a call: every request, and the events about
itself. -/
def FileGetCall.seenBy (q : PeerId) : FileGetCall → Option PeerCall
  | .sendRequest p request fileWriter => some (.sendRequest p request fileWriter)
  | .swarmEvent _ _ event => if event.peer? = some q then some (.swarmEvent event) else none
  | .handlerEvent p connectionId event =>
    if p = q then some (.handlerEvent connectionId event) else none
  | .poll => none
  | .drawInboundId => none

/-- The call closes a connection. -/
def FileGetCall.isClose : FileGetCall → Bool
  | .swarmEvent _ _ (.connectionClosed _ _) => true
  | _ => false

/-- The actions a call queued. -/
def queuedBy (t : Transition FileGet FileGetCall) : List NetworkBehaviourAction :=
  t.post.pendingEvents.drop t.pre.pendingEvents.length

/-- The actions about `q` that a call queued, if any, and whether the call
was the close of a connection. -/
def actionsAbout (q : PeerId) (t : Transition FileGet FileGetCall) :
    Option (Bool × List NetworkBehaviourAction) :=
  let actions := (queuedBy t).filter fun a => a.peer = q
  if actions.isEmpty then none else some (t.label.isClose, actions)

/-- The same actions; of a close, in any order. -/
def SameActions (x y : Bool × List NetworkBehaviourAction) : Prop :=
  x.1 = y.1 ∧ if x.1 then x.2.Perm y.2 else x.2 = y.2

/-- What peer `q` sees of the state. -/
structure PeerView where
  connections : Option (List Connection)
  requests : Option (List FileGetOutboundProtocol)
  generator : RequestIdGenerator
  config : FileGetConfig

/-- The view of peer `q`. -/
def FileGet.view (q : PeerId) (s : FileGet) : PeerView :=
  ⟨s.connected.lookup q, s.pendingOutboundRequests.lookup q, s.requsetIdGenerator, s.config⟩

/-! ## Calls about another peer -/

/-- Only what concerns `p` changed, and `actions` about `p` were queued. -/
structure FileGet.Touches (p : PeerId) (s s' : FileGet) (actions : List NetworkBehaviourAction) :
    Prop where
  events : s'.pendingEvents = s.pendingEvents ++ actions
  about : ∀ a ∈ actions, a.peer = p
  view : ∀ q, q ≠ p → s'.view q = s.view q

namespace FileGet.Touches

variable {p : PeerId} {s s' s'' : FileGet} {actions more : List NetworkBehaviourAction}

theorem refl (p : PeerId) (s : FileGet) : Touches p s s [] :=
  ⟨(List.append_nil _).symm, by simp, fun _ _ => rfl⟩

theorem trans (h : Touches p s s' actions) (h' : Touches p s' s'' more) :
    Touches p s s'' (actions ++ more) where
  events := by rw [h'.events, h.events, List.append_assoc]
  about a ha := (List.mem_append.mp ha).elim (h.about a) (h'.about a)
  view q hq := (h'.view q hq).trans (h.view q hq)

/-- Actions about `p` are queued. -/
theorem push (s : FileGet) (h : ∀ a ∈ actions, a.peer = p) : Touches p s (s.push actions) actions :=
  ⟨rfl, h, fun _ _ => rfl⟩

/-- The connections of `p` are replaced. -/
theorem setConnections (s : FileGet) (connected : HashMap PeerId (List Connection))
    (h : ∀ q, q ≠ p → connected.lookup q = s.connected.lookup q) :
    Touches p s { s with connected := connected } [] where
  events := (List.append_nil _).symm
  about := by simp
  view q hq := by
    unfold FileGet.view
    rw [h q hq]

/-- The buffer of `p` is replaced. -/
theorem setBuffer (s : FileGet) (requests : HashMap PeerId (List FileGetOutboundProtocol))
    (h : ∀ q, q ≠ p → requests.lookup q = s.pendingOutboundRequests.lookup q) :
    Touches p s { s with pendingOutboundRequests := requests } [] where
  events := (List.append_nil _).symm
  about := by simp
  view q hq := by
    unfold FileGet.view
    rw [h q hq]

end FileGet.Touches

namespace FileGet

variable {p : PeerId} {s s' : FileGet}

theorem lookup_insert_ne {V : Type} (m : HashMap PeerId V) (v : V) :
    ∀ q, q ≠ p → (m.insert p v).lookup q = m.lookup q := by
  intro q hq
  rw [lookup_insert_ite, if_neg hq]

theorem lookup_erase_ne {V : Type} (m : HashMap PeerId V) :
    ∀ q, q ≠ p → (m.erase p).lookup q = m.lookup q := by
  intro q hq
  rw [lookup_erase_ite, if_neg hq]

theorem trySendRequest_touches {request : FileGetOutboundProtocol}
    {back : Option FileGetOutboundProtocol} (h : s.trySendRequest p request = .ok (s', back)) :
    ∃ actions, Touches p s s' actions := by
  unfold trySendRequest at h
  split at h
  · split at h
    · obtain rfl := (Prod.mk.inj (Except.ok.inj h)).1
      exact ⟨_, .refl p s⟩
    · dsimp only at h
      split at h
      · obtain rfl := (Prod.mk.inj (Except.ok.inj h)).1
        exact ⟨_, (Touches.setConnections s _ (lookup_insert_ne _ _)).trans
          (.push _ (by simp [NetworkBehaviourAction.peer]))⟩
      · cases h
  · obtain rfl := (Prod.mk.inj (Except.ok.inj h)).1
    exact ⟨_, .refl p s⟩

/-- One round of the loop over the buffer. -/
theorem sendBuffered_cons {request : FileGetOutboundProtocol}
    {rest backs : List FileGetOutboundProtocol}
    (h : s.sendBuffered p (request :: rest) = .ok (s', backs)) :
    ∃ s₁ back backs', s.trySendRequest p request = .ok (s₁, back) ∧
      s₁.sendBuffered p rest = .ok (s', backs') := by
  rw [sendBuffered] at h
  cases ht : s.trySendRequest p request with
  | error e => simp [ht, bind, Except.bind] at h
  | ok r =>
    obtain ⟨s₁, back⟩ := r
    cases hb : s₁.sendBuffered p rest with
    | error e => simp [ht, hb, bind, Except.bind] at h
    | ok r' =>
      obtain ⟨s₂, backs'⟩ := r'
      simp only [ht, hb, bind, Except.bind, Except.ok.injEq, Prod.mk.injEq] at h
      obtain ⟨rfl, -⟩ := h
      exact ⟨s₁, back, backs', rfl, hb⟩

theorem sendBuffered_touches {pending backs : List FileGetOutboundProtocol}
    (h : s.sendBuffered p pending = .ok (s', backs)) : ∃ actions, Touches p s s' actions := by
  induction pending generalizing s backs with
  | nil =>
    obtain rfl := (Prod.mk.inj (Except.ok.inj h)).1
    exact ⟨_, .refl p s⟩
  | cons request rest ih =>
    obtain ⟨s₁, back, backs', ht, hb⟩ := sendBuffered_cons h
    obtain ⟨a₁, h₁⟩ := trySendRequest_touches ht
    obtain ⟨a₂, h₂⟩ := ih hb
    exact ⟨_, h₁.trans h₂⟩

/-- `send_request` draws an id, tries the connections and else buffers. -/
theorem sendRequest_cases {m : FileGetMessage} {w : FileWriter} {r : RequestId}
    (h : s.sendRequest p m w = .ok (s', r)) :
    s.drawn.trySendRequest p (s.newRequest m w) = .ok (s', none) ∨
    ∃ s₁ request, s.drawn.trySendRequest p (s.newRequest m w) = .ok (s₁, some request) ∧
      s' = s₁.bufferRequest p request := by
  unfold sendRequest at h
  dsimp only at h
  cases ht : s.drawn.trySendRequest p (s.newRequest m w) with
  | error e =>
    simp only [drawn, newRequest] at ht
    simp [ht, bind, Except.bind] at h
  | ok result =>
    obtain ⟨s₁, back⟩ := result
    simp only [drawn, newRequest] at ht
    simp only [ht, bind, Except.bind] at h
    cases back with
    | none =>
      obtain rfl := (Prod.mk.inj (Except.ok.inj h)).1
      exact Or.inl rfl
    | some request =>
      obtain rfl := (Prod.mk.inj (Except.ok.inj h)).1
      exact Or.inr ⟨s₁, request, rfl, rfl⟩

theorem bufferRequest_touches (s : FileGet) (p : PeerId) (request : FileGetOutboundProtocol) :
    Touches p s (s.bufferRequest p request) [.dial p s.newHandler] where
  events := rfl
  about := by simp [NetworkBehaviourAction.peer]
  view q hq := by
    unfold FileGet.view bufferRequest
    dsimp only
    rw [lookup_insert_ne _ _ q hq]
    rfl

/-- A request for `p`, counted from the state in which its id is drawn. -/
theorem sendRequest_touches {m : FileGetMessage} {w : FileWriter} {r : RequestId}
    (h : s.sendRequest p m w = .ok (s', r)) : ∃ actions, Touches p s.drawn s' actions := by
  rcases sendRequest_cases h with ht | ⟨s₁, request, ht, rfl⟩
  · exact trySendRequest_touches ht
  · obtain ⟨a, ha⟩ := trySendRequest_touches ht
    exact ⟨_, ha.trans (bufferRequest_touches s₁ p request)⟩

theorem addConnection_touches (s : FileGet) (c : ConnectionId) (ep : ConnectedPoint) :
    Touches p s (s.addConnection p c ep) [] :=
  .setConnections s _ (lookup_insert_ne _ _)

/-- `on_connection_established` adds the connection, and sends the buffer if
it is the first one and there is a buffer. -/
theorem onConnectionEstablished_cases {c : ConnectionId} {ep : ConnectedPoint} {n : Nat}
    (h : s.onConnectionEstablished p c ep n = .ok s') :
    (∃ pending backs, n = 0 ∧ s.pendingOutboundRequests.lookup p = some pending ∧
      ((s.addConnection p c ep).clearBuffer p).sendBuffered p pending = .ok (s', backs)) ∨
    ((n = 0 → s.pendingOutboundRequests.lookup p = none) ∧ s' = s.addConnection p c ep) := by
  unfold onConnectionEstablished at h
  dsimp only at h
  split at h
  · rename_i hn
    split at h
    · rename_i pending hpending
      cases hb : ((s.addConnection p c ep).clearBuffer p).sendBuffered p pending with
      | error e =>
        simp only [clearBuffer] at hb
        simp [hb, bind, Except.bind] at h
      | ok r =>
        obtain ⟨s₁, backs⟩ := r
        have hb' := hb
        simp only [clearBuffer] at hb'
        simp only [hb', bind, Except.bind, Except.ok.injEq] at h
        exact Or.inl ⟨pending, backs, hn, hpending, h ▸ hb⟩
    · rename_i hpending
      exact Or.inr ⟨fun _ => hpending, (Except.ok.inj h).symm⟩
  · rename_i hn
    exact Or.inr ⟨fun h0 => absurd h0 hn, (Except.ok.inj h).symm⟩

theorem clearBuffer_touches (s : FileGet) (p : PeerId) : Touches p s (s.clearBuffer p) [] :=
  .setBuffer s _ (lookup_erase_ne _)

theorem onConnectionEstablished_touches {c : ConnectionId} {ep : ConnectedPoint} {n : Nat}
    (h : s.onConnectionEstablished p c ep n = .ok s') : ∃ actions, Touches p s s' actions := by
  have hadd := addConnection_touches (p := p) s c ep
  rcases onConnectionEstablished_cases h with ⟨pending, backs, -, -, hb⟩ | ⟨-, rfl⟩
  · obtain ⟨a, ha⟩ := sendBuffered_touches hb
    exact ⟨_, (hadd.trans (clearBuffer_touches _ p)).trans ha⟩
  · exact ⟨_, hadd⟩

theorem closedEvents_about (o i : IterOrder RequestId) (conn : Connection) :
    ∀ a ∈ closedEvents o i p conn, a.peer = p := by
  intro a ha
  rcases List.mem_append.mp ha with ha | ha <;>
  · obtain ⟨r, -, rfl⟩ := List.mem_map.mp ha
    rfl

theorem onConnectionClosed_touches {o i : IterOrder RequestId} {c : ConnectionId}
    (h : s.onConnectionClosed o i p c = .ok s') : ∃ actions, Touches p s s' actions := by
  unfold onConnectionClosed at h
  split at h
  · cases h
  · split at h
    · cases h
    · rename_i conn _
      obtain rfl := Except.ok.inj h
      refine ⟨_, (Touches.setConnections s _ ?_).trans (.push _ (closedEvents_about o i conn))⟩
      split
      · exact lookup_erase_ne _
      · exact lookup_insert_ne _ _

theorem onAddressChange_touches {c : ConnectionId} {ep : ConnectedPoint}
    (h : s.onAddressChange p c ep = .ok s') : ∃ actions, Touches p s s' actions := by
  unfold onAddressChange at h
  split at h
  · cases h
  · split at h
    · cases h
    · obtain rfl := Except.ok.inj h
      exact ⟨_, .setConnections s _ (lookup_insert_ne _ _)⟩

theorem oneDialFailure_touches (s : FileGet) (p : PeerId) :
    ∃ actions, Touches p s (s.oneDialFailure (some p)) actions := by
  cases hl : s.pendingOutboundRequests.lookup p with
  | none =>
    simp only [oneDialFailure, hl]
    exact ⟨_, .refl p s⟩
  | some pending =>
    simp only [oneDialFailure, hl]
    refine ⟨_, (Touches.setBuffer s _ (lookup_erase_ne _)).trans (.push _ fun a ha => ?_)⟩
    obtain ⟨request, -, rfl⟩ := List.mem_map.mp ha
    rfl

theorem modifyConnection_touches (s : FileGet) (p : PeerId) (c : ConnectionId)
    (f : Connection → Connection) : Touches p s (s.modifyConnection p c f) [] := by
  unfold modifyConnection
  split
  · exact .refl p s
  · exact .setConnections s _ (lookup_insert_ne _ _)

end FileGet

/-- What is reported besides when a request comes from a connection that is
not in the table. -/
def FileGetHandlerEvent.lost (p : PeerId) : FileGetHandlerEvent → List NetworkBehaviourAction
  | .request r _ _ => [.generateEvent (.inboundFailure p r .connectionClosed)]
  | _ => []

theorem FileGetHandlerEvent.report_peer (e : FileGetHandlerEvent) (p : PeerId) :
    (e.report p).subject.1 = p := by
  cases e <;> rfl

namespace FileGet

variable {p q : PeerId} {s s' : FileGet}

/-- `on_connection_handler_event` for a connection that is not in the
table: only reports are queued. -/
theorem onConnectionHandlerEvent_lost {debug : Bool} {c : ConnectionId} {e : FileGetHandlerEvent}
    (hf : s.findConnection p c = none) (h : s.onConnectionHandlerEvent debug p c e = .ok s') :
    s' = s.push (.generateEvent (e.report p) :: e.lost p) := by
  cases e with
  | request r m ch =>
    have hf' : (s.push [.generateEvent (.requestReceived p r m ch)]).findConnection p c = none := hf
    simp only [onConnectionHandlerEvent, hf', Except.ok.injEq] at h
    subst h
    simp [push, FileGetHandlerEvent.report, FileGetHandlerEvent.lost]
  | response r | responseSent r | responseOmission r =>
    simp only [onConnectionHandlerEvent, removePendingInboundResponse,
      removePendingOutboundResponse, hf, debugAssert] at h
    split at h
    · cases h
    · exact (Except.ok.inj h).symm
  | outboundTimeout r | outboundUnsupportedProtocols r | inboundTimeout r
  | inboundUnsupportedProtocols r =>
    simp only [onConnectionHandlerEvent, removePendingInboundResponse,
      removePendingOutboundResponse, hf, Except.ok.injEq] at h
    exact h.symm

theorem onConnectionHandlerEvent_touches {debug : Bool} {c : ConnectionId}
    {e : FileGetHandlerEvent} (h : s.onConnectionHandlerEvent debug p c e = .ok s') :
    ∃ actions, Touches p s s' actions := by
  have hreport := e.report_peer p
  cases hf : s.findConnection p c with
  | some conn =>
    rw [onConnectionHandlerEvent_eq hf h]
    refine ⟨_, (modifyConnection_touches s p c e.effect).trans (.push _ ?_)⟩
    simpa [NetworkBehaviourAction.peer] using hreport
  | none =>
    rw [onConnectionHandlerEvent_lost hf h]
    refine ⟨_, .push s fun a ha => ?_⟩
    rcases List.mem_cons.mp ha with rfl | ha
    · exact hreport
    · cases e with
      | request r m ch =>
        rw [List.mem_singleton.mp ha]
        rfl
      | _ => cases ha

/-- A swarm event about `p` touches `p` only. -/
theorem onSwarmEvent_touches {o i : IterOrder RequestId} {event : FromSwarm}
    (hp : event.peer? = some p) (h : s.onSwarmEvent o i event = .ok s') :
    ∃ actions, Touches p s s' actions := by
  cases event with
  | connectionEstablished peer c ep n =>
    obtain rfl := Option.some.inj hp
    exact onConnectionEstablished_touches h
  | connectionClosed peer c =>
    obtain rfl := Option.some.inj hp
    exact onConnectionClosed_touches h
  | addressChange peer c ep =>
    obtain rfl := Option.some.inj hp
    exact onAddressChange_touches h
  | dialFailure peer =>
    have hpeer : peer = some p := hp
    subst hpeer
    obtain rfl := Except.ok.inj h
    exact oneDialFailure_touches s p
  | _ => cases hp

/-- A swarm event about nobody changes nothing. -/
theorem onSwarmEvent_nobody {o i : IterOrder RequestId} {event : FromSwarm}
    (hp : event.peer? = none) (h : s.onSwarmEvent o i event = .ok s') : s' = s := by
  cases event with
  | connectionEstablished peer c ep n => cases hp
  | connectionClosed peer c => cases hp
  | addressChange peer c ep => cases hp
  | dialFailure peer =>
    have hpeer : peer = none := hp
    subst hpeer
    exact (Except.ok.inj h).symm
  | _ => exact (Except.ok.inj h).symm

/-! ## Calls about the peer itself -/

/-- Two calls left what `q` sees alike, and queued actions `R` relates. -/
structure Alike (q : PeerId) (R : List NetworkBehaviourAction → List NetworkBehaviourAction → Prop)
    (s₁ s₁' s₂ s₂' : FileGet) : Prop where
  view : s₁'.view q = s₂'.view q
  queued : ∃ a₁ a₂, s₁'.pendingEvents = s₁.pendingEvents ++ a₁ ∧
    s₂'.pendingEvents = s₂.pendingEvents ++ a₂ ∧ R a₁ a₂

section Alike

variable {s₁ s₁' s₁'' s₂ s₂' s₂'' : FileGet}

theorem Alike.refl (h : s₁.view q = s₂.view q) : Alike q (· = ·) s₁ s₁ s₂ s₂ :=
  ⟨h, [], [], by simp, by simp, rfl⟩

theorem Alike.trans (h : Alike q (· = ·) s₁ s₁' s₂ s₂') (h' : Alike q (· = ·) s₁' s₁'' s₂' s₂'') :
    Alike q (· = ·) s₁ s₁'' s₂ s₂'' := by
  obtain ⟨-, a₁, a₂, h₁, h₂, rfl⟩ := h
  obtain ⟨hview, b₁, b₂, h₁', h₂', rfl⟩ := h'
  refine ⟨hview, a₁ ++ b₁, a₁ ++ b₁, ?_, ?_, rfl⟩
  · rw [h₁', h₁, List.append_assoc]
  · rw [h₂', h₂, List.append_assoc]

theorem Alike.push (h : s₁.view q = s₂.view q)
    {R : List NetworkBehaviourAction → List NetworkBehaviourAction → Prop}
    {a₁ a₂ : List NetworkBehaviourAction} (hR : R a₁ a₂) :
    Alike q R s₁ (s₁.push a₁) s₂ (s₂.push a₂) :=
  ⟨h, a₁, a₂, rfl, rfl, hR⟩

/-- The parts of a view. -/
theorem view_eq_iff : s₁.view q = s₂.view q ↔
    s₁.connected.lookup q = s₂.connected.lookup q ∧
    s₁.pendingOutboundRequests.lookup q = s₂.pendingOutboundRequests.lookup q ∧
    s₁.requsetIdGenerator = s₂.requsetIdGenerator ∧ s₁.config = s₂.config := by
  simp [FileGet.view]

/-- Both calls store the same connections for `q`. -/
theorem Alike.insertConnections (h : s₁.view q = s₂.view q) (conns : List Connection) :
    Alike q (· = ·) s₁ { s₁ with connected := s₁.connected.insert q conns }
      s₂ { s₂ with connected := s₂.connected.insert q conns } := by
  obtain ⟨-, hbuf, hgen, hcfg⟩ := view_eq_iff.mp h
  refine ⟨view_eq_iff.mpr ⟨?_, hbuf, hgen, hcfg⟩, [], [], by simp, by simp, rfl⟩
  rw [AList.lookup_insert, AList.lookup_insert]

/-- Both calls clear the buffer of `q`. -/
theorem Alike.clearBuffer (h : s₁.view q = s₂.view q) :
    Alike q (· = ·) s₁ (s₁.clearBuffer q) s₂ (s₂.clearBuffer q) := by
  obtain ⟨hconn, -, hgen, hcfg⟩ := view_eq_iff.mp h
  refine ⟨view_eq_iff.mpr ⟨hconn, ?_, hgen, hcfg⟩, [], [], ?_, ?_, rfl⟩
  · simp only [FileGet.clearBuffer, AList.lookup_erase]
  · simp [FileGet.clearBuffer]
  · simp [FileGet.clearBuffer]

theorem trySendRequest_alike (hv : s₁.view q = s₂.view q) {request : FileGetOutboundProtocol}
    {b₁ b₂ : Option FileGetOutboundProtocol} (h₁ : s₁.trySendRequest q request = .ok (s₁', b₁))
    (h₂ : s₂.trySendRequest q request = .ok (s₂', b₂)) :
    b₁ = b₂ ∧ Alike q (· = ·) s₁ s₁' s₂ s₂' := by
  obtain ⟨hconn, -, -, -⟩ := view_eq_iff.mp hv
  unfold trySendRequest at h₁ h₂
  rw [hconn] at h₁
  cases hl : s₂.connected.lookup q with
  | none =>
    simp only [hl, Except.ok.injEq, Prod.mk.injEq] at h₁ h₂
    obtain ⟨rfl, rfl⟩ := h₁
    obtain ⟨rfl, rfl⟩ := h₂
    exact ⟨rfl, .refl hv⟩
  | some conns =>
    simp only [hl] at h₁ h₂
    split at h₁
    · rename_i hempty
      simp only [hempty, if_true, Except.ok.injEq, Prod.mk.injEq] at h₁ h₂
      obtain ⟨rfl, rfl⟩ := h₁
      obtain ⟨rfl, rfl⟩ := h₂
      exact ⟨rfl, .refl hv⟩
    · rename_i hne
      rw [if_neg hne] at h₂
      cases hi : conns[request.requestId.val.toNat % conns.length]? with
      | none => simp [hi] at h₁
      | some conn =>
        simp only [hi, Except.ok.injEq, Prod.mk.injEq] at h₁ h₂
        obtain ⟨rfl, rfl⟩ := h₁
        obtain ⟨rfl, rfl⟩ := h₂
        have hset := Alike.insertConnections hv
          (conns.set (request.requestId.val.toNat % conns.length) { conn with
            pendingInboundResponses := conn.pendingInboundResponses.insert request.requestId () })
        exact ⟨rfl, hset.trans (.push hset.view rfl)⟩

theorem sendBuffered_alike (hv : s₁.view q = s₂.view q) {pending : List FileGetOutboundProtocol}
    {b₁ b₂ : List FileGetOutboundProtocol} (h₁ : s₁.sendBuffered q pending = .ok (s₁', b₁))
    (h₂ : s₂.sendBuffered q pending = .ok (s₂', b₂)) : Alike q (· = ·) s₁ s₁' s₂ s₂' := by
  induction pending generalizing s₁ s₂ b₁ b₂ with
  | nil =>
    obtain rfl := (Prod.mk.inj (Except.ok.inj h₁)).1
    obtain rfl := (Prod.mk.inj (Except.ok.inj h₂)).1
    exact .refl hv
  | cons request rest ih =>
    obtain ⟨t₁, c₁, d₁, ht₁, hr₁⟩ := sendBuffered_cons h₁
    obtain ⟨t₂, c₂, d₂, ht₂, hr₂⟩ := sendBuffered_cons h₂
    have hstep := (trySendRequest_alike hv ht₁ ht₂).2
    exact hstep.trans (ih hstep.view hr₁ hr₂)

/-- Both calls draw an id. -/
theorem view_drawn (hv : s₁.view q = s₂.view q) : s₁.drawn.view q = s₂.drawn.view q := by
  obtain ⟨hconn, hbuf, hgen, hcfg⟩ := view_eq_iff.mp hv
  exact view_eq_iff.mpr ⟨hconn, hbuf, by simp only [drawn, hgen], hcfg⟩

theorem sendRequest_alike (hview : s₁.view q = s₂.view q) {m : FileGetMessage} {w : FileWriter}
    {r₁ r₂ : RequestId} (h₁ : s₁.sendRequest q m w = .ok (s₁', r₁))
    (h₂ : s₂.sendRequest q m w = .ok (s₂', r₂)) : Alike q (· = ·) s₁ s₁' s₂ s₂' := by
  have hv := view_drawn hview
  have hnew : s₁.newRequest m w = s₂.newRequest m w := by
    unfold newRequest
    rw [(view_eq_iff.mp hview).2.2.1]
  suffices Alike q (· = ·) s₁.drawn s₁' s₂.drawn s₂' from ⟨this.view, this.queued⟩
  rcases sendRequest_cases h₁ with ht₁ | ⟨t₁, x₁, ht₁, rfl⟩ <;>
    rcases sendRequest_cases h₂ with ht₂ | ⟨t₂, x₂, ht₂, rfl⟩ <;>
    rw [hnew] at ht₁ <;> obtain ⟨hback, hstep⟩ := trySendRequest_alike hv ht₁ ht₂
  · exact hstep
  · cases hback
  · cases hback
  · obtain rfl := Option.some.inj hback
    obtain ⟨hconn, hbuf, hgen, hcfg⟩ := view_eq_iff.mp hstep.view
    refine hstep.trans ⟨view_eq_iff.mpr ⟨hconn, ?_, hgen, hcfg⟩, [.dial q t₁.newHandler],
      [.dial q t₂.newHandler], rfl, rfl, ?_⟩
    · simp only [bufferRequest, AList.lookup_insert, FileGet.buffer, hbuf]
    · simp only [newHandler, hcfg]

theorem addConnection_alike (hv : s₁.view q = s₂.view q) (c : ConnectionId) (ep : ConnectedPoint) :
    Alike q (· = ·) s₁ (s₁.addConnection q c ep) s₂ (s₂.addConnection q c ep) := by
  obtain ⟨hconn, -, -, -⟩ := view_eq_iff.mp hv
  unfold addConnection
  rw [hconn]
  exact .insertConnections hv _

theorem onConnectionEstablished_alike (hv : s₁.view q = s₂.view q) {c : ConnectionId}
    {ep : ConnectedPoint} {n : Nat} (h₁ : s₁.onConnectionEstablished q c ep n = .ok s₁')
    (h₂ : s₂.onConnectionEstablished q c ep n = .ok s₂') : Alike q (· = ·) s₁ s₁' s₂ s₂' := by
  have hadd := addConnection_alike hv c ep
  obtain ⟨-, hbuf, -, -⟩ := view_eq_iff.mp hv
  rcases onConnectionEstablished_cases h₁ with ⟨x₁, b₁, hn₁, hl₁, hs₁⟩ | ⟨hnot₁, rfl⟩ <;>
    rcases onConnectionEstablished_cases h₂ with ⟨x₂, b₂, hn₂, hl₂, hs₂⟩ | ⟨hnot₂, rfl⟩
  · have hclear := hadd.trans (.clearBuffer hadd.view)
    rw [hbuf, hl₂, Option.some.injEq] at hl₁
    subst hl₁
    exact hclear.trans (sendBuffered_alike hclear.view hs₁ hs₂)
  · rw [hbuf, hnot₂ hn₁] at hl₁
    cases hl₁
  · rw [← hbuf, hnot₁ hn₂] at hl₂
    cases hl₂
  · exact hadd

/-- Two orders of iteration give the reports of a close in two orders. -/
theorem closedEvents_perm (o₁ i₁ o₂ i₂ : IterOrder RequestId) (p : PeerId) (conn : Connection) :
    (closedEvents o₁ i₁ p conn).Perm (closedEvents o₂ i₂ p conn) := by
  refine List.Perm.append (List.Perm.map _ ?_) (List.Perm.map _ ?_)
  · exact (o₁.perm _).trans (o₂.perm _).symm
  · exact (i₁.perm _).trans (i₂.perm _).symm

theorem onConnectionClosed_alike (hv : s₁.view q = s₂.view q) {o₁ i₁ o₂ i₂ : IterOrder RequestId}
    {c : ConnectionId} (h₁ : s₁.onConnectionClosed o₁ i₁ q c = .ok s₁')
    (h₂ : s₂.onConnectionClosed o₂ i₂ q c = .ok s₂') : Alike q List.Perm s₁ s₁' s₂ s₂' := by
  obtain ⟨hconn, hbuf, hgen, hcfg⟩ := view_eq_iff.mp hv
  unfold onConnectionClosed at h₁ h₂
  rw [hconn] at h₁
  cases hl : s₂.connected.lookup q with
  | none => simp [hl] at h₁
  | some conns =>
    simp only [hl] at h₁ h₂
    cases hf : conns.find? (fun x => x.id = c) with
    | none => simp [hf] at h₁
    | some conn =>
      simp only [hf, Except.ok.injEq] at h₁ h₂
      subst h₁ h₂
      refine ⟨view_eq_iff.mpr ⟨?_, hbuf, hgen, hcfg⟩, _, _, rfl, rfl,
        closedEvents_perm o₁ i₁ o₂ i₂ q conn⟩
      simp only [push]
      split <;> simp

theorem onAddressChange_alike (hv : s₁.view q = s₂.view q) {c : ConnectionId} {ep : ConnectedPoint}
    (h₁ : s₁.onAddressChange q c ep = .ok s₁') (h₂ : s₂.onAddressChange q c ep = .ok s₂') :
    Alike q (· = ·) s₁ s₁' s₂ s₂' := by
  obtain ⟨hconn, -, -, -⟩ := view_eq_iff.mp hv
  unfold onAddressChange at h₁ h₂
  rw [hconn] at h₁
  cases hl : s₂.connected.lookup q with
  | none => simp [hl] at h₁
  | some conns =>
    simp only [hl] at h₁ h₂
    cases hf : conns.find? (fun x => x.id = c) with
    | none => simp [hf] at h₁
    | some conn =>
      simp only [hf, Except.ok.injEq] at h₁ h₂
      subst h₁ h₂
      exact .insertConnections hv _

theorem oneDialFailure_alike (hv : s₁.view q = s₂.view q) :
    Alike q (· = ·) s₁ (s₁.oneDialFailure (some q)) s₂ (s₂.oneDialFailure (some q)) := by
  obtain ⟨-, hbuf, -, -⟩ := view_eq_iff.mp hv
  rcases oneDialFailure_eq s₁ q with ⟨hl₁, heq₁⟩ | ⟨x₁, hl₁, heq₁⟩ <;>
    rcases oneDialFailure_eq s₂ q with ⟨hl₂, heq₂⟩ | ⟨x₂, hl₂, heq₂⟩ <;> rw [heq₁, heq₂] <;>
    rw [hbuf, hl₂] at hl₁
  · exact .refl hv
  · cases hl₁
  · cases hl₁
  · obtain rfl := Option.some.inj hl₁
    have hclear := Alike.clearBuffer hv
    exact hclear.trans (.push hclear.view rfl)

theorem modifyConnection_alike (hv : s₁.view q = s₂.view q) (c : ConnectionId)
    (f : Connection → Connection) :
    Alike q (· = ·) s₁ (s₁.modifyConnection q c f) s₂ (s₂.modifyConnection q c f) := by
  obtain ⟨hconn, -, -, -⟩ := view_eq_iff.mp hv
  unfold modifyConnection
  rw [hconn]
  cases s₂.connected.lookup q with
  | none => exact .refl hv
  | some conns => exact .insertConnections hv _

theorem onConnectionHandlerEvent_alike (hv : s₁.view q = s₂.view q) {debug : Bool}
    {c : ConnectionId} {e : FileGetHandlerEvent}
    (h₁ : s₁.onConnectionHandlerEvent debug q c e = .ok s₁')
    (h₂ : s₂.onConnectionHandlerEvent debug q c e = .ok s₂') : Alike q (· = ·) s₁ s₁' s₂ s₂' := by
  have hfind : s₁.findConnection q c = s₂.findConnection q c := by
    unfold findConnection
    rw [(view_eq_iff.mp hv).1]
  cases hf : s₂.findConnection q c with
  | some conn =>
    rw [onConnectionHandlerEvent_eq (hfind.trans hf) h₁, onConnectionHandlerEvent_eq hf h₂]
    have hmodify := modifyConnection_alike hv c e.effect
    exact hmodify.trans (.push hmodify.view rfl)
  | none =>
    rw [onConnectionHandlerEvent_lost (hfind.trans hf) h₁, onConnectionHandlerEvent_lost hf h₂]
    exact .push hv rfl

end Alike

end FileGet

/-! ## The observer -/

section Observer

variable {q : PeerId} {s s' s₁ s₁' s₂ s₂' : FileGet} {a a₁ a₂ : FileGetCall}
  {actions x₁ x₂ : List NetworkBehaviourAction}

theorem queuedBy_eq (h : s'.pendingEvents = s.pendingEvents ++ actions) :
    queuedBy ⟨s, a, s'⟩ = actions := by
  unfold queuedBy
  dsimp only
  rw [h, List.drop_left]

/-- Nothing about `q` was queued. -/
theorem actionsAbout_none (h : s'.pendingEvents = s.pendingEvents ++ actions)
    (hne : ∀ x ∈ actions, x.peer ≠ q) : actionsAbout q ⟨s, a, s'⟩ = none := by
  have hnil : actions.filter (fun x => x.peer = q) = [] := by
    simpa using hne
  unfold actionsAbout
  rw [queuedBy_eq h, hnil]
  rfl

theorem FileGet.Touches.actionsAbout_eq_none {p : PeerId} (h : Touches p s s' actions)
    (hp : p ≠ q) (a : FileGetCall) : actionsAbout q ⟨s, a, s'⟩ = none :=
  actionsAbout_none h.events fun x hx => h.about x hx ▸ hp

/-- The same actions about `q` were queued. -/
theorem actionsAbout_rel (hclose : a₁.isClose = a₂.isClose)
    (h₁ : s₁'.pendingEvents = s₁.pendingEvents ++ x₁)
    (h₂ : s₂'.pendingEvents = s₂.pendingEvents ++ x₂)
    (hR : if a₁.isClose then x₁.Perm x₂ else x₁ = x₂) :
    Option.Rel SameActions (actionsAbout q ⟨s₁, a₁, s₁'⟩) (actionsAbout q ⟨s₂, a₂, s₂'⟩) := by
  have hfilter : if a₁.isClose then
      (x₁.filter fun x => x.peer = q).Perm (x₂.filter fun x => x.peer = q)
      else (x₁.filter fun x => x.peer = q) = x₂.filter fun x => x.peer = q := by
    split at hR
    · rename_i hc
      rw [if_pos hc]
      exact hR.filter _
    · rename_i hc
      rw [if_neg hc, hR]
  have hempty : (x₁.filter fun x => x.peer = q).isEmpty =
      (x₂.filter fun x => x.peer = q).isEmpty := by
    split at hfilter
    · rw [Bool.eq_iff_iff, List.isEmpty_iff_length_eq_zero, List.isEmpty_iff_length_eq_zero,
        hfilter.length_eq]
    · rw [hfilter]
  unfold actionsAbout
  rw [queuedBy_eq h₁, queuedBy_eq h₂]
  dsimp only
  rw [hempty]
  split
  · exact Option.Rel.none
  · exact Option.Rel.some ⟨hclose, hfilter⟩

theorem FileGet.Alike.actionsAbout_eq (h : Alike q (· = ·) s₁ s₁' s₂ s₂')
    (h₁ : a₁.isClose = false) (h₂ : a₂.isClose = false) :
    Option.Rel SameActions (actionsAbout q ⟨s₁, a₁, s₁'⟩) (actionsAbout q ⟨s₂, a₂, s₂'⟩) := by
  obtain ⟨-, x₁, x₂, hq₁, hq₂, heq⟩ := h
  refine actionsAbout_rel (h₁.trans h₂.symm) hq₁ hq₂ ?_
  rw [h₁]
  exact heq

end Observer

/-- What is seen as a request is that request. -/
theorem FileGetCall.seenBy_sendRequest {q : PeerId} {a : FileGetCall} {p : PeerId}
    {m : FileGetMessage} {w : FileWriter} (h : a.seenBy q = some (.sendRequest p m w)) :
    a = .sendRequest p m w := by
  cases a with
  | sendRequest p' m' w' => cases h; rfl
  | swarmEvent o i e => simp [seenBy] at h
  | handlerEvent p' c e => simp [seenBy] at h
  | poll => cases h
  | drawInboundId => cases h

theorem FileGetCall.seenBy_swarmEvent {q : PeerId} {a : FileGetCall} {event : FromSwarm}
    (h : a.seenBy q = some (.swarmEvent event)) :
    ∃ o i, a = .swarmEvent o i event ∧ event.peer? = some q := by
  cases a with
  | sendRequest p' m' w' => cases h
  | swarmEvent o i e =>
    simp only [seenBy] at h
    split at h
    · cases h
      exact ⟨o, i, rfl, ‹_›⟩
    · cases h
  | handlerEvent p' c e => simp [seenBy] at h
  | poll => cases h
  | drawInboundId => cases h

theorem FileGetCall.seenBy_handlerEvent {q : PeerId} {a : FileGetCall} {c : ConnectionId}
    {event : FileGetHandlerEvent} (h : a.seenBy q = some (.handlerEvent c event)) :
    a = .handlerEvent q c event := by
  cases a with
  | sendRequest p' m' w' => cases h
  | swarmEvent o i e => simp [seenBy] at h
  | handlerEvent p' c' e =>
    simp only [seenBy] at h
    split at h
    · rename_i hp
      cases h
      rw [hp]
    · cases h
  | poll => cases h
  | drawInboundId => cases h

theorem FileGet.call_sendRequest {debug : Bool} {s s' : FileGet} {p : PeerId} {m : FileGetMessage}
    {w : FileWriter} (h : s.call debug (.sendRequest p m w) = .ok s') :
    ∃ r, s.sendRequest p m w = .ok (s', r) := by
  unfold call at h
  cases hs : s.sendRequest p m w with
  | error e => simp [hs, Except.map] at h
  | ok result =>
    obtain ⟨s₁, r⟩ := result
    simp only [hs, Except.map, Except.ok.injEq] at h
    exact ⟨r, h ▸ rfl⟩

/-- What `q` does not see leaves its view and queues nothing about it. -/
theorem call_quiet {debug : Bool} {q : PeerId} {s s' : FileGet} {a : FileGetCall}
    (h : s.call debug a = .ok s') (ha : a.seenBy q = none) :
    s'.view q = s.view q ∧ actionsAbout q ⟨s, a, s'⟩ = none := by
  have htouches : ∀ p actions, p ≠ q → Touches p s s' actions →
      s'.view q = s.view q ∧ actionsAbout q ⟨s, a, s'⟩ = none := by
    intro p actions hp ht
    exact ⟨ht.view q (Ne.symm hp), ht.actionsAbout_eq_none hp a⟩
  have hsame : s'.pendingEvents = s.pendingEvents → actionsAbout q ⟨s, a, s'⟩ = none := by
    intro heq
    have hnil : s'.pendingEvents = s.pendingEvents ++ [] := by rw [heq, List.append_nil]
    exact actionsAbout_none hnil (by simp)
  cases a with
  | sendRequest p m w => cases ha
  | swarmEvent o i event =>
    have hne : event.peer? ≠ some q := by
      intro heq
      simp [FileGetCall.seenBy, heq] at ha
    cases hp : event.peer? with
    | none =>
      obtain rfl := onSwarmEvent_nobody hp h
      exact ⟨rfl, hsame rfl⟩
    | some p =>
      obtain ⟨actions, ht⟩ := onSwarmEvent_touches hp h
      exact htouches p actions (fun heq => hne (heq ▸ hp)) ht
  | handlerEvent p c event =>
    have hne : p ≠ q := by
      intro heq
      simp [FileGetCall.seenBy, heq] at ha
    obtain ⟨actions, ht⟩ := onConnectionHandlerEvent_touches h
    exact htouches p actions hne ht
  | poll =>
    obtain rfl := Except.ok.inj h
    unfold FileGet.poll
    cases hq : s.pendingEvents with
    | nil => exact ⟨rfl, by simp [actionsAbout, queuedBy, hq]⟩
    | cons action rest =>
      have hdrop : rest.drop (rest.length + 1) = [] := List.drop_eq_nil_of_le (Nat.le_succ _)
      exact ⟨rfl, by simp [actionsAbout, queuedBy, hq, hdrop]⟩
  | drawInboundId =>
    obtain rfl := Except.ok.inj h
    exact ⟨rfl, hsame rfl⟩

/-- What `q` sees as one call does one thing to what it sees. -/
theorem call_consistent {debug : Bool} {q : PeerId} {s₁ s₁' s₂ s₂' : FileGet}
    {a₁ a₂ : FileGetCall} {b : PeerCall} (h₁ : s₁.call debug a₁ = .ok s₁')
    (h₂ : s₂.call debug a₂ = .ok s₂') (hb₁ : a₁.seenBy q = some b) (hb₂ : a₂.seenBy q = some b)
    (hv : s₁.view q = s₂.view q) :
    s₁'.view q = s₂'.view q ∧
    Option.Rel SameActions (actionsAbout q ⟨s₁, a₁, s₁'⟩) (actionsAbout q ⟨s₂, a₂, s₂'⟩) := by
  cases b with
  | sendRequest p m w =>
    obtain rfl := FileGetCall.seenBy_sendRequest hb₁
    obtain rfl := FileGetCall.seenBy_sendRequest hb₂
    obtain ⟨r₁, h₁⟩ := call_sendRequest h₁
    obtain ⟨r₂, h₂⟩ := call_sendRequest h₂
    by_cases hp : p = q
    · subst hp
      have halike := sendRequest_alike hv h₁ h₂
      exact ⟨halike.view, halike.actionsAbout_eq rfl rfl⟩
    · -- a request for another peer advances the counter, in both runs
      obtain ⟨x₁, ht₁⟩ := sendRequest_touches h₁
      obtain ⟨x₂, ht₂⟩ := sendRequest_touches h₂
      refine ⟨?_, ?_⟩
      · rw [ht₁.view q (Ne.symm hp), ht₂.view q (Ne.symm hp)]
        exact view_drawn hv
      · have hnone₁ : actionsAbout q ⟨s₁, .sendRequest p m w, s₁'⟩ = none :=
          actionsAbout_none ht₁.events fun a ha => ht₁.about a ha ▸ hp
        have hnone₂ : actionsAbout q ⟨s₂, .sendRequest p m w, s₂'⟩ = none :=
          actionsAbout_none ht₂.events fun a ha => ht₂.about a ha ▸ hp
        rw [hnone₁, hnone₂]
        exact Option.Rel.none
  | swarmEvent event =>
    obtain ⟨o₁, i₁, rfl, hp⟩ := FileGetCall.seenBy_swarmEvent hb₁
    obtain ⟨o₂, i₂, rfl, -⟩ := FileGetCall.seenBy_swarmEvent hb₂
    cases event with
    | connectionEstablished p c ep n =>
      obtain rfl := Option.some.inj hp
      have halike := onConnectionEstablished_alike hv h₁ h₂
      exact ⟨halike.view, halike.actionsAbout_eq rfl rfl⟩
    | connectionClosed p c =>
      obtain rfl := Option.some.inj hp
      obtain ⟨hview, x₁, x₂, hq₁, hq₂, hperm⟩ := onConnectionClosed_alike hv h₁ h₂
      exact ⟨hview, actionsAbout_rel rfl hq₁ hq₂ hperm⟩
    | addressChange p c ep =>
      obtain rfl := Option.some.inj hp
      have halike := onAddressChange_alike hv h₁ h₂
      exact ⟨halike.view, halike.actionsAbout_eq rfl rfl⟩
    | dialFailure peer =>
      have hpeer : peer = some q := hp
      subst hpeer
      obtain rfl := Except.ok.inj h₁
      obtain rfl := Except.ok.inj h₂
      have halike := oneDialFailure_alike hv
      exact ⟨halike.view,
        halike.actionsAbout_eq rfl rfl⟩
    | _ => cases hp
  | handlerEvent c event =>
    obtain rfl := FileGetCall.seenBy_handlerEvent hb₁
    obtain rfl := FileGetCall.seenBy_handlerEvent hb₂
    have halike := onConnectionHandlerEvent_alike hv h₁ h₂
    exact ⟨halike.view, halike.actionsAbout_eq rfl rfl⟩

/-- Peer `q` as an observer of the behaviour. -/
def peerObserver (config : FileGetConfig) (debug : Bool) (q : PeerId) :
    Unwinding (fileGetMachine config debug) PeerView PeerCall
      (Bool × List NetworkBehaviourAction) where
  view := FileGet.view q
  visible := FileGetCall.seenBy q
  output := actionsAbout q
  related := SameActions
  quiet := call_quiet
  consistent := call_consistent

/-! ## Two runs -/

variable {config : FileGetConfig} {debug : Bool}

/-- **Peers do not interfere.** Two runs with the same requests and the
same events about `q`, in the same order, and whatever else: `q` has the
same connections and the same buffered requests, and the same actions were
queued about it, call by call; those of a close may be in another order. -/
theorem peers_do_not_interfere {tr₁ tr₂ : Trace FileGet FileGetCall} {s₁ s₂ : FileGet} {q : PeerId}
    (h₁ : (fileGetMachine config debug).Run tr₁ s₁) (h₂ : (fileGetMachine config debug).Run tr₂ s₂)
    (hsame : tr₁.filterMap (fun t => t.label.seenBy q) = tr₂.filterMap fun t => t.label.seenBy q) :
    s₁.connected.lookup q = s₂.connected.lookup q ∧
    s₁.pendingOutboundRequests.lookup q = s₂.pendingOutboundRequests.lookup q ∧
    List.Forall₂ SameActions (tr₁.filterMap (actionsAbout q)) (tr₂.filterMap (actionsAbout q)) := by
  obtain ⟨hview, hout⟩ := (peerObserver config debug q).runs_agree h₁ h₂ hsame
  obtain ⟨hconn, hbuf, -, -⟩ := view_eq_iff.mp hview
  exact ⟨hconn, hbuf, hout⟩

/-- Two runs in which peer 7 sees the same: in the second, another peer
connects, is asked for files, fails and leaves. -/
theorem peers_do_not_interfere_crowded : ∃ tr₁ s₁ tr₂ s₂,
    (fileGetMachine ⟨10⟩ true).Run tr₁ s₁ ∧ (fileGetMachine ⟨10⟩ true).Run tr₂ s₂ ∧
    tr₁.length = 3 ∧ tr₂.length = 6 ∧ (s₁.connected.lookup ⟨7⟩).isSome = true ∧
    s₁.connected.lookup ⟨7⟩ = s₂.connected.lookup ⟨7⟩ := by
  obtain ⟨tr₁, s₁, hrun₁, hP₁⟩ := Machine.exists_run_of_labels (M := fileGetMachine ⟨10⟩ true)
    [.sendRequest ⟨8⟩ ⟨"a"⟩ ⟨[]⟩, .sendRequest ⟨7⟩ ⟨"b"⟩ ⟨[]⟩,
      .swarmEvent (.stored _) (.stored _) (.connectionEstablished ⟨7⟩ ⟨1⟩ (.dialer ⟨"x"⟩) 0)]
    (fun tr s => decide (tr.filterMap (fun t => t.label.seenBy ⟨7⟩) =
      [.swarmEvent (.connectionEstablished ⟨7⟩ ⟨1⟩ (.dialer ⟨"x"⟩) 0),
        .sendRequest ⟨7⟩ ⟨"b"⟩ ⟨[]⟩, .sendRequest ⟨8⟩ ⟨"a"⟩ ⟨[]⟩]) && decide (tr.length = 3) &&
      (s.connected.lookup ⟨7⟩).isSome) 
    (by decide) (by decide)
  obtain ⟨tr₂, s₂, hrun₂, hP₂⟩ := Machine.exists_run_of_labels (M := fileGetMachine ⟨10⟩ true)
    [.sendRequest ⟨8⟩ ⟨"a"⟩ ⟨[]⟩, .swarmEvent (.stored _) (.stored _) (.dialFailure (some ⟨8⟩)),
      .swarmEvent (.stored _) (.stored _) (.connectionEstablished ⟨8⟩ ⟨2⟩ (.dialer ⟨"y"⟩) 0),
      .sendRequest ⟨7⟩ ⟨"b"⟩ ⟨[]⟩,
      .swarmEvent (.stored _) (.stored _) (.connectionEstablished ⟨7⟩ ⟨1⟩ (.dialer ⟨"x"⟩) 0),
      .swarmEvent (.stored _) (.stored _) (.connectionClosed ⟨8⟩ ⟨2⟩)]
    (fun tr _ => decide (tr.filterMap (fun t => t.label.seenBy ⟨7⟩) =
      [.swarmEvent (.connectionEstablished ⟨7⟩ ⟨1⟩ (.dialer ⟨"x"⟩) 0),
        .sendRequest ⟨7⟩ ⟨"b"⟩ ⟨[]⟩, .sendRequest ⟨8⟩ ⟨"a"⟩ ⟨[]⟩]) && decide (tr.length = 6))
    (by decide) (by decide)
  simp only [Bool.and_eq_true, decide_eq_true_eq] at hP₁ hP₂
  have hsame := peers_do_not_interfere hrun₁ hrun₂ (hP₁.1.1.trans hP₂.1.symm)
  exact ⟨tr₁, s₁, tr₂, s₂, hrun₁, hrun₂, hP₁.1.2, hP₂.2, hP₁.2, hsame.1⟩

end FileSharing
