/-
FileSharing.FileGet.SystemTheorems — what one step of the composed system
does, and the connection table it keeps.

`Mirror` ties the behaviour's table to the swarm: for every peer the table
holds the ids and dialed addresses of the established connections, in
order of establishment. In a mirrored state an allowed step does one of
the things listed by `Stepped`, with every guard decoded and the new state
written out over the specification lemmas of `BehaviourTheorems`
(`step_stepped`). All later invariants are case analyses on `Stepped`;
`System.step` is unfolded here and nowhere else.

`connectionTable_mirrors_swarm` states the table property against a view
of the swarm that is computed from the labels of the run alone
(`swarmTable`): what was established, what was closed, and the endpoint
last reported.
-/
import FileSharing.FileGet.System
import FileSharing.FileGet.BehaviourTheorems

namespace FileSharing

open Lib FileGet

/-! ## Link functions keep the identity of a link -/

/-- The function keeps id, peer and endpoint of a link. -/
def Link.Keeps (f : Link → Link) : Prop :=
  ∀ l, (f l).id = l.id ∧ (f l).peer = l.peer ∧ (f l).endpoint = l.endpoint

namespace Link

theorem keeps_addCommand (request : FileGetOutboundProtocol) : Keeps (addCommand request) :=
  fun _ => ⟨rfl, rfl, rfl⟩

theorem keeps_dropEvent : Keeps dropEvent := fun _ => ⟨rfl, rfl, rfl⟩

theorem keeps_setResponse (ch : ChannelId) (response : ResponseChannel) :
    Keeps (setResponse ch response) := fun _ => ⟨rfl, rfl, rfl⟩

theorem keeps_deliverCommand : Keeps deliverCommand := fun l => by
  unfold deliverCommand
  split <;> exact ⟨rfl, rfl, rfl⟩

theorem keeps_pollHandler (now : Instant) (pick : Nat) : Keeps (pollHandler now pick) :=
  fun l => by
    unfold pollHandler
    split <;> exact ⟨rfl, rfl, rfl⟩

theorem keeps_endOutbound (i : Nat) (result : Except ConnectionHandlerUpgrErr Unit) :
    Keeps (endOutbound i result) := fun l => by
  unfold endOutbound
  split <;> exact ⟨rfl, rfl, rfl⟩

theorem keeps_openInbound (g : RequestIdGenerator) (ch : ChannelId) :
    Keeps (fun l => (openInbound g ch l).1) := fun _ => ⟨rfl, rfl, rfl⟩

theorem keeps_endInbound (sub : InboundSubstream) (event : ConnectionEvent) :
    Keeps (endInbound sub event) := fun _ => ⟨rfl, rfl, rfl⟩

theorem keeps_resumeInbound (sub : InboundSubstream) (wake : InboundWake) :
    Keeps (resumeInbound sub wake) := fun l => by
  unfold resumeInbound
  split
  · split <;> exact ⟨rfl, rfl, rfl⟩
  · exact keeps_endInbound _ _ l
  · exact keeps_endInbound _ _ l
  · exact ⟨rfl, rfl, rfl⟩

theorem keeps_inboundEvent (ch : ChannelId) (event : InboundEvent) :
    Keeps (inboundEvent ch event) := fun l => by
  unfold inboundEvent
  split
  · exact ⟨rfl, rfl, rfl⟩
  · cases event with
    | received result => exact keeps_resumeInbound _ _ l
    | pollReader =>
      dsimp only
      split
      · exact ⟨rfl, rfl, rfl⟩
      · exact keeps_resumeInbound _ _ l
      · exact keeps_resumeInbound _ _ l
    | copied result => exact keeps_resumeInbound _ _ l
    | fails error => exact keeps_endInbound _ _ l
    | otherProtocol => exact ⟨rfl, rfl, rfl⟩

end Link

/-! ## The mirror -/

/-- The behaviour's table mirrors the established connections. -/
structure Mirror (s : System) : Prop where
  wf : s.fileGet.WellFormed
  table : ∀ p, s.fileGet.table p = (s.linksOf p).map fun l => (l.id, l.endpoint.dialedAddress)
  ids : (s.links.map (·.id)).Nodup
  used : ∀ l ∈ s.links, l.id ∈ s.usedIds

namespace Mirror

variable {s : System} {p : PeerId} {c : ConnectionId}

/-- Every established connection has a record. -/
theorem conn_of_link (hm : Mirror s) {l : Link} (hl : l ∈ s.links) :
    ∃ conn ∈ s.fileGet.connections l.peer, conn.id = l.id := by
  have hmem : (l.id, l.endpoint.dialedAddress) ∈ s.fileGet.table l.peer := by
    rw [hm.table]
    exact List.mem_map.mpr ⟨l, List.mem_filter.mpr ⟨hl, by simp⟩, rfl⟩
  obtain ⟨conn, hconn, heq⟩ := List.mem_map.mp hmem
  exact ⟨conn, hconn, (Prod.mk.injEq .. ▸ heq).1⟩

/-- Every record belongs to an established connection. -/
theorem link_of_conn (hm : Mirror s) {conn : Connection}
    (hc : conn ∈ s.fileGet.connections p) :
    ∃ l ∈ s.links, l.peer = p ∧ l.id = conn.id := by
  have hmem : (conn.id, conn.address) ∈ s.fileGet.table p := List.mem_map.mpr ⟨conn, hc, rfl⟩
  rw [hm.table] at hmem
  obtain ⟨l, hl, heq⟩ := List.mem_map.mp hmem
  obtain ⟨hin, hpeer⟩ := List.mem_filter.mp hl
  exact ⟨l, hin, by simpa using hpeer, (Prod.mk.injEq .. ▸ heq).1⟩

theorem length_eq (hm : Mirror s) (p : PeerId) :
    (s.linksOf p).length = (s.fileGet.connections p).length := by
  have := congrArg List.length (hm.table p)
  simpa [FileGet.table] using this.symm

/-- A fresh connection id is no id in the table. -/
theorem fresh (hm : Mirror s) (hc : c ∉ s.usedIds) :
    ∀ conn ∈ s.fileGet.connections p, conn.id ≠ c := by
  intro conn hconn heq
  obtain ⟨l, hl, -, hid⟩ := hm.link_of_conn hconn
  exact hc (heq ▸ hid ▸ hm.used l hl)

/-- The link found by its id is the one in the list. -/
theorem link?_eq (hm : Mirror s) {l : Link} (hl : l ∈ s.links) : s.link? l.id = some l :=
  find?_eq_some_of_mem Link.id hm.ids hl

theorem link?_of_some {l : Link} (h : s.link? c = some l) : l ∈ s.links ∧ l.id = c :=
  ⟨List.mem_of_find?_eq_some h, by simpa using List.find?_some h⟩

/-- The record a link's id finds. -/
theorem findConnection_link (hm : Mirror s) {l : Link} (hl : l ∈ s.links) :
    ∃ conn ∈ s.fileGet.connections l.peer, conn.id = l.id ∧
      s.fileGet.findConnection l.peer l.id = some conn := by
  obtain ⟨conn, hconn, hid⟩ := hm.conn_of_link hl
  exact ⟨conn, hconn, hid, hid ▸ findConnection_of_mem hm.wf hconn⟩

end Mirror

/-! ## What a step does -/

/-- Handing an action to the swarm leaves the behaviour as it was. -/
theorem System.perform_fileGet (s : System) (action : NetworkBehaviourAction) :
    (s.perform action).fileGet = s.fileGet := by
  cases action with
  | dial q h => rfl
  | notifyHandler q c request => rfl
  | generateEvent e => cases e <;> rfl

/-- The steps of the connection task and the application that only change
links. -/
inductive LinkStep : Label → ConnectionId → (Link → Link) → Prop where
  | deliverCommand (c : ConnectionId) : LinkStep (.deliverCommand c) c Link.deliverCommand
  | pollHandler (c : ConnectionId) (now : Instant) (pick : Nat) :
      LinkStep (.pollHandler c now pick) c (Link.pollHandler now pick)
  | inbound (c : ConnectionId) (ch : ChannelId) (event : InboundEvent) :
      LinkStep (.inbound c ch event) c (Link.inboundEvent ch event)
  | endOutbound (c : ConnectionId) (i : Nat) (result : Except ConnectionHandlerUpgrErr Unit) :
      LinkStep (.endOutbound c i result) c (Link.endOutbound i result)

theorem LinkStep.keeps {a : Label} {c : ConnectionId} {f : Link → Link} (h : LinkStep a c f) :
    Link.Keeps f := by
  cases h with
  | deliverCommand => exact Link.keeps_deliverCommand
  | pollHandler => exact Link.keeps_pollHandler _ _
  | inbound => exact Link.keeps_inboundEvent _ _
  | endOutbound => exact Link.keeps_endOutbound _ _

/-- The swarm side after a connection was established. -/
def System.establish (s : System) (p : PeerId) (c : ConnectionId) (ep : ConnectedPoint)
    (resolves : Bool) (fileGet : FileGet) : System :=
  { s with
    fileGet := fileGet
    links := s.links ++ [Link.new c p ep fileGet.newHandler]
    usedIds := c :: s.usedIds
    dials := if resolves then s.dials.erase p else s.dials }

/-- The dials left after a dial failure. -/
def System.dialsAfter (s : System) (peer : Option PeerId) (resolves : Bool) : List PeerId :=
  match resolves, peer with
  | true, some p => s.dials.erase p
  | _, _ => s.dials

/-- Everything an allowed step can do in a mirrored state. -/
inductive Stepped (s : System) : Label → System → Prop where
  /-- The peer has no connection: the request is buffered behind a dial. -/
  | buffered (p : PeerId) (m : FileGetMessage) (w : FileWriter) :
      s.fileGet.connections p = [] →
      Stepped s (.sendRequest p m w)
        { s with fileGet := s.fileGet.drawn.bufferRequest p (s.fileGet.newRequest m w) }
  /-- The request goes to a connection of the peer. -/
  | dispatched (p : PeerId) (m : FileGetMessage) (w : FileWriter) (l : Link) (fg : FileGet) :
      l ∈ s.links → l.peer = p →
      Dispatched s.fileGet.drawn p l.id [s.fileGet.newRequest m w] fg →
      Stepped s (.sendRequest p m w) { s with fileGet := fg }
  /-- A connection is established and nothing is drained. -/
  | established (p : PeerId) (c : ConnectionId) (ep : ConnectedPoint) (resolves : Bool) :
      c ∉ s.usedIds → (resolves = true → p ∈ s.dials) →
      (s.fileGet.connections p ≠ [] ∨ s.fileGet.pendingOutboundRequests.lookup p = none) →
      Stepped s (.connectionEstablished p c ep resolves)
        (s.establish p c ep resolves (s.fileGet.addConnection p c ep))
  /-- The first connection to a peer: its buffer goes to the connection. -/
  | drained (p : PeerId) (c : ConnectionId) (ep : ConnectedPoint) (resolves : Bool)
      (pending : List FileGetOutboundProtocol) (fg : FileGet) :
      c ∉ s.usedIds → (resolves = true → p ∈ s.dials) →
      s.fileGet.connections p = [] →
      s.fileGet.pendingOutboundRequests.lookup p = some pending →
      ((s.fileGet.addConnection p c ep).clearBuffer p).sendBuffered p pending = .ok (fg, []) →
      Dispatched ((s.fileGet.addConnection p c ep).clearBuffer p) p c pending fg →
      Stepped s (.connectionEstablished p c ep resolves) (s.establish p c ep resolves fg)
  | closed (l : Link) (o i : IterOrder RequestId) (conn : Connection) :
      l ∈ s.links → conn ∈ s.fileGet.connections l.peer → conn.id = l.id →
      Stepped s (.connectionClosed l.peer l.id o i)
        { s with
          fileGet := (s.fileGet.storeConnections l.peer (s.fileGet.remaining l.peer l.id)).push
            (closedEvents o i l.peer conn)
          links := s.links.filter fun k => k.id ≠ l.id }
  | addressChange (l : Link) (ep : ConnectedPoint) :
      l ∈ s.links →
      Stepped s (.addressChange l.peer l.id ep)
        { s.updateLink l.id (Link.setEndpoint ep) with
          fileGet := s.fileGet.modifyConnection l.peer l.id (readdress ep) }
  /-- A dial failed and nothing was buffered. -/
  | dialFailed (peer : Option PeerId) (resolves : Bool) :
      (∀ p, peer = some p → s.fileGet.pendingOutboundRequests.lookup p = none) →
      Stepped s (.dialFailure peer resolves) { s with dials := s.dialsAfter peer resolves }
  /-- A dial failed: the buffer is reported. -/
  | dialDrained (p : PeerId) (resolves : Bool) (pending : List FileGetOutboundProtocol) :
      s.fileGet.pendingOutboundRequests.lookup p = some pending →
      Stepped s (.dialFailure (some p) resolves)
        { s with
          fileGet := (s.fileGet.clearBuffer p).push (pending.map fun request =>
            .generateEvent (.outboundFailure p request.requestId .dialFailure))
          dials := s.dialsAfter (some p) resolves }
  | swarmNotice (event : FromSwarm) : Stepped s (.swarmNotice event) s
  | pollIdle : s.fileGet.pendingEvents = [] → Stepped s .pollBehaviour s
  | pollReady (action : NetworkBehaviourAction) (rest : List NetworkBehaviourAction) :
      s.fileGet.pendingEvents = action :: rest →
      Stepped s .pollBehaviour
        (System.perform { s with fileGet := { s.fileGet with pendingEvents := rest } } action)
  | deliverEvent (l : Link) (conn : Connection) (e : FileGetHandlerEvent)
      (rest : List FileGetHandlerEvent) :
      l ∈ s.links → l.events = e :: rest →
      conn ∈ s.fileGet.connections l.peer → conn.id = l.id →
      Stepped s (.deliverEvent l.id)
        { s.updateLink l.id Link.dropEvent with fileGet := s.fileGet.afterEvent l.peer l.id e }
  | link (a : Label) (c : ConnectionId) (f : Link → Link) :
      LinkStep a c f → Stepped s a (s.updateLink c f)
  | openInbound (l : Link) :
      l ∈ s.links →
      Stepped s (.openInbound l.id)
        { s.updateLink l.id
            (fun l => (l.openInbound s.fileGet.inboundIdGenerator ⟨s.nextChannel⟩).1) with
          fileGet := { s.fileGet with
            inboundIdGenerator := s.fileGet.inboundIdGenerator.nextId.2 }
          nextChannel := s.nextChannel + 1 }
  | respond (ch : ChannelId) (reader : FileReader) :
      Stepped s (.respond ch reader)
        { s with
          links := s.links.map (Link.setResponse ch (.sent reader))
          responders := s.responders.erase ch }
  | dropResponder (ch : ChannelId) :
      Stepped s (.dropResponder ch)
        { s with
          links := s.links.map (Link.setResponse ch .dropped)
          responders := s.responders.erase ch }

/-- **Inversion**: in a mirrored state an allowed step that returns did one
of the things `Stepped` lists. -/
theorem step_stepped {debug : Bool} {s s' : System} {a : Label} (hm : Mirror s)
    (ha : s.Allowed a = true) (h : s.step debug a = .ok s') : Stepped s a s' := by
  cases a with
  | sendRequest p m w =>
    rcases sendRequest_spec hm.wf (p := p) m w with ⟨hnil, hs⟩ | ⟨conn, hc, fg, hs, hd⟩
    · simp only [System.step, hs, bind, Except.bind, Except.ok.injEq] at h
      exact h ▸ .buffered p m w hnil
    · simp only [System.step, hs, bind, Except.bind, Except.ok.injEq] at h
      obtain ⟨l, hl, hp, hid⟩ := hm.link_of_conn (mem_of_chosenConnection hc)
      exact h ▸ .dispatched p m w l fg hl hp (hid ▸ hd)
  | connectionEstablished p c ep resolves =>
    simp only [System.Allowed, Bool.and_eq_true, Bool.or_eq_true, Bool.not_eq_eq_eq_not,
      Bool.not_true, decide_eq_true_eq] at ha
    obtain ⟨hfresh, hdial⟩ := ha
    have hdial' : resolves = true → p ∈ s.dials := by
      rintro rfl
      simpa using hdial
    rcases onConnectionEstablished_spec hm.wf ep (hm.fresh hfresh) (hm.length_eq p) with
      ⟨hcase, hs⟩ | ⟨pending, hnil, hb, fg, hs, hsend, hd⟩
    · simp only [System.step, onSwarmEvent, hs, bind, Except.bind, Except.ok.injEq] at h
      exact h ▸ .established p c ep resolves hfresh hdial' hcase
    · simp only [System.step, onSwarmEvent, hs, bind, Except.bind, Except.ok.injEq] at h
      exact h ▸ .drained p c ep resolves pending fg hfresh hdial' hnil hb hsend hd
  | connectionClosed p c o i =>
    simp only [System.Allowed, List.any_eq_true, Bool.and_eq_true, decide_eq_true_eq] at ha
    obtain ⟨l, hl, rfl, rfl⟩ := ha
    obtain ⟨conn, hconn, hid⟩ := hm.conn_of_link hl
    have hs := onConnectionClosed_spec hm.wf o i hconn
    rw [hid] at hs
    simp only [System.step, onSwarmEvent, hs, bind, Except.bind, Except.ok.injEq] at h
    exact h ▸ .closed l o i conn hl hconn hid
  | addressChange p c ep =>
    simp only [System.Allowed, List.any_eq_true, Bool.and_eq_true, decide_eq_true_eq] at ha
    obtain ⟨l, hl, rfl, rfl⟩ := ha
    obtain ⟨conn, hconn, hid⟩ := hm.conn_of_link hl
    have hs := onAddressChange_spec hm.wf ep hconn
    rw [hid] at hs
    simp only [System.step, onSwarmEvent, hs, bind, Except.bind, Except.ok.injEq] at h
    exact h ▸ .addressChange l ep hl
  | dialFailure peer resolves =>
    simp only [System.step, onSwarmEvent, bind, Except.bind, Except.ok.injEq] at h
    subst h
    cases peer with
    | none => exact .dialFailed none resolves (by simp)
    | some p =>
      rcases oneDialFailure_eq s.fileGet p with ⟨hb, hs⟩ | ⟨pending, hb, hs⟩
      · rw [hs]
        exact .dialFailed (some p) resolves (by simpa using hb)
      · rw [hs]
        exact .dialDrained p resolves pending hb
  | swarmNotice event =>
    have hs : s.fileGet.onSwarmEvent (.stored _) (.stored _) event = .ok s.fileGet := by
      cases event <;> simp_all [System.Allowed, System.isNotice, onSwarmEvent]
    simp only [System.step, hs, bind, Except.bind, Except.ok.injEq] at h
    exact h ▸ .swarmNotice event
  | pollBehaviour =>
    simp only [System.step, FileGet.poll] at h
    cases hq : s.fileGet.pendingEvents with
    | nil =>
      simp only [hq, Except.ok.injEq] at h
      exact h ▸ .pollIdle hq
    | cons action rest =>
      simp only [hq, Except.ok.injEq] at h
      exact h ▸ .pollReady action rest hq
  | deliverEvent c =>
    cases hl : s.link? c with
    | none => simp [System.Allowed, hl] at ha
    | some l =>
      obtain ⟨hmem, rfl⟩ := Mirror.link?_of_some hl
      cases he : l.events with
      | nil => simp [System.Allowed, hl, he] at ha
      | cons e rest =>
        obtain ⟨conn, hconn, hid, hfind⟩ := hm.findConnection_link hmem
        simp only [System.step, hl, he, bind, Except.bind] at h
        cases hs : s.fileGet.onConnectionHandlerEvent debug l.peer l.id e with
        | error err => simp [hs] at h
        | ok fg =>
          simp only [hs, Except.ok.injEq] at h
          rw [onConnectionHandlerEvent_eq hfind hs] at h
          exact h ▸ .deliverEvent l conn e rest hmem he hconn hid
  | deliverCommand c =>
    simp only [System.step, Except.ok.injEq] at h
    exact h ▸ .link _ c _ (.deliverCommand c)
  | pollHandler c now pick =>
    simp only [System.step, Except.ok.injEq] at h
    exact h ▸ .link _ c _ (.pollHandler c now pick)
  | openInbound c =>
    cases hl : s.link? c with
    | none => simp [System.Allowed, System.liveLink, hl] at ha
    | some l =>
      obtain ⟨hmem, rfl⟩ := Mirror.link?_of_some hl
      simp only [System.step, hl, Except.ok.injEq] at h
      exact h ▸ .openInbound l hmem
  | inbound c ch event =>
    simp only [System.step, Except.ok.injEq] at h
    exact h ▸ .link _ c _ (.inbound c ch event)
  | endOutbound c i result =>
    simp only [System.step, Except.ok.injEq] at h
    exact h ▸ .link _ c _ (.endOutbound c i result)
  | respond ch reader =>
    simp only [System.step, Except.ok.injEq] at h
    exact h ▸ .respond ch reader
  | dropResponder ch =>
    simp only [System.step, Except.ok.injEq] at h
    exact h ▸ .dropResponder ch

/-! ## The mirror is kept -/

theorem Link.keeps_self : Link.Keeps fun l => l := fun _ => ⟨rfl, rfl, rfl⟩

/-- Running a function that keeps links on one of them keeps all of them. -/
theorem Link.Keeps.onOne {f : Link → Link} (hf : Link.Keeps f) (c : ConnectionId) :
    Link.Keeps fun l => if l.id = c then f l else l := fun l => by
  by_cases hl : l.id = c
  · simpa [hl] using hf l
  · simp [hl]

/-- A step that keeps what the table says and keeps the links keeps the mirror. -/
theorem Mirror.of_map {s s' : System} (hm : Mirror s) (hwf : s'.fileGet.WellFormed)
    (htable : ∀ p, s'.fileGet.table p = s.fileGet.table p) {g : Link → Link}
    (hg : Link.Keeps g) (hlinks : s'.links = s.links.map g) (hused : s'.usedIds = s.usedIds) :
    Mirror s' where
  wf := hwf
  table p := by
    have hfilter : s'.linksOf p = (s.linksOf p).map g := by
      unfold System.linksOf
      rw [hlinks, List.filter_map]
      congr 1
      exact List.filter_congr fun l _ => by simp [(hg l).2.1]
    rw [htable, hm.table, hfilter, List.map_map]
    exact List.map_congr_left fun l _ => by simp [(hg l).1, (hg l).2.2]
  ids := by
    rw [hlinks, List.map_map]
    have hid : (Link.id ∘ g) = Link.id := funext fun l => (hg l).1
    show (s.links.map (Link.id ∘ g)).Nodup
    rw [hid]
    exact hm.ids
  used l hl := by
    rw [hlinks] at hl
    obtain ⟨k, hk, rfl⟩ := List.mem_map.mp hl
    rw [hused, (hg k).1]
    exact hm.used k hk

/-- A new connection at the end of the table and of the links. -/
theorem Mirror.of_establish {s : System} {p : PeerId} {c : ConnectionId} {ep : ConnectedPoint}
    {resolves : Bool} {fg : FileGet} (hm : Mirror s) (hfresh : c ∉ s.usedIds)
    (hwf : fg.WellFormed)
    (htable : ∀ q, fg.table q = (s.fileGet.addConnection p c ep).table q) :
    Mirror (s.establish p c ep resolves fg) where
  wf := hwf
  table q := by
    show fg.table q = _
    rw [htable, addConnection_table]
    unfold System.linksOf System.establish
    rw [List.filter_append, List.map_append]
    by_cases hq : q = p
    · subst hq
      rw [if_pos rfl, hm.table]
      simp [Link.new, System.linksOf]
    · have hpq : p ≠ q := fun h => hq h.symm
      rw [if_neg hq, hm.table]
      simp [Link.new, System.linksOf, hpq]
  ids := by
    show ((s.links ++ [_]).map _).Nodup
    rw [List.map_append, List.nodup_append]
    refine ⟨hm.ids, by simp, ?_⟩
    intro a ha b hb
    obtain ⟨l, hl, rfl⟩ := List.mem_map.mp ha
    simp only [List.map_cons, List.map_nil, List.mem_singleton] at hb
    rw [hb]
    exact fun heq : l.id = c => hfresh (heq ▸ hm.used l hl)
  used l hl := by
    rcases List.mem_append.mp hl with hl | hl
    · exact List.mem_cons_of_mem _ (hm.used l hl)
    · rw [List.mem_singleton.mp hl]
      exact List.mem_cons_self

/-- Closing a connection takes it from the table and from the links. -/
theorem Mirror.closed {s : System} (hm : Mirror s) {l : Link} (hl : l ∈ s.links)
    (actions : List NetworkBehaviourAction) :
    Mirror { s with
      fileGet :=
        (s.fileGet.storeConnections l.peer (s.fileGet.remaining l.peer l.id)).push actions
      links := s.links.filter fun k => k.id ≠ l.id } where
  wf := (hm.wf.closed).push _
  table q := by
    have hlinks : (s.links.filter fun k => k.id ≠ l.id).filter (fun k => k.peer = q) =
        (s.linksOf q).filter fun k => k.id ≠ l.id := by
      unfold System.linksOf
      rw [List.filter_comm]
    show (s.fileGet.storeConnections _ _).table q = ((s.links.filter _).filter _).map _
    rw [closed_table, hlinks]
    by_cases hq : q = l.peer
    · rw [if_pos hq, hq, hm.table, List.filter_map]
      rfl
    · -- a link of another peer has another id
      rw [if_neg hq, hm.table]
      congr 1
      refine (List.filter_eq_self.mpr fun k hk => ?_).symm
      obtain ⟨hk, hkq⟩ := List.mem_filter.mp hk
      have hne : k.id ≠ l.id := fun heq => by
        have hkl := List.inj_on_of_nodup_map hm.ids hk hl heq
        simp only [decide_eq_true_eq] at hkq
        exact hq (hkl ▸ hkq.symm)
      simpa using hne
  ids := (List.filter_sublist.map _).nodup hm.ids
  used k hk := hm.used k (List.mem_of_mem_filter hk)

/-- An address change reaches the record and the link alike. -/
theorem Mirror.addressChanged {s : System} (hm : Mirror s) {l : Link} (hl : l ∈ s.links)
    (ep : ConnectedPoint) :
    Mirror { s.updateLink l.id (Link.setEndpoint ep) with
      fileGet := s.fileGet.modifyConnection l.peer l.id (readdress ep) } where
  wf := hm.wf.modifyConnection fun _ => rfl
  table q := by
    have hlinks : (s.links.map fun k => if k.id = l.id then Link.setEndpoint ep k else k).filter
        (fun k => k.peer = q) =
        (s.linksOf q).map fun k => if k.id = l.id then Link.setEndpoint ep k else k := by
      rw [List.filter_map]
      congr 1
      refine List.filter_congr fun k _ => ?_
      by_cases hk : k.id = l.id <;> simp [hk, Link.setEndpoint]
    show (s.fileGet.modifyConnection _ _ _).table q = ((s.links.map _).filter _).map _
    rw [readdress_table hm.wf, hlinks, List.map_map]
    by_cases hq : q = l.peer
    · rw [if_pos hq, hq, hm.table, List.map_map]
      refine List.map_congr_left fun k _ => ?_
      by_cases hk : k.id = l.id <;> simp [hk, Link.setEndpoint]
    · rw [if_neg hq, hm.table]
      refine List.map_congr_left fun k hk => ?_
      obtain ⟨hk, hkq⟩ := List.mem_filter.mp hk
      have hne : k.id ≠ l.id := fun heq => by
        have hkl := List.inj_on_of_nodup_map hm.ids hk hl heq
        simp only [decide_eq_true_eq] at hkq
        exact hq (hkl ▸ hkq.symm)
      simp [hne]
  ids := by
    have hid : (Link.id ∘ fun k => if k.id = l.id then Link.setEndpoint ep k else k) = Link.id := by
      funext k
      by_cases hk : k.id = l.id <;> simp [hk, Link.setEndpoint]
    show ((s.links.map _).map Link.id).Nodup
    rw [List.map_map, hid]
    exact hm.ids
  used k hk := by
    obtain ⟨k', hk', rfl⟩ := List.mem_map.mp hk
    have hid : (if k'.id = l.id then Link.setEndpoint ep k' else k').id = k'.id := by
      by_cases h : k'.id = l.id <;> simp [h, Link.setEndpoint]
    rw [hid]
    exact hm.used k' hk'

/-- One step keeps the mirror. -/
theorem Mirror.step {s s' : System} {a : Label} (hm : Mirror s) (h : Stepped s a s') :
    Mirror s' := by
  have hself := Link.keeps_self
  cases h with
  | buffered p m w _ =>
    exact hm.of_map ⟨hm.wf.nonempty, hm.wf.ids⟩ (fun _ => rfl) hself (by simp) rfl
  | dispatched p m w l fg _ _ hd => exact hm.of_map hd.wf hd.table hself (by simp) rfl
  | established p c ep resolves hfresh _ _ =>
    exact hm.of_establish hfresh (hm.wf.addConnection ep (hm.fresh hfresh)) fun _ => rfl
  | drained p c ep resolves pending fg hfresh _ _ _ _ hd =>
    exact hm.of_establish hfresh hd.wf hd.table
  | closed l o i conn hl _ _ => exact hm.closed hl _
  | addressChange l ep hl => exact hm.addressChanged hl ep
  | dialFailed peer resolves _ =>
    exact hm.of_map hm.wf (fun _ => rfl) hself (by simp) rfl
  | dialDrained p resolves pending _ =>
    exact hm.of_map ⟨hm.wf.nonempty, hm.wf.ids⟩ (fun _ => rfl) hself (by simp) rfl
  | swarmNotice event => exact hm
  | pollIdle _ => exact hm
  | pollReady action rest _ =>
    have hwf : FileGet.WellFormed { s.fileGet with pendingEvents := rest } :=
      ⟨hm.wf.nonempty, hm.wf.ids⟩
    cases action with
    | dial p h => exact hm.of_map hwf (fun _ => rfl) hself (by simp [System.perform]) rfl
    | notifyHandler p c request =>
      exact hm.of_map hwf (fun _ => rfl) ((Link.keeps_addCommand request).onOne c) rfl rfl
    | generateEvent e =>
      cases e <;> exact hm.of_map hwf (fun _ => rfl) hself (by simp [System.perform]) rfl
  | deliverEvent l conn e rest _ _ _ _ =>
    exact hm.of_map ((hm.wf.modifyConnection e.effect_id).push _)
      (fun _ => modifyConnection_table hm.wf e.effect_id e.effect_address)
      (Link.keeps_dropEvent.onOne l.id) rfl rfl
  | link a c f hf => exact hm.of_map hm.wf (fun _ => rfl) (hf.keeps.onOne c) rfl rfl
  | openInbound l _ =>
    exact hm.of_map ⟨hm.wf.nonempty, hm.wf.ids⟩ (fun _ => rfl)
      ((Link.keeps_openInbound _ _).onOne l.id) rfl rfl
  | respond ch reader =>
    exact hm.of_map hm.wf (fun _ => rfl) (Link.keeps_setResponse ch _) rfl rfl
  | dropResponder ch =>
    exact hm.of_map hm.wf (fun _ => rfl) (Link.keeps_setResponse ch _) rfl rfl

theorem mirror_init (config : FileGetConfig) : Mirror (.init config) where
  wf := ⟨fun p l h => by simp [System.init, fromConfig] at h,
    fun p => by simp [System.init, fromConfig, connections]⟩
  table p := by simp [System.init, fromConfig, FileGet.table, connections, System.linksOf]
  ids := List.nodup_nil
  used l hl := by simp [System.init] at hl

variable {config : FileGetConfig} {debug : Bool} {tr : Trace System Label} {s s' : System}

/-- **Every reachable state is mirrored.** -/
theorem run_mirror (h : (fileGetSystem config debug).Run tr s) : Mirror s :=
  h.invariant (I := fun _ s => Mirror s) (mirror_init config)
    fun _ hm ha hok => hm.step (step_stepped hm ha hok)

/-- The last step of a run, inverted. -/
theorem run_stepped {t : Transition System Label}
    (h : (fileGetSystem config debug).Run (t :: tr) s) :
    Mirror t.pre ∧ Stepped t.pre t.label t.post := by
  obtain ⟨hrun, ha, hok, -⟩ := h.tail
  exact ⟨run_mirror hrun, step_stepped (run_mirror hrun) ha hok⟩

/-! ## The queue of the behaviour -/

/-- The action asks for a dial, hands a request on or reports a failure. -/
def NetworkBehaviourAction.isPlain : NetworkBehaviourAction → Bool
  | .dial _ _ => true
  | .notifyHandler _ _ _ => true
  | .generateEvent (.outboundFailure _ _ _) => true
  | .generateEvent (.inboundFailure _ _ _) => true
  | .generateEvent _ => false

/-- What a step can do to the queue. -/
inductive Queued (s s' : System) : Label → Prop where
  | added (a : Label) (actions : List NetworkBehaviourAction) :
      s'.fileGet.pendingEvents = s.fileGet.pendingEvents ++ actions →
      (∀ x ∈ actions, x.isPlain = true) → Queued s s' a
  /-- An event of a handler is reported. -/
  | reported (l : Link) (e : FileGetHandlerEvent) (rest : List FileGetHandlerEvent) :
      l ∈ s.links → l.events = e :: rest →
      s'.fileGet = s.fileGet.afterEvent l.peer l.id e →
      Queued s s' (.deliverEvent l.id)
  /-- The oldest action is handed out. -/
  | polled (action : NetworkBehaviourAction) (rest : List NetworkBehaviourAction) :
      s.fileGet.pendingEvents = action :: rest → s'.fileGet.pendingEvents = rest →
      Queued s s' .pollBehaviour

/-- **Inversion**: what a step does to the queue. -/
theorem stepped_queued {s s' : System} {a : Label} (h : Stepped s a s') : Queued s s' a := by
  have hsame : s'.fileGet.pendingEvents = s.fileGet.pendingEvents → Queued s s' a :=
    fun heq => .added a [] (by rw [heq, List.append_nil]) (by simp)
  cases h with
  | buffered p m w _ => exact .added _ [.dial p s.fileGet.newHandler] rfl (by simp; rfl)
  | dispatched p m w l fg _ _ hd =>
    refine .added _ _ hd.events fun x hx => ?_
    obtain ⟨request, -, rfl⟩ := List.mem_map.mp hx
    rfl
  | established p c ep resolves _ _ _ => exact hsame rfl
  | drained p c ep resolves pending fg _ _ _ _ _ hd =>
    refine .added _ _ hd.events fun x hx => ?_
    obtain ⟨request, -, rfl⟩ := List.mem_map.mp hx
    rfl
  | closed l o i conn _ _ _ =>
    refine .added _ (closedEvents o i l.peer conn) rfl fun x hx => ?_
    rcases List.mem_append.mp hx with hx | hx <;>
    · obtain ⟨r, -, rfl⟩ := List.mem_map.mp hx
      rfl
  | addressChange l ep _ => exact hsame (modifyConnection_pendingEvents _)
  | dialFailed peer resolves _ => exact hsame rfl
  | dialDrained p resolves pending _ =>
    refine .added _ (pending.map fun request =>
      .generateEvent (.outboundFailure p request.requestId .dialFailure)) rfl fun x hx => ?_
    obtain ⟨request, -, rfl⟩ := List.mem_map.mp hx
    rfl
  | swarmNotice event => exact hsame rfl
  | pollIdle _ => exact hsame rfl
  | pollReady action rest hq => exact .polled action rest hq (by rw [System.perform_fileGet])
  | deliverEvent l conn e rest hl hev _ _ => exact .reported l e rest hl hev rfl
  | link a c f _ => exact hsame rfl
  | openInbound l _ => exact hsame rfl
  | respond ch reader => exact hsame rfl
  | dropResponder ch => exact hsame rfl

/-! ## The remote requests being served -/

/-- What a step can do to the sets of remote requests. -/
inductive Served (s s' : System) (a : Label) : Prop where
  | same : (∀ p c r, s'.fileGet.Serving p c r ↔ s.fileGet.Serving p c r) →
      (∀ c, a ≠ .deliverEvent c) → (∀ p c o i, a ≠ .connectionClosed p c o i) → Served s s' a
  /-- An event of a handler takes one out or puts one in. -/
  | delivered (l : Link) (e : FileGetHandlerEvent) (rest : List FileGetHandlerEvent) :
      a = .deliverEvent l.id → l ∈ s.links → l.events = e :: rest →
      (∀ p c r, s'.fileGet.Serving p c r ↔
        (s.fileGet.Serving p c r ∧ ¬ (p = l.peer ∧ c = l.id ∧ e.concludes = some r)) ∨
        (p = l.peer ∧ c = l.id ∧ e.announces = some r)) → Served s s' a
  /-- A connection closes, and its set is gone. -/
  | closed (l : Link) (o i : IterOrder RequestId) : a = .connectionClosed l.peer l.id o i →
      l ∈ s.links → (∀ k ∈ s'.links, k.id ≠ l.id) →
      (∀ p c r, s'.fileGet.Serving p c r ↔
        s.fileGet.Serving p c r ∧ ¬ (p = l.peer ∧ c = l.id)) → Served s s' a

/-- **Inversion**: what a step does to the sets of remote requests. -/
theorem stepped_served {s s' : System} {a : Label} (hm : Mirror s) (h : Stepped s a s') :
    Served s s' a := by
  cases h with
  | buffered p m w _ => exact .same (fun _ _ _ => Iff.rfl) (by simp) (by simp)
  | dispatched p m w l fg _ _ hd => exact .same hd.serving (by simp) (by simp)
  | established p c ep resolves _ _ _ =>
    exact .same (fun _ _ _ => addConnection_holds ep fun _ _ => rfl) (by simp) (by simp)
  | drained p c ep resolves pending fg _ _ _ _ _ hd =>
    refine .same (fun q d x => (hd.serving q d x).trans ?_) (by simp) (by simp)
    exact addConnection_holds ep fun _ _ => rfl
  | closed l o i conn hl _ _ =>
    refine .closed l o i rfl hl (fun k hk => ?_) fun _ _ _ => holds_closed _
    simpa using (List.mem_filter.mp hk).2
  | addressChange l ep _ =>
    exact .same (fun _ _ _ => holds_readdress hm.wf ep fun _ => rfl) (by simp) (by simp)
  | dialFailed peer resolves _ => exact .same (fun _ _ _ => Iff.rfl) (by simp) (by simp)
  | dialDrained p resolves pending _ => exact .same (fun _ _ _ => Iff.rfl) (by simp) (by simp)
  | swarmNotice event => exact .same (fun _ _ _ => Iff.rfl) (by simp) (by simp)
  | pollIdle _ => exact .same (fun _ _ _ => Iff.rfl) (by simp) (by simp)
  | pollReady action rest _ =>
    refine .same (fun _ _ _ => ?_) (by simp) (by simp)
    rw [System.perform_fileGet]
    exact Iff.rfl
  | deliverEvent l conn e rest hl he hconn hid =>
    exact .delivered l e rest rfl hl he fun _ _ _ => afterEvent_serving hm.wf hconn hid e
  | link a c f hf =>
    refine .same (fun _ _ _ => Iff.rfl) ?_ ?_
    · cases hf <;> simp
    · cases hf <;> simp
  | openInbound l _ => exact .same (fun _ _ _ => Iff.rfl) (by simp) (by simp)
  | respond ch reader => exact .same (fun _ _ _ => Iff.rfl) (by simp) (by simp)
  | dropResponder ch => exact .same (fun _ _ _ => Iff.rfl) (by simp) (by simp)

/-! ## The connection table -/

/-- The established connections of a peer with their dialed addresses, as
the labels of a run tell them: in order of establishment, a close takes
one out, an address change replaces the address. -/
def swarmTable (p : PeerId) : Trace System Label → List (ConnectionId × Option Multiaddr)
  | [] => []
  | t :: tr =>
    match t.label with
    | .connectionEstablished q c ep _ =>
      if p = q then swarmTable p tr ++ [(c, ep.dialedAddress)] else swarmTable p tr
    | .connectionClosed q c _ _ =>
      if p = q then (swarmTable p tr).filter (fun e => e.1 ≠ c) else swarmTable p tr
    | .addressChange q c ep =>
      if p = q then (swarmTable p tr).map (fun e => if e.1 = c then (c, ep.dialedAddress) else e)
      else swarmTable p tr
    | _ => swarmTable p tr

/-- One step moves the table as it moves the swarm's. -/
theorem stepped_table {t : Transition System Label} (hm : Mirror t.pre)
    (h : Stepped t.pre t.label t.post) {tr : Trace System Label}
    (ih : ∀ p, t.pre.fileGet.table p = swarmTable p tr) (p : PeerId) :
    t.post.fileGet.table p = swarmTable p (t :: tr) := by
  obtain ⟨s, a, s'⟩ := t
  dsimp only at hm h ih ⊢
  cases h with
  | buffered q m w _ => exact ih p
  | dispatched q m w l fg _ _ hd => exact (hd.table p).trans (ih p)
  | established q c ep resolves _ _ _ =>
    simp only [swarmTable, System.establish, addConnection_table, ih]
    split <;> simp_all
  | drained q c ep resolves pending fg _ _ _ _ _ hd =>
    have htable : fg.table p = (s.fileGet.addConnection q c ep).table p := hd.table p
    simp only [swarmTable, System.establish, htable, addConnection_table, ih]
    split <;> simp_all
  | closed l o i conn _ _ _ =>
    show (s.fileGet.storeConnections _ _).table p = _
    simp only [swarmTable, closed_table, ih]
    split <;> simp_all
  | addressChange l ep _ =>
    simp only [swarmTable, readdress_table hm.wf, ih]
    split <;> simp_all
  | dialFailed peer resolves _ => exact ih p
  | dialDrained q resolves pending _ => exact ih p
  | swarmNotice event => exact ih p
  | pollIdle _ => exact ih p
  | pollReady action rest _ =>
    cases action with
    | dial q h => exact ih p
    | notifyHandler q c request => exact ih p
    | generateEvent e => cases e <;> exact ih p
  | deliverEvent l conn e rest _ _ _ _ =>
    exact (modifyConnection_table hm.wf e.effect_id e.effect_address).trans (ih p)
  | link a c f hf => cases hf <;> exact ih p
  | openInbound l _ => exact ih p
  | respond ch reader => exact ih p
  | dropResponder ch => exact ih p

/-- In every run the table is the swarm's. -/
theorem run_table (h : (fileGetSystem config debug).Run tr s) (p : PeerId) :
    s.fileGet.table p = swarmTable p tr := by
  induction tr generalizing s p with
  | nil =>
    cases h
    exact (mirror_init config).table p
  | cons t tr ih =>
    obtain ⟨hrun, -, -, rfl⟩ := h.tail
    obtain ⟨hm, hstep⟩ := run_stepped h
    exact stepped_table hm hstep (ih hrun) p

/-- **The connection table mirrors the swarm.** A peer is a key exactly
when it has an established connection; its list holds the established
connections in order, without repetition, each with the dialed address
last reported; and so the `expect`s of `on_connection_closed` and
`on_address_change` hold for every close and address change the swarm may
announce, and the index `try_send_request` computes is in range. -/
theorem connectionTable_mirrors_swarm (h : (fileGetSystem config debug).Run tr s) :
    (∀ p, p ∈ s.fileGet.connected ↔ swarmTable p tr ≠ []) ∧
    (∀ p l, s.fileGet.connected.lookup p = some l →
      l ≠ [] ∧ l.map (fun conn => (conn.id, conn.address)) = swarmTable p tr ∧
      (l.map (·.id)).Nodup) ∧
    (∀ p c o i, s.Allowed (.connectionClosed p c o i) = true →
      ∃ fg, s.fileGet.onConnectionClosed o i p c = .ok fg) ∧
    (∀ p c ep, s.Allowed (.addressChange p c ep) = true →
      ∃ fg, s.fileGet.onAddressChange p c ep = .ok fg) ∧
    (∀ p l, s.fileGet.connected.lookup p = some l → ∀ request : FileGetOutboundProtocol,
      request.requestId.val.toNat % l.length < l.length ∧
      ∃ result, s.fileGet.trySendRequest p request = .ok result) := by
  have hm := run_mirror h
  have hlookup : ∀ {p l}, s.fileGet.connected.lookup p = some l → s.fileGet.connections p = l :=
    fun hl => by simp [connections, hl]
  refine ⟨fun p => ?_, fun p l hl => ?_, fun p c o i ha => ?_, fun p c ep ha => ?_,
    fun p l hl request => ⟨?_, ?_⟩⟩
  · rw [← run_table h p, FileGet.table, ne_eq, List.map_eq_nil_iff, connections_eq_nil hm.wf,
      AList.lookup_eq_none, not_not]
  · have hids := hm.wf.ids p
    rw [hlookup hl] at hids
    refine ⟨hm.wf.nonempty p l hl, ?_, hids⟩
    rw [← run_table h p, FileGet.table, hlookup hl]
  · simp only [System.Allowed, List.any_eq_true, Bool.and_eq_true, decide_eq_true_eq] at ha
    obtain ⟨l, hl, rfl, rfl⟩ := ha
    obtain ⟨conn, hconn, hid⟩ := hm.conn_of_link hl
    exact ⟨_, hid ▸ onConnectionClosed_spec hm.wf o i hconn⟩
  · simp only [System.Allowed, List.any_eq_true, Bool.and_eq_true, decide_eq_true_eq] at ha
    obtain ⟨l, hl, rfl, rfl⟩ := ha
    obtain ⟨conn, hconn, hid⟩ := hm.conn_of_link hl
    exact ⟨_, hid ▸ onAddressChange_spec hm.wf ep hconn⟩
  · exact Nat.mod_lt _ (List.length_pos_iff.mpr (hm.wf.nonempty p l hl))
  · rcases trySendRequest_spec hm.wf (p := p) request with ⟨-, hs⟩ | ⟨conn, -, fg, hs, -⟩
    · exact ⟨_, hs⟩
    · exact ⟨_, hs⟩

/-- A run with two connections to one peer, the first of which closes and
the second of which changes its address. -/
theorem connectionTable_mirrors_swarm_roamed : ∃ tr s,
    (fileGetSystem ⟨10⟩ true).Run tr s ∧
    swarmTable ⟨7⟩ tr = [(⟨2⟩, some ⟨"/ip4/10.0.0.9"⟩)] ∧
    (⟨7⟩ : PeerId) ∈ s.fileGet.connected := by
  obtain ⟨tr, s, hrun, htable⟩ := Machine.exists_run_of_labels (M := fileGetSystem ⟨10⟩ true)
    [.connectionEstablished ⟨7⟩ ⟨1⟩ (.listener ⟨"/ip4/10.0.0.1"⟩ ⟨"/ip4/10.0.0.2"⟩) false,
      .connectionEstablished ⟨7⟩ ⟨2⟩ (.dialer ⟨"/ip4/10.0.0.2"⟩) false,
      .connectionClosed ⟨7⟩ ⟨1⟩ (.stored _) (.stored _),
      .addressChange ⟨7⟩ ⟨2⟩ (.dialer ⟨"/ip4/10.0.0.9"⟩)]
    (fun tr _ => decide (swarmTable ⟨7⟩ tr = [(⟨2⟩, some ⟨"/ip4/10.0.0.9"⟩)]))
    (by decide) (by decide)
  have htable := of_decide_eq_true htable
  refine ⟨tr, s, hrun, htable, ((connectionTable_mirrors_swarm hrun).1 _).mpr ?_⟩
  rw [htable]
  exact List.cons_ne_nil _ _

end FileSharing
