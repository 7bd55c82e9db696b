/-
FileSharing.FileGet.InboundMoves — what a step can do to the inbound side
of a connection, said once.

The inbound side of a connection is its substreams, the futures of its
handler, the events the handler has queued and those it has emitted.
`InboundMoved` lists what the connection task can do to them, `LinkMoved`
adds the delivery of an event, a new substream and the application's use
of a response channel, and `LinkFrom` says where a connection after a step
comes from. The modules above split on these and on nothing else.
-/
import FileSharing.FileGet.SystemTheorems
import FileSharing.FileGet.HandlerTheorems

namespace FileSharing

open Lib FileGet

/-! ## The connection task -/

/-- The inbound request an event is about. -/
def FileGetHandlerEvent.inboundId? (e : FileGetHandlerEvent) : Option RequestId :=
  e.announces <|> e.concludes

theorem FileGetHandlerEvent.inboundId?_eq_none {e : FileGetHandlerEvent} :
    e.inboundId? = none ↔ e.announces = none ∧ e.concludes = none := by
  cases e <;> simp [inboundId?, announces, concludes]

/-- An event that ends a request announces none. -/
theorem FileGetHandlerEvent.announces_of_concludes {e : FileGetHandlerEvent} {r : RequestId}
    (h : e.concludes = some r) : e.announces = none := by
  cases e with
  | request r' m ch => cases h
  | _ => rfl

/-- The channel the application tells something, and what. -/
def Label.tells? : Label → Option (ChannelId × ResponseChannel)
  | .respond ch reader => some (ch, .sent reader)
  | .dropResponder ch => some (ch, .dropped)
  | _ => none

theorem Handler.onConnectionEvent_inbound (h : Handler) (event : ConnectionEvent) :
    (h.onConnectionEvent event).inbound = h.inbound := by
  cases event with
  | fullyNegotiatedInbound sent r => cases sent <;> rfl
  | fullyNegotiatedOutbound r => rfl
  | listenUpgradeError error r => cases error <;> rfl
  | dialUpgradeError error r => cases error <;> rfl
  | addressChange => rfl

/-- An allowed event of an upgrade has its upgrade on the connection. -/
theorem inbound_allowed {s : System} {c : ConnectionId} {ch : ChannelId} {event : InboundEvent}
    (h : s.Allowed (.inbound c ch event) = true) :
    ∃ l ∈ s.links, l.id = c ∧ l.panicked = none ∧ ∃ sub ∈ l.inbound, sub.channel = ch ∧
      l.inbound.find? (fun x => x.channel = ch) = some sub ∧
      System.InboundAllowed sub.phase event = true := by
  simp only [System.Allowed, System.liveLink] at h
  cases hl : s.link? c with
  | none => simp [hl] at h
  | some l =>
    obtain ⟨hmem, hid⟩ := Mirror.link?_of_some hl
    simp only [hl, Bool.and_eq_true, Link.isLive, Option.isNone_iff_eq_none] at h
    obtain ⟨⟨-, hpanic⟩, hsub⟩ := h
    cases hfind : l.inbound.find? (fun x => x.channel = ch) with
    | none => simp [hfind] at hsub
    | some sub =>
      simp only [hfind] at hsub
      exact ⟨l, hmem, hid, hpanic, sub, List.mem_of_find?_eq_some hfind,
        by simpa using List.find?_some hfind, hfind, hsub⟩

/-- The substreams with the phase of one of them changed. -/
def withPhase (ch : ChannelId) (phase : InboundPhase) (inbound : List InboundSubstream) :
    List InboundSubstream :=
  inbound.map fun x => if x.channel = ch then { x with phase := phase } else x

theorem mem_withPhase {ch : ChannelId} {phase : InboundPhase} {inbound : List InboundSubstream}
    {x : InboundSubstream} (h : x ∈ withPhase ch phase inbound) :
    ∃ y ∈ inbound, x.upgrade = y.upgrade ∧ x.info = y.info ∧ x.response = y.response := by
  obtain ⟨y, hy, rfl⟩ := List.mem_map.mp h
  refine ⟨y, hy, ?_⟩
  split <;> exact ⟨rfl, rfl, rfl⟩

theorem Link.mem_setResponse {l : Link} {ch : ChannelId} {response : ResponseChannel}
    {x : InboundSubstream} (h : x ∈ (Link.setResponse ch response l).inbound) :
    ∃ y ∈ l.inbound, x.upgrade = y.upgrade ∧ x.info = y.info ∧ x.phase = y.phase := by
  obtain ⟨y, hy, rfl⟩ := List.mem_map.mp h
  refine ⟨y, hy, ?_⟩
  split <;> exact ⟨rfl, rfl, rfl⟩

/-- How an upgrade ended, by the events the handler queued for it. -/
inductive Ending (a : Label) (c : ConnectionId) (sub : InboundSubstream) :
    List FileGetHandlerEvent → Prop where
  /-- Another protocol was picked, or a timer failed. -/
  | silent : Ending a c sub []
  /-- The upgrade returned `true`, which it does after copying. -/
  | sent (reader : FileReader) : sub.phase = .copying reader →
      Ending a c sub [.responseSent sub.info]
  /-- The copying failed. -/
  | failed (reader : FileReader) : sub.phase = .copying reader →
      Ending a c sub [.inboundUnsupportedProtocols sub.info]
  /-- The request had not been received yet. -/
  | unreceived (e : FileGetHandlerEvent) : sub.phase = .receiving → e.concludes = some sub.info →
      (∀ r, e ≠ .responseSent r) → Ending a c sub [e]
  /-- The substream timed out, in whatever phase. -/
  | timeout : a = .inbound c sub.channel (.fails .timeout) →
      Ending a c sub [.inboundTimeout sub.info]

theorem Ending.concludes {a : Label} {c : ConnectionId} {sub : InboundSubstream}
    {queued : List FileGetHandlerEvent} (h : Ending a c sub queued) :
    ∀ e ∈ queued, e.concludes = some sub.info := by
  intro e he
  cases h with
  | silent => cases he
  | sent reader _ | failed reader _ | timeout _ =>
    rw [List.mem_singleton.mp he]
    rfl
  | unreceived e' _ hc _ => rwa [List.mem_singleton.mp he]

/-- What the connection task and the swarm can do to the inbound side. -/
inductive InboundMoved (a : Label) (l l' : Link) : Prop where
  /-- The inbound side is not concerned. -/
  | aside (queued : List FileGetHandlerEvent) : l'.inbound = l.inbound →
      l'.handler.inbound = l.handler.inbound →
      l'.handler.pendingEvents = l.handler.pendingEvents ++ queued →
      (∀ e ∈ queued, e.inboundId? = none) → l'.events = l.events → InboundMoved a l l'
  /-- The handler emits its oldest event. -/
  | emitted (e : FileGetHandlerEvent) : l'.inbound = l.inbound →
      l'.handler.inbound = l.handler.inbound →
      l.handler.pendingEvents = e :: l'.handler.pendingEvents → l'.events = l.events ++ [e] →
      InboundMoved a l l'
  /-- The handler emits a request. -/
  | announced (ch : ChannelId) (r : RequestId) (m : FileGetMessage) : l'.inbound = l.inbound →
      ⟨ch, .received r m⟩ ∈ l.handler.inbound →
      l'.handler.inbound = l.handler.inbound.erase ⟨ch, .received r m⟩ →
      l'.handler.pendingEvents = l.handler.pendingEvents →
      l'.events = l.events ++ [.request r m ch] → InboundMoved a l l'
  /-- A poll without a result. -/
  | consumed : l'.inbound = l.inbound → Consumed l.handler.inbound l'.handler.inbound →
      l'.handler.pendingEvents = l.handler.pendingEvents → l'.events = l.events →
      InboundMoved a l l'
  /-- An upgrade has received its request and passes it on. -/
  | passed (sub : InboundSubstream) (m : FileGetMessage) : sub ∈ l.inbound →
      sub.phase = .receiving → l'.inbound = withPhase sub.channel .awaitingReader l.inbound →
      l'.handler = l.handler.requestSent sub.channel sub.upgrade.requestId m →
      l'.events = l.events → InboundMoved a l l'
  /-- An upgrade was given its reader and copies. -/
  | copies (sub : InboundSubstream) (reader : FileReader) : sub ∈ l.inbound →
      sub.phase = .awaitingReader → sub.response = .sent reader →
      l'.inbound = withPhase sub.channel (.copying reader) l.inbound →
      l'.handler = l.handler → l'.events = l.events → InboundMoved a l l'
  /-- An upgrade has ended. -/
  | ended (sub : InboundSubstream) (queued : List FileGetHandlerEvent) : sub ∈ l.inbound →
      l'.inbound = l.inbound.filter (fun x => x.channel ≠ sub.channel) →
      l'.handler.inbound = (if sub.phase = .receiving then l.handler.requestCanceled sub.channel
        else l.handler).inbound →
      l'.handler.pendingEvents = l.handler.pendingEvents ++ queued →
      Ending a l.id sub queued → l'.events = l.events → InboundMoved a l l'

/-! What is on the link after such a step, and where it comes from. -/

namespace InboundMoved

variable {a : Label} {l l' : Link}

theorem substream (h : InboundMoved a l l') {x : InboundSubstream} (hx : x ∈ l'.inbound) :
    ∃ y ∈ l.inbound, x.upgrade = y.upgrade ∧ x.info = y.info ∧ x.response = y.response := by
  have hsame : l'.inbound = l.inbound →
      ∃ y ∈ l.inbound, x.upgrade = y.upgrade ∧ x.info = y.info ∧ x.response = y.response :=
    fun heq => ⟨x, heq ▸ hx, rfl, rfl, rfl⟩
  cases h with
  | aside queued hin _ _ _ _ => exact hsame hin
  | emitted e hin _ _ _ => exact hsame hin
  | announced ch r m hin _ _ _ _ => exact hsame hin
  | consumed hin _ _ _ => exact hsame hin
  | passed sub m _ _ hin _ _ => exact mem_withPhase (hin ▸ hx)
  | copies sub reader _ _ _ hin _ _ => exact mem_withPhase (hin ▸ hx)
  | ended sub queued _ hin _ _ _ _ =>
    rw [hin] at hx
    exact ⟨x, List.mem_of_mem_filter hx, rfl, rfl, rfl⟩

/-- A future keeps its state, is cancelled, or is given the request of its
substream. -/
theorem future (h : InboundMoved a l l') {f : InboundFuture} (hf : f ∈ l'.handler.inbound) :
    ∃ g ∈ l.handler.inbound, f.channel = g.channel ∧
      (f.state = g.state ∨ f.state = .canceled ∨ ∃ sub ∈ l.inbound, ∃ m,
        sub.phase = .receiving ∧ sub.channel = g.channel ∧
          f.state = .received sub.upgrade.requestId m) := by
  have hold : f ∈ l.handler.inbound → ∃ g ∈ l.handler.inbound, f.channel = g.channel ∧
      (f.state = g.state ∨ f.state = .canceled ∨ ∃ sub ∈ l.inbound, ∃ m,
        sub.phase = .receiving ∧ sub.channel = g.channel ∧
          f.state = .received sub.upgrade.requestId m) :=
    fun hf => ⟨f, hf, rfl, Or.inl rfl⟩
  cases h with
  | aside queued _ hfut _ _ _ => exact hold (hfut ▸ hf)
  | emitted e _ hfut _ _ => exact hold (hfut ▸ hf)
  | announced ch r m _ _ hfut _ _ => exact hold (List.mem_of_mem_erase (hfut ▸ hf))
  | consumed _ hc _ _ => exact hold (hc.sublist.mem hf)
  | passed sub m hsub hphase _ hhandler _ =>
    rw [hhandler] at hf
    obtain ⟨g, hg, rfl⟩ := List.mem_map.mp hf
    refine ⟨g, hg, ?_⟩
    split
    · rename_i heq
      exact ⟨rfl, Or.inr (Or.inr ⟨sub, hsub, m, hphase, heq.symm, rfl⟩)⟩
    · exact ⟨rfl, Or.inl rfl⟩
  | copies sub reader _ _ _ _ hhandler _ => exact hold (hhandler ▸ hf)
  | ended sub queued _ _ hfut _ _ _ =>
    rw [hfut] at hf
    split at hf
    · obtain ⟨g, hg, rfl⟩ := List.mem_map.mp hf
      refine ⟨g, hg, ?_⟩
      split
      · exact ⟨rfl, Or.inr (Or.inl rfl)⟩
      · exact ⟨rfl, Or.inl rfl⟩
    · exact hold hf

/-- The events a handler queues are about our requests, or end an upgrade. -/
theorem pending (h : InboundMoved a l l') {e : FileGetHandlerEvent}
    (he : e ∈ l'.handler.pendingEvents) :
    e ∈ l.handler.pendingEvents ∨ e.inboundId? = none ∨
      ∃ sub ∈ l.inbound, ∃ queued, Ending a l.id sub queued ∧ e ∈ queued := by
  cases h with
  | aside queued _ _ hpend hq _ =>
    rw [hpend] at he
    rcases List.mem_append.mp he with he | he
    · exact Or.inl he
    · exact Or.inr (Or.inl (hq e he))
  | emitted x _ _ hpend _ => exact Or.inl (hpend ▸ List.mem_cons_of_mem _ he)
  | announced ch r m _ _ _ hpend _ => exact Or.inl (hpend ▸ he)
  | consumed _ _ hpend _ => exact Or.inl (hpend ▸ he)
  | passed sub m _ _ _ hhandler _ =>
    rw [hhandler] at he
    exact Or.inl he
  | copies sub reader _ _ _ _ hhandler _ => exact Or.inl (hhandler ▸ he)
  | ended sub queued hsub _ _ hpend hend _ =>
    rw [hpend] at he
    rcases List.mem_append.mp he with he | he
    · exact Or.inl he
    · exact Or.inr (Or.inr ⟨sub, hsub, queued, hend, he⟩)

/-- What a handler emits it had queued, or it is a request it received. -/
theorem event (h : InboundMoved a l l') {e : FileGetHandlerEvent} (he : e ∈ l'.events) :
    e ∈ l.events ∨ e ∈ l.handler.pendingEvents ∨
      ∃ ch r m, e = .request r m ch ∧ ⟨ch, .received r m⟩ ∈ l.handler.inbound := by
  cases h with
  | aside queued _ _ _ _ hev => exact Or.inl (hev ▸ he)
  | emitted x _ _ hpend hev =>
    rw [hev] at he
    rcases List.mem_append.mp he with he | he
    · exact Or.inl he
    · rw [List.mem_singleton.mp he, hpend]
      exact Or.inr (Or.inl List.mem_cons_self)
  | announced ch r m _ hmem _ _ hev =>
    rw [hev] at he
    rcases List.mem_append.mp he with he | he
    · exact Or.inl he
    · exact Or.inr (Or.inr ⟨ch, r, m, List.mem_singleton.mp he, hmem⟩)
  | consumed _ _ _ hev => exact Or.inl (hev ▸ he)
  | passed sub m _ _ _ _ hev => exact Or.inl (hev ▸ he)
  | copies sub reader _ _ _ _ _ hev => exact Or.inl (hev ▸ he)
  | ended sub queued _ _ _ _ _ hev => exact Or.inl (hev ▸ he)

end InboundMoved

namespace Link

variable {a : Label} {l : Link}

theorem moved_deliverCommand : InboundMoved a l (deliverCommand l) := by
  unfold deliverCommand
  split <;> exact .aside [] rfl rfl (by simp [Handler.onBehaviourEvent]) (by simp) rfl

theorem moved_pollHandler (now : Instant) (pick : Nat) :
    InboundMoved a l (pollHandler now pick l) := by
  have hp := l.handler.polled now pick
  unfold pollHandler
  generalize l.handler.poll now pick = result at hp
  cases hp with
  | close error _ => exact .aside [] rfl rfl (List.append_nil _).symm (by simp) rfl
  | event e rest hev => exact .emitted e rfl rfl hev rfl
  | outbound request rest _ => exact .aside [] rfl rfl (List.append_nil _).symm (by simp) rfl
  | request ch r m hmem => exact .announced ch r m rfl hmem rfl rfl rfl
  | pending inbound keepAlive _ _ _ hc _ => exact .consumed rfl hc rfl rfl

theorem moved_endOutbound (i : Nat) (result : Except ConnectionHandlerUpgrErr Unit) :
    InboundMoved a l (endOutbound i result l) := by
  unfold endOutbound
  split
  · exact .aside [] rfl rfl (List.append_nil _).symm (by simp) rfl
  · rename_i sub _
    cases result with
    | ok _ => exact .aside [.response sub.info] rfl rfl rfl (by simp; rfl) rfl
    | error err =>
      cases err with
      | timeout => exact .aside [.outboundTimeout sub.info] rfl rfl rfl (by simp; rfl) rfl
      | upgrade e =>
        exact .aside [.outboundUnsupportedProtocols sub.info] rfl rfl rfl (by simp; rfl) rfl
      | timer => exact .aside [] rfl rfl (List.append_nil _).symm (by simp) rfl

/-- An upgrade ends with an event for the handler. -/
theorem moved_endInbound {sub : InboundSubstream} (hsub : sub ∈ l.inbound)
    {event : ConnectionEvent} {queued : List FileGetHandlerEvent}
    (hqueued : ((l.dropInbound sub).handler.onConnectionEvent event).pendingEvents =
      (l.dropInbound sub).handler.pendingEvents ++ queued) (hend : Ending a l.id sub queued) :
    InboundMoved a l (l.endInbound sub event) := by
  refine .ended sub queued hsub rfl ?_ (hqueued.trans ?_) hend rfl
  · exact Handler.onConnectionEvent_inbound _ event
  · unfold dropInbound
    split <;> rfl

/-- What an event of an upgrade does. -/
theorem moved_inboundEvent {ch : ChannelId} {event : InboundEvent} {sub : InboundSubstream}
    (hfind : l.inbound.find? (fun x => x.channel = ch) = some sub)
    (hallowed : System.InboundAllowed sub.phase event = true) :
    InboundMoved (.inbound l.id ch event) l (inboundEvent ch event l) := by
  have hsub := List.mem_of_find?_eq_some hfind
  have hch : sub.channel = ch := by simpa using List.find?_some hfind
  simp only [inboundEvent, hfind]
  cases event with
  | received result =>
    have hphase : sub.phase = .receiving := by simpa [System.InboundAllowed] using hallowed
    simp only [resumeInbound, hphase]
    cases result with
    | ok m => exact .passed sub m hsub hphase rfl rfl rfl
    | error e => exact moved_endInbound hsub rfl (.unreceived _ hphase rfl (by simp))
  | pollReader =>
    have hphase : sub.phase = .awaitingReader := by simpa [System.InboundAllowed] using hallowed
    cases hresponse : sub.response with
    | empty => exact .aside [] rfl rfl (List.append_nil _).symm (by simp) rfl
    | sent reader =>
      simp only [resumeInbound, hphase]
      exact .copies sub reader hsub hphase hresponse rfl rfl rfl
    | dropped =>
      simp only [resumeInbound, hphase]
      exact .aside [] rfl rfl (List.append_nil _).symm (by simp) rfl
  | copied result =>
    cases hphase : sub.phase with
    | receiving | awaitingReader => simp [System.InboundAllowed, hphase] at hallowed
    | copying reader =>
      simp only [resumeInbound, hphase]
      cases result with
      | ok u => exact moved_endInbound hsub rfl (.sent reader hphase)
      | error e => exact moved_endInbound hsub rfl (.failed reader hphase)
  | fails error =>
    cases error with
    | timeout => exact moved_endInbound hsub rfl (.timeout (by rw [hch]))
    | timer => exact moved_endInbound hsub (List.append_nil _).symm .silent
    | upgrade e =>
      cases e with
      | select e =>
        have hphase : sub.phase = .receiving := by simpa [System.InboundAllowed] using hallowed
        exact moved_endInbound hsub rfl (.unreceived _ hphase rfl (by simp))
      | apply e => simp [System.InboundAllowed] at hallowed
  | otherProtocol =>
    refine .ended sub [] hsub rfl rfl ?_ .silent rfl
    dsimp only [dropInbound]
    split <;> exact (List.append_nil _).symm

end Link

/-! ## The connections -/

/-- The connection whose task takes the step. -/
def Label.task? : Label → Option ConnectionId
  | .deliverEvent c => some c
  | .deliverCommand c => some c
  | .pollHandler c _ _ => some c
  | .openInbound c => some c
  | .inbound c _ _ => some c
  | .endOutbound c _ _ => some c
  | _ => none

theorem LinkStep.task? {a : Label} {c : ConnectionId} {f : Link → Link} (h : LinkStep a c f) :
    a.task? = some c := by
  cases h <;> rfl

/-- What a step can do to one connection. -/
inductive LinkStepped (s : System) (a : Label) (l : Link) : Link → Prop where
  /-- The step is none of its own. -/
  | aside : a.task? ≠ some l.id → a.tells? = none → LinkStepped s a l l
  | readdressed (p : PeerId) (ep : ConnectedPoint) : a = .addressChange p l.id ep →
      LinkStepped s a l (l.setEndpoint ep)
  | commanded (request : FileGetOutboundProtocol) : a = .pollBehaviour →
      LinkStepped s a l (l.addCommand request)
  /-- The oldest event reaches the behaviour. -/
  | delivered (e : FileGetHandlerEvent) (rest : List FileGetHandlerEvent) :
      a = .deliverEvent l.id → l.events = e :: rest → LinkStepped s a l l.dropEvent
  | task (f : Link → Link) : LinkStep a l.id f → LinkStepped s a l (f l)
  | opened : a = .openInbound l.id →
      LinkStepped s a l (l.openInbound s.fileGet.inboundIdGenerator ⟨s.nextChannel⟩).1
  | told (ch : ChannelId) (response : ResponseChannel) : a.tells? = some (ch, response) →
      LinkStepped s a l (Link.setResponse ch response l)

theorem LinkStepped.keeps {s : System} {a : Label} {l l' : Link} (h : LinkStepped s a l l') :
    l'.id = l.id ∧ l'.peer = l.peer := by
  cases h with
  | task f hf => exact ⟨(hf.keeps l).1, (hf.keeps l).2.1⟩
  | aside _ _ | readdressed _ _ _ | commanded _ _ | delivered _ _ _ _ | opened _ | told _ _ _ =>
    exact ⟨rfl, rfl⟩

/-- What a step can do to the connections. -/
inductive LinksStepped (s s' : System) (a : Label) : Prop where
  | each (g : Link → Link) : (∀ l ∈ s.links, LinkStepped s a l (g l)) →
      s'.links = s.links.map g → LinksStepped s s' a
  | established (p : PeerId) (c : ConnectionId) (ep : ConnectedPoint) (resolves : Bool)
      (timeout : Duration) : a = .connectionEstablished p c ep resolves →
      s'.links = s.links ++ [Link.new c p ep (.new timeout)] → LinksStepped s s' a
  | closed (p : PeerId) (c : ConnectionId) (o i : IterOrder RequestId) :
      a = .connectionClosed p c o i → s'.links = s.links.filter (fun l => l.id ≠ c) →
      LinksStepped s s' a

/-- **Inversion**: what a step does to the connections. -/
theorem stepped_linksStepped {s s' : System} {a : Label} (hm : Mirror s) (h : Stepped s a s') :
    LinksStepped s s' a := by
  -- all links stay, or all but one
  have hself : a.task? = none → a.tells? = none → s'.links = s.links →
      LinksStepped s s' a := by
    intro htask htells hlinks
    refine .each (fun l => l) (fun l _ => .aside (by simp [htask]) htells) ?_
    rw [hlinks, List.map_id']
  have hone : ∀ (c : ConnectionId) (f : Link → Link),
      (∀ l ∈ s.links, l.id = c → LinkStepped s a l (f l)) →
      (∀ d, a.task? = some d → d = c) → a.tells? = none →
      s'.links = s.links.map (fun l => if l.id = c then f l else l) → LinksStepped s s' a := by
    intro c f hf htask htells hlinks
    refine .each _ (fun l hl => ?_) hlinks
    split
    · rename_i hid
      exact hf l hl hid
    · rename_i hid
      exact .aside (fun heq => hid (htask l.id heq)) htells
  cases h with
  | buffered p m w _ => exact hself rfl rfl rfl
  | dispatched p m w l fg _ _ _ => exact hself rfl rfl rfl
  | established p c ep resolves _ _ _ => exact .established p c ep resolves _ rfl rfl
  | drained p c ep resolves pending fg _ _ _ _ _ _ =>
    exact .established p c ep resolves _ rfl rfl
  | closed l o i conn _ _ _ => exact .closed l.peer l.id o i rfl rfl
  | addressChange l ep _ =>
    refine hone l.id (Link.setEndpoint ep) (fun k _ hid => ?_) (fun _ h => by cases h) rfl rfl
    exact .readdressed l.peer ep (by rw [hid])
  | dialFailed peer resolves _ => exact hself rfl rfl rfl
  | dialDrained p resolves pending _ => exact hself rfl rfl rfl
  | swarmNotice event => exact hself rfl rfl rfl
  | pollIdle _ => exact hself rfl rfl rfl
  | pollReady action rest _ =>
    cases action with
    | dial p h => exact hself rfl rfl rfl
    | notifyHandler p c request =>
      exact hone c (Link.addCommand request) (fun _ _ _ => .commanded request rfl)
        (fun _ h => by cases h) rfl rfl
    | generateEvent e => cases e <;> exact hself rfl rfl rfl
  | deliverEvent l conn e rest hl he _ _ =>
    refine hone l.id Link.dropEvent (fun k hk hid => ?_) (fun _ h => (Option.some.inj h).symm)
      rfl rfl
    obtain rfl := List.inj_on_of_nodup_map hm.ids hk hl hid
    exact .delivered e rest rfl he
  | link a c f hf =>
    refine hone c f (fun l _ hid => ?_) (fun d h => ?_) ?_ rfl
    · subst hid
      exact .task f hf
    · exact Option.some.inj (h.symm.trans hf.task?)
    · cases hf <;> rfl
  | openInbound l _ =>
    refine hone l.id (fun l => (l.openInbound s.fileGet.inboundIdGenerator ⟨s.nextChannel⟩).1)
      (fun k _ hid => ?_) (fun _ h => (Option.some.inj h).symm) rfl rfl
    exact .opened (by rw [hid])
  | respond ch reader => exact .each _ (fun _ _ => .told ch _ rfl) rfl
  | dropResponder ch => exact .each _ (fun _ _ => .told ch _ rfl) rfl

/-! ## The whole system -/

/-- What a step can do to the inbound side of a connection. -/
inductive LinkMoved (s : System) (a : Label) (l : Link) : Link → Prop where
  | moved (l' : Link) : a ≠ .deliverEvent l.id → InboundMoved a l l' → LinkMoved s a l l'
  /-- The oldest event reaches the behaviour. -/
  | delivered (e : FileGetHandlerEvent) (rest : List FileGetHandlerEvent) :
      a = .deliverEvent l.id → l.events = e :: rest → LinkMoved s a l l.dropEvent
  | opened : a = .openInbound l.id →
      LinkMoved s a l (l.openInbound s.fileGet.inboundIdGenerator ⟨s.nextChannel⟩).1
  | told (ch : ChannelId) (response : ResponseChannel) : a.tells? = some (ch, response) →
      LinkMoved s a l (Link.setResponse ch response l)

/-- Where a connection after a step comes from. -/
inductive LinkFrom (s : System) (a : Label) (l' : Link) : Prop where
  | old (l : Link) : l ∈ s.links → l'.id = l.id → l'.peer = l.peer → LinkMoved s a l l' →
      LinkFrom s a l'
  /-- It is new, and nothing has happened on it. -/
  | new : l'.inbound = [] → l'.handler.inbound = [] → l'.handler.pendingEvents = [] →
      l'.events = [] → LinkFrom s a l'

/-- A link that a function which leaves the inbound side alone was run on. -/
theorem LinkMoved.refl (s : System) {a : Label} {l : Link} (h : a ≠ .deliverEvent l.id) :
    LinkMoved s a l l :=
  .moved l h (.aside [] rfl rfl (List.append_nil _).symm (by simp) rfl)

theorem LinkStep.moved {s : System} (hm : Mirror s) {a : Label} {c : ConnectionId}
    {f : Link → Link} (h : LinkStep a c f) (hallowed : s.Allowed a = true) {l : Link}
    (hl : l ∈ s.links) (hid : l.id = c) : InboundMoved a l (f l) := by
  cases h with
  | deliverCommand => exact Link.moved_deliverCommand
  | pollHandler c now pick => exact Link.moved_pollHandler now pick
  | inbound c ch event =>
    obtain ⟨k, hk, hkid, -, sub, -, -, hfind, hphase⟩ := inbound_allowed hallowed
    obtain rfl := List.inj_on_of_nodup_map hm.ids hk hl (hkid.trans hid.symm)
    exact hid ▸ Link.moved_inboundEvent hfind hphase
  | endOutbound c i result => exact Link.moved_endOutbound i result

/-- One connection after a step, from its inbound side. -/
theorem LinkStepped.moved {s : System} {a : Label} {l l' : Link} (h : LinkStepped s a l l')
    (hm : Mirror s) (hallowed : s.Allowed a = true) (hl : l ∈ s.links) : LinkMoved s a l l' := by
  cases h with
  | aside htask _ => exact .refl s fun heq => htask (by rw [heq]; rfl)
  | readdressed p ep ha =>
    exact .moved _ (by simp [ha]) (.aside [] rfl rfl (List.append_nil _).symm (by simp) rfl)
  | commanded request ha =>
    exact .moved _ (by simp [ha]) (.aside [] rfl rfl (List.append_nil _).symm (by simp) rfl)
  | delivered e rest ha he => exact .delivered e rest ha he
  | task f hf =>
    have hd : a ≠ .deliverEvent l.id := by cases hf <;> simp
    exact .moved _ hd (hf.moved hm hallowed hl rfl)
  | opened ha => exact .opened ha
  | told ch response ha => exact .told ch response ha

/-- **Inversion**: where the connections after a step come from. -/
theorem stepped_linkFrom {s s' : System} {a : Label} (hm : Mirror s)
    (hallowed : s.Allowed a = true) (h : Stepped s a s') {l' : Link} (hl' : l' ∈ s'.links) :
    LinkFrom s a l' := by
  cases stepped_linksStepped hm h with
  | each g hg hlinks =>
    rw [hlinks] at hl'
    obtain ⟨l, hl, rfl⟩ := List.mem_map.mp hl'
    exact .old l hl (hg l hl).keeps.1 (hg l hl).keeps.2 ((hg l hl).moved hm hallowed hl)
  | established p c ep resolves timeout ha hlinks =>
    rw [hlinks] at hl'
    rcases List.mem_append.mp hl' with hl' | hl'
    · exact .old l' hl' rfl rfl (.refl s (by simp [ha]))
    · rw [List.mem_singleton.mp hl']
      exact .new rfl rfl rfl rfl
  | closed p c o i ha hlinks =>
    rw [hlinks] at hl'
    exact .old l' (List.mem_of_mem_filter hl') rfl rfl (.refl s (by simp [ha]))

end FileSharing
