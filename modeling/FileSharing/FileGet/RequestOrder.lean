/-
FileSharing.FileGet.RequestOrder — in which order requests go out, and that
each goes out once.

The handler of a connection turns requests into substreams one by one. What
it has turned so far, what waits in the handler, in the commands of the
connection and in the behaviour's queue form one LINE: a step moves
requests from one part of it to the next and appends at its end, and
nothing else (`LineFrom`). A request that is appended is newer than every
request made before, and the buffer that becomes the line of a new
connection is in order itself; so every line is.

`Routed` is the same for all connections together: what was handed to
connections, what is queued for them and what waits in a dial buffer are
different requests.
-/
import FileSharing.FileGet.Pipeline

namespace FileSharing

open Lib FileGet

/-! ## What goes out -/

/-- The request a poll of a handler asks a substream for. -/
def ConnectionHandlerEvent.protocol? : ConnectionHandlerEvent → Option FileGetOutboundProtocol
  | .outboundSubstreamRequest protocol _ _ => some protocol
  | _ => none

/-- The request the step turned into an `OutboundSubstreamRequest` of
connection `c`. -/
def substreamRequest (c : ConnectionId) (t : Transition System Label) :
    Option FileGetOutboundProtocol :=
  match t.label with
  | .pollHandler d now pick =>
    if d = c then
      (t.pre.link? c).bind fun l => (l.handler.poll now pick).2.bind (·.protocol?)
    else none
  | _ => none

/-- The requests connection `c` asked substreams for, the oldest first. -/
def substreamRequests (c : ConnectionId) (tr : Trace System Label) :
    List FileGetOutboundProtocol :=
  (tr.filterMap (substreamRequest c)).reverse

/-- The connection and the request of a notification. -/
def NetworkBehaviourAction.notification? :
    NetworkBehaviourAction → Option (ConnectionId × FileGetOutboundProtocol)
  | .notifyHandler _ c request => some (c, request)
  | _ => none

/-- The request the step handed to a connection: a `NotifyHandler` that
`poll` returned. -/
def handed (t : Transition System Label) : Option (ConnectionId × FileGetOutboundProtocol) :=
  match t.label with
  | .pollBehaviour => t.pre.fileGet.poll.2.bind (·.notification?)
  | _ => none

/-- The requests handed to connections, the oldest first. -/
def handedOver (tr : Trace System Label) : List (ConnectionId × FileGetOutboundProtocol) :=
  (tr.filterMap handed).reverse

/-- `send_request` was called for the peer with this file name and this
writer, and returned this id. -/
def Requested (tr : Trace System Label) (p : PeerId) (request : FileGetOutboundProtocol) : Prop :=
  ∃ t ∈ tr, t.label = .sendRequest p ⟨request.fileName⟩ request.fileWriter ∧
    returned t = some (p, request.requestId)

/-- Connection `c` was established, to peer `p`. -/
def Established (tr : Trace System Label) (p : PeerId) (c : ConnectionId) : Prop :=
  ∃ t ∈ tr, ∃ ep resolves, t.label = .connectionEstablished p c ep resolves

/-- The order of ids. -/
def Before (a b : FileGetOutboundProtocol) : Prop := a.requestId.val < b.requestId.val

theorem substreamRequests_cons (c : ConnectionId) (t : Transition System Label)
    (tr : Trace System Label) :
    substreamRequests c (t :: tr) = substreamRequests c tr ++ (substreamRequest c t).toList := by
  unfold substreamRequests
  rw [List.filterMap_cons]
  cases substreamRequest c t <;> simp

theorem handedOver_cons (t : Transition System Label) (tr : Trace System Label) :
    handedOver (t :: tr) = handedOver tr ++ (handed t).toList := by
  unfold handedOver
  rw [List.filterMap_cons]
  cases handed t <;> simp

theorem Requested.cons {tr : Trace System Label} {p : PeerId} {request : FileGetOutboundProtocol}
    (h : Requested tr p request) (t : Transition System Label) : Requested (t :: tr) p request := by
  obtain ⟨u, hu, hlabel, hret⟩ := h
  exact ⟨u, List.mem_cons_of_mem _ hu, hlabel, hret⟩

theorem Established.cons {tr : Trace System Label} {p : PeerId} {c : ConnectionId}
    (h : Established tr p c) (t : Transition System Label) : Established (t :: tr) p c := by
  obtain ⟨u, hu, hlabel⟩ := h
  exact ⟨u, List.mem_cons_of_mem _ hu, hlabel⟩

/-- The request `send_request` makes is the one it is asked for. -/
theorem requested_new {t : Transition System Label} (hm : Mirror t.pre) {p : PeerId}
    {m : FileGetMessage} {w : FileWriter} (hlabel : t.label = .sendRequest p m w)
    (tr : Trace System Label) : Requested (t :: tr) p (t.pre.fileGet.newRequest m w) :=
  ⟨t, List.mem_cons_self, hlabel, (returned_eq_some hm).mpr ⟨m, w, hlabel, rfl⟩⟩

/-- Only `pollHandler` asks for substreams. -/
theorem substreamRequest_none {c : ConnectionId} {t : Transition System Label}
    (h : ∀ d now pick, t.label ≠ .pollHandler d now pick) : substreamRequest c t = none := by
  unfold substreamRequest
  split
  · rename_i d now pick hlabel
    exact absurd hlabel (h d now pick)
  · rfl

/-- Only a poll of the behaviour hands requests out. -/
theorem handed_none {t : Transition System Label} (h : t.label ≠ .pollBehaviour) :
    handed t = none := by
  unfold handed
  split
  · rename_i hlabel
    exact absurd hlabel h
  · rfl

/-! ## Lines -/

/-- The requests that wait for a substream of a connection, the oldest
first. -/
def System.line (s : System) (l : Link) : List FileGetOutboundProtocol :=
  l.handler.outbound ++ l.commands ++ s.fileGet.notified l.id

/-- What a step does to the line of a connection. -/
inductive LineFrom (t : Transition System Label) (l' : Link) : Prop where
  /-- Requests move along; the oldest may have gone out. -/
  | kept (l : Link) : l ∈ t.pre.links → l'.id = l.id → l'.peer = l.peer →
      (substreamRequest l.id t).toList ++ t.post.line l' = t.pre.line l → LineFrom t l'
  /-- A new request enters at the end. -/
  | sent (l : Link) (m : FileGetMessage) (w : FileWriter) :
      l ∈ t.pre.links → l'.id = l.id → l'.peer = l.peer → t.label = .sendRequest l.peer m w →
      t.post.line l' = t.pre.line l ++ [t.pre.fileGet.newRequest m w] → LineFrom t l'
  /-- The line of a new connection is empty, or it is the buffer. -/
  | new (ep : ConnectedPoint) (resolves : Bool) (pending : List FileGetOutboundProtocol) :
      t.label = .connectionEstablished l'.peer l'.id ep resolves → l'.id ∉ t.pre.usedIds →
      (pending = [] ∨ pending = t.pre.fileGet.buffer l'.peer) →
      t.post.line l' = t.pre.fileGet.notified l'.id ++ pending → LineFrom t l'

namespace Link

theorem deliverCommand_line (l : Link) :
    (deliverCommand l).handler.outbound ++ (deliverCommand l).commands =
      l.handler.outbound ++ l.commands := by
  unfold deliverCommand
  split
  · rfl
  · rename_i request rest h
    simp [Handler.onBehaviourEvent, h]

theorem pollHandler_line (l : Link) (now : Instant) (pick : Nat) :
    ((l.handler.poll now pick).2.bind (·.protocol?)).toList ++
        ((pollHandler now pick l).handler.outbound ++ (pollHandler now pick l).commands) =
      l.handler.outbound ++ l.commands := by
  have hp := l.handler.polled now pick
  unfold pollHandler
  generalize l.handler.poll now pick = result at hp
  cases hp with
  | close error _ => rfl
  | event e rest hev => rfl
  | outbound request rest hout => simp [ConnectionHandlerEvent.protocol?, hout]
  | request channel requestId message _ => rfl
  | pending inbound keepAlive _ _ _ _ _ => rfl

theorem endOutbound_line (l : Link) (i : Nat) (result : Except ConnectionHandlerUpgrErr Unit) :
    (endOutbound i result l).handler.outbound = l.handler.outbound ∧
      (endOutbound i result l).commands = l.commands := by
  unfold endOutbound
  split
  · exact ⟨rfl, rfl⟩
  · cases result with
    | ok _ => exact ⟨rfl, rfl⟩
    | error err => cases err <;> exact ⟨rfl, rfl⟩

theorem endInbound_line (l : Link) (sub : InboundSubstream) (event : ConnectionEvent) :
    (l.endInbound sub event).handler.outbound = l.handler.outbound ∧
      (l.endInbound sub event).commands = l.commands := by
  have hdrop : (l.dropInbound sub).handler.outbound = l.handler.outbound := by
    unfold dropInbound
    split <;> rfl
  refine ⟨?_, rfl⟩
  rw [← hdrop]
  unfold endInbound
  cases event with
  | fullyNegotiatedInbound sent r => cases sent <;> rfl
  | fullyNegotiatedOutbound r => rfl
  | listenUpgradeError error r => cases error <;> rfl
  | dialUpgradeError error r => cases error <;> rfl
  | addressChange => rfl

theorem resumeInbound_line (l : Link) (sub : InboundSubstream) (wake : InboundWake) :
    (l.resumeInbound sub wake).handler.outbound = l.handler.outbound ∧
      (l.resumeInbound sub wake).commands = l.commands := by
  unfold resumeInbound
  split
  · split <;> exact ⟨rfl, rfl⟩
  · exact endInbound_line l sub _
  · exact endInbound_line l sub _
  · exact ⟨rfl, rfl⟩

theorem inboundEvent_line (l : Link) (ch : ChannelId) (event : InboundEvent) :
    (inboundEvent ch event l).handler.outbound = l.handler.outbound ∧
      (inboundEvent ch event l).commands = l.commands := by
  unfold inboundEvent
  split
  · exact ⟨rfl, rfl⟩
  · rename_i sub _
    cases event with
    | received result => exact resumeInbound_line l sub _
    | pollReader =>
      dsimp only
      split
      · exact ⟨rfl, rfl⟩
      · exact resumeInbound_line l sub _
      · exact resumeInbound_line l sub _
    | copied result => exact resumeInbound_line l sub _
    | fails error => exact endInbound_line l sub _
    | otherProtocol =>
      refine ⟨?_, rfl⟩
      show (dropInbound sub l).handler.outbound = _
      unfold dropInbound
      split <;> rfl

end Link

/-- A step of the connection task moves the line along. -/
theorem LinkStep.line {s s' : System} {a : Label} {c : ConnectionId} {f : Link → Link}
    (h : LinkStep a c f) (hm : Mirror s) {l : Link} (hl : l ∈ s.links) (hid : l.id = c) :
    (substreamRequest l.id ⟨s, a, s'⟩).toList ++ ((f l).handler.outbound ++ (f l).commands) =
      l.handler.outbound ++ l.commands := by
  cases h with
  | deliverCommand c =>
    rw [substreamRequest_none (by simp)]
    exact Link.deliverCommand_line l
  | pollHandler c now pick =>
    have hlink := hm.link?_eq hl
    simp only [substreamRequest, hid, if_true]
    rw [← hid, hlink]
    exact Link.pollHandler_line l now pick
  | inbound c ch event =>
    obtain ⟨hout, hcommands⟩ := Link.inboundEvent_line l ch event
    rw [substreamRequest_none (by simp), hout, hcommands]
    rfl
  | endOutbound c i result =>
    obtain ⟨hout, hcommands⟩ := Link.endOutbound_line l i result
    rw [substreamRequest_none (by simp), hout, hcommands]
    rfl

/-- The step asks for no substream of a connection it is not about. -/
theorem LinkStep.substreamRequest_ne {s s' : System} {a : Label} {c d : ConnectionId}
    {f : Link → Link} (h : LinkStep a c f) (hne : d ≠ c) :
    substreamRequest d ⟨s, a, s'⟩ = none := by
  cases h with
  | pollHandler c now pick => simp [substreamRequest, Ne.symm hne]
  | deliverCommand c => exact substreamRequest_none (by simp)
  | inbound c ch event => exact substreamRequest_none (by simp)
  | endOutbound c i result => exact substreamRequest_none (by simp)

/-- A step that changes each link by itself and asks for no substream. -/
theorem lineFrom_of_map {s s' : System} {a : Label} {g : Link → Link}
    (ha : ∀ d now pick, a ≠ .pollHandler d now pick) (hlinks : s'.links = s.links.map g)
    (hg : ∀ l, (g l).id = l.id ∧ (g l).peer = l.peer)
    (hline : ∀ l ∈ s.links, s'.line (g l) = s.line l) {l' : Link} (hl' : l' ∈ s'.links) :
    LineFrom ⟨s, a, s'⟩ l' := by
  rw [hlinks] at hl'
  obtain ⟨l, hl, rfl⟩ := List.mem_map.mp hl'
  refine .kept l hl (hg l).1 (hg l).2 ?_
  rw [substreamRequest_none ha]
  exact hline l hl

/-- A step that leaves the links and what is queued for them. -/
theorem lineFrom_of_same {s s' : System} {a : Label}
    (ha : ∀ d now pick, a ≠ .pollHandler d now pick) (hlinks : s'.links = s.links)
    (hnot : ∀ c, s'.fileGet.notified c = s.fileGet.notified c) {l' : Link}
    (hl' : l' ∈ s'.links) : LineFrom ⟨s, a, s'⟩ l' := by
  refine lineFrom_of_map (g := id) ha ?_ (fun _ => ⟨rfl, rfl⟩) (fun l _ => ?_) hl'
  · rw [hlinks, List.map_id]
  · unfold System.line
    rw [hnot]
    rfl

/-- A new connection, and what is queued for it. -/
theorem lineFrom_of_establish {s : System} (hm : Mirror s) {p : PeerId} {c : ConnectionId}
    {ep : ConnectedPoint} {resolves : Bool} {fg : FileGet} {pending : List FileGetOutboundProtocol}
    (hfresh : c ∉ s.usedIds)
    (hnot : ∀ d, fg.notified d = s.fileGet.notified d ++ if c = d then pending else [])
    (hpending : pending = [] ∨ pending = s.fileGet.buffer p) {l' : Link}
    (hl' : l' ∈ (s.establish p c ep resolves fg).links) :
    LineFrom ⟨s, .connectionEstablished p c ep resolves, s.establish p c ep resolves fg⟩ l' := by
  rcases List.mem_append.mp hl' with hl' | hl'
  · have hne : c ≠ l'.id := fun h => hfresh (h ▸ hm.used l' hl')
    refine .kept l' hl' rfl rfl ?_
    rw [substreamRequest_none (by simp)]
    show [] ++ (l'.handler.outbound ++ l'.commands ++ fg.notified l'.id) = _
    rw [hnot, if_neg hne, List.append_nil]
    rfl
  · rw [List.mem_singleton.mp hl']
    refine .new ep resolves pending rfl hfresh hpending ?_
    show [] ++ [] ++ fg.notified c = _
    rw [hnot, if_pos rfl]
    rfl

/-- A new request, queued for a connection. -/
theorem lineFrom_of_dispatch {s : System} (hm : Mirror s) {l : Link} (hl : l ∈ s.links)
    {m : FileGetMessage} {w : FileWriter} {fg : FileGet}
    (hnot : ∀ c, fg.notified c =
      s.fileGet.notified c ++ if l.id = c then [s.fileGet.newRequest m w] else [])
    {l' : Link} (hl' : l' ∈ s.links) :
    LineFrom ⟨s, .sendRequest l.peer m w, { s with fileGet := fg }⟩ l' := by
  have hline : System.line { s with fileGet := fg } l' =
      s.line l' ++ if l.id = l'.id then [s.fileGet.newRequest m w] else [] := by
    unfold System.line
    show _ ++ fg.notified l'.id = _
    rw [hnot, ← List.append_assoc]
  by_cases hid : l.id = l'.id
  · obtain rfl : l = l' := List.inj_on_of_nodup_map hm.ids hl hl' hid
    refine .sent l m w hl rfl rfl rfl ?_
    rw [hline, if_pos rfl]
  · refine .kept l' hl' rfl rfl ?_
    rw [substreamRequest_none (by simp), hline, if_neg hid, List.append_nil]
    rfl

/-- The oldest action of the queue is carried out: a request in it moves
from the queue to the commands of its connection. -/
theorem lineFrom_of_perform {s : System} {action : NetworkBehaviourAction}
    {rest : List NetworkBehaviourAction} (hq : s.fileGet.pendingEvents = action :: rest)
    {l' : Link} (hl' : l' ∈ (System.perform
      { s with fileGet := { s.fileGet with pendingEvents := rest } } action).links) :
    LineFrom ⟨s, .pollBehaviour, System.perform
      { s with fileGet := { s.fileGet with pendingEvents := rest } } action⟩ l' := by
  have hnot : ∀ c, s.fileGet.notified c =
      (action.notified? c).toList ++ rest.filterMap (NetworkBehaviourAction.notified? c) := by
    intro c
    unfold FileGet.notified
    rw [hq, List.filterMap_cons]
    cases action.notified? c <;> rfl
  cases action with
  | dial q h =>
    refine lineFrom_of_same ?_ ?_ (fun c => ?_) hl'
    · simp
    · rfl
    · exact (hnot c).symm
  | generateEvent e =>
    refine lineFrom_of_same ?_ ?_ (fun c => ?_) hl'
    · simp
    · cases e <;> rfl
    · rw [System.perform_fileGet]
      exact (hnot c).symm
  | notifyHandler q c request =>
    refine lineFrom_of_map (g := fun k => if k.id = c then Link.addCommand request k else k)
      (by simp) rfl (fun k => ?_) (fun k _ => ?_) hl'
    · split <;> exact ⟨rfl, rfl⟩
    · unfold System.line
      rw [hnot]
      by_cases hid : k.id = c
      · subst hid
        simp [Link.addCommand, NetworkBehaviourAction.notified?, System.perform,
          System.updateLink, FileGet.notified]
      · have hne : c ≠ k.id := fun heq => hid heq.symm
        simp [hid, hne, NetworkBehaviourAction.notified?, System.perform,
          System.updateLink, FileGet.notified]

/-- **Inversion**: what a step does to the lines. -/
theorem stepped_lineFrom {s s' : System} {a : Label} (hm : Mirror s) (h : Stepped s a s')
    {l' : Link} (hl' : l' ∈ s'.links) : LineFrom ⟨s, a, s'⟩ l' := by
  have hstay : (∀ d now pick, a ≠ .pollHandler d now pick) → s'.links = s.links →
      (∀ c, s'.fileGet.notified c = s.fileGet.notified c) → LineFrom ⟨s, a, s'⟩ l' :=
    fun ha hlinks hnot => lineFrom_of_same ha hlinks hnot hl'
  have hmap : ∀ g : Link → Link, (∀ d now pick, a ≠ .pollHandler d now pick) →
      s'.links = s.links.map g → (∀ l, (g l).id = l.id ∧ (g l).peer = l.peer) →
      (∀ l, (g l).handler.outbound = l.handler.outbound ∧ (g l).commands = l.commands) →
      (∀ c, s'.fileGet.notified c = s.fileGet.notified c) → LineFrom ⟨s, a, s'⟩ l' := by
    intro g ha hlinks hg hline hnot
    refine lineFrom_of_map ha hlinks hg (fun l _ => ?_) hl'
    unfold System.line
    rw [(hline l).1, (hline l).2, (hg l).1, hnot]
  cases h with
  | buffered p m w _ =>
    refine hstay (by simp) rfl fun c => ?_
    exact (notified_push _ c [.dial p s.fileGet.newHandler]).trans (List.append_nil _)
  | dispatched p m w l fg hl hp hd => exact hp ▸ lineFrom_of_dispatch hm hl hd.notified hl'
  | established p c ep resolves hfresh _ _ =>
    refine lineFrom_of_establish hm hfresh (fun d => ?_) (Or.inl rfl) hl'
    rw [ite_self, List.append_nil]
    rfl
  | drained p c ep resolves pending fg hfresh _ _ hb _ hd =>
    exact lineFrom_of_establish hm hfresh hd.notified (Or.inr (buffer_of_lookup hb).symm) hl'
  | closed l o i conn _ _ _ =>
    refine .kept l' (List.mem_of_mem_filter hl') rfl rfl ?_
    rw [substreamRequest_none (by simp)]
    show [] ++ (_ ++ FileGet.notified (FileGet.push _ _) _) = _
    rw [notified_push, filterMap_notified_closedEvents, List.append_nil]
    rfl
  | addressChange l ep _ =>
    refine hmap _ (by simp) rfl (fun k => ?_) (fun k => ?_) fun c => ?_
    · split <;> exact ⟨rfl, rfl⟩
    · split <;> exact ⟨rfl, rfl⟩
    · unfold FileGet.notified
      rw [modifyConnection_pendingEvents]
  | dialFailed peer resolves _ => exact hstay (by simp) rfl fun _ => rfl
  | dialDrained p resolves pending _ =>
    refine hstay (by simp) rfl fun c => ?_
    show FileGet.notified (FileGet.push _ _) c = _
    rw [notified_push, filterMap_notified_events, List.append_nil]
    rfl
  | swarmNotice event => exact hstay (by simp) rfl fun _ => rfl
  | pollIdle _ => exact hstay (by simp) rfl fun _ => rfl
  | pollReady action rest hq => exact lineFrom_of_perform hq hl'
  | deliverEvent l conn e rest _ _ _ _ =>
    refine hmap _ (by simp) rfl (fun k => ?_) (fun k => ?_) fun c => ?_
    · split <;> exact ⟨rfl, rfl⟩
    · split <;> exact ⟨rfl, rfl⟩
    · show FileGet.notified (FileGet.afterEvent _ _ _ _) c = _
      rw [FileGet.afterEvent, notified_push]
      simp [notified, NetworkBehaviourAction.notified?]
  | link a c f hf =>
    obtain ⟨l, hl, rfl⟩ := List.mem_map.mp hl'
    by_cases hid : l.id = c
    · rw [if_pos hid]
      refine .kept l hl (hf.keeps l).1 (hf.keeps l).2.1 ?_
      unfold System.line
      rw [(hf.keeps l).1, ← List.append_assoc, hf.line hm hl hid]
      rfl
    · rw [if_neg hid]
      refine .kept l hl rfl rfl ?_
      rw [hf.substreamRequest_ne hid]
      rfl
  | openInbound l _ =>
    refine hmap _ (by simp) rfl (fun k => ?_) (fun k => ?_) fun _ => rfl
    · split <;> exact ⟨rfl, rfl⟩
    · split <;> exact ⟨rfl, rfl⟩
  | respond ch reader =>
    exact hmap _ (by simp) rfl (fun _ => ⟨rfl, rfl⟩) (fun _ => ⟨rfl, rfl⟩) fun _ => rfl
  | dropResponder ch =>
    exact hmap _ (by simp) rfl (fun _ => ⟨rfl, rfl⟩) (fun _ => ⟨rfl, rfl⟩) fun _ => rfl

/-! ## Where requests are sent -/

/-- All notifications that are queued. -/
def FileGet.notifications (s : FileGet) : List (ConnectionId × FileGetOutboundProtocol) :=
  s.pendingEvents.filterMap (·.notification?)

/-- What a step does with requests that are not on a connection yet. -/
inductive Routing (t : Transition System Label) : Prop where
  /-- A queued notification may be handed out, a buffer may be cleared. -/
  | kept : (handed t).toList ++ t.post.fileGet.notifications = t.pre.fileGet.notifications →
      (∀ q, (t.post.fileGet.buffer q).Sublist (t.pre.fileGet.buffer q)) → Routing t
  /-- A new request waits for a dial. -/
  | buffered (p : PeerId) (m : FileGetMessage) (w : FileWriter) :
      t.label = .sendRequest p m w →
      t.post.fileGet.notifications = t.pre.fileGet.notifications →
      (∀ q, t.post.fileGet.buffer q = t.pre.fileGet.buffer q ++
        if q = p then [t.pre.fileGet.newRequest m w] else []) → Routing t
  /-- A new request is queued for a connection. -/
  | sent (p : PeerId) (m : FileGetMessage) (w : FileWriter) (c : ConnectionId) :
      t.label = .sendRequest p m w →
      t.post.fileGet.notifications =
        t.pre.fileGet.notifications ++ [(c, t.pre.fileGet.newRequest m w)] →
      (∀ q, t.post.fileGet.buffer q = t.pre.fileGet.buffer q) → Routing t
  /-- A buffer is queued for a new connection. -/
  | drained (p : PeerId) (c : ConnectionId) :
      (∀ q m w, t.label ≠ .sendRequest q m w) → handed t = none →
      t.post.fileGet.notifications =
        t.pre.fileGet.notifications ++ (t.pre.fileGet.buffer p).map (fun r => (c, r)) →
      (∀ q, t.post.fileGet.buffer q = if q = p then [] else t.pre.fileGet.buffer q) → Routing t

theorem FileGet.notifications_push (s : FileGet) (actions : List NetworkBehaviourAction) :
    (s.push actions).notifications =
      s.notifications ++ actions.filterMap (·.notification?) := by
  simp [notifications, List.filterMap_append]

/-- Reports notify nobody. -/
theorem filterMap_notification_events {α : Type} (f : α → FileGetEvent) (l : List α) :
    (l.map fun x => NetworkBehaviourAction.generateEvent (f x)).filterMap (·.notification?) =
      [] := by
  rw [List.filterMap_map, List.filterMap_eq_nil_iff]
  exact fun _ _ => rfl

theorem FileGet.Dispatched.notifications {s s' : FileGet} {p : PeerId} {c : ConnectionId}
    {pending : List FileGetOutboundProtocol} (h : Dispatched s p c pending s') :
    s'.notifications = s.notifications ++ pending.map fun r => (c, r) := by
  unfold FileGet.notifications
  rw [h.events, List.filterMap_append, List.filterMap_map]
  congr 1
  exact congrFun (List.filterMap_eq_map (f := fun r => (c, r))) pending

/-- **Inversion**: where a step sends requests. -/
theorem stepped_routing {s s' : System} {a : Label} (h : Stepped s a s') :
    Routing ⟨s, a, s'⟩ := by
  -- a step that is no poll and queues only what notifies nobody
  have hkept : a ≠ .pollBehaviour → s'.fileGet.notifications = s.fileGet.notifications →
      (∀ q, (s'.fileGet.buffer q).Sublist (s.fileGet.buffer q)) → Routing ⟨s, a, s'⟩ := by
    intro ha hnot hbuf
    refine .kept ?_ hbuf
    rw [handed_none ha]
    exact hnot
  have hsame : ∀ q, (s.fileGet.buffer q).Sublist (s.fileGet.buffer q) :=
    fun _ => List.Sublist.refl _
  cases h with
  | buffered p m w _ =>
    refine .buffered p m w rfl ?_ fun q => ?_
    · exact (notifications_push _ [.dial p s.fileGet.newHandler]).trans (List.append_nil _)
    · show ((s.fileGet.pendingOutboundRequests.insert p _).lookup q).getD [] = _
      rw [lookup_insert_ite]
      split
      · rename_i hq
        subst hq
        rfl
      · rw [List.append_nil]
        rfl
  | dispatched p m w l fg _ _ hd =>
    exact .sent p m w l.id rfl hd.notifications (buffer_congr hd.buffers)
  | established p c ep resolves _ _ _ => exact hkept (by simp) rfl hsame
  | drained p c ep resolves pending fg _ _ _ hb _ hd =>
    refine .drained p c (by simp) rfl ?_ fun q => ?_
    · rw [buffer_of_lookup hb]
      exact hd.notifications
    · exact (buffer_congr hd.buffers q).trans buffer_clearBuffer
  | closed l o i conn _ _ _ =>
    refine hkept (by simp) ?_ hsame
    show FileGet.notifications (FileGet.push _ _) = _
    rw [notifications_push, closedEvents, List.filterMap_append, filterMap_notification_events,
      filterMap_notification_events, List.append_nil, List.append_nil]
    rfl
  | addressChange l ep _ =>
    refine hkept (by simp) ?_ fun q => ?_
    · unfold FileGet.notifications
      rw [modifyConnection_pendingEvents]
    · rw [modifyConnection_buffer]
  | dialFailed peer resolves _ => exact hkept (by simp) rfl hsame
  | dialDrained p resolves pending _ =>
    refine hkept (by simp) ?_ fun q => ?_
    · show FileGet.notifications (FileGet.push _ _) = _
      rw [notifications_push, filterMap_notification_events, List.append_nil]
      rfl
    · have hclear : (FileGet.clearBuffer s.fileGet p).buffer q =
          if q = p then [] else s.fileGet.buffer q := buffer_clearBuffer
      show List.Sublist ((FileGet.clearBuffer s.fileGet p).buffer q) _
      rw [hclear]
      split
      · exact List.nil_sublist _
      · exact List.Sublist.refl _
  | swarmNotice event => exact hkept (by simp) rfl hsame
  | pollIdle hnil =>
    refine .kept ?_ hsame
    have hhanded : handed ⟨s, .pollBehaviour, s⟩ = none := by simp [handed, FileGet.poll, hnil]
    rw [hhanded]
    rfl
  | pollReady action rest hq =>
    have hfg := System.perform_fileGet
      { s with fileGet := { s.fileGet with pendingEvents := rest } } action
    refine .kept ?_ fun q => ?_
    · have hhanded : ∀ s', handed ⟨s, .pollBehaviour, s'⟩ = action.notification? := by
        intro s'
        simp [handed, FileGet.poll, hq]
      rw [hhanded]
      show _ ++ (System.perform _ action).fileGet.notifications = s.fileGet.notifications
      unfold FileGet.notifications
      rw [hfg, hq, List.filterMap_cons]
      cases action.notification? <;> rfl
    · show List.Sublist ((System.perform _ action).fileGet.buffer q) _
      rw [hfg]
      exact List.Sublist.refl _
  | deliverEvent l conn e rest _ _ _ _ =>
    refine hkept (by simp) ?_ fun q => ?_
    · show FileGet.notifications (FileGet.afterEvent _ _ _ _) = _
      rw [FileGet.afterEvent, notifications_push]
      simp [FileGet.notifications, NetworkBehaviourAction.notification?]
    · show List.Sublist ((s.fileGet.modifyConnection _ _ _).buffer q) _
      rw [modifyConnection_buffer]
  | link a c f hf => exact hkept (by cases hf <;> simp) rfl hsame
  | openInbound l _ => exact hkept (by simp) rfl hsame
  | respond ch reader => exact hkept (by simp) rfl hsame
  | dropResponder ch => exact hkept (by simp) rfl hsame

/-! ## Order along a run -/

/-- Every line is in order, from what has gone out to what is queued, and
holds requests made for the peer of its connection. -/
structure InOrder (tr : Trace System Label) (s : System) : Prop where
  established : ∀ l ∈ s.links, Established tr l.peer l.id
  line : ∀ l ∈ s.links, (substreamRequests l.id tr ++ s.line l).Pairwise Before
  lineRequested : ∀ l ∈ s.links, ∀ r ∈ substreamRequests l.id tr ++ s.line l,
    Requested tr l.peer r
  emitted : ∀ c, (substreamRequests c tr).Pairwise Before
  emittedRequested : ∀ c, ∀ r ∈ substreamRequests c tr,
    ∃ p, Established tr p c ∧ Requested tr p r
  buffer : ∀ p, (s.fileGet.buffer p).Pairwise Before
  bufferRequested : ∀ p, ∀ r ∈ s.fileGet.buffer p, Requested tr p r
  fresh : ∀ c, c ∉ s.usedIds → substreamRequests c tr = []

variable {config : FileGetConfig} {debug : Bool} {tr : Trace System Label} {s : System}

/-- A request is made after all earlier ones. -/
theorem before_newRequest {t : Transition System Label}
    (h : (fileGetSystem config debug).Run (t :: tr) s) (hn : sends (t :: tr) < UInt64.size)
    {p q : PeerId} {m : FileGetMessage} {w : FileWriter} (hlabel : t.label = .sendRequest p m w)
    {r : FileGetOutboundProtocol} (hr : Requested tr q r) :
    Before r (t.pre.fileGet.newRequest m w) := by
  obtain ⟨hrun, -, -, -⟩ := h.tail
  rw [sends_cons, hlabel] at hn
  have hn' : sends tr + 1 < UInt64.size := hn
  obtain ⟨u, hu, -, hret⟩ := hr
  obtain ⟨k, hk, hid⟩ := returned_lt hrun (by omega) hu hret
  have hgen : (t.pre.fileGet.newRequest m w).requestId = .nth (sends tr) :=
    (run_placed hrun (by omega)).generator
  unfold Before
  rw [hid, hgen]
  simp only [RequestId.nth, UInt64.lt_iff_toNat_lt, UInt64.toNat_ofNat']
  unfold UInt64.size at hn'
  omega

/-- A connection that asks for a substream takes the request from the head
of its line. -/
theorem substreamRequest_some {t : Transition System Label} {c : ConnectionId}
    {r : FileGetOutboundProtocol} (h : substreamRequest c t = some r) :
    ∃ l ∈ t.pre.links, l.id = c ∧ ∃ rest, l.handler.outbound = r :: rest := by
  unfold substreamRequest at h
  split at h
  · rename_i d now pick hlabel
    split at h
    · obtain ⟨l, hl, hpoll⟩ := Option.bind_eq_some_iff.mp h
      obtain ⟨hmem, hid⟩ := Mirror.link?_of_some hl
      refine ⟨l, hmem, hid, ?_⟩
      have hp := l.handler.polled now pick
      generalize l.handler.poll now pick = result at hp hpoll
      cases hp with
      | close error _ => simp [ConnectionHandlerEvent.protocol?] at hpoll
      | event e rest hev => simp [ConnectionHandlerEvent.protocol?] at hpoll
      | outbound request rest hout =>
        simp only [Option.bind_some, ConnectionHandlerEvent.protocol?, Option.some.injEq] at hpoll
        exact ⟨rest, hpoll ▸ hout⟩
      | request channel requestId message _ => simp [ConnectionHandlerEvent.protocol?] at hpoll
      | pending inbound keepAlive _ _ _ _ _ => simp at hpoll
    · cases h
  · cases h

/-- What a connection has asked substreams for, with the step. -/
theorem substreamRequests_step (t : Transition System Label) (tr : Trace System Label)
    (c : ConnectionId) :
    substreamRequests c (t :: tr) = substreamRequests c tr ∨
    ∃ l ∈ t.pre.links, l.id = c ∧
      (substreamRequests c (t :: tr)).Sublist (substreamRequests c tr ++ t.pre.line l) := by
  rw [substreamRequests_cons]
  cases hr : substreamRequest c t with
  | none => exact Or.inl (List.append_nil _)
  | some r =>
    obtain ⟨l, hl, hid, rest, hout⟩ := substreamRequest_some hr
    refine Or.inr ⟨l, hl, hid, List.Sublist.append_left ?_ _⟩
    unfold System.line
    rw [hout]
    exact List.Sublist.cons_cons _ (List.nil_sublist _)

/-- Ids that were used stay used. -/
theorem stepped_usedIds {s s' : System} {a : Label} (h : Stepped s a s') {c : ConnectionId}
    (hc : c ∈ s.usedIds) : c ∈ s'.usedIds := by
  cases h with
  | established p d ep resolves _ _ _ => exact List.mem_cons_of_mem _ hc
  | drained p d ep resolves pending fg _ _ _ _ _ _ => exact List.mem_cons_of_mem _ hc
  | pollReady action rest _ =>
    cases action with
    | dial q h => exact hc
    | notifyHandler q d request => exact hc
    | generateEvent e => cases e <;> exact hc
  | _ => exact hc

/-- The last step of a run, as it routes requests. -/
theorem run_routing {t : Transition System Label}
    (h : (fileGetSystem config debug).Run (t :: tr) s) : Routing t :=
  stepped_routing (run_stepped h).2

namespace InOrder

/-- The whole line of a connection after a step. -/
theorem line_cases {t : Transition System Label} (ho : InOrder tr t.pre) (hi : InFlight t.pre)
    {l' : Link} (h : LineFrom t l') :
    (∃ l ∈ t.pre.links, l'.peer = l.peer ∧
      substreamRequests l'.id (t :: tr) ++ t.post.line l' =
        substreamRequests l.id tr ++ t.pre.line l) ∨
    (∃ l ∈ t.pre.links, ∃ m w, l'.peer = l.peer ∧ t.label = .sendRequest l.peer m w ∧
      substreamRequests l'.id (t :: tr) ++ t.post.line l' =
        substreamRequests l.id tr ++ t.pre.line l ++ [t.pre.fileGet.newRequest m w]) ∨
    substreamRequests l'.id (t :: tr) ++ t.post.line l' = [] ∨
    substreamRequests l'.id (t :: tr) ++ t.post.line l' = t.pre.fileGet.buffer l'.peer := by
  rw [substreamRequests_cons]
  cases h with
  | kept l hl hid hpeer hline =>
    refine Or.inl ⟨l, hl, hpeer, ?_⟩
    rw [hid, List.append_assoc, hline]
  | sent l m w hl hid hpeer hlabel hline =>
    refine Or.inr (Or.inl ⟨l, hl, m, w, hpeer, hlabel, ?_⟩)
    rw [hid, substreamRequest_none (by simp [hlabel]), hline, List.append_assoc]
    simp
  | new ep resolves pending hlabel hfresh hpending hline =>
    rw [ho.fresh _ hfresh, substreamRequest_none (by simp [hlabel]), hline,
      hi.notified_nil hfresh]
    rcases hpending with rfl | rfl
    · exact Or.inr (Or.inr (Or.inl rfl))
    · exact Or.inr (Or.inr (Or.inr rfl))

/-- A list of requests made for one peer, with a new one at its end. -/
theorem snoc {t : Transition System Label} (h : (fileGetSystem config debug).Run (t :: tr) s)
    (hn : sends (t :: tr) < UInt64.size) {p : PeerId} {m : FileGetMessage} {w : FileWriter}
    (hlabel : t.label = .sendRequest p m w) {l : List FileGetOutboundProtocol}
    (hl : l.Pairwise Before) (hreq : ∀ r ∈ l, Requested tr p r) :
    (l ++ [t.pre.fileGet.newRequest m w]).Pairwise Before ∧
    ∀ r ∈ l ++ [t.pre.fileGet.newRequest m w], Requested (t :: tr) p r := by
  refine ⟨List.pairwise_append.mpr ⟨hl, List.pairwise_singleton _ _, ?_⟩, ?_⟩
  · intro r hr x hx
    rw [List.mem_singleton.mp hx]
    exact before_newRequest h hn hlabel (hreq r hr)
  · intro r hr
    rcases List.mem_append.mp hr with hr | hr
    · exact (hreq r hr).cons t
    · rw [List.mem_singleton.mp hr]
      exact requested_new (run_stepped h).1 hlabel tr

/-- The line of a connection after a step is in order. -/
theorem line_step {t : Transition System Label} (h : (fileGetSystem config debug).Run (t :: tr) s)
    (hn : sends (t :: tr) < UInt64.size) (ho : InOrder tr t.pre) {l' : Link}
    (hl' : l' ∈ t.post.links) :
    (substreamRequests l'.id (t :: tr) ++ t.post.line l').Pairwise Before ∧
    ∀ r ∈ substreamRequests l'.id (t :: tr) ++ t.post.line l', Requested (t :: tr) l'.peer r := by
  obtain ⟨hm, hstep⟩ := run_stepped h
  have hi := run_inFlight h.tail.1 (Nat.le_of_lt (Nat.lt_of_le_of_lt (sends_tail_le t tr) hn))
  rcases ho.line_cases hi (stepped_lineFrom hm hstep hl') with
    ⟨l, hl, hpeer, heq⟩ | ⟨l, hl, m, w, hpeer, hlabel, heq⟩ | heq | heq
  · rw [heq, hpeer]
    exact ⟨ho.line l hl, fun r hr => (ho.lineRequested l hl r hr).cons t⟩
  · rw [heq, hpeer]
    exact snoc h hn hlabel (ho.line l hl) (ho.lineRequested l hl)
  · rw [heq]
    exact ⟨List.Pairwise.nil, by simp⟩
  · rw [heq]
    exact ⟨ho.buffer _, fun r hr => (ho.bufferRequested _ r hr).cons t⟩

/-- The buffers after a step are in order. -/
theorem buffer_step {t : Transition System Label}
    (h : (fileGetSystem config debug).Run (t :: tr) s) (hn : sends (t :: tr) < UInt64.size)
    (ho : InOrder tr t.pre) (p : PeerId) :
    (t.post.fileGet.buffer p).Pairwise Before ∧
    ∀ r ∈ t.post.fileGet.buffer p, Requested (t :: tr) p r := by
  have hold : ∀ {l : List FileGetOutboundProtocol}, l.Sublist (t.pre.fileGet.buffer p) →
      l.Pairwise Before ∧ ∀ r ∈ l, Requested (t :: tr) p r :=
    fun hsub => ⟨(ho.buffer p).sublist hsub,
      fun r hr => (ho.bufferRequested p r (hsub.mem hr)).cons t⟩
  cases run_routing h with
  | kept _ hbuf => exact hold (hbuf p)
  | buffered q m w hlabel _ hbuf =>
    rw [hbuf]
    split
    · rename_i hq
      subst hq
      exact snoc h hn hlabel (ho.buffer p) (ho.bufferRequested p)
    · rw [List.append_nil]
      exact hold (List.Sublist.refl _)
  | sent q m w c hlabel _ hbuf =>
    rw [hbuf]
    exact hold (List.Sublist.refl _)
  | drained q c _ _ _ hbuf =>
    rw [hbuf]
    split
    · exact hold (List.nil_sublist _)
    · exact hold (List.Sublist.refl _)

/-- One step keeps the order. -/
theorem step {t : Transition System Label} (h : (fileGetSystem config debug).Run (t :: tr) s)
    (hn : sends (t :: tr) < UInt64.size) (ho : InOrder tr t.pre) : InOrder (t :: tr) t.post where
  established l' hl' := by
    obtain ⟨hm, hstep⟩ := run_stepped h
    cases stepped_lineFrom hm hstep hl' with
    | kept l hl hid hpeer _ =>
      rw [hid, hpeer]
      exact (ho.established l hl).cons t
    | sent l m w hl hid hpeer _ _ =>
      rw [hid, hpeer]
      exact (ho.established l hl).cons t
    | new ep resolves pending hlabel _ _ _ =>
      exact ⟨t, List.mem_cons_self, ep, resolves, hlabel⟩
  line l' hl' := (ho.line_step h hn hl').1
  lineRequested l' hl' := (ho.line_step h hn hl').2
  emitted c := by
    rcases substreamRequests_step t tr c with heq | ⟨l, hl, rfl, hsub⟩
    · rw [heq]
      exact ho.emitted c
    · exact (ho.line l hl).sublist hsub
  emittedRequested c r hr := by
    rcases substreamRequests_step t tr c with heq | ⟨l, hl, rfl, hsub⟩
    · rw [heq] at hr
      obtain ⟨p, hp, hreq⟩ := ho.emittedRequested c r hr
      exact ⟨p, hp.cons t, hreq.cons t⟩
    · exact ⟨l.peer, (ho.established l hl).cons t, (ho.lineRequested l hl r (hsub.mem hr)).cons t⟩
  buffer p := (ho.buffer_step h hn p).1
  bufferRequested p := (ho.buffer_step h hn p).2
  fresh c hc := by
    obtain ⟨hm, hstep⟩ := run_stepped h
    have hpre : c ∉ t.pre.usedIds := fun hmem => hc (stepped_usedIds hstep hmem)
    rcases substreamRequests_step t tr c with heq | ⟨l, hl, rfl, -⟩
    · rw [heq]
      exact ho.fresh c hpre
    · exact absurd (hm.used l hl) hpre

end InOrder

theorem inOrder_init (config : FileGetConfig) : InOrder [] (.init config) where
  established l hl := by simp [System.init] at hl
  line l hl := by simp [System.init] at hl
  lineRequested l hl := by simp [System.init] at hl
  emitted c := List.Pairwise.nil
  emittedRequested c r hr := by simp [substreamRequests] at hr
  buffer p := by simp [System.init, fromConfig, FileGet.buffer]
  bufferRequested p r hr := by simp [System.init, fromConfig, FileGet.buffer] at hr
  fresh c _ := rfl

theorem run_inOrder (h : (fileGetSystem config debug).Run tr s) (hn : sends tr < UInt64.size) :
    InOrder tr s := by
  induction tr generalizing s with
  | nil => cases h; exact inOrder_init config
  | cons t tr ih =>
    obtain ⟨hrun, -, -, rfl⟩ := h.tail
    exact (ih hrun (Nat.lt_of_le_of_lt (sends_tail_le t tr) hn)).step h hn

/-! ## Each request once -/

/-- What was handed to connections and what is queued for them are different
requests, and none of them is in a buffer. -/
structure Routed (tr : Trace System Label) (s : System) : Prop where
  once : ((handedOver tr ++ s.fileGet.notifications).map (·.2.requestId)).Nodup
  apart : ∀ p, ∀ r ∈ s.fileGet.buffer p,
    r.requestId ∉ (handedOver tr ++ s.fileGet.notifications).map (·.2.requestId)
  requested : ∀ x ∈ handedOver tr ++ s.fileGet.notifications, ∃ p, Requested tr p x.2

/-- The id of a new request was never handed over or queued. -/
theorem Routed.new_notMem {t : Transition System Label} (hr : Routed tr t.pre)
    (h : (fileGetSystem config debug).Run (t :: tr) s) (hn : sends (t :: tr) < UInt64.size)
    {p : PeerId} {m : FileGetMessage} {w : FileWriter} (hlabel : t.label = .sendRequest p m w) :
    (t.pre.fileGet.newRequest m w).requestId ∉
      (handedOver tr ++ t.pre.fileGet.notifications).map (·.2.requestId) := by
  intro hmem
  obtain ⟨x, hx, heq⟩ := List.mem_map.mp hmem
  obtain ⟨q, hq⟩ := hr.requested x hx
  have hlt := before_newRequest h hn hlabel hq
  unfold Before at hlt
  rw [heq] at hlt
  exact UInt64.lt_irrefl _ hlt

/-- Requests join those handed over or queued, and nothing in a buffer is
among them. -/
theorem Routed.join {t : Transition System Label} (hr : Routed tr t.pre)
    (added : List (ConnectionId × FileGetOutboundProtocol))
    (hall : handedOver (t :: tr) ++ t.post.fileGet.notifications =
      handedOver tr ++ t.pre.fileGet.notifications ++ added)
    (hnodup : (added.map (·.2.requestId)).Nodup)
    (hnew : ∀ x ∈ added, x.2.requestId ∉
      (handedOver tr ++ t.pre.fileGet.notifications).map (·.2.requestId))
    (hrequested : ∀ x ∈ added, ∃ p, Requested (t :: tr) p x.2)
    (hbuffer : ∀ p, ∀ r ∈ t.post.fileGet.buffer p,
      r.requestId ∉ (handedOver tr ++ t.pre.fileGet.notifications).map (·.2.requestId) ∧
      r.requestId ∉ added.map (·.2.requestId)) : Routed (t :: tr) t.post where
  once := by
    rw [hall, List.map_append]
    refine List.nodup_append.mpr ⟨hr.once, hnodup, ?_⟩
    rintro x hx y hy rfl
    obtain ⟨z, hz, rfl⟩ := List.mem_map.mp hy
    exact hnew z hz hx
  apart p r hmem := by
    rw [hall, List.map_append, List.mem_append]
    exact not_or.mpr (hbuffer p r hmem)
  requested x hx := by
    rw [hall] at hx
    rcases List.mem_append.mp hx with hx | hx
    · obtain ⟨p, hp⟩ := hr.requested x hx
      exact ⟨p, hp.cons t⟩
    · exact hrequested x hx

/-- One step keeps requests apart. -/
theorem Routed.step {t : Transition System Label} (hr : Routed tr t.pre) (ho : InOrder tr t.pre)
    (h : (fileGetSystem config debug).Run (t :: tr) s) (hn : sends (t :: tr) < UInt64.size) :
    Routed (t :: tr) t.post := by
  have hn' := Nat.lt_of_le_of_lt (sends_tail_le t tr) hn
  have hplaced := run_placed h.tail.1 (Nat.le_of_lt hn')
  cases run_routing h with
  | kept hnot hbuf =>
    refine hr.join [] ?_ (by simp) (by simp) (by simp) fun p r hmem => ?_
    · rw [handedOver_cons, List.append_assoc, hnot, List.append_nil]
    · exact ⟨hr.apart p r ((hbuf p).mem hmem), by simp⟩
  | buffered p m w hlabel hnot hbuf =>
    refine hr.join [] ?_ (by simp) (by simp) (by simp) fun q r hmem => ⟨?_, by simp⟩
    · rw [handedOver_cons, handed_none (by simp [hlabel]), hnot, Option.toList_none,
        List.append_nil, List.append_nil]
    · rw [hbuf] at hmem
      rcases List.mem_append.mp hmem with hmem | hmem
      · exact hr.apart q r hmem
      · split at hmem
        · rw [List.mem_singleton.mp hmem]
          exact hr.new_notMem h hn hlabel
        · cases hmem
  | sent p m w c hlabel hnot hbuf =>
    refine hr.join [(c, t.pre.fileGet.newRequest m w)] ?_ (by simp) (fun x hx => ?_)
      (fun x hx => ?_) fun q r hmem => ?_
    · rw [handedOver_cons, handed_none (by simp [hlabel]), Option.toList_none, List.append_nil,
        List.append_assoc, hnot]
    · rw [List.mem_singleton.mp hx]
      exact hr.new_notMem h hn hlabel
    · rw [List.mem_singleton.mp hx]
      exact ⟨p, requested_new (run_stepped h).1 hlabel tr⟩
    · rw [hbuf] at hmem
      refine ⟨hr.apart q r hmem, fun hin => ?_⟩
      -- the new request is in no buffer
      rw [List.map_singleton, List.mem_singleton] at hin
      have hlt := before_newRequest h hn hlabel (ho.bufferRequested q r hmem)
      unfold Before at hlt
      rw [hin] at hlt
      exact UInt64.lt_irrefl _ hlt
  | drained p c hlabel hhanded hnot hbuf =>
    have hids : ((t.pre.fileGet.buffer p).map (fun r => (c, r))).map (·.2.requestId) =
        (t.pre.fileGet.buffer p).map (·.requestId) := by
      rw [List.map_map]
      rfl
    refine hr.join _ ?_ (hids ▸ hplaced.bufferNodup p) (fun x hx => ?_) (fun x hx => ?_)
      fun q r hmem => ?_
    · rw [handedOver_cons, hhanded, Option.toList_none, List.append_nil, List.append_assoc, hnot]
    · obtain ⟨r, hmem, rfl⟩ := List.mem_map.mp hx
      exact hr.apart p r hmem
    · obtain ⟨r, hmem, rfl⟩ := List.mem_map.mp hx
      exact ⟨p, (ho.bufferRequested p r hmem).cons t⟩
    · rw [hbuf] at hmem
      split at hmem
      · cases hmem
      · rename_i hq
        refine ⟨hr.apart q r hmem, fun hin => ?_⟩
        -- a request is buffered for one peer only
        rw [hids] at hin
        obtain ⟨r', hmem', heq⟩ := List.mem_map.mp hin
        exact hq (hplaced.onePeer (Or.inl ⟨r, hmem, rfl⟩) (Or.inl ⟨r', hmem', heq⟩))

theorem routed_init (config : FileGetConfig) : Routed [] (.init config) where
  once := by simp [handedOver, System.init, fromConfig, FileGet.notifications]
  apart p r hr := by simp [System.init, fromConfig, FileGet.buffer] at hr
  requested x hx := by simp [handedOver, System.init, fromConfig, FileGet.notifications] at hx

theorem run_routed (h : (fileGetSystem config debug).Run tr s) (hn : sends tr < UInt64.size) :
    Routed tr s := by
  induction tr generalizing s with
  | nil => cases h; exact routed_init config
  | cons t tr ih =>
    obtain ⟨hrun, -, -, rfl⟩ := h.tail
    have hn' := Nat.lt_of_le_of_lt (sends_tail_le t tr) hn
    exact (ih hrun hn').step (run_inOrder hrun hn') h hn

/-- The id of a connection that was established is in use. -/
theorem Established.used (h : (fileGetSystem config debug).Run tr s) {p : PeerId}
    {c : ConnectionId} (he : Established tr p c) : c ∈ s.usedIds := by
  induction h with
  | start =>
    obtain ⟨t, ht, -⟩ := he
    cases ht
  | next hrun hallowed hok ih =>
    obtain ⟨t, ht, ep, resolves, hlabel⟩ := he
    have hstep := step_stepped (run_mirror hrun) hallowed hok
    rcases List.mem_cons.mp ht with rfl | ht
    · dsimp only at hlabel
      subst hlabel
      cases hstep with
      | established _ _ _ _ _ _ _ => exact List.mem_cons_self
      | drained _ _ _ _ pending fg _ _ _ _ _ _ => exact List.mem_cons_self
      | link _ _ _ hf => cases hf
    · exact stepped_usedIds hstep (ih ⟨t, ht, ep, resolves, hlabel⟩)

/-- A connection is established under an id that was never in use. -/
theorem fresh_of_establish {t : Transition System Label} {p : PeerId} {c : ConnectionId}
    {ep : ConnectedPoint} {resolves : Bool} (hallowed : t.pre.Allowed t.label = true)
    (hlabel : t.label = .connectionEstablished p c ep resolves) : c ∉ t.pre.usedIds := by
  rw [hlabel] at hallowed
  simp only [System.Allowed, Bool.and_eq_true, decide_eq_true_eq] at hallowed
  exact hallowed.1

/-- A connection is established once, to one peer. -/
theorem established_peer (h : (fileGetSystem config debug).Run tr s) {p q : PeerId}
    {c : ConnectionId} (hp : Established tr p c) (hq : Established tr q c) : p = q := by
  induction tr generalizing s with
  | nil =>
    obtain ⟨t, ht, -⟩ := hp
    cases ht
  | cons t tr ih =>
    obtain ⟨hrun, hallowed, -, -⟩ := h.tail
    obtain ⟨u, hu, ep, b, hup⟩ := hp
    obtain ⟨v, hv, ep', b', hvq⟩ := hq
    rcases List.mem_cons.mp hu with rfl | hu' <;> rcases List.mem_cons.mp hv with rfl | hv'
    · rw [hup, Label.connectionEstablished.injEq] at hvq
      exact hvq.1
    · have hused := Established.used hrun ⟨v, hv', ep', b', hvq⟩
      exact absurd hused (fresh_of_establish hallowed hup)
    · have hused := Established.used hrun ⟨u, hu', ep, b, hup⟩
      exact absurd hused (fresh_of_establish hallowed hvq)
    · exact ih hrun ⟨u, hu', ep, b, hup⟩ ⟨v, hv', ep', b', hvq⟩

/-- **Requests go out in order and once.** On every connection the ids that
become substreams increase; each of these requests is one that
`send_request` returned for the connection's peer, with its file name and
writer; and no request is handed over twice, to one connection or to two. -/
theorem requests_in_order_and_once (h : (fileGetSystem config debug).Run tr s)
    (hn : sends tr < UInt64.size) :
    (∀ c, (substreamRequests c tr).Pairwise fun a b => a.requestId.val < b.requestId.val) ∧
    (∀ c, ∀ request ∈ substreamRequests c tr, ∃ p, Established tr p c ∧
      (∀ q, Established tr q c → q = p) ∧ Requested tr p request) ∧
    ((handedOver tr).map (·.2.requestId)).Nodup := by
  have ho := run_inOrder h hn
  refine ⟨ho.emitted, fun c request hmem => ?_, ?_⟩
  · obtain ⟨p, hp, hreq⟩ := ho.emittedRequested c request hmem
    exact ⟨p, hp, fun q hq => established_peer h hq hp, hreq⟩
  · have honce := (run_routed h hn).once
    rw [List.map_append] at honce
    exact (List.nodup_append.mp honce).1

/-- A run with a request that waited for a connection and one that came
after it: both went out, in order. -/
theorem requests_in_order_and_once_drained : ∃ tr s,
    (fileGetSystem ⟨10⟩ true).Run tr s ∧ sends tr < UInt64.size ∧
    (substreamRequests ⟨1⟩ tr).map (·.fileName) = ["a", "b"] ∧
    (substreamRequests ⟨1⟩ tr).Pairwise fun a b => a.requestId.val < b.requestId.val := by
  obtain ⟨tr, s, hrun, hP⟩ := Machine.exists_run_of_labels (M := fileGetSystem ⟨10⟩ true)
    [.sendRequest ⟨7⟩ ⟨"a"⟩ ⟨[]⟩, .connectionEstablished ⟨7⟩ ⟨1⟩ (.dialer ⟨"/ip4/10.0.0.2"⟩) false,
      .sendRequest ⟨7⟩ ⟨"b"⟩ ⟨[]⟩, .pollBehaviour, .pollBehaviour, .pollBehaviour,
      .deliverCommand ⟨1⟩, .deliverCommand ⟨1⟩, .pollHandler ⟨1⟩ 0 0, .pollHandler ⟨1⟩ 0 0]
    (fun tr _ => decide (sends tr < UInt64.size) &&
      decide ((substreamRequests ⟨1⟩ tr).map (·.fileName) = ["a", "b"]))
    (by decide) (by decide)
  simp only [Bool.and_eq_true, decide_eq_true_eq] at hP
  exact ⟨tr, s, hrun, hP.1, hP.2, (requests_in_order_and_once hrun hP.1).1 ⟨1⟩⟩

end FileSharing
