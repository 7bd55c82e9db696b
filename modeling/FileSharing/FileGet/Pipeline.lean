/-
FileSharing.FileGet.Pipeline — an outbound request on its way through the
handler of its connection.

Between `try_send_request` and the event that completes it a request is in
one of six queues: the behaviour's action queue, the commands of its
connection, the handler's `outbound`, the open substreams, the handler's
`pending_events`, the events on their way back. Joined, they are the
PIPELINE of the connection (`System.pipeline`). Every step moves a request
along it, adds a new one or drops one; no step doubles one.

`InFlight` is the invariant: a pipeline has no id twice, and every id in it
is in `pending_inbound_responses` of its connection. Its use is
`completes_waiting`: an event that completes a request always finds it.
-/
import FileSharing.FileGet.Placement
import FileSharing.FileGet.HandlerTheorems

namespace FileSharing

open Lib FileGet

/-! ## Pipelines -/

/-- The request an action brings to connection `c`. -/
def NetworkBehaviourAction.notified? (c : ConnectionId) :
    NetworkBehaviourAction → Option FileGetOutboundProtocol
  | .notifyHandler _ d request => if d = c then some request else none
  | _ => none

/-- The requests queued for connection `c`. -/
def FileGet.notified (s : FileGet) (c : ConnectionId) : List FileGetOutboundProtocol :=
  s.pendingEvents.filterMap (NetworkBehaviourAction.notified? c)

/-- The ids on their way through a connection, the oldest first. -/
def Link.inFlight (l : Link) : List RequestId :=
  l.events.filterMap (·.completes) ++ l.handler.pendingEvents.filterMap (·.completes) ++
  l.outbound.map (·.info) ++ l.handler.outbound.map (·.requestId) ++
  l.commands.map (·.requestId)

/-- The pipeline of a connection. -/
def System.pipeline (s : System) (l : Link) : List RequestId :=
  l.inFlight ++ (s.fileGet.notified l.id).map (·.requestId)

/-- The ids in flight are distinct, and all of them are waited for. -/
structure InFlight (s : System) : Prop where
  nodup : ∀ l ∈ s.links, (s.pipeline l).Nodup
  waiting : ∀ l ∈ s.links, ∀ r ∈ s.pipeline l, s.fileGet.Waiting l.peer l.id r
  used : ∀ p c request, .notifyHandler p c request ∈ s.fileGet.pendingEvents → c ∈ s.usedIds

/-! ## What the steps of a connection do to it -/

namespace Link

theorem inFlight_queue (l : Link) (e : FileGetHandlerEvent) :
    inFlight { l with handler := l.handler.queue e } =
      l.events.filterMap (·.completes) ++ l.handler.pendingEvents.filterMap (·.completes) ++
      e.completes.toList ++ l.outbound.map (·.info) ++ l.handler.outbound.map (·.requestId) ++
      l.commands.map (·.requestId) := by
  cases h : e.completes <;> simp [inFlight, Handler.queue, List.filterMap_append, h]

theorem inFlight_addCommand (l : Link) (request : FileGetOutboundProtocol) :
    (addCommand request l).inFlight = l.inFlight ++ [request.requestId] := by
  simp [inFlight, addCommand, List.append_assoc]

theorem inFlight_setEndpoint (l : Link) (ep : ConnectedPoint) :
    (setEndpoint ep l).inFlight = l.inFlight := rfl

theorem inFlight_setResponse (l : Link) (ch : ChannelId) (response : ResponseChannel) :
    (setResponse ch response l).inFlight = l.inFlight := rfl

theorem inFlight_dropEvent {l : Link} {e : FileGetHandlerEvent} {rest : List FileGetHandlerEvent}
    (he : l.events = e :: rest) : l.inFlight = e.completes.toList ++ (dropEvent l).inFlight := by
  cases h : e.completes <;> simp [inFlight, dropEvent, he, h, List.append_assoc]

theorem inFlight_deliverCommand (l : Link) : (deliverCommand l).inFlight = l.inFlight := by
  unfold deliverCommand
  split
  · rfl
  · rename_i request rest h
    simp [inFlight, Handler.onBehaviourEvent, h]

theorem inFlight_pollHandler (l : Link) (now : Instant) (pick : Nat) :
    (pollHandler now pick l).inFlight = l.inFlight := by
  have hp := l.handler.polled now pick
  unfold pollHandler
  generalize l.handler.poll now pick = result at hp
  cases hp with
  | close error _ => rfl
  | event e rest hev => cases hc : e.completes <;> simp [inFlight, hev, hc]
  | outbound request rest hout => simp [inFlight, hout]
  | request channel requestId message _ => simp [inFlight, FileGetHandlerEvent.completes]
  | pending inbound keepAlive _ _ _ _ _ => rfl

theorem inFlight_endOutbound (l : Link) (i : Nat) (result : Except ConnectionHandlerUpgrErr Unit) :
    (endOutbound i result l).inFlight.Subperm l.inFlight := by
  unfold endOutbound
  cases hi : l.outbound[i]? with
  | none => exact List.Subperm.refl _
  | some sub =>
    have hperm : (sub.info :: (l.outbound.eraseIdx i).map (·.info)).Perm
        (l.outbound.map (·.info)) := by
      obtain ⟨hlt, rfl⟩ := List.getElem?_eq_some_iff.mp hi
      have herase := List.erase_getElem hlt
      exact ((herase.symm.cons _).trans (List.perm_cons_erase (List.getElem_mem hlt)).symm).map _
    have hqueue : ∀ e : FileGetHandlerEvent, e.completes = some sub.info →
        (inFlight { l with
          outbound := l.outbound.eraseIdx i, handler := l.handler.queue e }).Subperm
          l.inFlight := by
      intro e he
      refine List.Perm.subperm ?_
      have := inFlight_queue { l with outbound := l.outbound.eraseIdx i } e
      refine (List.Perm.of_eq this).trans ?_
      unfold inFlight
      rw [he]
      refine List.Perm.append_right _ (List.Perm.append_right _ ?_)
      rw [List.append_assoc]
      exact List.Perm.append_left _ hperm
    have hdrop : ∀ handler : Handler, handler.pendingEvents = l.handler.pendingEvents →
        handler.outbound = l.handler.outbound →
        (inFlight { l with outbound := l.outbound.eraseIdx i, handler := handler }).Subperm
          l.inFlight := by
      intro handler hev hout
      simp only [inFlight, hev, hout]
      refine List.Sublist.subperm ?_
      refine List.Sublist.append (List.Sublist.append (List.Sublist.append (List.Sublist.refl _)
        ((List.eraseIdx_sublist _ _).map _)) (List.Sublist.refl _)) (List.Sublist.refl _)
    cases result with
    | ok _ => exact hqueue _ rfl
    | error err =>
      cases err with
      | timeout => exact hqueue _ rfl
      | timer => exact hdrop _ rfl rfl
      | upgrade e => exact hqueue _ rfl

/-- The events of inbound substreams. -/
def isInbound : ConnectionEvent → Prop
  | .fullyNegotiatedInbound _ _ => True
  | .listenUpgradeError _ _ => True
  | _ => False

/-- The end of an inbound substream queues nothing that completes a request
of ours. -/
theorem inFlight_onConnectionEvent (l : Link) {event : ConnectionEvent} (he : isInbound event) :
    inFlight { l with handler := l.handler.onConnectionEvent event } = l.inFlight := by
  cases event with
  | fullyNegotiatedInbound sent info =>
    cases sent <;>
      simp [inFlight, Handler.onConnectionEvent, Handler.queue, FileGetHandlerEvent.completes]
  | listenUpgradeError error info =>
    cases error <;>
      simp [inFlight, Handler.onConnectionEvent, Handler.queue, FileGetHandlerEvent.completes]
  | fullyNegotiatedOutbound info => cases he
  | dialUpgradeError error info => cases he
  | addressChange => rfl

theorem inFlight_dropInbound (l : Link) (sub : InboundSubstream) :
    (l.dropInbound sub).inFlight = l.inFlight := by
  unfold dropInbound
  split <;> rfl

theorem inFlight_endInbound (l : Link) (sub : InboundSubstream) {event : ConnectionEvent}
    (he : isInbound event) : (l.endInbound sub event).inFlight = l.inFlight :=
  (inFlight_onConnectionEvent (l.dropInbound sub) he).trans (inFlight_dropInbound l sub)

theorem inFlight_resumeInbound (l : Link) (sub : InboundSubstream) (wake : InboundWake) :
    (l.resumeInbound sub wake).inFlight = l.inFlight := by
  unfold resumeInbound
  split
  · split <;> rfl
  · exact inFlight_endInbound l sub trivial
  · exact inFlight_endInbound l sub trivial
  · rfl

theorem inFlight_inboundEvent (l : Link) (ch : ChannelId) (event : InboundEvent) :
    (inboundEvent ch event l).inFlight = l.inFlight := by
  unfold inboundEvent
  split
  · rfl
  · rename_i sub _
    cases event with
    | received result => exact inFlight_resumeInbound l sub _
    | pollReader =>
      dsimp only
      split
      · rfl
      · exact inFlight_resumeInbound l sub _
      · exact inFlight_resumeInbound l sub _
    | copied result => exact inFlight_resumeInbound l sub _
    | fails error => exact inFlight_endInbound l sub trivial
    | otherProtocol => exact inFlight_dropInbound l sub

end Link

/-- A step of a connection moves requests along or drops one. -/
theorem LinkStep.inFlight_subperm {a : Label} {c : ConnectionId} {f : Link → Link}
    (h : LinkStep a c f) (l : Link) : (f l).inFlight.Subperm l.inFlight := by
  cases h with
  | deliverCommand => exact (List.Perm.of_eq (Link.inFlight_deliverCommand l)).subperm
  | pollHandler => exact (List.Perm.of_eq (Link.inFlight_pollHandler l _ _)).subperm
  | inbound => exact (List.Perm.of_eq (Link.inFlight_inboundEvent l _ _)).subperm
  | endOutbound => exact Link.inFlight_endOutbound l _ _

/-! ## What the behaviour queues for a connection -/

theorem FileGet.notified_push (s : FileGet) (c : ConnectionId)
    (actions : List NetworkBehaviourAction) :
    (s.push actions).notified c =
      s.notified c ++ actions.filterMap (NetworkBehaviourAction.notified? c) := by
  simp [notified, List.filterMap_append]

/-- Reports are for no connection. -/
theorem filterMap_notified_events (c : ConnectionId) {α : Type} (f : α → FileGetEvent)
    (l : List α) : (l.map fun x => NetworkBehaviourAction.generateEvent (f x)).filterMap
      (NetworkBehaviourAction.notified? c) = [] := by
  rw [List.filterMap_map, List.filterMap_eq_nil_iff]
  exact fun _ _ => rfl

theorem filterMap_notified_closedEvents (c : ConnectionId) (o i : IterOrder RequestId)
    (p : PeerId) (conn : Connection) :
    (closedEvents o i p conn).filterMap (NetworkBehaviourAction.notified? c) = [] := by
  rw [closedEvents, List.filterMap_append, filterMap_notified_events, filterMap_notified_events]
  rfl

/-- Requests for one connection are for no other. -/
theorem filterMap_notified_requests (c d : ConnectionId) (p : PeerId)
    (pending : List FileGetOutboundProtocol) :
    (pending.map (NetworkBehaviourAction.notifyHandler p c)).filterMap
      (NetworkBehaviourAction.notified? d) = if c = d then pending else [] := by
  rw [List.filterMap_map]
  split
  · rename_i hcd
    refine (List.filterMap_congr fun x _ => ?_).trans (List.filterMap_some)
    simp [NetworkBehaviourAction.notified?, hcd]
  · rename_i hcd
    rw [List.filterMap_eq_nil_iff]
    intro x _
    simp [NetworkBehaviourAction.notified?, hcd]

/-- What was dispatched is queued for its connection and no other. -/
theorem FileGet.Dispatched.notified {s s' : FileGet} {p : PeerId} {c : ConnectionId}
    {pending : List FileGetOutboundProtocol} (h : Dispatched s p c pending s')
    (d : ConnectionId) :
    s'.notified d = s.notified d ++ if c = d then pending else [] := by
  unfold FileGet.notified
  rw [h.events, List.filterMap_append, filterMap_notified_requests]

/-! ## One step -/

namespace InFlight

variable {s s' : System}

/-- A step that changes each link by itself, lengthens no pipeline and
keeps waiting for what is still in one. -/
theorem of_map (hi : InFlight s) {g : Link → Link} (hlinks : s'.links = s.links.map g)
    (hg : ∀ l, (g l).id = l.id ∧ (g l).peer = l.peer) (hused : s'.usedIds = s.usedIds)
    (hpipe : ∀ l ∈ s.links, (s'.pipeline (g l)).Subperm (s.pipeline l))
    (hw : ∀ l ∈ s.links, ∀ r ∈ s'.pipeline (g l), s.fileGet.Waiting l.peer l.id r →
      s'.fileGet.Waiting l.peer l.id r)
    (hnotify : ∀ p c request, .notifyHandler p c request ∈ s'.fileGet.pendingEvents →
      .notifyHandler p c request ∈ s.fileGet.pendingEvents) : InFlight s' where
  nodup k hk := by
    rw [hlinks] at hk
    obtain ⟨l, hl, rfl⟩ := List.mem_map.mp hk
    obtain ⟨ids, hperm, hsub⟩ := hpipe l hl
    exact hperm.nodup_iff.mp (hsub.nodup (hi.nodup l hl))
  waiting k hk r hr := by
    rw [hlinks] at hk
    obtain ⟨l, hl, rfl⟩ := List.mem_map.mp hk
    rw [(hg l).1, (hg l).2]
    exact hw l hl r hr (hi.waiting l hl r ((hpipe l hl).subset hr))
  used p c request h := hused ▸ hi.used p c request (hnotify p c request h)

/-- A step that leaves links, queues and sets as they are, up to reports
and dials. -/
theorem of_same (hi : InFlight s) {g : Link → Link} (hlinks : s'.links = s.links.map g)
    (hg : ∀ l, (g l).id = l.id ∧ (g l).peer = l.peer) (hused : s'.usedIds = s.usedIds)
    (hflight : ∀ l, (g l).inFlight.Subperm l.inFlight)
    (hnot : ∀ c, s'.fileGet.notified c = s.fileGet.notified c)
    (hw : ∀ q d x, s.fileGet.Waiting q d x → s'.fileGet.Waiting q d x)
    (hnotify : ∀ p c request, .notifyHandler p c request ∈ s'.fileGet.pendingEvents →
      .notifyHandler p c request ∈ s.fileGet.pendingEvents) : InFlight s' := by
  refine hi.of_map hlinks hg hused (fun l _ => ?_) (fun l _ r _ => hw _ _ _) hnotify
  unfold System.pipeline
  rw [hnot, (hg l).1]
  exact (List.subperm_append_right _).mpr (hflight l)

/-- Nothing is queued for a connection before it is there. -/
theorem notified_nil (hi : InFlight s) {c : ConnectionId} (hfresh : c ∉ s.usedIds) :
    s.fileGet.notified c = [] := by
  refine List.filterMap_eq_nil_iff.mpr fun action haction => ?_
  cases action with
  | notifyHandler q d request =>
    have hne : d ≠ c := fun h => hfresh (h ▸ hi.used q d request haction)
    simp [NetworkBehaviourAction.notified?, hne]
  | generateEvent e => rfl
  | dial q h => rfl

/-- A new connection, with requests queued for it. -/
theorem of_establish (hi : InFlight s) (hm : Mirror s) {p : PeerId} {c : ConnectionId}
    {ep : ConnectedPoint} {resolves : Bool} {fg : FileGet}
    (pending : List FileGetOutboundProtocol) (hfresh : c ∉ s.usedIds)
    (hnot : ∀ d, fg.notified d = s.fileGet.notified d ++ if c = d then pending else [])
    (hw : ∀ q d x, s.fileGet.Waiting q d x → fg.Waiting q d x)
    (hnew : ∀ request ∈ pending, fg.Waiting p c request.requestId)
    (hnodup : (pending.map (·.requestId)).Nodup)
    (hused : ∀ q d request, .notifyHandler q d request ∈ fg.pendingEvents →
      .notifyHandler q d request ∈ s.fileGet.pendingEvents ∨ d = c) :
    InFlight (s.establish p c ep resolves fg) := by
  have hnone := hi.notified_nil hfresh
  have hold : ∀ l ∈ s.links, (s.establish p c ep resolves fg).pipeline l = s.pipeline l := by
    intro l hl
    have hne : c ≠ l.id := fun h => hfresh (h ▸ hm.used l hl)
    unfold System.pipeline
    show _ ++ (fg.notified l.id).map _ = _
    rw [hnot, if_neg hne, List.append_nil]
  have hpipe : (s.establish p c ep resolves fg).pipeline (Link.new c p ep fg.newHandler) =
      pending.map (·.requestId) := by
    unfold System.pipeline
    show [] ++ (fg.notified c).map _ = _
    rw [hnot, hnone, if_pos rfl]
    rfl
  constructor
  · intro l hl
    rcases List.mem_append.mp hl with hl | hl
    · rw [hold l hl]
      exact hi.nodup l hl
    · rw [List.mem_singleton.mp hl, hpipe]
      exact hnodup
  · intro l hl r hr
    rcases List.mem_append.mp hl with hl | hl
    · rw [hold l hl] at hr
      exact hw _ _ _ (hi.waiting l hl r hr)
    · rw [List.mem_singleton.mp hl] at hr ⊢
      rw [hpipe] at hr
      obtain ⟨request, hmem, rfl⟩ := List.mem_map.mp hr
      exact hnew request hmem
  · intro q d request h
    rcases hused q d request h with h | rfl
    · exact List.mem_cons_of_mem _ (hi.used q d request h)
    · exact List.mem_cons_self

/-- A new request enters the pipeline of its connection at the end. -/
theorem dispatched (hi : InFlight s) (hm : Mirror s) {p : PeerId} {l₀ : Link} {fg : FileGet}
    {request : FileGetOutboundProtocol} (hl₀ : l₀ ∈ s.links) (hpeer : l₀.peer = p)
    (hfresh : ∀ q c, ¬ s.fileGet.Waiting q c request.requestId)
    (hd : Dispatched s.fileGet.drawn p l₀.id [request] fg) :
    InFlight { s with fileGet := fg } := by
  have hpipe : ∀ l, System.pipeline { s with fileGet := fg } l =
      s.pipeline l ++ if l₀.id = l.id then [request.requestId] else [] := by
    intro l
    unfold System.pipeline
    show _ ++ (fg.notified l.id).map _ = _
    rw [hd.notified, List.map_append, ← List.append_assoc]
    split <;> rfl
  have hw : ∀ q d x, s.fileGet.Waiting q d x → fg.Waiting q d x :=
    fun q d x h => (hd.waiting q d x).mpr (Or.inl h)
  constructor
  · intro l hl
    rw [hpipe]
    split
    · refine List.nodup_append.mpr ⟨hi.nodup l hl, by simp, ?_⟩
      rintro x hx y hy rfl
      rw [List.mem_singleton.mp hy] at hx
      exact hfresh _ _ (hi.waiting l hl _ hx)
    · rw [List.append_nil]
      exact hi.nodup l hl
  · intro l hl r hr
    rw [hpipe] at hr
    rcases List.mem_append.mp hr with hr | hr
    · exact hw _ _ _ (hi.waiting l hl r hr)
    · split at hr
      · rename_i hid
        have hll : l = l₀ := List.inj_on_of_nodup_map hm.ids hl hl₀ hid.symm
        rw [List.mem_singleton.mp hr, hll, hpeer]
        exact (hd.waiting _ _ _).mpr (Or.inr ⟨rfl, rfl, request, by simp, rfl⟩)
      · cases hr
  · intro q d x hx
    have hevents : fg.pendingEvents = s.fileGet.pendingEvents ++ [.notifyHandler p l₀.id request] :=
      hd.events
    show d ∈ s.usedIds
    rw [hevents] at hx
    rcases List.mem_append.mp hx with hx | hx
    · exact hi.used q d x hx
    · simp only [List.mem_singleton, NetworkBehaviourAction.notifyHandler.injEq] at hx
      rw [hx.2.1]
      exact hm.used l₀ hl₀

/-- The close of one connection leaves the pipelines of the others. -/
theorem closed (hi : InFlight s) {l : Link} {o i : IterOrder RequestId} {conn : Connection} :
    InFlight { s with
      fileGet := (s.fileGet.storeConnections l.peer (s.fileGet.remaining l.peer l.id)).push
        (closedEvents o i l.peer conn)
      links := s.links.filter fun k => k.id ≠ l.id } := by
  have hnot : ∀ c, ((s.fileGet.storeConnections l.peer (s.fileGet.remaining l.peer l.id)).push
      (closedEvents o i l.peer conn)).notified c = s.fileGet.notified c := by
    intro c
    rw [notified_push, filterMap_notified_closedEvents, List.append_nil]
    rfl
  have hpipe : ∀ k, System.pipeline { s with
      fileGet := (s.fileGet.storeConnections l.peer (s.fileGet.remaining l.peer l.id)).push
        (closedEvents o i l.peer conn)
      links := s.links.filter fun k => k.id ≠ l.id } k = s.pipeline k := by
    intro k
    unfold System.pipeline
    show _ ++ (FileGet.notified _ k.id).map _ = _
    rw [hnot]
  constructor
  · intro k hk
    rw [hpipe]
    exact hi.nodup k (List.mem_of_mem_filter hk)
  · intro k hk r hr
    rw [hpipe] at hr
    obtain ⟨hmem, hne⟩ := List.mem_filter.mp hk
    refine (holds_closed _).mpr ⟨hi.waiting k hmem r hr, fun h => ?_⟩
    simp only [ne_eq, decide_not, Bool.not_eq_eq_eq_not, Bool.not_true, decide_eq_false_iff_not]
      at hne
    exact hne h.2
  · intro q d request hmem
    rcases List.mem_append.mp hmem with hmem | hmem
    · exact hi.used q d request hmem
    · simp [closedEvents] at hmem

/-- An event leaves the pipeline, and the set, together. -/
theorem delivered (hi : InFlight s) (hm : Mirror s) {l : Link} {e : FileGetHandlerEvent}
    {rest : List FileGetHandlerEvent} (hl : l ∈ s.links) (he : l.events = e :: rest) :
    InFlight { s.updateLink l.id Link.dropEvent with
      fileGet := s.fileGet.afterEvent l.peer l.id e } := by
  have hnot : ∀ c, (s.fileGet.afterEvent l.peer l.id e).notified c = s.fileGet.notified c := by
    intro c
    rw [FileGet.afterEvent, notified_push]
    simp [notified, NetworkBehaviourAction.notified?]
  have hpipe : ∀ k ∈ s.links, s.pipeline k = (if k.id = l.id then e.completes.toList else []) ++
      System.pipeline { s.updateLink l.id Link.dropEvent with
        fileGet := s.fileGet.afterEvent l.peer l.id e }
        (if k.id = l.id then Link.dropEvent k else k) := by
    intro k hk
    unfold System.pipeline
    show _ = _ ++ (_ ++ (FileGet.notified (s.fileGet.afterEvent l.peer l.id e) _).map _)
    rw [hnot]
    split
    · rename_i hid
      have hkl : k = l := List.inj_on_of_nodup_map hm.ids hk hl hid
      rw [hkl, Link.inFlight_dropEvent he, List.append_assoc]
      rfl
    · rfl
  refine hi.of_map (g := fun k => if k.id = l.id then Link.dropEvent k else k) rfl ?_ rfl ?_ ?_ ?_
  · intro k
    split <;> exact ⟨rfl, rfl⟩
  · intro k hk
    rw [hpipe k hk]
    exact (List.sublist_append_right _ _).subperm
  · intro k hk r hr hwait
    refine (afterEvent_waiting hm.wf e).mpr ⟨hwait, ?_⟩
    rintro ⟨-, hid, hr'⟩
    have hn := hi.nodup k hk
    rw [hpipe k hk, if_pos hid, hr'] at hn
    exact (List.nodup_cons.mp hn).1 (by rw [if_pos hid] at hr ⊢; exact hr)
  · intro q d request hmem
    rcases List.mem_append.mp hmem with hmem | hmem
    · simpa using hmem
    · simp at hmem

/-- Handing a request to its connection moves it from the queue to the
commands. -/
theorem performed (hi : InFlight s) {action : NetworkBehaviourAction}
    {rest : List NetworkBehaviourAction} (hq : s.fileGet.pendingEvents = action :: rest) :
    InFlight (System.perform { s with fileGet := { s.fileGet with pendingEvents := rest } }
      action) := by
  have hnotify : ∀ p c request, NetworkBehaviourAction.notifyHandler p c request ∈ rest →
      .notifyHandler p c request ∈ s.fileGet.pendingEvents :=
    fun _ _ _ h => hq ▸ List.mem_cons_of_mem _ h
  have hnot : ∀ c, s.fileGet.notified c = (action.notified? c).toList ++
      rest.filterMap (NetworkBehaviourAction.notified? c) := by
    intro c
    unfold FileGet.notified
    rw [hq]
    cases h : action.notified? c <;> simp [h]
  have hid : ∀ l : Link, ((fun k => k) l).id = l.id ∧ ((fun k => k) l).peer = l.peer :=
    fun _ => ⟨rfl, rfl⟩
  cases action with
  | dial p h =>
    exact hi.of_same (by simp [System.perform]) hid rfl (fun l => List.Subperm.refl _)
      (fun c => (hnot c).symm) (fun _ _ _ => id) hnotify
  | generateEvent e =>
    cases e <;>
      exact hi.of_same (by simp [System.perform]) hid rfl (fun l => List.Subperm.refl _)
        (fun c => (hnot c).symm) (fun _ _ _ => id) hnotify
  | notifyHandler p c request =>
    refine hi.of_map (g := fun k => if k.id = c then Link.addCommand request k else k) rfl ?_ rfl
      ?_ (fun _ _ _ _ => id) hnotify
    · intro k
      split <;> exact ⟨rfl, rfl⟩
    · intro k _
      refine (List.Perm.of_eq ?_).subperm
      unfold System.pipeline
      rw [hnot]
      by_cases hk : k.id = c
      · rw [if_pos hk, Link.inFlight_addCommand]
        simp [NetworkBehaviourAction.notified?, hk, System.perform, System.updateLink,
          FileGet.notified, Link.addCommand]
      · have hk' : c ≠ k.id := fun h => hk h.symm
        rw [if_neg hk]
        simp [NetworkBehaviourAction.notified?, hk', System.perform, System.updateLink,
          FileGet.notified]

/-- **One step keeps the pipelines.** -/
theorem step {n : Nat} {a : Label} (hi : InFlight s) (hm : Mirror s) (hp : Placed n s.fileGet)
    (hn : (if a.isSend then n + 1 else n) ≤ UInt64.size) (h : Stepped s a s') : InFlight s' := by
  have hid : ∀ l : Link, ((fun k => k) l).id = l.id ∧ ((fun k => k) l).peer = l.peer :=
    fun _ => ⟨rfl, rfl⟩
  have hrefl : ∀ l : Link, ((fun k => k) l).inFlight.Subperm l.inFlight :=
    fun _ => List.Subperm.refl _
  cases h with
  | buffered p m w _ =>
    refine hi.of_same (by simp) hid rfl hrefl (fun c => ?_) (fun _ _ _ => id) ?_
    · show (List.filterMap _ (_ ++ [_])) = _
      rw [List.filterMap_append]
      exact List.append_nil _
    · intro q c request hmem
      rcases List.mem_append.mp hmem with hmem | hmem
      · exact hmem
      · simp at hmem
  | dispatched p m w l fg hl hpeer hd =>
    refine hi.dispatched hm hl hpeer (fun q c hw => ?_) hd
    exact hp.fresh hn (Or.inr ⟨c, hw⟩) rfl
  | established p c ep resolves hfresh _ _ =>
    refine hi.of_establish hm [] hfresh (fun d => ?_)
      (fun q d x => (addConnection_holds ep fun _ _ => rfl).mpr) (by simp) (by simp)
      fun q d request hmem => Or.inl hmem
    rw [ite_self, List.append_nil]
    rfl
  | drained p c ep resolves pending fg hfresh _ _ hb _ hd =>
    refine hi.of_establish hm pending hfresh (fun d => hd.notified d)
      (fun q d x hx => ?_) (fun request hmem => ?_) ?_ fun q d request hmem => ?_
    · exact (hd.waiting q d x).mpr (Or.inl ((addConnection_holds ep fun _ _ => rfl).mpr hx))
    · exact (hd.waiting _ _ _).mpr (Or.inr ⟨rfl, rfl, request, hmem, rfl⟩)
    · exact buffer_of_lookup hb ▸ hp.bufferNodup p
    · have hevents : fg.pendingEvents =
          s.fileGet.pendingEvents ++ pending.map (.notifyHandler p c) := hd.events
      rw [hevents] at hmem
      rcases List.mem_append.mp hmem with hmem | hmem
      · exact Or.inl hmem
      · obtain ⟨request', -, heq⟩ := List.mem_map.mp hmem
        simp only [NetworkBehaviourAction.notifyHandler.injEq] at heq
        exact Or.inr heq.2.1.symm
  | closed l o i conn _ _ _ => exact hi.closed
  | addressChange l ep _ =>
    refine hi.of_same (g := fun k => if k.id = l.id then Link.setEndpoint ep k else k) rfl
      (fun k => ?_) rfl (fun k => ?_) (fun c => ?_)
      (fun q d x => (holds_readdress hm.wf ep fun _ => rfl).mpr) fun q c request hmem => ?_
    · split <;> exact ⟨rfl, rfl⟩
    · split
      · exact (List.Perm.of_eq (Link.inFlight_setEndpoint k ep)).subperm
      · exact List.Subperm.refl _
    · simp [FileGet.notified]
    · simpa using hmem
  | dialFailed peer resolves _ =>
    exact hi.of_same (by simp) hid rfl hrefl (fun _ => rfl) (fun _ _ _ => id) fun _ _ _ => id
  | dialDrained p resolves pending _ =>
    refine hi.of_same (by simp) hid rfl hrefl (fun c => ?_) (fun _ _ _ => id) ?_
    · show ((s.fileGet.clearBuffer p).push _).notified c = _
      rw [notified_push, filterMap_notified_events, List.append_nil]
      rfl
    · intro q c request hmem
      rcases List.mem_append.mp hmem with hmem | hmem
      · exact hmem
      · simp at hmem
  | swarmNotice event => exact hi
  | pollIdle _ => exact hi
  | pollReady action rest hq => exact hi.performed hq
  | deliverEvent l conn e rest hl he _ _ => exact hi.delivered hm hl he
  | link a c f hf =>
    refine hi.of_same (g := fun k => if k.id = c then f k else k) rfl (fun k => ?_) rfl
      (fun k => ?_) (fun _ => rfl) (fun _ _ _ => id) fun _ _ _ => id
    · split
      · exact ⟨(hf.keeps k).1, (hf.keeps k).2.1⟩
      · exact ⟨rfl, rfl⟩
    · split
      · exact hf.inFlight_subperm k
      · exact List.Subperm.refl _
  | openInbound l _ =>
    refine hi.of_same rfl (fun k => ?_) rfl (fun k => ?_) (fun _ => rfl) (fun _ _ _ => id)
      fun _ _ _ => id
    · split <;> exact ⟨rfl, rfl⟩
    · split <;> exact List.Subperm.refl _
  | respond ch reader =>
    exact hi.of_same (g := Link.setResponse ch (.sent reader)) rfl (fun k => ⟨rfl, rfl⟩) rfl
      (fun k => (List.Perm.of_eq (Link.inFlight_setResponse k _ _)).subperm) (fun _ => rfl)
      (fun _ _ _ => id) fun _ _ _ => id
  | dropResponder ch =>
    exact hi.of_same (g := Link.setResponse ch .dropped) rfl (fun k => ⟨rfl, rfl⟩) rfl
      (fun k => (List.Perm.of_eq (Link.inFlight_setResponse k _ _)).subperm) (fun _ => rfl)
      (fun _ _ _ => id) fun _ _ _ => id

end InFlight

/-! ## Whole runs -/

theorem inFlight_init (config : FileGetConfig) : InFlight (.init config) where
  nodup l hl := by simp [System.init] at hl
  waiting l hl := by simp [System.init] at hl
  used p c request h := by simp [System.init, fromConfig] at h

variable {config : FileGetConfig} {debug : Bool} {tr : Trace System Label} {s : System}

/-- **In every run the pipelines hold distinct ids, all waited for.** -/
theorem run_inFlight (h : (fileGetSystem config debug).Run tr s) (hn : sends tr ≤ UInt64.size) :
    InFlight s := by
  induction tr generalizing s with
  | nil => cases h; exact inFlight_init config
  | cons t tr ih =>
    obtain ⟨hrun, -, -, rfl⟩ := h.tail
    obtain ⟨hm, hstep⟩ := run_stepped h
    have hn' := Nat.le_trans (sends_tail_le t tr) hn
    rw [sends_cons] at hn
    exact (ih hrun hn').step hm (run_placed hrun hn') hn hstep

/-- **An event that completes a request finds it waiting.** -/
theorem completes_waiting (hi : InFlight s) {l : Link} (hl : l ∈ s.links)
    {e : FileGetHandlerEvent} {rest : List FileGetHandlerEvent} (he : l.events = e :: rest)
    {r : RequestId} (hr : e.completes = some r) : s.fileGet.Waiting l.peer l.id r := by
  refine hi.waiting l hl r (List.mem_append_left _ ?_)
  rw [Link.inFlight_dropEvent he, hr]
  exact List.mem_cons_self

end FileSharing
