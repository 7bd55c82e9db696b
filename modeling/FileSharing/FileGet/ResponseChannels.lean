/-
FileSharing.FileGet.ResponseChannels — where the sender of a response
channel is.

`listen_protocol` makes a response channel for every inbound substream.
Its receiver is in the upgrade; its sender travels: it waits in the
handler next to the request's receiver, leaves with the `Request` event,
is queued in `RequestReceived`, and ends with the application, which uses
or drops it. `senderCount` counts the places a sender is in, and no step
but the one that makes the channel lets the count grow.
-/
import Mathlib.Algebra.Order.BigOperators.Group.List
import Mathlib.Algebra.Order.Group.Nat
import FileSharing.FileGet.Responses
import FileSharing.FileGet.InboundMoves

namespace FileSharing

open Lib FileGet

/-! ## Senders -/

/-- The channel whose sender an event of a handler carries. -/
def FileGetHandlerEvent.channel? : FileGetHandlerEvent → Option ChannelId
  | .request _ _ ch => some ch
  | _ => none

/-- The channel whose sender a queued action carries. -/
def NetworkBehaviourAction.channel? : NetworkBehaviourAction → Option ChannelId
  | .generateEvent (.requestReceived _ _ _ ch) => some ch
  | _ => none

/-- The senders on their way through a connection. -/
def Link.senders (l : Link) : List ChannelId :=
  l.handler.inbound.map (·.channel) ++ l.handler.pendingEvents.filterMap (·.channel?) ++
  l.events.filterMap (·.channel?)

/-- The senders in the queue of the behaviour. -/
def FileGet.senders (s : FileGet) : List ChannelId :=
  s.pendingEvents.filterMap (·.channel?)

/-- The number of places the sender of a channel is in. -/
def System.senderCount (s : System) (ch : ChannelId) : Nat :=
  (s.links.map fun l => l.senders.count ch).sum + s.fileGet.senders.count ch +
  s.responders.count ch

/-- The number of channel pairs a step makes. -/
def Label.opened : Label → Nat
  | .openInbound _ => 1
  | _ => 0

namespace Link

variable (l : Link)

theorem senders_dropEvent {e : FileGetHandlerEvent} {rest : List FileGetHandlerEvent}
    (h : l.events = e :: rest) (ch : ChannelId) :
    (dropEvent l).senders.count ch + e.channel?.toList.count ch = l.senders.count ch := by
  unfold dropEvent senders
  simp only [h, List.tail_cons, List.count_append, List.filterMap_cons]
  cases he : e.channel? with
  | none => simp
  | some c =>
    simp only [Option.toList_some, List.count_cons, List.count_nil]
    omega

theorem senders_openInbound (g : RequestIdGenerator) (c ch : ChannelId) :
    (l.openInbound g c).1.senders.count ch = l.senders.count ch + [c].count ch := by
  unfold openInbound Handler.listenProtocol senders
  simp only [List.map_append, List.map_cons, List.map_nil, List.count_append]
  omega

end Link

/-- Only a request carries a sender. -/
theorem FileGetHandlerEvent.channel?_eq_none {e : FileGetHandlerEvent} (h : e.announces = none) :
    e.channel? = none := by
  cases e with
  | request r m ch => cases h
  | _ => rfl

/-- Futures keep their channels, whatever becomes of them. -/
theorem map_channel_eq {inbound : List InboundFuture} {ch : ChannelId} {state : FutureState} :
    (inbound.map fun f => if f.channel = ch then { f with state := state } else f).map
      (·.channel) = inbound.map (·.channel) := by
  rw [List.map_map]
  refine List.map_congr_left fun f _ => ?_
  dsimp only [Function.comp]
  split <;> rfl

/-- The connection task moves senders along or drops one. -/
theorem InboundMoved.senders_count {a : Label} {l l' : Link} (h : InboundMoved a l l')
    (ch : ChannelId) : l'.senders.count ch ≤ l.senders.count ch := by
  have hqueued : ∀ queued : List FileGetHandlerEvent, (∀ e ∈ queued, e.announces = none) →
      l'.handler.inbound.map (·.channel) = l.handler.inbound.map (·.channel) →
      l'.handler.pendingEvents = l.handler.pendingEvents ++ queued → l'.events = l.events →
      l'.senders.count ch ≤ l.senders.count ch := by
    intro queued hq hfut hpend hev
    have hnil : queued.filterMap (·.channel?) = [] :=
      List.filterMap_eq_nil_iff.mpr fun e he => FileGetHandlerEvent.channel?_eq_none (hq e he)
    unfold Link.senders
    rw [hfut, hpend, hev, List.filterMap_append, hnil, List.append_nil]
  cases h with
  | aside queued _ hfut hpend hq hev =>
    exact hqueued queued (fun e he => (FileGetHandlerEvent.inboundId?_eq_none.mp (hq e he)).1)
      (by rw [hfut]) hpend hev
  | emitted e _ hfut hpend hev =>
    simp only [Link.senders, hfut, hpend, hev, List.count_append, List.filterMap_append,
      List.filterMap_cons]
    cases he : e.channel? with
    | none => simp
    | some c =>
      simp only [List.filterMap_nil, List.count_cons, List.count_nil]
      omega
  | announced c r m _ hmem hfut hpend hev =>
    have hcount := (List.perm_cons_erase hmem).map (·.channel)
    have := hcount.count_eq ch
    simp only [Link.senders, hfut, hpend, hev, List.count_append, List.filterMap_append,
      List.filterMap_cons, List.filterMap_nil, FileGetHandlerEvent.channel?, List.map_cons,
      List.count_cons, List.count_nil] at this ⊢
    omega
  | consumed _ hc hpend hev =>
    have := (hc.sublist.map (·.channel)).count_le ch
    simp only [Link.senders, hpend, hev, List.count_append]
    omega
  | passed sub m _ _ _ hhandler hev =>
    refine hqueued [] (by simp) ?_ ?_ hev
    · rw [hhandler]
      exact map_channel_eq
    · rw [hhandler]
      exact (List.append_nil _).symm
  | copies sub reader _ _ _ _ hhandler hev =>
    exact hqueued [] (by simp) (by rw [hhandler]) (by rw [hhandler, List.append_nil]) hev
  | ended sub queued _ _ hfut hpend hend hev =>
    refine hqueued queued (fun e he => e.announces_of_concludes (hend.concludes e he)) ?_ hpend hev
    rw [hfut]
    split
    · exact map_channel_eq
    · rfl

theorem NetworkBehaviourAction.channel?_of_isPlain {action : NetworkBehaviourAction}
    (h : action.isPlain = true) : action.channel? = none := by
  cases action with
  | generateEvent event => cases event <;> first | rfl | cases h
  | dial _ _ | notifyHandler _ _ _ => rfl

theorem FileGetHandlerEvent.report_channel? (e : FileGetHandlerEvent) (p : PeerId) :
    (NetworkBehaviourAction.generateEvent (e.report p)).channel? = e.channel? := by
  cases e <;> rfl

/-- Plain actions leave the senders in the queue alone. -/
theorem FileGet.senders_of_plain {s s' : FileGet} {actions : List NetworkBehaviourAction}
    (h : s'.pendingEvents = s.pendingEvents ++ actions)
    (hplain : ∀ x ∈ actions, x.isPlain = true) : s'.senders = s.senders := by
  have hnil : actions.filterMap (·.channel?) = [] :=
    List.filterMap_eq_nil_iff.mpr fun x hx =>
      NetworkBehaviourAction.channel?_of_isPlain (hplain x hx)
  unfold senders
  rw [h, List.filterMap_append, hnil, List.append_nil]

/-! ## Counting in the system -/

section Counting

variable {s s' : System} (ch : ChannelId)

/-- The connections change one by one, none of them gaining a sender. -/
theorem sum_senders_le {g : Link → Link}
    (h : ∀ l ∈ s.links, (g l).senders.count ch ≤ l.senders.count ch) :
    ((s.links.map g).map fun l => l.senders.count ch).sum ≤
      (s.links.map fun l => l.senders.count ch).sum := by
  rw [List.map_map]
  exact List.sum_le_sum h

/-- The queue of the behaviour, for all steps but the two that move its
senders. -/
theorem stepped_queue_senders {a : Label} (h : Stepped s a s') (hd : ∀ c, a ≠ .deliverEvent c)
    (hp : a ≠ .pollBehaviour) : s'.fileGet.senders = s.fileGet.senders := by
  cases stepped_queued h with
  | added a actions happ hplain => exact senders_of_plain happ hplain
  | reported l e rest _ _ _ => exact absurd rfl (hd l.id)
  | polled action rest _ _ => exact absurd rfl hp

/-- A new connection has no senders. -/
theorem sum_senders_establish (p : PeerId) (c : ConnectionId) (ep : ConnectedPoint)
    (handler : Handler) (hinbound : handler.inbound = []) (hevents : handler.pendingEvents = []) :
    ((s.links ++ [Link.new c p ep handler]).map fun l => l.senders.count ch).sum =
      (s.links.map fun l => l.senders.count ch).sum := by
  have hnew : (Link.new c p ep handler).senders = [] := by
    simp [Link.senders, Link.new, hinbound, hevents]
  simp [hnew]

/-- The oldest action of the queue is carried out: a sender in it goes to
the application. -/
theorem perform_senderCount {action : NetworkBehaviourAction}
    {rest : List NetworkBehaviourAction} (hq : s.fileGet.pendingEvents = action :: rest) :
    (System.perform { s with fileGet := { s.fileGet with pendingEvents := rest } }
      action).senderCount ch = s.senderCount ch := by
  cases action with
  | dial p h => simp [System.perform, System.senderCount, FileGet.senders, hq,
      NetworkBehaviourAction.channel?]
  | notifyHandler p c request =>
    have hlinks : ((s.links.map fun l => if l.id = c then Link.addCommand request l else l).map
        fun l => l.senders.count ch) = s.links.map fun l => l.senders.count ch := by
      rw [List.map_map]
      refine List.map_congr_left fun l _ => ?_
      dsimp only [Function.comp]
      split <;> rfl
    simp [System.perform, System.updateLink, System.senderCount, FileGet.senders, hq,
      NetworkBehaviourAction.channel?, hlinks]
  | generateEvent e =>
    cases e with
    | requestReceived p r m c =>
      simp only [System.perform, System.senderCount, FileGet.senders, hq,
        NetworkBehaviourAction.channel?, List.filterMap_cons, List.count_cons]
      omega
    | _ => simp [System.perform, System.senderCount, FileGet.senders, hq,
        NetworkBehaviourAction.channel?]

/-- A handler's event reaches the behaviour, a sender with it. -/
theorem deliver_senderCount (hm : Mirror s) {l : Link} (hl : l ∈ s.links)
    {e : FileGetHandlerEvent} {rest : List FileGetHandlerEvent} (hev : l.events = e :: rest) :
    System.senderCount { s.updateLink l.id Link.dropEvent with
      fileGet := s.fileGet.afterEvent l.peer l.id e } ch = s.senderCount ch := by
  have hsum := sum_update Link.id Link.dropEvent (fun l => l.senders.count ch) hm.ids hl
  have hdrop := Link.senders_dropEvent l hev ch
  have hqueue : (s.fileGet.afterEvent l.peer l.id e).senders =
      s.fileGet.senders ++ e.channel?.toList := by
    unfold FileGet.senders
    rw [afterEvent_pendingEvents, List.filterMap_append, List.filterMap_cons,
      FileGetHandlerEvent.report_channel?]
    cases e.channel? <;> rfl
  unfold System.senderCount System.updateLink
  dsimp only at hsum ⊢
  rw [hqueue, List.count_append]
  omega

/-- A substream is opened: the sender of the next channel is made. -/
theorem openInbound_senderCount (hm : Mirror s) {l : Link} (hl : l ∈ s.links)
    (g : RequestIdGenerator) (c : ChannelId) (fileGet : FileGet)
    (hq : fileGet.pendingEvents = s.fileGet.pendingEvents) (next : Nat) :
    System.senderCount { s.updateLink l.id (fun l => (l.openInbound g c).1) with
      fileGet := fileGet, nextChannel := next } ch = s.senderCount ch + [c].count ch := by
  have hsum := sum_update Link.id (fun l => (l.openInbound g c).1) (fun l => l.senders.count ch)
    hm.ids hl
  have hopen := Link.senders_openInbound l g c ch
  unfold System.senderCount System.updateLink FileGet.senders
  dsimp only at hsum ⊢
  rw [hq]
  omega

/-- **No step puts a sender in a second place.** Only `listen_protocol`
makes one, for the next channel. -/
theorem stepped_senderCount {a : Label} (hm : Mirror s) (hallowed : s.Allowed a = true)
    (h : Stepped s a s') :
    s'.senderCount ch ≤ s.senderCount ch + a.opened * [ChannelId.mk s.nextChannel].count ch := by
  -- the queue is unchanged, the connections and the application gain nothing
  have hquiet : (∀ c, a ≠ .deliverEvent c) → a ≠ .pollBehaviour →
      (s'.links.map fun l => l.senders.count ch).sum ≤
        (s.links.map fun l => l.senders.count ch).sum →
      s'.responders.count ch ≤ s.responders.count ch →
      s'.senderCount ch ≤ s.senderCount ch + a.opened * [ChannelId.mk s.nextChannel].count ch := by
    intro hd hp hsum hresp
    have hqueue := stepped_queue_senders h hd hp
    refine Nat.le_trans ?_ (Nat.le_add_right _ _)
    unfold System.senderCount
    rw [hqueue]
    omega
  cases h with
  | buffered p m w _ => exact hquiet (by simp) (by simp) (Nat.le_refl _) (Nat.le_refl _)
  | dispatched p m w l fg _ _ hd =>
    exact hquiet (by simp) (by simp) (Nat.le_refl _) (Nat.le_refl _)
  | established p c ep resolves _ _ _ =>
    exact hquiet (by simp) (by simp)
      (Nat.le_of_eq (sum_senders_establish ch p c ep _ rfl rfl)) (Nat.le_refl _)
  | drained p c ep resolves pending fg _ _ _ _ _ hd =>
    exact hquiet (by simp) (by simp)
      (Nat.le_of_eq (sum_senders_establish ch p c ep _ rfl rfl)) (Nat.le_refl _)
  | closed l o i conn _ _ _ =>
    refine hquiet (by simp) (by simp) ?_ (Nat.le_refl _)
    exact ((List.filter_sublist (l := s.links)).map _).sum_le_sum fun _ _ => Nat.zero_le _
  | addressChange l ep _ =>
    refine hquiet (by simp) (by simp) (sum_senders_le ch fun k _ => ?_) (Nat.le_refl _)
    split <;> exact Nat.le_refl _
  | dialFailed peer resolves _ => exact hquiet (by simp) (by simp) (Nat.le_refl _) (Nat.le_refl _)
  | dialDrained p resolves pending _ =>
    exact hquiet (by simp) (by simp) (Nat.le_refl _) (Nat.le_refl _)
  | swarmNotice event => exact Nat.le_add_right _ _
  | pollIdle _ => exact Nat.le_add_right _ _
  | pollReady action rest hq =>
    rw [perform_senderCount ch hq]
    exact Nat.le_add_right _ _
  | deliverEvent l conn e rest hl hev _ _ =>
    rw [deliver_senderCount ch hm hl hev]
    exact Nat.le_add_right _ _
  | link a c f hf =>
    refine hquiet ?_ ?_ (sum_senders_le ch fun k hk => ?_) (Nat.le_refl _)
    · intro d heq
      subst heq
      cases hf
    · intro heq
      subst heq
      cases hf
    · split
      · rename_i hid
        exact (hf.moved hm hallowed hk hid).senders_count ch
      · exact Nat.le_refl _
  | openInbound l hl =>
    rw [Label.opened, Nat.one_mul]
    exact Nat.le_of_eq (openInbound_senderCount ch hm hl s.fileGet.inboundIdGenerator
      ⟨s.nextChannel⟩ _ rfl (s.nextChannel + 1))
  | respond c reader | dropResponder c =>
    refine hquiet (by simp) (by simp) (sum_senders_le ch fun k _ => Nat.le_refl _) ?_
    exact List.erase_sublist.count_le ch

end Counting

end FileSharing
