/-
FileSharing.FileGet.EventOrder — an inbound request and the event that
ends it come out of the handler in order, but for one case.

A request reaches the behaviour through a future in the handler, the event
that ends it through `pending_events`, and `poll` looks at the events
first. While the upgrade has not passed its request on, the end of the
upgrade cancels the future, and an upgrade that copies has an application
that was told of the request. That leaves one way for the two to come out
of order: the substream times out after the request was passed on and
before `poll` took it (`timesOutWaiting`). `run_orderly` says that nothing
else can do it.
-/
import FileSharing.FileGet.Completions

namespace FileSharing

open Lib FileGet

/-- The futures, the upgrades and the events of a connection in step: a
future without its request has an upgrade that still receives; a future
that may give a request has not seen its end; and no request comes after
the event that ends it. -/
structure Link.Orderly (l : Link) : Prop where
  asking : ∀ f ∈ l.handler.inbound, f.state = .pending → ∀ sub ∈ l.inbound,
    sub.channel = f.channel → sub.phase = .receiving
  unsettled : ∀ f ∈ l.handler.inbound, f.state ≠ .canceled →
    .nth f.channel.key ∉ l.concluded
  ordered : l.events.Pairwise fun e e' => ∀ r, e.concludes = some r → e'.announces ≠ some r

/-- The future holds a request that the handler has not taken yet. -/
def InboundFuture.isReceived (f : InboundFuture) : Bool :=
  match f.state with
  | .received _ _ => true
  | _ => false

/-- A substream times out while its request, passed on by the upgrade,
waits in the handler. -/
def timesOutWaiting (t : Transition System Label) : Bool :=
  match t.label with
  | .inbound c ch (.fails .timeout) =>
    t.pre.links.any fun l => l.id = c &&
      l.handler.inbound.any fun f => f.channel = ch && f.isReceived
  | _ => false

theorem timesOutWaiting_of_mem {t : Transition System Label} {l : Link} (hl : l ∈ t.pre.links)
    {ch : ChannelId} {r : RequestId} {m : FileGetMessage}
    (ha : t.label = .inbound l.id ch (.fails .timeout))
    (hf : ⟨ch, .received r m⟩ ∈ l.handler.inbound) : timesOutWaiting t = true := by
  simp only [timesOutWaiting, ha, List.any_eq_true, Bool.and_eq_true, decide_eq_true_eq]
  exact ⟨l, hl, rfl, _, hf, rfl, rfl⟩

namespace Wired

variable {s : System} {l : Link}

/-- A future that may give a request was one before. -/
theorem future_before (hw : Wired s) (hl : l ∈ s.links) {a : Label} {l' : Link}
    (h : InboundMoved a l l') {f : InboundFuture} (hf : f ∈ l'.handler.inbound)
    (hlive : f.state ≠ .canceled) :
    ∃ g ∈ l.handler.inbound, g.channel = f.channel ∧ g.state ≠ .canceled := by
  obtain ⟨g, hg, hch, hstate | hstate | ⟨sub, hsub, m, hphase, hsubch, -⟩⟩ := h.future hf
  · exact ⟨g, hg, hch.symm, hstate ▸ hlive⟩
  · exact absurd hstate hlive
  · -- the upgrade was receiving, so its future waited for it
    have hpend := (hw.tidy l hl).receiving sub hsub hphase
    have heq := hw.future_eq hl hg hpend hsubch.symm
    exact ⟨g, hg, hch.symm, by simp [heq]⟩

end Wired

theorem Link.mem_concluded_of_event {l : Link} {e : FileGetHandlerEvent} {r : RequestId}
    (he : e ∈ l.events) (hr : e.concludes = some r) : r ∈ l.concluded :=
  Link.mem_concluded.mpr ⟨e, List.mem_append_left _ he, hr⟩

namespace Link.Orderly

variable {on : List ConnectionId} {s : System} {a : Label} {l l' : Link}

/-- An event more: it is no request, or a request without an end. -/
theorem ordered_append (ho : l.Orderly) {e : FileGetHandlerEvent}
    (h : ∀ r, e.announces = some r → r ∉ l.concluded) :
    (l.events ++ [e]).Pairwise fun e e' => ∀ r, e.concludes = some r → e'.announces ≠ some r := by
  refine List.pairwise_append.mpr ⟨ho.ordered, List.pairwise_singleton _ _, ?_⟩
  intro x hx y hy r hr hannounced
  rw [List.mem_singleton.mp hy] at hannounced
  exact h r hannounced (mem_concluded_of_event hx hr)

/-- An upgrade that ends with an event has no request waiting. -/
theorem receiving_of_ending (ho : l.Orderly) (hw : Wired s) (hl : l ∈ s.links)
    {sub : InboundSubstream} (hsub : sub ∈ l.inbound) {e : FileGetHandlerEvent}
    (hend : Ending a l.id sub [e])
    (htime : ∀ ch r m, a = .inbound l.id ch (.fails .timeout) →
      ⟨ch, .received r m⟩ ∉ l.handler.inbound)
    {f : InboundFuture} (hf : f ∈ l.handler.inbound) (hch : f.channel = sub.channel)
    (hlive : f.state ≠ .canceled) : sub.phase = .receiving := by
  -- an upgrade that copies was given a reader, and its sender is used up
  have hcopying : ∀ reader, sub.phase ≠ .copying reader := by
    intro reader hphase
    have hsent := (hw.tidy l hl).copying sub hsub reader hphase
    have hzero := hw.used l hl sub hsub (by simp [hsent])
    have hpos := Wired.count_future hl hf
    rw [hch, hzero] at hpos
    exact Nat.not_lt_zero _ hpos
  cases hend with
  | sent reader hphase => exact absurd hphase (hcopying reader)
  | failed reader hphase => exact absurd hphase (hcopying reader)
  | unreceived _ hphase _ _ => exact hphase
  | timeout ha =>
    obtain ⟨ch, state⟩ := f
    cases state with
    | pending => exact ho.asking _ hf rfl sub hsub hch.symm
    | received r m => exact absurd (hch ▸ hf) (htime _ r m ha)
    | canceled => exact absurd rfl hlive

/-- A future that waits for its request has an upgrade that receives it. -/
theorem asking_moved (ho : l.Orderly) (h : InboundMoved a l l') {f : InboundFuture}
    (hf : f ∈ l'.handler.inbound) (hpend : f.state = .pending) {x : InboundSubstream}
    (hx : x ∈ l'.inbound) (hch : x.channel = f.channel) : x.phase = .receiving := by
  -- the future was waiting before, and so was the upgrade
  have hold : ∀ y ∈ l.inbound, y.channel = f.channel → y.phase = .receiving := by
    intro y hy hych
    obtain ⟨g, hg, hgch, hstate | hstate | ⟨sub, -, m, -, -, hstate⟩⟩ := h.future hf
    · exact ho.asking g hg (hstate ▸ hpend) y hy (hych.trans hgch)
    · rw [hpend] at hstate
      cases hstate
    · rw [hpend] at hstate
      cases hstate
  cases h with
  | aside queued hin _ _ _ _ => exact hold x (hin ▸ hx) hch
  | emitted e hin _ _ _ => exact hold x (hin ▸ hx) hch
  | announced ch r m hin _ _ _ _ => exact hold x (hin ▸ hx) hch
  | consumed hin _ _ _ => exact hold x (hin ▸ hx) hch
  | passed sub m hsub _ hin hhandler _ =>
    rw [hin] at hx
    obtain ⟨y, hy, rfl⟩ := List.mem_map.mp hx
    split at hch
    · -- the future of this channel got the request
      rename_i heq
      rw [hhandler] at hf
      obtain ⟨g, -, rfl⟩ := List.mem_map.mp hf
      split at hpend
      · cases hpend
      · rename_i hne
        rw [if_neg hne] at hch
        exact absurd (hch.symm.trans heq) hne
    · rename_i hne
      rw [if_neg hne]
      exact hold y hy hch
  | copies sub reader hsub hphase _ hin _ _ =>
    rw [hin] at hx
    obtain ⟨y, hy, rfl⟩ := List.mem_map.mp hx
    split at hch
    · rename_i heq
      rw [hold sub hsub (heq.symm.trans hch)] at hphase
      cases hphase
    · rename_i hne
      rw [if_neg hne]
      exact hold y hy hch
  | ended sub queued _ hin _ _ _ _ => exact hold x (List.mem_of_mem_filter (hin ▸ hx)) hch

/-- A future that may give a request has not seen its end, unless the
substream timed out over it. -/
theorem unsettled_moved (ho : l.Orderly) (hw : Wired s) (hl : l ∈ s.links) (hn : l.Numbered on)
    (hlen : on.length ≤ UInt64.size) (h : InboundMoved a l l')
    (htime : ∀ ch r m, a = .inbound l.id ch (.fails .timeout) →
      ⟨ch, .received r m⟩ ∉ l.handler.inbound) {f : InboundFuture}
    (hf : f ∈ l'.handler.inbound) (hlive : f.state ≠ .canceled) :
    RequestId.nth f.channel.key ∉ l'.concluded := by
  obtain ⟨g, hg, hch, hglive⟩ := hw.future_before hl h hf hlive
  have hold := ho.unsettled g hg hglive
  rw [hch] at hold
  rcases h.concluded with hcon | ⟨sub, e, hsub, -, hfut, hend, hcon⟩
  · rw [hcon]
    exact hold
  · rw [hcon]
    intro hr
    rcases List.mem_append.mp hr with hr | hr
    · exact hold hr
    · have hsubch : g.channel = sub.channel := by
        obtain ⟨hson, hinfo, -⟩ := hn.substream sub hsub
        refine channel_inj hlen (hn.future g hg).1 hson ?_
        rw [hch, ← hinfo]
        exact List.mem_singleton.mp hr
      -- the future of an upgrade that receives is cancelled with it
      have hphase := ho.receiving_of_ending hw hl hsub hend htime hg hsubch hglive
      rw [hfut, if_pos hphase] at hf
      obtain ⟨g', -, rfl⟩ := List.mem_map.mp hf
      split at hlive
      · exact hlive rfl
      · rename_i hne
        rw [if_neg hne] at hch
        exact hne (hch.symm.trans hsubch)

/-- What the handler emits comes in order. -/
theorem ordered_moved (ho : l.Orderly) (hn : l.Numbered on) (h : InboundMoved a l l') :
    l'.events.Pairwise fun e e' => ∀ r, e.concludes = some r → e'.announces ≠ some r := by
  cases h with
  | aside queued _ _ _ _ hev => exact hev ▸ ho.ordered
  | emitted e _ _ hpend hev =>
    rw [hev]
    refine ho.ordered_append fun r hr => ?_
    rw [hn.quiet e (hpend ▸ List.mem_cons_self)] at hr
    cases hr
  | announced ch r m _ hmem _ _ hev =>
    rw [hev]
    refine ho.ordered_append fun r' hr' => ?_
    cases hr'
    rw [(hn.future _ hmem).2 r m rfl]
    exact ho.unsettled _ hmem (by simp)
  | consumed _ _ _ hev => exact hev ▸ ho.ordered
  | passed sub m _ _ _ _ hev => exact hev ▸ ho.ordered
  | copies sub reader _ _ _ _ _ hev => exact hev ▸ ho.ordered
  | ended sub queued _ _ _ _ _ hev => exact hev ▸ ho.ordered

/-- What the connection task does keeps the order, unless a substream
times out over a waiting request. -/
theorem moved (ho : l.Orderly) (hw : Wired s) (hl : l ∈ s.links) (hn : l.Numbered on)
    (hlen : on.length ≤ UInt64.size) (h : InboundMoved a l l')
    (htime : ∀ ch r m, a = .inbound l.id ch (.fails .timeout) →
      ⟨ch, .received r m⟩ ∉ l.handler.inbound) : l'.Orderly where
  asking _ hf hpend _ hx hch := ho.asking_moved h hf hpend hx hch
  unsettled _ hf hlive := ho.unsettled_moved hw hl hn hlen h htime hf hlive
  ordered := ho.ordered_moved hn h

/-- A substream is opened, with a channel and an id of its own. -/
theorem opened (ho : l.Orderly) (hn : l.Numbered on) (hlen : on.length < UInt64.size)
    (g : RequestIdGenerator) : (l.openInbound g ⟨on.length⟩).1.Orderly where
  asking f hf hpend x hx hch := by
    rcases List.mem_append.mp hf with hf | hf
    · rcases List.mem_append.mp hx with hx | hx
      · exact ho.asking f hf hpend x hx hch
      · rw [List.mem_singleton.mp hx]
    · rcases List.mem_append.mp hx with hx | hx
      · -- the channels in use have smaller numbers
        have hlt := (List.getElem?_eq_some_iff.mp (hn.substream x hx).1).1
        rw [List.mem_singleton.mp hf] at hch
        rw [hch] at hlt
        exact absurd hlt (Nat.lt_irrefl _)
      · rw [List.mem_singleton.mp hx]
  unsettled f hf hlive := by
    rcases List.mem_append.mp hf with hf | hf
    · exact ho.unsettled f hf hlive
    · rw [List.mem_singleton.mp hf]
      exact hn.next_not_concluded hlen
  ordered := ho.ordered

theorem dropEvent (ho : l.Orderly) : l.dropEvent.Orderly where
  asking := ho.asking
  unsettled f hf hlive hr := by
    obtain ⟨e, he, hr⟩ := Link.mem_concluded.mp hr
    refine ho.unsettled f hf hlive (Link.mem_concluded.mpr ⟨e, ?_, hr⟩)
    rcases List.mem_append.mp he with he | he
    · exact List.mem_append_left _ (List.mem_of_mem_tail he)
    · exact List.mem_append_right _ he
  ordered := ho.ordered.sublist (List.tail_sublist _)

theorem setResponse (ho : l.Orderly) (ch : ChannelId) (response : ResponseChannel) :
    (Link.setResponse ch response l).Orderly where
  asking f hf hpend x hx hch := by
    obtain ⟨y, hy, hup, -, hphase⟩ := Link.mem_setResponse hx
    have hych : x.channel = y.channel := congrArg (·.requestSender) hup
    exact hphase.trans (ho.asking f hf hpend y hy (hych.symm.trans hch))
  unsettled := ho.unsettled
  ordered := ho.ordered

end Link.Orderly

/-- One step keeps the order. -/
theorem stepped_orderly {tr : Trace System Label} {t : Transition System Label}
    (ho : ∀ l ∈ t.pre.links, l.Orderly) (hm : Mirror t.pre) (hw : Wired t.pre)
    (hn : Numbered tr t.pre) (hlen : (opens (t :: tr)).length ≤ UInt64.size)
    (hallowed : t.pre.Allowed t.label = true) (h : Stepped t.pre t.label t.post)
    (htime : timesOutWaiting t = false) : ∀ l ∈ t.post.links, l.Orderly := by
  intro l' hl'
  rw [opens, List.length_append, Label.length_opensOn] at hlen
  cases stepped_linkFrom hm hallowed h hl' with
  | new hin hfut hpend hev =>
    exact ⟨by simp [hfut], by simp [hfut], by simp [hev]⟩
  | old l hl hid hpeer hmoved =>
    cases hmoved with
    | moved l' _ hmoved =>
      refine (ho l hl).moved hw hl (hn.links l hl) (by omega) hmoved fun ch r m ha hmem => ?_
      rw [timesOutWaiting_of_mem hl ha hmem] at htime
      cases htime
    | delivered e rest _ _ => exact (ho l hl).dropEvent
    | opened ha =>
      rw [ha] at hlen
      rw [hn.next]
      exact (ho l hl).opened (hn.links l hl) hlen _
    | told ch response _ => exact (ho l hl).setResponse ch response

/-- **In a run without a timeout over a waiting request the events of every
connection are in order.** -/
theorem run_orderly {config : FileGetConfig} {debug : Bool} {tr : Trace System Label} {s : System}
    (h : (fileGetSystem config debug).Run tr s) (hlen : (opens tr).length ≤ UInt64.size)
    (htime : ∀ t ∈ tr, timesOutWaiting t = false) : ∀ l ∈ s.links, l.Orderly := by
  induction tr generalizing s with
  | nil =>
    cases h
    intro l hl
    cases hl
  | cons t tr ih =>
    obtain ⟨hrun, hallowed, -, rfl⟩ := h.tail
    obtain ⟨hm, hstep⟩ := run_stepped h
    exact stepped_orderly
      (ih hrun (Nat.le_trans (opens_length_le t tr) hlen)
        fun u hu => htime u (List.mem_cons_of_mem _ hu))
      hm (run_wired hrun) (run_numbered hrun) hlen hallowed hstep (htime t List.mem_cons_self)

end FileSharing
