/-
FileSharing.FileGet.InboundUpgrades — the inbound upgrades of a connection
and the response channels they wait on.

`Wired` is the invariant: the sender of a response channel is in one place
at most, and nowhere once it was used or dropped; an upgrade that still
receives its request has its sender in the handler; one that copies was
sent the reader it copies. So what a channel was told it stays told: a
channel whose sender was dropped is never sent a reader.
-/
import FileSharing.FileGet.ResponseChannels

namespace FileSharing

open Lib FileGet

/-! ## The upgrades of a connection -/

/-- The upgrades of a connection fit their channels. -/
structure Link.Tidy (l : Link) : Prop where
  distinct : (l.inbound.map (·.channel)).Nodup
  receiving : ∀ sub ∈ l.inbound, sub.phase = .receiving →
    ⟨sub.channel, .pending⟩ ∈ l.handler.inbound
  copying : ∀ sub ∈ l.inbound, ∀ reader, sub.phase = .copying reader →
    sub.response = .sent reader

namespace Link.Tidy

variable {l l' : Link}

/-- Substreams unchanged, waiting futures kept. -/
theorem of_same (ht : l.Tidy) (hin : l'.inbound = l.inbound)
    (hkeep : ∀ ch, ⟨ch, .pending⟩ ∈ l.handler.inbound → ⟨ch, .pending⟩ ∈ l'.handler.inbound) :
    l'.Tidy where
  distinct := hin ▸ ht.distinct
  receiving sub hsub hphase := hkeep _ (ht.receiving sub (hin ▸ hsub) hphase)
  copying sub hsub := ht.copying sub (hin ▸ hsub)

/-- Two substreams with one channel are one. -/
theorem eq_of_channel (ht : l.Tidy) {sub sub' : InboundSubstream} (h : sub ∈ l.inbound)
    (h' : sub' ∈ l.inbound) (hch : sub.channel = sub'.channel) : sub = sub' :=
  List.inj_on_of_nodup_map ht.distinct h h' hch

/-- The phase of one substream changes. -/
theorem setPhase (ht : l.Tidy) {sub : InboundSubstream} (hsub : sub ∈ l.inbound)
    {phase : InboundPhase} (hin : l'.inbound = withPhase sub.channel phase l.inbound)
    (hreceiving : phase ≠ .receiving)
    (hcopying : ∀ reader, phase = .copying reader → sub.response = .sent reader)
    (hkeep : ∀ ch, ch ≠ sub.channel → ⟨ch, .pending⟩ ∈ l.handler.inbound →
      ⟨ch, .pending⟩ ∈ l'.handler.inbound) : l'.Tidy where
  distinct := by
    have hmap : (withPhase sub.channel phase l.inbound).map (·.channel) =
        l.inbound.map (·.channel) := by
      unfold withPhase
      rw [List.map_map]
      refine List.map_congr_left fun x _ => ?_
      dsimp only [Function.comp]
      split <;> rfl
    rw [hin, hmap]
    exact ht.distinct
  receiving := by
    intro x hx hphase
    rw [hin] at hx
    obtain ⟨y, hy, rfl⟩ := List.mem_map.mp hx
    split at hphase
    · exact absurd hphase hreceiving
    · rename_i hne
      rw [if_neg hne]
      exact hkeep _ hne (ht.receiving y hy hphase)
  copying := by
    intro x hx reader hphase
    rw [hin] at hx
    obtain ⟨y, hy, rfl⟩ := List.mem_map.mp hx
    split at hphase
    · rename_i heq
      rw [if_pos heq, ht.eq_of_channel hy hsub heq]
      exact hcopying reader hphase
    · rename_i hne
      rw [if_neg hne]
      exact ht.copying y hy reader hphase

/-- A substream is gone, and at most its own future cancelled. -/
theorem ended (ht : l.Tidy) {sub : InboundSubstream}
    (hin : l'.inbound = l.inbound.filter (fun x => x.channel ≠ sub.channel))
    (hfut : l'.handler.inbound = (if sub.phase = .receiving
      then l.handler.requestCanceled sub.channel else l.handler).inbound) : l'.Tidy where
  distinct := by
    rw [hin]
    exact (List.filter_sublist.map _).nodup ht.distinct
  receiving := by
    intro x hx hphase
    rw [hin] at hx
    obtain ⟨hx, hne⟩ := List.mem_filter.mp hx
    have hne : x.channel ≠ sub.channel := by simpa using hne
    have hpending := ht.receiving x hx hphase
    rw [hfut]
    split
    · exact List.mem_map.mpr ⟨_, hpending, if_neg hne⟩
    · exact hpending
  copying x hx := ht.copying x (List.mem_of_mem_filter (hin ▸ hx))

/-- What the connection task does keeps the upgrades in order. -/
theorem moved {a : Label} (ht : l.Tidy) (h : InboundMoved a l l') : l'.Tidy := by
  cases h with
  | aside queued hin hfut _ _ _ => exact ht.of_same hin fun ch hch => hfut ▸ hch
  | emitted e hin hfut _ _ => exact ht.of_same hin fun ch hch => hfut ▸ hch
  | announced ch r m hin _ hfut _ _ =>
    -- a future that still waits is not the one that was received
    refine ht.of_same hin fun c hc => ?_
    rw [hfut]
    exact (List.mem_erase_of_ne (by simp)).mpr hc
  | consumed hin hc _ _ => exact ht.of_same hin fun c h => hc.kept h (by simp)
  | passed sub m hsub _ hin hhandler _ =>
    -- the request goes out on its own channel
    refine ht.setPhase hsub hin (by simp) (by simp) fun ch hne hch => ?_
    rw [hhandler]
    exact List.mem_map.mpr ⟨_, hch, if_neg hne⟩
  | copies sub reader hsub _ hresp hin hhandler _ =>
    exact ht.setPhase hsub hin (by simp) (fun r h => InboundPhase.copying.inj h ▸ hresp)
      fun _ _ hch => hhandler ▸ hch
  | ended sub queued _ hin hfut _ _ _ => exact ht.ended hin hfut

/-- A substream is opened on a new channel. -/
theorem openInbound (ht : l.Tidy) (g : RequestIdGenerator) {ch : ChannelId}
    (hnew : ∀ sub ∈ l.inbound, sub.channel ≠ ch) : (l.openInbound g ch).1.Tidy where
  distinct := by
    simp only [Link.openInbound, Handler.listenProtocol, List.map_append, List.map_cons,
      List.map_nil]
    refine ht.distinct.append (List.nodup_singleton _) fun c hc hc' => ?_
    obtain ⟨sub, hsub, rfl⟩ := List.mem_map.mp hc
    exact hnew sub hsub (List.mem_singleton.mp hc')
  receiving := by
    intro sub hsub hphase
    rcases List.mem_append.mp hsub with hsub | hsub
    · exact List.mem_append_left _ (ht.receiving sub hsub hphase)
    · rw [List.mem_singleton.mp hsub]
      exact List.mem_append_right _ List.mem_cons_self
  copying := by
    intro sub hsub reader hphase
    rcases List.mem_append.mp hsub with hsub | hsub
    · exact ht.copying sub hsub reader hphase
    · rw [List.mem_singleton.mp hsub] at hphase
      cases hphase

/-- A channel that was told nothing is told something. -/
theorem setResponse (ht : l.Tidy) {ch : ChannelId} (response : ResponseChannel)
    (hempty : ∀ sub ∈ l.inbound, sub.channel = ch → sub.response = .empty) :
    (Link.setResponse ch response l).Tidy where
  distinct := by
    have hmap : (Link.setResponse ch response l).inbound.map (·.channel) =
        l.inbound.map (·.channel) := by
      unfold Link.setResponse
      rw [List.map_map]
      refine List.map_congr_left fun x _ => ?_
      dsimp only [Function.comp]
      split <;> rfl
    rw [hmap]
    exact ht.distinct
  receiving := by
    intro x hx hphase
    obtain ⟨y, hy, rfl⟩ := List.mem_map.mp hx
    split at hphase
    · rename_i heq
      rw [if_pos heq]
      exact ht.receiving y hy hphase
    · rename_i hne
      rw [if_neg hne]
      exact ht.receiving y hy hphase
  copying := by
    intro x hx reader hphase
    obtain ⟨y, hy, rfl⟩ := List.mem_map.mp hx
    split at hphase
    · -- an upgrade that copies was told something already
      rename_i heq
      have hsent := ht.copying y hy reader hphase
      rw [hempty y hy heq] at hsent
      cases hsent
    · rename_i hne
      rw [if_neg hne]
      exact ht.copying y hy reader hphase

end Link.Tidy

/-! ## The substreams of a connection -/

namespace Link

theorem deliverCommand_inbound (l : Link) : (deliverCommand l).inbound = l.inbound := by
  unfold deliverCommand
  split <;> rfl

theorem endOutbound_inbound (i : Nat) (result : Except ConnectionHandlerUpgrErr Unit) (l : Link) :
    (endOutbound i result l).inbound = l.inbound := by
  unfold endOutbound
  split <;> rfl

theorem pollHandler_inbound (now : Instant) (pick : Nat) (l : Link) :
    (pollHandler now pick l).inbound = l.inbound := by
  unfold pollHandler
  split <;> rfl

end Link

/-! ## What a step does to the connections -/

/-- What a step can do to one connection. -/
inductive Touched (s : System) (a : Label) (l : Link) : Link → Prop where
  /-- Its upgrades are not concerned. -/
  | aside (l' : Link) : l'.id = l.id → l'.inbound = l.inbound →
      l'.handler.inbound = l.handler.inbound → (∀ ch event, a ≠ .inbound l.id ch event) →
      a.tells? = none → Touched s a l l'
  | task (f : Link → Link) : LinkStep a l.id f → Touched s a l (f l)
  | opened : a = .openInbound l.id →
      Touched s a l (l.openInbound s.fileGet.inboundIdGenerator ⟨s.nextChannel⟩).1
  | told (ch : ChannelId) (response : ResponseChannel) : a.tells? = some (ch, response) →
      Touched s a l (Link.setResponse ch response l)

theorem Touched.id_eq {s : System} {a : Label} {l l' : Link} (h : Touched s a l l') :
    l'.id = l.id := by
  cases h with
  | aside l' hid _ _ _ _ => exact hid
  | task f hf => exact (hf.keeps l).1
  | opened _ => rfl
  | told ch response _ => rfl

/-- What a step can do to the connections. -/
inductive LinksMoved (s s' : System) (a : Label) : Prop where
  | touched (g : Link → Link) : (∀ l ∈ s.links, Touched s a l (g l)) →
      s'.links = s.links.map g → LinksMoved s s' a
  | established (l : Link) : l.inbound = [] → s'.links = s.links ++ [l] → LinksMoved s s' a
  | closed (p : PeerId) (c : ConnectionId) (o i : IterOrder RequestId) :
      a = .connectionClosed p c o i → s'.links = s.links.filter (fun l => l.id ≠ c) →
      LinksMoved s s' a

theorem LinkStepped.touched {s : System} {a : Label} {l l' : Link} (h : LinkStepped s a l l') :
    Touched s a l l' := by
  cases h with
  | aside htask htells =>
    exact .aside l rfl rfl rfl (fun _ _ ha => htask (by rw [ha]; rfl)) htells
  | readdressed p ep ha => exact .aside _ rfl rfl rfl (by simp [ha]) (by simp [ha, Label.tells?])
  | commanded request ha => exact .aside _ rfl rfl rfl (by simp [ha]) (by simp [ha, Label.tells?])
  | delivered e rest ha _ => exact .aside _ rfl rfl rfl (by simp [ha]) (by simp [ha, Label.tells?])
  | task f hf => exact .task f hf
  | opened ha => exact .opened ha
  | told ch response ha => exact .told ch response ha

/-- **Inversion**: what a step does to the connections. -/
theorem stepped_links {s s' : System} {a : Label} (hm : Mirror s) (h : Stepped s a s') :
    LinksMoved s s' a := by
  cases stepped_linksStepped hm h with
  | each g hg hlinks => exact .touched g (fun l hl => (hg l hl).touched) hlinks
  | established p c ep resolves timeout _ hlinks => exact .established _ rfl hlinks
  | closed p c o i ha hlinks => exact .closed p c o i ha hlinks

theorem Label.opened_le_one (a : Label) : a.opened ≤ 1 := by
  cases a <;> simp [opened]

theorem stepped_nextChannel {s s' : System} {a : Label} (h : Stepped s a s') :
    s'.nextChannel = s.nextChannel + a.opened := by
  cases h with
  | pollReady action rest hq =>
    cases action with
    | generateEvent e => cases e <;> rfl
    | dial _ _ | notifyHandler _ _ _ => rfl
  | link a c f hf => cases hf <;> rfl
  | _ => rfl

/-! ## The invariant -/

/-- The senders and the upgrades fit together. -/
structure Wired (s : System) : Prop where
  once : ∀ ch, s.senderCount ch ≤ 1
  fresh : ∀ ch, s.nextChannel ≤ ch.key → s.senderCount ch = 0
  known : ∀ l ∈ s.links, ∀ sub ∈ l.inbound, sub.channel.key < s.nextChannel
  tidy : ∀ l ∈ s.links, l.Tidy
  used : ∀ l ∈ s.links, ∀ sub ∈ l.inbound, sub.response ≠ .empty → s.senderCount sub.channel = 0

/-- Where a substream of a connection comes from. -/
inductive SubstreamFrom (s : System) (a : Label) (l : Link) (x : InboundSubstream) : Prop where
  | old (y : InboundSubstream) : y ∈ l.inbound → x.channel = y.channel →
      x.response = y.response → SubstreamFrom s a l x
  | new : a = .openInbound l.id → x.channel = ⟨s.nextChannel⟩ → x.response = .empty →
      SubstreamFrom s a l x
  | told (y : InboundSubstream) : y ∈ l.inbound → x.channel = y.channel →
      a.tells? = some (x.channel, x.response) → SubstreamFrom s a l x

theorem Touched.substreamFrom {s : System} {a : Label} {l l' : Link} (h : Touched s a l l')
    (hm : Mirror s) (hallowed : s.Allowed a = true) (hl : l ∈ s.links) {x : InboundSubstream}
    (hx : x ∈ l'.inbound) : SubstreamFrom s a l x := by
  cases h with
  | aside l' _ hin _ _ _ => exact .old x (hin ▸ hx) rfl rfl
  | task f hf =>
    obtain ⟨y, hy, hup, -, hresp⟩ := (hf.moved hm hallowed hl rfl).substream hx
    exact .old y hy (congrArg (·.requestSender) hup) hresp
  | opened ha =>
    rcases List.mem_append.mp hx with hx | hx
    · exact .old x hx rfl rfl
    · rw [List.mem_singleton.mp hx]
      exact .new ha rfl rfl
  | told ch response ha =>
    obtain ⟨y, hy, rfl⟩ := List.mem_map.mp hx
    split
    · rename_i heq
      refine .told y hy rfl ?_
      rw [ha, ← heq]
      rfl
    · exact .old y hy rfl rfl

namespace Wired

variable {s s' : System} {a : Label}

/-- A channel the application can still tell something was told nothing. -/
theorem response_empty (hw : Wired s) {l : Link} (hl : l ∈ s.links) {sub : InboundSubstream}
    (hsub : sub ∈ l.inbound) (hresp : sub.channel ∈ s.responders) : sub.response = .empty := by
  by_contra hne
  have hzero := hw.used l hl sub hsub hne
  have hpos := List.count_pos_iff.mpr hresp
  unfold System.senderCount at hzero
  omega

/-- The senders on a connection and with the application are different ones. -/
theorem count_link_le {l : Link} (hl : l ∈ s.links) (ch : ChannelId) :
    l.senders.count ch + s.responders.count ch ≤ s.senderCount ch := by
  have hsum := List.le_sum_of_mem
    (List.mem_map.mpr ⟨l, hl, rfl⟩ : l.senders.count ch ∈ s.links.map fun l => l.senders.count ch)
  unfold System.senderCount
  omega

/-- The sender of a channel is in its future. -/
theorem count_future {l : Link} (hl : l ∈ s.links) {f : InboundFuture}
    (hf : f ∈ l.handler.inbound) : s.responders.count f.channel < s.senderCount f.channel := by
  have hmem : f.channel ∈ l.senders := by
    unfold Link.senders
    rw [List.append_assoc]
    exact List.mem_append_left _ (List.mem_map_of_mem hf)
  have hle := count_link_le hl f.channel
  have hpos := List.count_pos_iff.mpr hmem
  omega

/-- The futures of a handler have different channels. -/
theorem futures_nodup (hw : Wired s) {l : Link} (hl : l ∈ s.links) :
    (l.handler.inbound.map (·.channel)).Nodup := by
  refine List.nodup_iff_count_le_one.mpr fun ch => ?_
  have hle : (l.handler.inbound.map (·.channel)).count ch ≤ l.senders.count ch := by
    unfold Link.senders
    rw [List.append_assoc, List.count_append]
    exact Nat.le_add_right _ _
  have hlink := count_link_le hl ch
  have honce := hw.once ch
  omega

theorem future_eq (hw : Wired s) {l : Link} (hl : l ∈ s.links) {f g : InboundFuture}
    (hf : f ∈ l.handler.inbound) (hg : g ∈ l.handler.inbound) (h : f.channel = g.channel) : f = g :=
  List.inj_on_of_nodup_map (hw.futures_nodup hl) hf hg h

/-- The upgrade of a request the application can still answer waits for
the answer. -/
theorem awaitingReader (hw : Wired s) {l : Link} (hl : l ∈ s.links) {sub : InboundSubstream}
    (hsub : sub ∈ l.inbound) (hresp : sub.channel ∈ s.responders) :
    sub.phase = .awaitingReader := by
  cases hphase : sub.phase with
  | awaitingReader => rfl
  | receiving =>
    -- the sender would be with the handler and with the application
    have hlink : s.responders.count sub.channel < s.senderCount sub.channel :=
      count_future hl ((hw.tidy l hl).receiving sub hsub hphase)
    have happ := List.count_pos_iff.mpr hresp
    have honce := hw.once sub.channel
    omega
  | copying reader =>
    have hempty := hw.response_empty hl hsub hresp
    rw [(hw.tidy l hl).copying sub hsub reader hphase] at hempty
    cases hempty

/-- The sender the application uses or drops is nowhere else. -/
theorem count_told (hw : Wired s) {ch : ChannelId} {response : ResponseChannel}
    (h : Stepped s a s') (ha : a.tells? = some (ch, response)) (hresp : ch ∈ s.responders) :
    s'.senderCount ch = 0 := by
  have honce := hw.once ch
  have hpos := List.count_pos_iff.mpr hresp
  have hlinks : ∀ response : ResponseChannel,
      ((s.links.map (Link.setResponse ch response)).map fun l => l.senders.count ch) =
        s.links.map fun l => l.senders.count ch := fun _ => by
    rw [List.map_map]
    rfl
  cases h with
  | respond c reader | dropResponder c =>
    cases ha
    unfold System.senderCount at honce ⊢
    dsimp only
    rw [hlinks, List.count_erase_self]
    omega
  | link a c f hf => cases hf <;> cases ha
  | _ => cases ha

/-- An allowed step that tells a channel something has its sender. -/
theorem mem_responders {ch : ChannelId} {response : ResponseChannel}
    (hallowed : s.Allowed a = true) (ha : a.tells? = some (ch, response)) : ch ∈ s.responders := by
  cases a <;> cases ha <;> simpa [System.Allowed] using hallowed

theorem count_le (hm : Mirror s) (hallowed : s.Allowed a = true) (h : Stepped s a s')
    {ch : ChannelId} (hch : ch.key < s.nextChannel) : s'.senderCount ch ≤ s.senderCount ch := by
  have hle := stepped_senderCount ch hm hallowed h
  have hne : ChannelId.mk s.nextChannel ≠ ch := by
    rintro rfl
    exact Nat.lt_irrefl _ hch
  rw [List.count_singleton, if_neg (by simpa using hne), Nat.mul_zero] at hle
  exact hle

theorem tidy_touched (hw : Wired s) (hm : Mirror s) (hallowed : s.Allowed a = true) {l l' : Link}
    (hl : l ∈ s.links) (h : Touched s a l l') : l'.Tidy := by
  cases h with
  | aside l' _ hin hfutures _ _ => exact (hw.tidy l hl).of_same hin fun ch hch => hfutures ▸ hch
  | task f hf => exact (hw.tidy l hl).moved (hf.moved hm hallowed hl rfl)
  | opened ha =>
    refine (hw.tidy l hl).openInbound _ fun sub hsub heq => ?_
    have := hw.known l hl sub hsub
    rw [heq] at this
    exact Nat.lt_irrefl _ this
  | told ch response ha =>
    refine (hw.tidy l hl).setResponse response fun sub hsub heq => ?_
    exact hw.response_empty hl hsub (heq ▸ mem_responders hallowed ha)

/-- Every substream after a step is one of those a connection had before,
or new. -/
theorem substream_before (hm : Mirror s) (hallowed : s.Allowed a = true) (h : Stepped s a s')
    {l' : Link} (hl' : l' ∈ s'.links) {x : InboundSubstream} (hx : x ∈ l'.inbound) :
    ∃ l ∈ s.links, SubstreamFrom s a l x := by
  cases stepped_links hm h with
  | touched g hg heq =>
    rw [heq] at hl'
    obtain ⟨l, hl, rfl⟩ := List.mem_map.mp hl'
    exact ⟨l, hl, (hg l hl).substreamFrom hm hallowed hl hx⟩
  | established k hk heq =>
    rw [heq] at hl'
    rcases List.mem_append.mp hl' with hl' | hl'
    · exact ⟨l', hl', .old x hx rfl rfl⟩
    · rw [List.mem_singleton.mp hl', hk] at hx
      cases hx
  | closed p c o i _ heq =>
    rw [heq] at hl'
    exact ⟨l', List.mem_of_mem_filter hl', .old x hx rfl rfl⟩

theorem step (hw : Wired s) (hm : Mirror s) (hallowed : s.Allowed a = true)
    (h : Stepped s a s') : Wired s' where
  once ch := by
    have hle := stepped_senderCount ch hm hallowed h
    by_cases hch : ch.key < s.nextChannel
    · exact Nat.le_trans (count_le hm hallowed h hch) (hw.once ch)
    · -- only the channel made by this step can be beyond
      rw [hw.fresh ch (Nat.le_of_not_lt hch), Nat.zero_add] at hle
      exact Nat.le_trans hle (Nat.mul_le_mul a.opened_le_one List.count_le_length)
  fresh ch hch := by
    have hle := stepped_senderCount ch hm hallowed h
    have hnext := stepped_nextChannel h
    rw [hw.fresh ch (by omega), Nat.zero_add, List.count_singleton] at hle
    split at hle
    · -- the next channel itself: the step made none
      rename_i heq
      have hkey : ch.key = s.nextChannel := by rw [← beq_iff_eq.mp heq]
      omega
    · omega
  known l' hl' x hx := by
    have hnext := stepped_nextChannel h
    obtain ⟨l, hl, hfrom⟩ := substream_before hm hallowed h hl' hx
    cases hfrom with
    | old y hy hch _ | told y hy hch _ =>
      have := hw.known l hl y hy
      rw [hch]
      omega
    | new ha hch _ =>
      subst ha
      rw [hch, hnext]
      exact Nat.lt_succ_self _
  tidy l' hl' := by
    cases stepped_links hm h with
    | touched g hg heq =>
      rw [heq] at hl'
      obtain ⟨l, hl, rfl⟩ := List.mem_map.mp hl'
      exact hw.tidy_touched hm hallowed hl (hg l hl)
    | established k hk heq =>
      rw [heq] at hl'
      rcases List.mem_append.mp hl' with hl' | hl'
      · exact hw.tidy l' hl'
      · rw [List.mem_singleton.mp hl']
        exact ⟨by simp [hk], by simp [hk], by simp [hk]⟩
    | closed p c o i _ heq => exact hw.tidy l' (List.mem_of_mem_filter (heq ▸ hl'))
  used l' hl' x hx hne := by
    obtain ⟨l, hl, hfrom⟩ := substream_before hm hallowed h hl' hx
    cases hfrom with
    | old y hy hch hresp =>
      have hzero := hw.used l hl y hy (hresp ▸ hne)
      have hle := count_le hm hallowed h (hw.known l hl y hy)
      rw [hch]
      omega
    | new _ _ hresp => exact absurd hresp hne
    | told y hy hch ha => exact hw.count_told h ha (mem_responders hallowed ha)

end Wired

theorem wired_init (config : FileGetConfig) : Wired (.init config) where
  once _ := Nat.zero_le _
  fresh _ _ := rfl
  known l hl := by cases hl
  tidy l hl := by cases hl
  used l hl := by cases hl

/-- **In every run the senders and the upgrades fit together.** -/
theorem run_wired {config : FileGetConfig} {debug : Bool} {tr : Trace System Label} {s : System}
    (h : (fileGetSystem config debug).Run tr s) : Wired s := by
  induction h with
  | start => exact wired_init config
  | next hrun hallowed hok ih =>
    have hm := run_mirror hrun
    exact ih.step hm hallowed (step_stepped hm hallowed hok)

end FileSharing
