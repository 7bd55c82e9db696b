/-
FileSharing.FileGet.ServedRequests — an inbound upgrade is given what was
asked for on its own substream.

The request goes from the upgrade over a channel to a future of the handler,
from there in an event to the behaviour and on to the application, and its
response sender goes with it. The reader comes back on that sender. On this
way nothing but the channel says to which substream the message belongs.
`Attested` says that it is enough: a message that is anywhere on the way was
received by the upgrade of its channel, an upgrade receives one message, and
an upgrade copies the reader that was sent on its own channel.
-/
import FileSharing.FileGet.InboundNumbers

namespace FileSharing

open Lib FileGet

/-! ## What the record says of a channel -/

/-- The upgrade of the channel has received the message. -/
def ReceivedOn (tr : Trace System Label) (ch : ChannelId) (m : FileGetMessage) : Prop :=
  ∃ t ∈ tr, ∃ c, t.label = .inbound c ch (.received (.ok m))

/-- The application has sent the reader on the channel. -/
def RespondedOn (tr : Trace System Label) (ch : ChannelId) (reader : FileReader) : Prop :=
  ∃ t ∈ tr, t.label = .respond ch reader

section

variable {tr : Trace System Label} {t : Transition System Label} {ch : ChannelId}

theorem ReceivedOn.cons {m : FileGetMessage} (h : ReceivedOn tr ch m)
    (t : Transition System Label) : ReceivedOn (t :: tr) ch m := by
  obtain ⟨u, hu, c, hlabel⟩ := h
  exact ⟨u, List.mem_cons_of_mem _ hu, c, hlabel⟩

theorem RespondedOn.cons {reader : FileReader} (h : RespondedOn tr ch reader)
    (t : Transition System Label) : RespondedOn (t :: tr) ch reader := by
  obtain ⟨u, hu, hlabel⟩ := h
  exact ⟨u, List.mem_cons_of_mem _ hu, hlabel⟩

/-- What was received was received before, or is received now. -/
theorem ReceivedOn.cases {m : FileGetMessage} (h : ReceivedOn (t :: tr) ch m) :
    ReceivedOn tr ch m ∨ ∃ c, t.label = .inbound c ch (.received (.ok m)) := by
  obtain ⟨u, hu, c, hlabel⟩ := h
  rcases List.mem_cons.mp hu with rfl | hu
  · exact .inr ⟨c, hlabel⟩
  · exact .inl ⟨u, hu, c, hlabel⟩

end

/-! ## The connection task -/

/-- What an event of an upgrade does, with the data it brings. -/
inductive InboundTaken (l : Link) (ch : ChannelId) : InboundEvent → Link → Prop where
  | passed (sub : InboundSubstream) (m : FileGetMessage) : sub ∈ l.inbound → sub.channel = ch →
      sub.phase = .receiving → InboundTaken l ch (.received (.ok m)) { l with
        inbound := withPhase ch .awaitingReader l.inbound
        handler := l.handler.requestSent ch sub.upgrade.requestId m }
  | copies (sub : InboundSubstream) (reader : FileReader) : sub ∈ l.inbound → sub.channel = ch →
      sub.response = .sent reader → InboundTaken l ch .pollReader
        { l with inbound := withPhase ch (.copying reader) l.inbound }
  /-- No message and no reader. -/
  | other (event : InboundEvent) (l' : Link) : (∀ m, event ≠ .received (.ok m)) →
      (∀ x ∈ l'.inbound, x ∈ l.inbound) → l'.events = l.events →
      (∀ f ∈ l'.handler.inbound, ∃ g ∈ l.handler.inbound, f.channel = g.channel ∧
        (f.state = g.state ∨ f.state = .canceled)) → InboundTaken l ch event l'

namespace Link

variable {l : Link}

theorem dropInbound_futures (sub : InboundSubstream) {f : InboundFuture}
    (hf : f ∈ (l.dropInbound sub).handler.inbound) : ∃ g ∈ l.handler.inbound,
      f.channel = g.channel ∧ (f.state = g.state ∨ f.state = .canceled) := by
  unfold dropInbound at hf
  dsimp only at hf
  split at hf
  · obtain ⟨g, hg, rfl⟩ := List.mem_map.mp hf
    refine ⟨g, hg, ?_⟩
    split
    · exact ⟨rfl, .inr rfl⟩
    · exact ⟨rfl, .inl rfl⟩
  · exact ⟨f, hf, rfl, .inl rfl⟩

/-- An upgrade that ends takes no message and no reader. -/
theorem taken_endInbound {ch : ChannelId} {e : InboundEvent} (he : ∀ m, e ≠ .received (.ok m))
    (sub : InboundSubstream) (event : ConnectionEvent) :
    InboundTaken l ch e (l.endInbound sub event) := by
  refine .other _ _ he (fun x hx => List.mem_of_mem_filter hx) rfl fun f hf => ?_
  refine l.dropInbound_futures sub (f := f) ?_
  rw [← Handler.onConnectionEvent_inbound _ event]
  exact hf

theorem taken_inboundEvent {ch : ChannelId} {event : InboundEvent} {sub : InboundSubstream}
    (hfind : l.inbound.find? (fun x => x.channel = ch) = some sub)
    (hallowed : System.InboundAllowed sub.phase event = true) :
    InboundTaken l ch event (inboundEvent ch event l) := by
  have hsub := List.mem_of_find?_eq_some hfind
  have hch : sub.channel = ch := by simpa using List.find?_some hfind
  have hstays : (∀ m, event ≠ .received (.ok m)) → ∀ l' : Link, l'.inbound = l.inbound →
      l'.handler = l.handler → l'.events = l.events → InboundTaken l ch event l' := by
    intro he l' hin hhandler hev
    refine .other _ _ he (fun x hx => hin ▸ hx) hev fun f hf => ⟨f, ?_, rfl, .inl rfl⟩
    exact hhandler ▸ hf
  simp only [inboundEvent, hfind]
  cases event with
  | received result =>
    have hphase : sub.phase = .receiving := by simpa [System.InboundAllowed] using hallowed
    simp only [resumeInbound, hphase]
    cases result with
    | ok m => exact hch ▸ .passed sub m hsub rfl hphase
    | error e => exact taken_endInbound (by simp) sub _
  | pollReader =>
    have hphase : sub.phase = .awaitingReader := by simpa [System.InboundAllowed] using hallowed
    cases hresponse : sub.response with
    | empty => exact hstays (by simp) _ rfl rfl rfl
    | sent reader =>
      simp only [resumeInbound, hphase]
      exact hch ▸ .copies sub reader hsub rfl hresponse
    | dropped =>
      simp only [resumeInbound, hphase]
      exact hstays (by simp) _ rfl rfl rfl
  | copied result =>
    cases hphase : sub.phase with
    | receiving | awaitingReader => simp [System.InboundAllowed, hphase] at hallowed
    | copying reader =>
      simp only [resumeInbound, hphase]
      cases result with
      | ok u => exact taken_endInbound (by simp) sub _
      | error e => exact taken_endInbound (by simp) sub _
  | fails error => exact taken_endInbound (by simp) sub _
  | otherProtocol =>
    exact .other _ _ (by simp) (fun x hx => List.mem_of_mem_filter hx) rfl
      fun f hf => l.dropInbound_futures sub hf

end Link

/-- A substream whose phase may have changed. -/
theorem withPhase_cases {ch : ChannelId} {phase : InboundPhase} {inbound : List InboundSubstream}
    {x : InboundSubstream} (h : x ∈ withPhase ch phase inbound) :
    (∃ y ∈ inbound, x.channel = y.channel ∧ y.channel = ch ∧ x.response = y.response ∧
      x.phase = phase) ∨ x ∈ inbound ∧ x.channel ≠ ch := by
  obtain ⟨y, hy, rfl⟩ := List.mem_map.mp h
  split
  · rename_i hch
    exact .inl ⟨y, hy, rfl, hch, rfl, rfl⟩
  · rename_i hne
    exact .inr ⟨hy, hne⟩

/-! ## Along a run -/

/-- The requests and the readers on a connection are those of its channels. -/
structure Link.Attested (tr : Trace System Label) (l : Link) : Prop where
  receiving : ∀ sub ∈ l.inbound, sub.phase = .receiving → ∀ m, ¬ ReceivedOn tr sub.channel m
  future : ∀ f ∈ l.handler.inbound, ∀ r m, f.state = .received r m → ReceivedOn tr f.channel m
  announced : ∀ r m ch, .request r m ch ∈ l.events → ReceivedOn tr ch m
  sent : ∀ sub ∈ l.inbound, ∀ reader, sub.response = .sent reader →
    RespondedOn tr sub.channel reader
  copying : ∀ sub ∈ l.inbound, ∀ reader, sub.phase = .copying reader →
    RespondedOn tr sub.channel reader

/-- And so is what the behaviour has queued; a channel is of one connection
and brings one message. -/
structure Attested (tr : Trace System Label) (s : System) : Prop where
  links : ∀ l ∈ s.links, l.Attested tr
  queued : ∀ p r m ch, .generateEvent (.requestReceived p r m ch) ∈ s.fileGet.pendingEvents →
    ReceivedOn tr ch m
  once : ∀ ch m m', ReceivedOn tr ch m → ReceivedOn tr ch m' → m = m'
  opened : ∀ t ∈ tr, ∀ c ch m, t.label = .inbound c ch (.received (.ok m)) →
    (opens tr)[ch.key]? = some c

namespace Link.Attested

variable {tr : Trace System Label} {t : Transition System Label} {l l' : Link}

/-- A step that brings no message to an upgrade that waits for one. -/
theorem cons (ha : l.Attested tr) (hnone : ∀ sub ∈ l.inbound, sub.phase = .receiving →
    ∀ c m, t.label ≠ .inbound c sub.channel (.received (.ok m))) : l.Attested (t :: tr) where
  receiving sub hsub hphase m hreceived := by
    rcases hreceived.cases with hold | ⟨c, hlabel⟩
    · exact ha.receiving sub hsub hphase m hold
    · exact hnone sub hsub hphase c m hlabel
  future f hf r m hstate := (ha.future f hf r m hstate).cons t
  announced r m ch he := (ha.announced r m ch he).cons t
  sent sub hsub reader hresponse := (ha.sent sub hsub reader hresponse).cons t
  copying sub hsub reader hphase := (ha.copying sub hsub reader hphase).cons t

/-- Requests are dropped or move along. -/
theorem fewer (ha : l.Attested tr) (hin : ∀ x ∈ l'.inbound, x ∈ l.inbound)
    (hfut : ∀ f ∈ l'.handler.inbound, ∃ g ∈ l.handler.inbound, f.channel = g.channel ∧
      (f.state = g.state ∨ f.state = .canceled))
    (hev : ∀ r m ch, .request r m ch ∈ l'.events → .request r m ch ∈ l.events ∨
      ⟨ch, .received r m⟩ ∈ l.handler.inbound) : l'.Attested tr where
  receiving sub hsub := ha.receiving sub (hin sub hsub)
  future f hf r m hstate := by
    obtain ⟨g, hg, hch, heq | hcanceled⟩ := hfut f hf
    · rw [hch]
      exact ha.future g hg r m (heq ▸ hstate)
    · rw [hstate] at hcanceled
      cases hcanceled
  announced r m ch he := by
    rcases hev r m ch he with he | hf
    · exact ha.announced r m ch he
    · exact ha.future _ hf r m rfl
  sent sub hsub := ha.sent sub (hin sub hsub)
  copying sub hsub := ha.copying sub (hin sub hsub)

/-- The inbound side is not concerned. -/
theorem aside (ha : l.Attested tr) (hin : l'.inbound = l.inbound)
    (hfut : l'.handler.inbound = l.handler.inbound) (hev : l'.events = l.events) :
    l'.Attested tr :=
  ha.fewer (fun _ hx => hin ▸ hx) (fun f hf => ⟨f, hfut ▸ hf, rfl, .inl rfl⟩)
    fun _ _ _ he => .inl (hev ▸ he)

theorem pollHandler (ha : l.Attested tr) (hquiet : ∀ e ∈ l.handler.pendingEvents,
    e.announces = none) (now : Instant) (pick : Nat) : (l.pollHandler now pick).Attested tr := by
  refine ha.fewer (fun x hx => ?_) (fun f hf => ⟨f, ?_, rfl, .inl rfl⟩) fun r m ch he => ?_
  · rwa [Link.pollHandler_inbound] at hx
  · have hp := l.handler.polled now pick
    unfold Link.pollHandler at hf
    generalize l.handler.poll now pick = result at hp hf
    cases hp with
    | close error _ => exact hf
    | event e rest _ => exact hf
    | outbound request rest _ => exact hf
    | request ch r m _ => exact List.mem_of_mem_erase hf
    | pending inbound keepAlive _ _ _ hc _ => exact hc.sublist.mem hf
  · have hmoved : InboundMoved .pollBehaviour l (l.pollHandler now pick) :=
      Link.moved_pollHandler now pick
    rcases hmoved.event he with he | he | ⟨ch', r', m', heq, hmem⟩
    · exact .inl he
    · cases hquiet _ he
    · cases heq
      exact .inr hmem

/-- An event of an upgrade, which the record now has. -/
theorem taken (ha : l.Attested tr) {ch : ChannelId} {event : InboundEvent}
    (hlabel : t.label = .inbound l.id ch event) (h : InboundTaken l ch event l') :
    l'.Attested (t :: tr) := by
  cases h with
  | other _ _ hevent hin hev hfut =>
    have hkept : l.Attested (t :: tr) := ha.cons fun sub _ _ c m heq => by
      rw [hlabel] at heq
      exact hevent m (Label.inbound.inj heq).2.2
    exact hkept.fewer hin hfut fun r m ch he => .inl (hev ▸ he)
  | copies sub reader hsub hch hresponse =>
    have hkept : l.Attested (t :: tr) := ha.cons fun _ _ _ c m heq => by
      rw [hlabel] at heq
      cases heq
    refine ⟨?_, hkept.future, hkept.announced, ?_, ?_⟩
    · intro x hx hphase
      rcases withPhase_cases hx with ⟨y, -, -, -, -, hcopies⟩ | ⟨hx, -⟩
      · rw [hcopies] at hphase
        cases hphase
      · exact hkept.receiving x hx hphase
    · intro x hx reader' hsent
      rcases withPhase_cases hx with ⟨y, hy, hxy, -, hresp, -⟩ | ⟨hx, -⟩
      · rw [hxy]
        exact hkept.sent y hy reader' (hresp ▸ hsent)
      · exact hkept.sent x hx reader' hsent
    · intro x hx reader' hphase
      rcases withPhase_cases hx with ⟨y, hy, hxy, heq, hresp, hcopies⟩ | ⟨hx, -⟩
      · rw [hcopies] at hphase
        obtain rfl := InboundPhase.copying.inj hphase
        rw [hxy, heq, ← hch]
        exact hkept.sent sub hsub reader hresponse
      · exact hkept.copying x hx reader' hphase
  | passed sub m hsub hch hphase =>
    have hnow : ReceivedOn (t :: tr) ch m := ⟨t, List.mem_cons_self, l.id, hlabel⟩
    refine ⟨?_, ?_, fun r m ch he => (ha.announced r m ch he).cons t, ?_, ?_⟩
    · intro x hx hreceiving m' hreceived
      rcases withPhase_cases hx with ⟨y, -, -, -, -, hwaits⟩ | ⟨hx, hne⟩
      · rw [hwaits] at hreceiving
        cases hreceiving
      · rcases hreceived.cases with hold | ⟨c, heq⟩
        · exact ha.receiving x hx hreceiving m' hold
        · rw [hlabel] at heq
          exact hne (Label.inbound.inj heq).2.1.symm
    · intro f hf r m' hstate
      obtain ⟨g, hg, rfl⟩ := List.mem_map.mp hf
      split at hstate
      · rename_i heq
        obtain ⟨-, rfl⟩ := FutureState.received.inj hstate
        rw [if_pos heq]
        exact heq ▸ hnow
      · rename_i hne
        rw [if_neg hne]
        exact (ha.future g hg r m' hstate).cons t
    · intro x hx reader hsent
      rcases withPhase_cases hx with ⟨y, hy, hxy, -, hresp, -⟩ | ⟨hx, -⟩
      · rw [hxy]
        exact (ha.sent y hy reader (hresp ▸ hsent)).cons t
      · exact (ha.sent x hx reader hsent).cons t
    · intro x hx reader hcopying
      rcases withPhase_cases hx with ⟨y, -, -, -, -, hwaits⟩ | ⟨hx, -⟩
      · rw [hwaits] at hcopying
        cases hcopying
      · exact (ha.copying x hx reader hcopying).cons t

/-- A substream is opened: its channel is new. -/
theorem opened (ha : l.Attested tr) (g : RequestIdGenerator) (hlabel : t.label = .openInbound l.id)
    {ch : ChannelId} (hnew : ∀ m, ¬ ReceivedOn tr ch m) :
    (l.openInbound g ch).1.Attested (t :: tr) := by
  have hkept : l.Attested (t :: tr) := ha.cons fun _ _ _ c m heq => by
    rw [hlabel] at heq
    cases heq
  refine ⟨?_, ?_, hkept.announced, ?_, ?_⟩
  · intro x hx hphase m hreceived
    rcases List.mem_append.mp hx with hx | hx
    · exact hkept.receiving x hx hphase m hreceived
    · rw [List.mem_singleton.mp hx] at hreceived
      rcases hreceived.cases with hold | ⟨c, heq⟩
      · exact hnew m hold
      · rw [hlabel] at heq
        cases heq
  · intro f hf r m hstate
    rcases List.mem_append.mp hf with hf | hf
    · exact hkept.future f hf r m hstate
    · rw [List.mem_singleton.mp hf] at hstate
      cases hstate
  · intro x hx reader hsent
    rcases List.mem_append.mp hx with hx | hx
    · exact hkept.sent x hx reader hsent
    · rw [List.mem_singleton.mp hx] at hsent
      cases hsent
  · intro x hx reader hcopying
    rcases List.mem_append.mp hx with hx | hx
    · exact hkept.copying x hx reader hcopying
    · rw [List.mem_singleton.mp hx] at hcopying
      cases hcopying

/-- The application uses or drops the sender of a channel. -/
theorem told (ha : l.Attested tr) {ch : ChannelId} {response : ResponseChannel}
    (htells : t.label.tells? = some (ch, response)) :
    (Link.setResponse ch response l).Attested (t :: tr) := by
  have hkept : l.Attested (t :: tr) := ha.cons fun _ _ _ c m heq => by
    rw [heq] at htells
    cases htells
  refine ⟨?_, hkept.future, hkept.announced, ?_, ?_⟩
  · intro x hx hphase
    obtain ⟨y, hy, rfl⟩ := List.mem_map.mp hx
    split at hphase <;> rename_i hch
    · rw [if_pos hch]
      exact hkept.receiving y hy hphase
    · rw [if_neg hch]
      exact hkept.receiving y hy hphase
  · intro x hx reader hsent
    obtain ⟨y, hy, rfl⟩ := List.mem_map.mp hx
    split at hsent <;> rename_i hch
    · rw [if_pos hch]
      refine ⟨t, List.mem_cons_self, ?_⟩
      dsimp only at hsent ⊢
      rw [hsent, ← hch] at htells
      cases hlabel : t.label with
      | respond d reader' =>
        rw [hlabel] at htells
        obtain ⟨hd, hreader⟩ := Prod.mk.inj (Option.some.inj htells)
        rw [hd, ResponseChannel.sent.inj hreader]
        rfl
      | _ =>
        rw [hlabel] at htells
        cases htells
    · rw [if_neg hch]
      exact hkept.sent y hy reader hsent
  · intro x hx reader hcopying
    obtain ⟨y, hy, rfl⟩ := List.mem_map.mp hx
    split at hcopying <;> rename_i hch
    · rw [if_pos hch]
      exact hkept.copying y hy reader hcopying
    · rw [if_neg hch]
      exact hkept.copying y hy reader hcopying

end Link.Attested

namespace Attested

variable {tr : Trace System Label} {t : Transition System Label}

/-- The channel of an event is one of the connection it comes from. -/
theorem opens_of_inbound (hn : Numbered tr t.pre) (hallowed : t.pre.Allowed t.label = true)
    {c : ConnectionId} {ch : ChannelId} {event : InboundEvent}
    (hlabel : t.label = .inbound c ch event) : (opens tr)[ch.key]? = some c := by
  rw [hlabel] at hallowed
  obtain ⟨l, hl, hid, -, sub, hsub, hch, -⟩ := inbound_allowed hallowed
  rw [← hch, ← hid]
  exact ((hn.links l hl).substream sub hsub).1

/-- A connection on which the step is none of its own. -/
theorem link_cons (ha : Attested tr t.pre) (hn : Numbered tr t.pre)
    (hallowed : t.pre.Allowed t.label = true) {l : Link} (hl : l ∈ t.pre.links)
    (htask : t.label.task? ≠ some l.id) : l.Attested (t :: tr) := by
  refine (ha.links l hl).cons fun sub hsub _ c m hlabel => htask ?_
  have hon := opens_of_inbound hn hallowed hlabel
  rw [((hn.links l hl).substream sub hsub).1] at hon
  rw [hlabel, Option.some.inj hon]
  rfl

/-- No message was received on a channel that is not open. -/
theorem not_receivedOn (ha : Attested tr t.pre) (hn : Numbered tr t.pre) {ch : ChannelId}
    (hch : t.pre.nextChannel ≤ ch.key) (m : FileGetMessage) : ¬ ReceivedOn tr ch m := by
  rintro ⟨u, hu, c, hlabel⟩
  have hon := ha.opened u hu c ch m hlabel
  have hlt := (List.getElem?_eq_some_iff.mp hon).1
  rw [hn.next] at hch
  omega

theorem step_link (ha : Attested tr t.pre) (hn : Numbered tr t.pre) (hm : Mirror t.pre)
    (hallowed : t.pre.Allowed t.label = true) {l l' : Link} (hl : l ∈ t.pre.links)
    (h : LinkStepped t.pre t.label l l') : l'.Attested (t :: tr) := by
  have hlink := ha.links l hl
  cases h with
  | aside htask _ => exact ha.link_cons hn hallowed hl htask
  | readdressed p ep hlabel =>
    exact (ha.link_cons hn hallowed hl (by simp [hlabel, Label.task?])).aside rfl rfl rfl
  | commanded request hlabel =>
    exact (ha.link_cons hn hallowed hl (by simp [hlabel, Label.task?])).aside rfl rfl rfl
  | delivered e rest hlabel hev =>
    have hkept : l.Attested (t :: tr) := hlink.cons fun _ _ _ c m heq => by
      rw [hlabel] at heq
      cases heq
    exact hkept.fewer (fun _ hx => hx) (fun f hf => ⟨f, hf, rfl, .inl rfl⟩)
      fun _ _ _ he => .inl (List.mem_of_mem_tail he)
  | opened hlabel =>
    exact hlink.opened _ hlabel (ha.not_receivedOn hn (Nat.le_refl _))
  | told ch response htells => exact hlink.told htells
  | task f hf =>
    generalize hlabel : t.label = a at hf
    generalize hc : l.id = c at hf
    have hkept : (∀ c ch event, a ≠ .inbound c ch event) → l.Attested (t :: tr) := by
      intro hne
      exact hlink.cons fun _ _ _ c m heq => hne _ _ _ (hlabel ▸ heq)
    cases hf with
    | deliverCommand =>
      refine (hkept (by simp)).aside (Link.deliverCommand_inbound l) ?_ ?_
      all_goals
        unfold Link.deliverCommand
        split <;> rfl
    | pollHandler c now pick =>
      exact (hkept (by simp)).pollHandler (hn.links l hl).quiet now pick
    | endOutbound c i result =>
      refine (hkept (by simp)).aside (Link.endOutbound_inbound _ _ l) ?_ ?_
      · unfold Link.endOutbound
        split
        · rfl
        · exact Handler.onConnectionEvent_inbound _ _
      · unfold Link.endOutbound
        split <;> rfl
    | inbound c ch event =>
      rw [hlabel] at hallowed
      obtain ⟨k, hk, hkid, -, sub, -, -, hfind, hphase⟩ := inbound_allowed hallowed
      obtain rfl : k = l := List.inj_on_of_nodup_map hm.ids hk hl (hkid.trans hc.symm)
      exact hlink.taken (hc ▸ hlabel) (Link.taken_inboundEvent hfind hphase)

theorem step_queued (ha : Attested tr t.pre) (h : Stepped t.pre t.label t.post) {p : PeerId}
    {r : RequestId} {m : FileGetMessage} {ch : ChannelId}
    (hmem : .generateEvent (.requestReceived p r m ch) ∈ t.post.fileGet.pendingEvents) :
    ReceivedOn (t :: tr) ch m := by
  have hold : .generateEvent (.requestReceived p r m ch) ∈ t.pre.fileGet.pendingEvents →
      ReceivedOn (t :: tr) ch m := fun hmem => (ha.queued p r m ch hmem).cons t
  generalize t.label = a at h
  cases stepped_queued h with
  | added a actions happ hplain =>
    rw [happ] at hmem
    rcases List.mem_append.mp hmem with hmem | hmem
    · exact hold hmem
    · cases hplain _ hmem
  | reported l e rest hl hev hfg =>
    rw [hfg, afterEvent_pendingEvents] at hmem
    rcases List.mem_append.mp hmem with hmem | hmem
    · exact hold hmem
    · have heq := List.mem_singleton.mp hmem
      cases e with
      | request r' m' ch' =>
        obtain ⟨-, -, rfl, rfl⟩ := FileGetEvent.requestReceived.inj
          (NetworkBehaviourAction.generateEvent.inj heq)
        exact ((ha.links l hl).announced r' m ch (hev ▸ List.mem_cons_self)).cons t
      | _ => cases heq
  | polled action rest hq hrest =>
    rw [hrest] at hmem
    exact hold (hq ▸ List.mem_cons_of_mem _ hmem)

/-- **A step keeps it.** An upgrade that receives a message has received none
before. -/
theorem step (ha : Attested tr t.pre) (hn : Numbered tr t.pre) (hm : Mirror t.pre)
    (hallowed : t.pre.Allowed t.label = true) (h : Stepped t.pre t.label t.post) :
    Attested (t :: tr) t.post := by
  have hfirst : ∀ {c ch m m'}, t.label = .inbound c ch (.received (.ok m)) →
      ¬ ReceivedOn tr ch m' := by
    intro c ch m m' hlabel
    rw [hlabel] at hallowed
    obtain ⟨l, hl, -, -, sub, hsub, rfl, -, hphase⟩ := inbound_allowed hallowed
    exact (ha.links l hl).receiving sub hsub (by simpa [System.InboundAllowed] using hphase) m'
  constructor
  case links =>
    intro l' hl'
    cases stepped_linksStepped hm h with
    | each g hg hlinks =>
      rw [hlinks] at hl'
      obtain ⟨l, hl, rfl⟩ := List.mem_map.mp hl'
      exact ha.step_link hn hm hallowed hl (hg l hl)
    | established p c ep resolves timeout hlabel hlinks =>
      rw [hlinks] at hl'
      rcases List.mem_append.mp hl' with hl' | hl'
      · exact ha.link_cons hn hallowed hl' (by simp [hlabel, Label.task?])
      · -- nothing has happened on a new connection
        rw [List.mem_singleton.mp hl']
        constructor <;> simp [Link.new, Handler.new]
    | closed p c o i hlabel hlinks =>
      rw [hlinks] at hl'
      exact ha.link_cons hn hallowed (List.mem_of_mem_filter hl') (by simp [hlabel, Label.task?])
  case queued => exact fun p r m ch hmem => ha.step_queued h hmem
  case once =>
    intro ch m m' hm' hm''
    rcases hm'.cases with hold | ⟨c, hlabel⟩
    · rcases hm''.cases with hold' | ⟨c', hlabel'⟩
      · exact ha.once ch m m' hold hold'
      · exact absurd hold (hfirst hlabel')
    · rcases hm''.cases with hold' | ⟨c', hlabel'⟩
      · exact absurd hold' (hfirst hlabel)
      · rw [hlabel] at hlabel'
        obtain ⟨-, -, heq⟩ := Label.inbound.inj hlabel'
        exact Except.ok.inj (InboundEvent.received.inj heq)
  case opened =>
    intro u hu c ch m hlabel
    rcases List.mem_cons.mp hu with rfl | hu
    · exact opens_cons (opens_of_inbound hn hallowed hlabel)
    · exact opens_cons (ha.opened u hu c ch m hlabel)

end Attested

theorem run_attested {config : FileGetConfig} {debug : Bool} {tr : Trace System Label} {s : System}
    (h : (fileGetSystem config debug).Run tr s) : Attested tr s := by
  induction tr generalizing s with
  | nil =>
    cases h
    constructor <;> simp [fileGetSystem, System.init, fromConfig, ReceivedOn]
  | cons t tr ih =>
    obtain ⟨hrun, hallowed, -, rfl⟩ := h.tail
    obtain ⟨hm, hstep⟩ := run_stepped h
    exact (ih hrun).step (run_numbered hrun) hm hallowed hstep

end FileSharing
