/-
FileSharing.FileGet.Completions — the events that complete a request find
it.

`FileGet` asserts that a `Response` finds its id in
`pending_inbound_responses` and a `ResponseSent` its id in
`pending_outbound_responses`. For a `Response` that is the pipeline of
`Pipeline`. A `ResponseSent` is queued by the handler AHEAD of requests it
has not announced yet, so no queue orders the two: what does is a chain of
causes. An upgrade returns after copying, it copies what the application
sent, the application has the sender from `RequestReceived`, and that was
queued when the id was put into the set. `Attended` carries the chain:
from the moment a sender is handed over until the event that ends the
upgrade reaches the behaviour, the id is in the set.

An id leaves the set when the event that ends its request arrives. There
is one such event for an upgrade (`Link.EndsOnce`), and ids do not repeat
as long as at most `2 ^ 64` have been drawn.
-/
import FileSharing.FileGet.InboundNumbers

namespace FileSharing

open Lib FileGet

/-! ## An upgrade ends once -/

/-- The remote requests that end with events on their way from the
handler, the oldest first. -/
def Link.concluded (l : Link) : List RequestId :=
  (l.events ++ l.handler.pendingEvents).filterMap (·.concludes)

theorem Link.mem_concluded {l : Link} {r : RequestId} : r ∈ l.concluded ↔
    ∃ e ∈ l.events ++ l.handler.pendingEvents, e.concludes = some r := List.mem_filterMap

/-- What a step adds to them: nothing, or the request whose upgrade it
ended. -/
theorem InboundMoved.concluded {a : Label} {l l' : Link} (h : InboundMoved a l l') :
    l'.concluded = l.concluded ∨
    ∃ sub e, sub ∈ l.inbound ∧
      l'.inbound = l.inbound.filter (fun x => x.channel ≠ sub.channel) ∧
      l'.handler.inbound = (if sub.phase = .receiving then l.handler.requestCanceled sub.channel
        else l.handler).inbound ∧
      Ending a l.id sub [e] ∧ l'.concluded = l.concluded ++ [sub.info] := by
  cases h with
  | aside queued hin hfut hpend hq hev =>
    have hnil : queued.filterMap (·.concludes) = [] :=
      List.filterMap_eq_nil_iff.mpr fun e hmem =>
        (FileGetHandlerEvent.inboundId?_eq_none.mp (hq e hmem)).2
    exact Or.inl (by simp [Link.concluded, hpend, hev, hnil])
  | emitted e hin hfut hpend hev => exact Or.inl (by simp [Link.concluded, hpend, hev])
  | announced ch r m hin hmem hfut hpend hev =>
    exact Or.inl (by simp [Link.concluded, hpend, hev, FileGetHandlerEvent.concludes])
  | consumed hin hc hpend hev => exact Or.inl (by simp [Link.concluded, hpend, hev])
  | passed sub m _ _ hin hhandler hev =>
    exact Or.inl (by simp [Link.concluded, hhandler, hev, Handler.requestSent])
  | copies sub reader _ _ _ hin hhandler hev =>
    exact Or.inl (by simp [Link.concluded, hhandler, hev])
  | ended sub queued hmem hin hfut hpend hend hev =>
    cases queued with
    | nil => exact Or.inl (by simp [Link.concluded, hpend, hev])
    | cons e rest =>
      have he := hend.concludes e List.mem_cons_self
      obtain rfl : rest = [] := by cases hend <;> rfl
      exact Or.inr ⟨sub, e, hmem, hin, hfut, hend, by simp [Link.concluded, hpend, hev, he]⟩

/-- At most one event ends a request, and none while its upgrade runs. -/
structure Link.EndsOnce (l : Link) : Prop where
  once : l.concluded.Nodup
  running : ∀ sub ∈ l.inbound, sub.info ∉ l.concluded

namespace Link.Numbered

variable {on : List ConnectionId} {l : Link}

/-- Two upgrades of a connection have different ids. -/
theorem info_ne (hn : l.Numbered on) (hlen : on.length ≤ UInt64.size) {x y : InboundSubstream}
    (hx : x ∈ l.inbound) (hy : y ∈ l.inbound) (hne : x.channel ≠ y.channel) : x.info ≠ y.info := by
  obtain ⟨hxon, hxinfo, -⟩ := hn.substream x hx
  obtain ⟨hyon, hyinfo, -⟩ := hn.substream y hy
  rw [hxinfo, hyinfo]
  exact fun heq => hne (channel_inj hlen hxon hyon heq)

/-- The next id ends nothing. -/
theorem next_not_concluded (hn : l.Numbered on) (hlen : on.length < UInt64.size) :
    RequestId.nth on.length ∉ l.concluded := by
  intro hmem
  obtain ⟨e, he, hr⟩ := Link.mem_concluded.mp hmem
  obtain ⟨k, hk, hon⟩ := hn.concluded e he _ hr
  have hlt := (List.getElem?_eq_some_iff.mp hon).1
  have := RequestId.nth_inj hlen (Nat.lt_trans hlt hlen) hk
  omega

end Link.Numbered

namespace Link.EndsOnce

variable {on : List ConnectionId} {a : Label} {l l' : Link}

theorem of_same (he : l.EndsOnce) (hcon : l'.concluded = l.concluded)
    (hsub : ∀ x ∈ l'.inbound, ∃ y ∈ l.inbound, x.info = y.info) : l'.EndsOnce where
  once := hcon ▸ he.once
  running x hx := by
    obtain ⟨y, hy, hinfo⟩ := hsub x hx
    rw [hcon, hinfo]
    exact he.running y hy

theorem moved (he : l.EndsOnce) (hn : l.Numbered on) (hlen : on.length ≤ UInt64.size)
    (h : InboundMoved a l l') : l'.EndsOnce := by
  rcases h.concluded with hcon | ⟨sub, e, hmem, hin, -, -, hcon⟩
  · refine he.of_same hcon fun x hx => ?_
    obtain ⟨y, hy, -, hinfo, -⟩ := h.substream hx
    exact ⟨y, hy, hinfo⟩
  · -- the event of the upgrade is the first about it
    constructor
    · rw [hcon]
      refine he.once.append (List.nodup_singleton _) fun r hr hr' => ?_
      rw [List.mem_singleton.mp hr'] at hr
      exact he.running sub hmem hr
    · intro x hx hr
      rw [hin] at hx
      obtain ⟨hx, hne⟩ := List.mem_filter.mp hx
      have hne : x.channel ≠ sub.channel := by simpa using hne
      rw [hcon] at hr
      rcases List.mem_append.mp hr with hr | hr
      · exact he.running x hx hr
      · exact hn.info_ne hlen hx hmem hne (List.mem_singleton.mp hr)

theorem opened (he : l.EndsOnce) (hn : l.Numbered on) (hlen : on.length < UInt64.size)
    {g : RequestIdGenerator} (hg : g.nextId.1 = .nth on.length) (ch : ChannelId) :
    (l.openInbound g ch).1.EndsOnce where
  once := he.once
  running x hx := by
    rcases List.mem_append.mp hx with hx | hx
    · exact he.running x hx
    · rw [List.mem_singleton.mp hx]
      show g.nextId.1 ∉ l.concluded
      rw [hg]
      exact hn.next_not_concluded hlen

theorem dropEvent (he : l.EndsOnce) : l.dropEvent.EndsOnce := by
  have hsub : l.dropEvent.concluded.Sublist l.concluded :=
    ((List.tail_sublist _).append_right _).filterMap _
  exact ⟨hsub.nodup he.once, fun x hx hr => he.running x hx (hsub.mem hr)⟩

theorem setResponse (he : l.EndsOnce) (ch : ChannelId) (response : ResponseChannel) :
    (Link.setResponse ch response l).EndsOnce := by
  refine he.of_same rfl fun x hx => ?_
  obtain ⟨y, hy, -, hinfo, -⟩ := Link.mem_setResponse hx
  exact ⟨y, hy, hinfo⟩

theorem linkMoved {s : System} (he : l.EndsOnce) (hn : l.Numbered on)
    (hnext : s.fileGet.inboundIdGenerator.nextId.1 = .nth on.length)
    (hlen : on.length + a.opened ≤ UInt64.size) (h : LinkMoved s a l l') : l'.EndsOnce := by
  cases h with
  | moved l' _ h => exact he.moved hn (by omega) h
  | delivered e rest _ _ => exact he.dropEvent
  | opened ha =>
    subst ha
    exact he.opened hn hlen hnext _
  | told ch response _ => exact he.setResponse ch response

end Link.EndsOnce

/-! ## Handed-over senders -/

/-- The sender of the channel is with the application, or queued for it. -/
def System.HandedOver (s : System) (ch : ChannelId) : Prop :=
  ch ∈ s.fileGet.senders ∨ ch ∈ s.responders

/-- A sender is handed over by the event that announces its request. -/
theorem handedOver_before {s s' : System} {a : Label} (h : Stepped s a s') {ch : ChannelId}
    (hch : s'.HandedOver ch) : s.HandedOver ch ∨
      ∃ l ∈ s.links, ∃ r m rest, a = .deliverEvent l.id ∧ l.events = .request r m ch :: rest := by
  have hresponders : s'.responders = s.responders → (∀ c, a ≠ .deliverEvent c) →
      a ≠ .pollBehaviour → s.HandedOver ch := by
    intro heq hd hp
    unfold System.HandedOver at hch ⊢
    rwa [stepped_queue_senders h hd hp, heq] at hch
  cases h with
  | buffered p m w _ => exact Or.inl (hresponders rfl (by simp) (by simp))
  | dispatched p m w l fg _ _ _ => exact Or.inl (hresponders rfl (by simp) (by simp))
  | established p c ep resolves _ _ _ => exact Or.inl (hresponders rfl (by simp) (by simp))
  | drained p c ep resolves pending fg _ _ _ _ _ _ =>
    exact Or.inl (hresponders rfl (by simp) (by simp))
  | closed l o i conn _ _ _ => exact Or.inl (hresponders rfl (by simp) (by simp))
  | addressChange l ep _ => exact Or.inl (hresponders rfl (by simp) (by simp))
  | dialFailed peer resolves _ => exact Or.inl (hresponders rfl (by simp) (by simp))
  | dialDrained p resolves pending _ => exact Or.inl (hresponders rfl (by simp) (by simp))
  | swarmNotice event => exact Or.inl hch
  | pollIdle _ => exact Or.inl hch
  | pollReady action rest hq =>
    -- the oldest action, and the sender in it, leave the queue for the application
    left
    have hsenders : ∀ c, c ∈ rest.filterMap (·.channel?) ∨ action.channel? = some c →
        c ∈ s.fileGet.senders := by
      intro c hc
      unfold FileGet.senders
      rw [hq, List.filterMap_cons]
      rcases hc with hc | hc
      · split
        · exact hc
        · exact List.mem_cons_of_mem _ hc
      · rw [hc]
        exact List.mem_cons_self
    cases action with
    | dial p h => exact hch.imp_left fun hc => hsenders ch (Or.inl hc)
    | notifyHandler p c request => exact hch.imp_left fun hc => hsenders ch (Or.inl hc)
    | generateEvent e =>
      cases e with
      | requestReceived p r m c =>
        rcases hch with hc | hc
        · exact Or.inl (hsenders ch (Or.inl hc))
        · rcases List.mem_cons.mp hc with rfl | hc
          · exact Or.inl (hsenders _ (Or.inr rfl))
          · exact Or.inr hc
      | _ => exact hch.imp_left fun hc => hsenders ch (Or.inl hc)
  | deliverEvent l conn e rest hl he _ _ =>
    rcases hch with hc | hc
    · unfold FileGet.senders at hc
      rw [afterEvent_pendingEvents, List.filterMap_append] at hc
      rcases List.mem_append.mp hc with hc | hc
      · exact Or.inl (Or.inl hc)
      · right
        cases e with
        | request r m c =>
          cases List.mem_singleton.mp hc
          exact ⟨l, hl, r, m, rest, rfl, he⟩
        | _ => cases hc
    · exact Or.inl (Or.inr hc)
  | link a c f hf =>
    refine Or.inl (hresponders rfl ?_ ?_)
    · cases hf <;> simp
    · cases hf <;> simp
  | openInbound l _ => exact Or.inl (hresponders rfl (by simp) (by simp))
  | respond c reader | dropResponder c =>
    left
    exact hch.imp_right List.mem_of_mem_erase

/-! ## The invariant -/

/-- Requests whose response can still be sent are in the set of their
connection, and so are those whose response was sent, until the set is
told. -/
structure Attended (s : System) : Prop where
  endsOnce : ∀ l ∈ s.links, l.EndsOnce
  answered : ∀ l ∈ s.links, ∀ sub ∈ l.inbound,
    (∃ reader, sub.response = .sent reader) ∨ s.HandedOver sub.channel →
    s.fileGet.Serving l.peer l.id sub.info
  sent : ∀ l ∈ s.links, ∀ r, .responseSent r ∈ l.events ++ l.handler.pendingEvents →
    s.fileGet.Serving l.peer l.id r

namespace Attended

variable {tr : Trace System Label} {t : Transition System Label}

/-- An id leaves the set of a connection that stays when an event ends its
request. -/
theorem serving_after (hm : Mirror t.pre) (h : Stepped t.pre t.label t.post) {l : Link}
    (hl : l ∈ t.pre.links) {l' : Link} (hl' : l' ∈ t.post.links) (hid : l'.id = l.id)
    {r : RequestId} (hr : t.pre.fileGet.Serving l.peer l.id r) :
    t.post.fileGet.Serving l.peer l.id r ∨
      ∃ e rest, t.label = .deliverEvent l.id ∧ l.events = e :: rest ∧ e.concludes = some r := by
  cases stepped_served hm h with
  | same hsame _ _ => exact Or.inl ((hsame _ _ _).mpr hr)
  | delivered k e rest hlabel hk he hserving =>
    by_cases hend : l.id = k.id ∧ e.concludes = some r
    · obtain rfl := List.inj_on_of_nodup_map hm.ids hl hk hend.1
      exact Or.inr ⟨e, rest, hlabel, he, hend.2⟩
    · exact Or.inl ((hserving _ _ _).mpr (Or.inl ⟨hr, fun hc => hend hc.2⟩))
  | closed k o i hlabel hk hgone hserving =>
    exact Or.inl ((hserving _ _ _).mpr ⟨hr, fun hc => hgone l' hl' (hid.trans hc.2)⟩)

/-- Where an upgrade that may be answered comes from. -/
theorem answered_before (hw : Wired t.pre) (hallowed : t.pre.Allowed t.label = true) {l l' : Link}
    (h : LinkMoved t.pre t.label l l') {x : InboundSubstream}
    (hx : x ∈ l'.inbound)
    (hans : (∃ reader, x.response = .sent reader) ∨ t.pre.HandedOver x.channel) :
    ∃ y ∈ l.inbound, x.info = y.info ∧
      ((∃ reader, y.response = .sent reader) ∨ t.pre.HandedOver y.channel) := by
  cases h with
  | moved l' _ h =>
    obtain ⟨y, hy, hup, hinfo, hresp⟩ := h.substream hx
    have hch : x.channel = y.channel := congrArg (·.requestSender) hup
    exact ⟨y, hy, hinfo, hresp ▸ hch ▸ hans⟩
  | delivered e rest _ _ => exact ⟨x, hx, rfl, hans⟩
  | opened ha =>
    rcases List.mem_append.mp hx with hx | hx
    · exact ⟨x, hx, rfl, hans⟩
    · -- the sender of a new channel is nowhere yet
      exfalso
      rw [List.mem_singleton.mp hx] at hans
      have hzero := hw.fresh ⟨t.pre.nextChannel⟩ (Nat.le_refl _)
      unfold System.senderCount at hzero
      rcases hans with ⟨reader, hr⟩ | hq | hq
      · cases hr
      · have hpos : 0 < t.pre.fileGet.senders.count ⟨t.pre.nextChannel⟩ :=
          List.count_pos_iff.mpr hq
        omega
      · have hpos : 0 < t.pre.responders.count ⟨t.pre.nextChannel⟩ := List.count_pos_iff.mpr hq
        omega
  | told ch response ha =>
    obtain ⟨y, hy, rfl⟩ := List.mem_map.mp hx
    refine ⟨y, hy, ?_⟩
    split at hans
    · rename_i heq
      rw [if_pos heq]
      exact ⟨rfl, Or.inr (Or.inr (heq ▸ Wired.mem_responders hallowed ha))⟩
    · rename_i hne
      rw [if_neg hne]
      exact ⟨rfl, hans⟩

/-- An upgrade that may be answered after the step. -/
theorem answered_after (ha : Attended t.pre) (hm : Mirror t.pre) (hw : Wired t.pre)
    (hn : Numbered tr t.pre) (hallowed : t.pre.Allowed t.label = true)
    (h : Stepped t.pre t.label t.post) {l l' : Link} (hl : l ∈ t.pre.links)
    (hl' : l' ∈ t.post.links) (hid : l'.id = l.id) (hpeer : l'.peer = l.peer)
    (hmoved : LinkMoved t.pre t.label l l') {x : InboundSubstream} (hx : x ∈ l'.inbound)
    (hans : (∃ reader, x.response = .sent reader) ∨ t.post.HandedOver x.channel) :
    t.post.fileGet.Serving l'.peer l'.id x.info := by
  rw [hid, hpeer]
  have hold : (∃ reader, x.response = .sent reader) ∨ t.pre.HandedOver x.channel →
      t.post.fileGet.Serving l.peer l.id x.info := by
    intro hans
    obtain ⟨y, hy, hinfo, hans⟩ := answered_before hw hallowed hmoved hx hans
    rcases serving_after hm h hl hl' hid (ha.answered l hl y hy hans) with
      hserving | ⟨e, rest, -, he, hend⟩
    · exact hinfo ▸ hserving
    · refine absurd (Link.mem_concluded.mpr ⟨e, ?_, hend⟩) ((ha.endsOnce l hl).running y hy)
      rw [he]
      exact List.mem_cons_self
  rcases hans with hsent | hover
  · exact hold (Or.inl hsent)
  · rcases handedOver_before h hover with hover | ⟨k, hk, r, m, rest, hlabel, he⟩
    · exact hold (Or.inr hover)
    · -- the event that announces the request comes from its own connection
      have hn' := hn.step hm hallowed h
      obtain ⟨hkon, hr⟩ := (hn.links k hk).announced r m x.channel (he ▸ List.mem_cons_self)
      obtain ⟨hxon, hinfo, -⟩ := (hn'.links l' hl').substream x hx
      have hkid : k.id = l.id := by
        rw [opens_cons hkon, hid] at hxon
        exact Option.some.inj hxon
      obtain rfl := List.inj_on_of_nodup_map hm.ids hk hl hkid
      rw [hinfo, ← hr]
      cases stepped_served hm h with
      | same _ hd _ => exact absurd hlabel (hd _)
      | delivered k' e rest' hlabel' hk' he' hserving =>
        rw [hlabel] at hlabel'
        obtain rfl := List.inj_on_of_nodup_map hm.ids hk hk' (Label.deliverEvent.inj hlabel')
        rw [he] at he'
        obtain ⟨rfl, -⟩ := List.cons.inj he'
        exact (hserving _ _ _).mpr (Or.inr ⟨rfl, rfl, rfl⟩)
      | closed k' o i hlabel' _ _ _ =>
        rw [hlabel] at hlabel'
        cases hlabel'

/-- A `ResponseSent` on its way after the step. -/
theorem sent_after (ha : Attended t.pre) (hm : Mirror t.pre) (hw : Wired t.pre)
    (h : Stepped t.pre t.label t.post) {l l' : Link} (hl : l ∈ t.pre.links)
    (hl' : l' ∈ t.post.links) (hid : l'.id = l.id) (hmoved : LinkMoved t.pre t.label l l')
    {r : RequestId} (hr : .responseSent r ∈ l'.events ++ l'.handler.pendingEvents) :
    t.post.fileGet.Serving l.peer l.id r := by
  -- unless an event of the connection arrives, what was in the set stays there
  have hstays : t.label ≠ .deliverEvent l.id → t.pre.fileGet.Serving l.peer l.id r →
      t.post.fileGet.Serving l.peer l.id r := by
    intro hd hserving
    rcases serving_after hm h hl hl' hid hserving with hserving | ⟨e, rest, hlabel, -⟩
    · exact hserving
    · exact absurd hlabel hd
  have hold := ha.sent l hl r
  cases hmoved with
  | moved l' hd hmoved =>
    refine hstays hd ?_
    rcases List.mem_append.mp hr with hr | hr
    · rcases hmoved.event hr with hr | hr | ⟨ch, r', m, heq, -⟩
      · exact hold (List.mem_append_left _ hr)
      · exact hold (List.mem_append_right _ hr)
      · cases heq
    · rcases hmoved.pending hr with hr | hnone | ⟨sub, hsub, queued, hend, hr⟩
      · exact hold (List.mem_append_right _ hr)
      · cases hnone
      · -- only an upgrade that copied says so
        cases hend with
        | silent => cases hr
        | sent reader hphase =>
          cases List.mem_singleton.mp hr
          exact ha.answered l hl sub hsub
            (Or.inl ⟨reader, (hw.tidy l hl).copying sub hsub reader hphase⟩)
        | failed reader _ => cases List.mem_singleton.mp hr
        | unreceived e _ _ hne => exact absurd (List.mem_singleton.mp hr).symm (hne r)
        | timeout _ => cases List.mem_singleton.mp hr
  | delivered e rest hlabel he =>
    have hr' : r ∈ l.dropEvent.concluded := Link.mem_concluded.mpr ⟨_, hr, rfl⟩
    have hcon : l.concluded = e.concludes.toList ++ l.dropEvent.concluded := by
      cases hc : e.concludes <;> simp [Link.concluded, Link.dropEvent, he, hc]
    have hserving : t.pre.fileGet.Serving l.peer l.id r := by
      refine hold ?_
      rcases List.mem_append.mp hr with hr | hr
      · exact List.mem_append_left _ (List.mem_of_mem_tail hr)
      · exact List.mem_append_right _ hr
    rcases serving_after hm h hl hl' hid hserving with hserving | ⟨e', rest', -, he', hend⟩
    · exact hserving
    · rw [he] at he'
      obtain ⟨rfl, -⟩ := List.cons.inj he'
      have honce := (ha.endsOnce l hl).once
      rw [hcon, hend] at honce
      exact absurd hr' (List.nodup_cons.mp honce).1
  | opened hlabel => exact hstays (by simp [hlabel]) (hold hr)
  | told ch response hlabel =>
    refine hstays (fun heq => ?_) (hold hr)
    rw [heq] at hlabel
    cases hlabel

theorem step (ha : Attended t.pre) (hm : Mirror t.pre) (hw : Wired t.pre)
    (hn : Numbered tr t.pre) (hlen : (opens (t :: tr)).length ≤ UInt64.size)
    (hallowed : t.pre.Allowed t.label = true) (h : Stepped t.pre t.label t.post) :
    Attended t.post := by
  have hlen' : (opens tr).length + t.label.opened ≤ UInt64.size := by
    rw [opens, List.length_append, Label.length_opensOn] at hlen
    exact hlen
  have hgen : t.pre.fileGet.inboundIdGenerator.nextId.1 = .nth (opens tr).length :=
    hn.next ▸ hn.generator
  refine ⟨fun l' hl' => ?_, fun l' hl' x hx hans => ?_, fun l' hl' r hr => ?_⟩
  · cases stepped_linkFrom hm hallowed h hl' with
    | new hin hfut hpend hev => exact ⟨by simp [Link.concluded, hpend, hev], by simp [hin]⟩
    | old l hl hid hpeer hmoved =>
      exact (ha.endsOnce l hl).linkMoved (hn.links l hl) hgen hlen' hmoved
  · cases stepped_linkFrom hm hallowed h hl' with
    | new hin hfut hpend hev => simp [hin] at hx
    | old l hl hid hpeer hmoved =>
      exact ha.answered_after hm hw hn hallowed h hl hl' hid hpeer hmoved hx hans
  · cases stepped_linkFrom hm hallowed h hl' with
    | new hin hfut hpend hev => simp [hpend, hev] at hr
    | old l hl hid hpeer hmoved =>
      rw [hid, hpeer]
      exact ha.sent_after hm hw h hl hl' hid hmoved hr

end Attended

/-! ## Whole runs -/

section Runs

variable {config : FileGetConfig} {debug : Bool} {tr : Trace System Label} {s : System}

/-- **In every run the requests being answered are attended to.** -/
theorem run_attended (h : (fileGetSystem config debug).Run tr s)
    (hlen : (opens tr).length ≤ UInt64.size) : Attended s := by
  induction tr generalizing s with
  | nil =>
    cases h
    refine ⟨fun l hl => ?_, fun l hl => ?_, fun l hl => ?_⟩
    · cases hl
    · cases hl
    · cases hl
  | cons t tr ih =>
    obtain ⟨hrun, hallowed, -, rfl⟩ := h.tail
    obtain ⟨hm, hstep⟩ := run_stepped h
    have hlen' := Nat.le_trans (opens_length_le t tr) hlen
    exact (ih hrun hlen').step hm (run_wired hrun) (run_numbered hrun) hlen hallowed hstep

/-- **Completion events find their request.** In every run with at most
`2 ^ 64` requests of ours and at most `2 ^ 64` inbound substreams, whatever
event the behaviour may handle next: if it is a `Response` its id is in
`pending_inbound_responses` of the connection, if it is a `ResponseSent`
its id is in `pending_outbound_responses`, and so the handling of these
events does not panic, in either build. -/
theorem completions_find_request (h : (fileGetSystem config debug).Run tr s)
    (hsends : sends tr ≤ UInt64.size) (hopens : (opens tr).length ≤ UInt64.size) {l : Link}
    (hl : l ∈ s.links) {e : FileGetHandlerEvent} {rest : List FileGetHandlerEvent}
    (he : l.events = e :: rest) :
    ∃ conn, s.fileGet.findConnection l.peer l.id = some conn ∧
      (∀ r, e = .response r → r ∈ conn.pendingInboundResponses) ∧
      (∀ r, e = .responseSent r → r ∈ conn.pendingOutboundResponses) ∧
      ∀ r, e = .response r ∨ e = .responseSent r → ∀ build,
        ∃ fileGet, s.fileGet.onConnectionHandlerEvent build l.peer l.id e = .ok fileGet := by
  have hm := run_mirror h
  obtain ⟨conn, hconn, hid, hfind⟩ := hm.findConnection_link hl
  have hresponse : ∀ r, e = .response r → r ∈ conn.pendingInboundResponses := by
    rintro r rfl
    have hwaiting := completes_waiting (run_inFlight h hsends) hl he rfl
    exact (serving_conn hm.wf hconn).mp (hid ▸ hwaiting)
  have hsent : ∀ r, e = .responseSent r → r ∈ conn.pendingOutboundResponses := by
    rintro r rfl
    have hserving := (run_attended h hopens).sent l hl r (by simp [he])
    exact (serving_conn hm.wf hconn).mp (hid ▸ hserving)
  refine ⟨conn, hfind, hresponse, hsent, fun r hr build => ?_⟩
  have hexpected : e.Expected conn := by
    rcases hr with rfl | rfl
    · exact hresponse r rfl
    · exact hsent r rfl
  exact ⟨_, onConnectionHandlerEvent_ok hfind hexpected build⟩

end Runs

/-- The remote is sent the file it asked for, and the behaviour is about to
hear of it. -/
theorem completions_find_request_sent : ∃ tr s, (fileGetSystem ⟨10⟩ true).Run tr s ∧
    ∃ l ∈ s.links, l.events = [.responseSent (.nth 0)] ∧
      ∃ conn, s.fileGet.findConnection l.peer l.id = some conn ∧
        RequestId.nth 0 ∈ conn.pendingOutboundResponses := by
  obtain ⟨tr, s, hrun, hP⟩ := Machine.exists_run_of_labels (M := fileGetSystem ⟨10⟩ true)
    [.connectionEstablished ⟨7⟩ ⟨1⟩ (.dialer ⟨"/ip4/10.0.0.2"⟩) false,
      .openInbound ⟨1⟩, .inbound ⟨1⟩ ⟨0⟩ (.received (.ok ⟨"a"⟩)), .pollHandler ⟨1⟩ 0 0,
      .deliverEvent ⟨1⟩, .pollBehaviour, .respond ⟨0⟩ ⟨[]⟩, .inbound ⟨1⟩ ⟨0⟩ .pollReader,
      .inbound ⟨1⟩ ⟨0⟩ (.copied (.ok ())), .pollHandler ⟨1⟩ 0 0]
    (fun tr s => decide ((∃ l ∈ s.links, l.events = [.responseSent (.nth 0)]) ∧
      sends tr ≤ UInt64.size ∧ (opens tr).length ≤ UInt64.size)) (by decide) (by decide)
  obtain ⟨⟨l, hl, he⟩, hsends, hopens⟩ := of_decide_eq_true hP
  obtain ⟨conn, hfind, -, hsent, -⟩ := completions_find_request hrun hsends hopens hl he
  exact ⟨tr, s, hrun, l, hl, he, conn, hfind, hsent (.nth 0) rfl⟩

/-! ## When the counter comes round -/

/-- Any number of requests to a peer without a connection, each of them
followed by its dial, leave only the counter, the buffer and the dials
changed. -/
theorem exists_run_dialing {config : FileGetConfig} {debug : Bool} {tr : Trace System Label}
    {s : System} (h : (fileGetSystem config debug).Run tr s) {q : PeerId}
    (hq : s.fileGet.connected.lookup q = none) (hev : s.fileGet.pendingEvents = []) (n : Nat) :
    ∃ tr' g buffers dials, (fileGetSystem config debug).Run tr' { s with
      fileGet := { s.fileGet with
        requsetIdGenerator := g, pendingOutboundRequests := buffers }
      dials := dials } ∧ g.next = s.fileGet.requsetIdGenerator.next + UInt64.ofNat n := by
  obtain ⟨⟨g₀, inboundGen, config', connected, events, buffers₀, addresses⟩, links, used, dials₀,
    responders, next⟩ := s
  dsimp only at hq hev h ⊢
  subst hev
  induction n with
  | zero => exact ⟨tr, g₀, buffers₀, dials₀, h, by simp⟩
  | succ n ih =>
    obtain ⟨tr', g, buffers, dials, hrun, hg⟩ := ih
    have hsent : ∃ tr'', (fileGetSystem config debug).Run tr''
        ⟨⟨g.nextId.2, inboundGen, config', connected, [.dial q (.new config'.timeout)],
          buffers.insert q ((buffers.lookup q).getD [] ++ [⟨g.nextId.1, "a", ⟨[]⟩⟩]), addresses⟩,
          links, used, dials, responders, next⟩ := by
      refine ⟨_, Machine.Run.next (a := Label.sendRequest q ⟨"a"⟩ ⟨[]⟩) hrun
        (show System.Allowed _ _ = true from rfl) ?_⟩
      simp only [fileGetSystem, System.step, FileGet.sendRequest, FileGet.trySendRequest, hq, bind,
        Except.bind]
      rfl
    obtain ⟨tr'', hsent⟩ := hsent
    have hpolled := Machine.Run.next (a := Label.pollBehaviour) hsent
      (show System.Allowed _ _ = true from rfl) rfl
    refine ⟨_, g.nextId.2, _, q :: dials, hpolled, ?_⟩
    show g.next + 1 = _
    rw [hg, UInt64.ofNat_add n 1, UInt64.add_assoc]
    rfl

/-- One connection to peer 7; `waiting` is what its
`pending_inbound_responses` hold, `commands` and `events` what is on its
way between the behaviour and the handler. -/
def asked (next : UInt64) (buffers : HashMap PeerId (List FileGetOutboundProtocol))
    (dials : List PeerId) (waiting : HashSet RequestId)
    (commands : List FileGetOutboundProtocol) (events : List FileGetHandlerEvent) : System where
  fileGet :=
    { FileGet.fromConfig ⟨10⟩ with
      requsetIdGenerator := ⟨next⟩
      connected := AList.insert ⟨7⟩ [⟨⟨1⟩, some ⟨"/ip4/10.0.0.2"⟩, ∅, waiting⟩] ∅
      pendingOutboundRequests := buffers }
  links :=
    [{ Link.new ⟨1⟩ ⟨7⟩ (.dialer ⟨"/ip4/10.0.0.2"⟩) (.new 10) with
      commands := commands
      events := events }]
  usedIds := [⟨1⟩]
  dials := dials
  responders := []
  nextChannel := 0

/-- With the counter back at its start a second request gets the id of the
first, and the one entry of `pending_inbound_responses` stands for both. -/
theorem exists_run_asked_again {tr : Trace System Label}
    {buffers : HashMap PeerId (List FileGetOutboundProtocol)} {dials : List PeerId}
    (h : (fileGetSystem ⟨10⟩ true).Run tr
      (asked 1 buffers dials (AList.insert (.nth 0) () ∅) [] [.response (.nth 0)])) :
    ∃ tr', (fileGetSystem ⟨10⟩ true).Run tr'
      (asked 2 buffers dials ∅ [] [.response (.nth 0)]) := by
  have hsent : ∃ tr', (fileGetSystem ⟨10⟩ true).Run tr'
      (asked 2 buffers dials (AList.insert (.nth 0) () ∅) [⟨.nth 0, "a", ⟨[]⟩⟩]
        [.response (.nth 0)]) :=
    ⟨_, .of_exec [.sendRequest ⟨7⟩ ⟨"a"⟩ ⟨[]⟩, .pollBehaviour] h
      (by with_unfolding_all exact of_decide_eq_true rfl) (by with_unfolding_all rfl)⟩
  obtain ⟨tr₁, hsent⟩ := hsent
  have hanswered : ∃ tr', (fileGetSystem ⟨10⟩ true).Run tr'
      (asked 2 buffers dials (AList.insert (.nth 0) () ∅) []
        [.response (.nth 0), .response (.nth 0)]) :=
    ⟨_, .of_exec [.deliverCommand ⟨1⟩, .pollHandler ⟨1⟩ 0 0,
      .endOutbound ⟨1⟩ 0 (.ok ()), .pollHandler ⟨1⟩ 0 0] hsent
      (by with_unfolding_all exact of_decide_eq_true rfl) (by with_unfolding_all rfl)⟩
  obtain ⟨tr₂, hanswered⟩ := hanswered
  -- the first of the two responses takes the entry, and FileGet reports it
  exact ⟨_, .of_exec [.deliverEvent ⟨1⟩, .pollBehaviour] hanswered
    (by with_unfolding_all exact of_decide_eq_true rfl) (by with_unfolding_all rfl)⟩

/-- A peer with one connection gets a request; after `2 ^ 64 - 1` requests
to another peer it gets one more, under the same id. The responses to both
arrive, and the second finds nothing: the debug build panics. -/
theorem second_response_finds_nothing : ∃ tr s, (fileGetSystem ⟨10⟩ true).Run tr s ∧
    ∃ l ∈ s.links, ∃ r rest, l.events = .response r :: rest ∧
      ∃ conn, s.fileGet.findConnection l.peer l.id = some conn ∧
        r ∉ conn.pendingInboundResponses ∧
        ∀ fileGet, s.fileGet.onConnectionHandlerEvent true l.peer l.id (.response r) ≠
          .ok fileGet := by
  have hasked : ∃ tr, (fileGetSystem ⟨10⟩ true).Run tr
      (asked 2 ∅ [] (AList.insert (.nth 0) () ∅) [] [.response (.nth 0)]) :=
    ⟨_, .of_exec [.connectionEstablished ⟨7⟩ ⟨1⟩ (.dialer ⟨"/ip4/10.0.0.2"⟩) false,
      .sendRequest ⟨7⟩ ⟨"a"⟩ ⟨[]⟩, .pollBehaviour, .deliverCommand ⟨1⟩, .pollHandler ⟨1⟩ 0 0,
      .endOutbound ⟨1⟩ 0 (.ok ()), .pollHandler ⟨1⟩ 0 0] .start (by decide) rfl⟩
  obtain ⟨tr₀, hrun₀⟩ := hasked
  obtain ⟨tr₁, ⟨next⟩, buffers, dials, hrun₁, hnext⟩ :=
    exists_run_dialing hrun₀ (q := ⟨8⟩) rfl rfl (UInt64.size - 1)
  have hone : next = 1 := hnext.trans (by decide)
  subst hone
  obtain ⟨tr, hrun⟩ := exists_run_asked_again hrun₁
  have hfind : (asked 2 buffers dials ∅ [] [.response (.nth 0)]).fileGet.findConnection
      ⟨7⟩ ⟨1⟩ = some ⟨⟨1⟩, some ⟨"/ip4/10.0.0.2"⟩, ∅, ∅⟩ := rfl
  refine ⟨tr, _, hrun, _, List.mem_singleton.mpr rfl, .nth 0, [], rfl, _, hfind,
    AList.notMem_empty _, fun fileGet => ?_⟩
  show FileGet.onConnectionHandlerEvent true _ ⟨7⟩ ⟨1⟩ _ ≠ _
  simp [FileGet.onConnectionHandlerEvent, FileGet.removePendingInboundResponse, hfind,
    FileGet.debugAssert, bind, Except.bind]

end FileSharing
