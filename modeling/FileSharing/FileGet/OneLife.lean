/-
FileSharing.FileGet.OneLife — the life of an inbound request, and the
timeout that comes too late.

Without a timeout over a waiting request (`timesOutWaiting`) an inbound
request has one life (`one_life`): the handler emits it once and its end
once, in this order, and once the behaviour is done with it, it is neither
announced again nor kept. The first two hold timeouts or not
(`requests_once`, `ends_once`).

With such a timeout `InboundTimeout` is emitted first and `Request` after
it, and the behaviour announces a request it has reported failed and keeps
the id for as long as the connection lasts (`late_request_announced`).
-/
import FileSharing.FileGet.InboundTokens

namespace FileSharing

open Lib FileGet

/-! ## The steps of a life -/

section Steps

variable {config : FileGetConfig} {debug : Bool} {t : Transition System Label}
  {tr : Trace System Label} {s : System} {r : RequestId}

/-- The futures of an id are on its connection. -/
theorem Numbered.drawnOn_future (hn : Numbered tr s) {l : Link} (hl : l ∈ s.links)
    {f : InboundFuture} (hf : f ∈ l.handler.inbound) (hkey : RequestId.nth f.channel.key = r) :
    DrawnOn (opens tr) r l.id :=
  ⟨f.channel.key, hkey.symm, ((hn.links l hl).future f hf).1⟩

theorem Numbered.drawnOn_concluded (hn : Numbered tr s) {l : Link} (hl : l ∈ s.links)
    (hr : r ∈ l.concluded) : DrawnOn (opens tr) r l.id := by
  obtain ⟨e, he, hend⟩ := Link.mem_concluded.mp hr
  exact (hn.links l hl).concluded e he r hend

theorem Numbered.drawnOn_upgrading (hn : Numbered tr s) {l : Link} (hl : l ∈ s.links)
    (hr : (∃ sub ∈ l.inbound, sub.info = r) ∨ ∃ e ∈ l.handler.pendingEvents, e.concludes = some r) :
    DrawnOn (opens tr) r l.id := by
  rcases hr with ⟨sub, hsub, rfl⟩ | ⟨e, he, hend⟩
  · obtain ⟨hon, hinfo, -⟩ := (hn.links l hl).substream sub hsub
    exact ⟨_, hinfo, hon⟩
  · exact (hn.links l hl).concluded e (List.mem_append_right _ he) r hend

theorem Numbered.drawnOn_event (hn : Numbered tr s) {l : Link} (hl : l ∈ s.links)
    {e : FileGetHandlerEvent} (he : e ∈ l.events) (hann : e.announces = some r) :
    DrawnOn (opens tr) r l.id := by
  cases e with
  | request r' m ch =>
    cases hann
    obtain ⟨hon, hid⟩ := (hn.links l hl).announced r m ch he
    exact ⟨_, hid, hon⟩
  | _ => cases hann

/-- A handler that emits a request had it in a future, and has no other. -/
theorem request_emitted (h : (fileGetSystem config debug).Run (t :: tr) s)
    (hlen : (opens tr).length ≤ UInt64.size) (hr : emitsRequest t = some r) :
    t.pre.Expects r ∧ ¬ t.post.Expects r := by
  obtain ⟨hrun, -, hok, -⟩ := h.tail
  have hm := (run_stepped h).1
  have hn := run_numbered hrun
  have hw := run_wired hrun
  obtain ⟨e, he, hann⟩ := Option.bind_eq_some_iff.mp hr
  obtain ⟨l, hl, l', hemitted, -, -, hothers⟩ := emits_emitted hm hok he
  cases hemitted with
  | queued hpend _ =>
    rw [(hn.links l hl).quiet e (hpend ▸ List.mem_cons_self)] at hann
    cases hann
  | request ch r' m heq hmem hfut =>
    subst heq
    cases hann
    have hkey : RequestId.nth ch.key = r := (((hn.links l hl).future _ hmem).2 r m rfl).symm
    refine ⟨⟨l, hl, _, hmem, by simp, hkey⟩, ?_⟩
    rintro ⟨k, hk, f, hf, -, hfkey⟩
    rcases hothers k hk with rfl | ⟨hk, hne⟩
    · -- the futures of the handler have different channels
      rw [hfut] at hf
      have hnodup := (hw.futures_nodup hl).of_map
      obtain ⟨hne, hf⟩ := (hnodup.mem_erase_iff).mp hf
      refine hne (hw.future_eq hl hf hmem ?_)
      exact channel_inj hlen ((hn.links l hl).future f hf).1 ((hn.links l hl).future _ hmem).1
        (hfkey.trans hkey.symm)
    · exact hne ((hn.drawnOn_future hk hf hfkey).unique hlen (hn.drawnOn_future hl hmem hkey))

/-- A handler that emits the end of a request has no other, and the
upgrade is over. -/
theorem end_emitted (h : (fileGetSystem config debug).Run (t :: tr) s)
    (hlen : (opens tr).length ≤ UInt64.size) (hr : emitsEnd t = some r) :
    (∃ l ∈ t.pre.links, r ∈ l.concluded) ∧ t.pre.Upgrading r ∧ ¬ t.post.Upgrading r := by
  obtain ⟨hrun, -, hok, -⟩ := h.tail
  have hm := (run_stepped h).1
  have hn := run_numbered hrun
  obtain ⟨e, he, hend⟩ := Option.bind_eq_some_iff.mp hr
  obtain ⟨l, hl, l', hemitted, -, hin, hothers⟩ := emits_emitted hm hok he
  cases hemitted with
  | queued hpend _ =>
    have hmem : e ∈ l.handler.pendingEvents := hpend ▸ List.mem_cons_self
    have hcon : r ∈ l.concluded :=
      Link.mem_concluded.mpr ⟨e, List.mem_append_right _ hmem, hend⟩
    refine ⟨⟨l, hl, hcon⟩, ⟨l, hl, Or.inr ⟨e, hmem, hend⟩⟩, ?_⟩
    rintro ⟨k, hk, hup⟩
    rcases hothers k hk with rfl | ⟨hk, hne⟩
    · have honce := (run_attended hrun hlen).endsOnce l hl
      rcases hup with ⟨sub, hsub, rfl⟩ | ⟨e', he', hend'⟩
      · exact honce.running sub (hin ▸ hsub) hcon
      · -- a second event would be in the queue behind the first
        have hnodup := honce.once
        rw [Link.concluded, hpend, List.filterMap_append, List.filterMap_cons_some hend] at hnodup
        refine (List.nodup_cons.mp (List.nodup_append.mp hnodup).2.1).1 ?_
        exact List.mem_filterMap.mpr ⟨e', he', hend'⟩
    · exact hne ((hn.drawnOn_upgrading hk hup).unique hlen (hn.drawnOn_concluded hl hcon))
  | request ch r' m heq _ _ =>
    subst heq
    cases hend

/-- In order, a request that has ended is not expected. -/
theorem not_expects_of_concluded (hn : Numbered tr s) (hm : Mirror s)
    (hlen : (opens tr).length ≤ UInt64.size) (ho : ∀ l ∈ s.links, l.Orderly) {l : Link}
    (hl : l ∈ s.links) (hr : r ∈ l.concluded) : ¬ s.Expects r := by
  rintro ⟨k, hk, f, hf, hlive, hkey⟩
  have hid := (hn.drawnOn_future hk hf hkey).unique hlen (hn.drawnOn_concluded hl hr)
  obtain rfl := List.inj_on_of_nodup_map hm.ids hk hl hid
  exact (ho k hk).unsettled f hf hlive (hkey ▸ hr)

/-- A step that emits draws no id. -/
theorem drewId_of_emits {e : FileGetHandlerEvent} (he : emits t = some e) : drewId t = none := by
  obtain ⟨s, a, s'⟩ := t
  cases a with
  | openInbound c => cases he
  | _ => rfl

/-- In order, no request is expected after its end is emitted. -/
theorem not_expects_of_end (h : (fileGetSystem config debug).Run (t :: tr) s)
    (hlen : (opens tr).length ≤ UInt64.size) (htime : ∀ u ∈ tr, timesOutWaiting u = false)
    (hr : emitsEnd t = some r) : ¬ t.post.Expects r := by
  have hrun := h.tail.1
  intro hexpects
  rcases expects_before h hexpects with hexpects | hdrew
  · obtain ⟨⟨l, hl, hcon⟩, -⟩ := end_emitted h hlen hr
    exact not_expects_of_concluded (run_numbered hrun) (run_stepped h).1 hlen
      (run_orderly hrun hlen htime) hl hcon hexpects
  · obtain ⟨e, he, -⟩ := Option.bind_eq_some_iff.mp hr
    rw [drewId_of_emits he] at hdrew
    cases hdrew

/-! ## The behaviour -/

/-- The behaviour is done with a remote request. -/
inductive Ends (r : RequestId) (t : Transition System Label) : Prop where
  /-- It handles the event that ends the request. -/
  | handled (l : Link) (e : FileGetHandlerEvent) (rest : List FileGetHandlerEvent) :
      l ∈ t.pre.links → t.label = .deliverEvent l.id → l.events = e :: rest →
      e.concludes = some r → Ends r t
  /-- It reports the request failed, for an event of a handler. -/
  | reported (c : ConnectionId) (p : PeerId) (error : InboundFailure) :
      t.label = .deliverEvent c → .inboundFailure p r error ∈ reports t → Ends r t
  /-- The connection the request is being answered on closes. -/
  | closed (p : PeerId) (c : ConnectionId) (o i : IterOrder RequestId) :
      t.label = .connectionClosed p c o i → t.pre.fileGet.Serving p c r → Ends r t

/-- An inbound failure reported for an event is reported for an end. -/
theorem Ends.cases (hm : Mirror t.pre) (h : Stepped t.pre t.label t.post) (hr : Ends r t) :
    (∃ l e rest, l ∈ t.pre.links ∧ t.label = .deliverEvent l.id ∧ l.events = e :: rest ∧
      e.concludes = some r) ∨
    ∃ p c o i, t.label = .connectionClosed p c o i ∧ t.pre.fileGet.Serving p c r := by
  cases hr with
  | handled l e rest hl hlabel he hend => exact Or.inl ⟨l, e, rest, hl, hlabel, he, hend⟩
  | reported c p error hlabel hr =>
    left
    generalize hreport : FileGetEvent.inboundFailure p r error = report at hr
    cases reports_reported hm h hr with
    | dialFailed p' resolves r' hl _ => cases hreport
    | closedServing p' o i conn r' _ _ _ => cases hreport
    | closedWaiting p' o i conn r' hclosed _ _ =>
      rw [hlabel] at hclosed
      cases hclosed
    | delivered l e rest hlabel hl he =>
      refine ⟨l, e, rest, hl, hlabel, he, ?_⟩
      cases e <;> cases hreport <;> rfl
  | closed p c o i hlabel hserving => exact Or.inr ⟨p, c, o, i, hlabel, hserving⟩

/-- The connections after an event of one was handled. -/
theorem links_of_delivered (hm : Mirror t.pre) (h : Stepped t.pre t.label t.post) {l : Link}
    (hl : l ∈ t.pre.links) (hlabel : t.label = .deliverEvent l.id) :
    ∀ k ∈ t.post.links, k = l.dropEvent ∨ k ∈ t.pre.links ∧ k.id ≠ l.id := by
  obtain ⟨s, a, s'⟩ := t
  dsimp only at hm h hlabel hl ⊢
  subst hlabel
  generalize ha : Label.deliverEvent l.id = a at h
  cases h with
  | deliverEvent l₀ conn e rest hl₀ _ _ _ =>
    cases List.inj_on_of_nodup_map hm.ids hl hl₀ (Label.deliverEvent.inj ha)
    intro k hk
    obtain ⟨k₀, hk₀, rfl⟩ := List.mem_map.mp hk
    split
    · rename_i hid
      rw [List.inj_on_of_nodup_map hm.ids hk₀ hl hid]
      exact Or.inl rfl
    · rename_i hne
      exact Or.inr ⟨hk₀, hne⟩
  | link a c f hf => cases hf <;> cases ha
  | _ => cases ha

/-- The peer of a connection with a request. -/
theorem peer_of_serving (hm : Mirror s) {p : PeerId} {l : Link} (hl : l ∈ s.links)
    (h : s.fileGet.Serving p l.id r) : p = l.peer := by
  obtain ⟨conn, hconn, hid, -⟩ := h
  obtain ⟨k, hk, hpeer, hkid⟩ := hm.link_of_conn hconn
  obtain rfl := List.inj_on_of_nodup_map hm.ids hk hl (hkid.trans hid)
  exact hpeer.symm

/-- In order, the behaviour has heard the last of a request whose end it
handles. -/
theorem not_receives_of_handled (h : (fileGetSystem config debug).Run (t :: tr) s)
    (hlen : (opens tr).length ≤ UInt64.size) (htime : ∀ u ∈ tr, timesOutWaiting u = false)
    {l : Link} (hl : l ∈ t.pre.links) (hlabel : t.label = .deliverEvent l.id)
    {e : FileGetHandlerEvent} {rest : List FileGetHandlerEvent} (he : l.events = e :: rest)
    (hend : e.concludes = some r) : ¬ t.post.Receives r := by
  have hrun := h.tail.1
  obtain ⟨hm, hstep⟩ := run_stepped h
  have hn := run_numbered hrun
  have ho := run_orderly hrun hlen htime
  have hcon : r ∈ l.concluded := Link.mem_concluded_of_event (he ▸ List.mem_cons_self) hend
  have hon := hn.drawnOn_concluded hl hcon
  rintro (hr | ⟨k, hk, e', he', hann⟩ | ⟨p, c, hr⟩)
  · rcases expects_before h hr with hr | hdrew
    · exact not_expects_of_concluded hn hm hlen ho hl hcon hr
    · obtain ⟨c, hc, -⟩ := (drewId_iff h).mp hdrew
      rw [hlabel] at hc
      cases hc
  · rcases links_of_delivered hm hstep hl hlabel k hk with rfl | ⟨hk, hne⟩
    · -- nothing announces the request behind its end
      have hordered := (ho l hl).ordered
      rw [he] at hordered
      refine (List.pairwise_cons.mp hordered).1 e' ?_ r hend hann
      simpa [Link.dropEvent, he] using he'
    · exact hne ((hn.drawnOn_event hk he' hann).unique hlen hon)
  · cases stepped_served hm hstep with
    | same _ hd _ => exact hd _ hlabel
    | delivered l₀ e₀ rest₀ hlabel₀ hl₀ he₀ hserving =>
      rw [hlabel] at hlabel₀
      cases List.inj_on_of_nodup_map hm.ids hl hl₀ (Label.deliverEvent.inj hlabel₀)
      rw [he] at he₀
      obtain ⟨rfl, -⟩ := List.cons.inj he₀
      rcases (hserving p c r).mp hr with ⟨hr, hout⟩ | ⟨-, -, hann⟩
      · obtain rfl := (hn.serving p c r hr).unique hlen hon
        exact hout ⟨peer_of_serving hm hl hr, rfl, hend⟩
      · cases e with
        | request r' m ch => cases hend
        | _ => cases hann
    | closed l₀ o i hlabel₀ _ _ _ =>
      rw [hlabel] at hlabel₀
      cases hlabel₀

/-- Nothing is left of a request on a connection that closed. -/
theorem not_receives_of_closed (h : (fileGetSystem config debug).Run (t :: tr) s)
    (hlen : (opens (t :: tr)).length ≤ UInt64.size) {p : PeerId} {c : ConnectionId}
    {o i : IterOrder RequestId} (hlabel : t.label = .connectionClosed p c o i)
    (hr : t.pre.fileGet.Serving p c r) : ¬ t.post.Receives r := by
  obtain ⟨hrun, -, -, rfl⟩ := h.tail
  obtain ⟨hm, hstep⟩ := run_stepped h
  have hn := run_numbered h
  obtain ⟨k, hk, hon⟩ := (run_numbered hrun).serving p c r hr
  replace hon : DrawnOn (opens (t :: tr)) r c := ⟨k, hk, opens_cons hon⟩
  cases stepped_served hm hstep with
  | same _ _ hc => exact absurd hlabel (hc _ _ _ _)
  | delivered l₀ e₀ rest₀ hlabel₀ _ _ _ =>
    rw [hlabel] at hlabel₀
    cases hlabel₀
  | closed l o' i' hlabel' hl hgone hserving =>
    rw [hlabel] at hlabel'
    cases hlabel'
    rintro (⟨k, hk, f, hf, -, hkey⟩ | ⟨k, hk, e, he, hann⟩ | ⟨q, d, hq⟩)
    · exact hgone k hk ((hn.drawnOn_future hk hf hkey).unique hlen hon)
    · exact hgone k hk ((hn.drawnOn_event hk he hann).unique hlen hon)
    · obtain rfl := (hn.serving q d r hq).unique hlen hon
      obtain ⟨hq, hout⟩ := (hserving q _ r).mp hq
      exact hout ⟨peer_of_serving hm hl hq, rfl⟩

end Steps

/-! ## One life -/

/-- The life of an inbound request in a run (newest step first): one
`Request`, one end, no `Request` after the end; and once the behaviour is
done with it, it is neither announced nor in the set of a connection. -/
structure OneLife (tr : Trace System Label) (s : System) (r : RequestId) : Prop where
  requestOnce : tr.Pairwise fun t u => emitsRequest t = some r → ¬ emitsRequest u = some r
  endOnce : tr.Pairwise fun t u => emitsEnd t = some r → ¬ emitsEnd u = some r
  requestFirst : tr.Pairwise fun t u => emitsRequest t = some r → ¬ emitsEnd u = some r
  announcedFirst : tr.Pairwise fun t u =>
    (∃ p m ch, .requestReceived p r m ch ∈ reports t) → ¬ Ends r u
  notKept : ∀ u ∈ tr, Ends r u → ∀ p c, ¬ s.fileGet.Serving p c r

section Runs

variable {config : FileGetConfig} {debug : Bool} {tr : Trace System Label} {s : System}

/-- A request that is announced was on its way. -/
theorem receives_of_reported {t : Transition System Label} (hm : Mirror t.pre)
    (h : Stepped t.pre t.label t.post) {p : PeerId} {r : RequestId} {m : FileGetMessage}
    {ch : ChannelId} (hr : .requestReceived p r m ch ∈ reports t) : t.pre.Receives r := by
  generalize hreport : FileGetEvent.requestReceived p r m ch = report at hr
  cases reports_reported hm h hr with
  | dialFailed p' resolves r' hl _ => cases hreport
  | closedServing p' o i conn r' _ _ _ => cases hreport
  | closedWaiting p' o i conn r' _ _ _ => cases hreport
  | delivered l e rest _ hl he =>
    refine Or.inr (Or.inl ⟨l, hl, e, he ▸ List.mem_cons_self, ?_⟩)
    cases e <;> cases hreport
    rfl

section

variable (h : (fileGetSystem config debug).Run tr s) (hlen : (opens tr).length ≤ UInt64.size)
  (htime : ∀ t ∈ tr, timesOutWaiting t = false) (r : RequestId)

include hlen in
theorem opens_le_of_suffix {t : Transition System Label} {older : Trace System Label}
    (hs : t :: older <:+ tr) : (opens older).length ≤ UInt64.size :=
  Nat.le_trans (opens_length_suffix ((List.suffix_cons t older).trans hs)) hlen

include htime in
theorem timely_of_suffix {t : Transition System Label} {older : Trace System Label}
    (hs : t :: older <:+ tr) : ∀ u ∈ older, timesOutWaiting u = false :=
  fun u hu => htime u (hs.mem (List.mem_cons_of_mem _ hu))

include h hlen

/-- A handler emits a request once, timeouts or not. -/
theorem requests_once :
    tr.Pairwise fun t u => emitsRequest t = some r → ¬ emitsRequest u = some r := by
  have hstep : ∀ {t older}, t :: older <:+ tr → emitsRequest t = some r →
      t.pre.Expects r ∧ ¬ t.post.Expects r := fun hs hr =>
    request_emitted (h.of_suffix hs) (opens_le_of_suffix hlen hs) hr
  refine (futureAccounting config debug).pairwise_not_after (x := r) h hlen (fun hs hr => ?_)
    fun hs hr => (hstep hs hr).1
  obtain ⟨hpre, hpost⟩ := hstep hs hr
  exact ⟨Accounting.held_issued _ (h.of_suffix hs).tail.1 (opens_le_of_suffix hlen hs) hpre, hpost⟩

/-- A handler emits one end of a request, timeouts or not. -/
theorem ends_once : tr.Pairwise fun t u => emitsEnd t = some r → ¬ emitsEnd u = some r := by
  have hstep : ∀ {t older}, t :: older <:+ tr → emitsEnd t = some r →
      t.pre.Upgrading r ∧ ¬ t.post.Upgrading r := fun hs hr =>
    (end_emitted (h.of_suffix hs) (opens_le_of_suffix hlen hs) hr).2
  refine (upgradeAccounting config debug).pairwise_not_after (x := r) h hlen (fun hs hr => ?_)
    fun hs hr => (hstep hs hr).1
  obtain ⟨hpre, hpost⟩ := hstep hs hr
  exact ⟨Accounting.held_issued _ (h.of_suffix hs).tail.1 (opens_le_of_suffix hlen hs) hpre, hpost⟩

include htime

/-- No request is emitted after its end. -/
theorem request_not_after_end :
    tr.Pairwise fun t u => emitsRequest t = some r → ¬ emitsEnd u = some r := by
  refine (futureAccounting config debug).pairwise_not_after (x := r) h hlen (fun hs hr => ?_)
    fun hs hr => (request_emitted (h.of_suffix hs) (opens_le_of_suffix hlen hs) hr).1
  have hrun := h.of_suffix hs
  have hlen' := opens_le_of_suffix hlen hs
  obtain ⟨-, hpre, -⟩ := end_emitted hrun hlen' hr
  exact ⟨(upgradeAccounting config debug).held_issued hrun.tail.1 hlen' hpre,
    not_expects_of_end hrun hlen' (timely_of_suffix htime hs) hr⟩

/-- What the behaviour is done with does not come back. -/
theorem not_receives_of_ends {t : Transition System Label} {older : Trace System Label}
    (hs : t :: older <:+ tr) (hr : Ends r t) :
    (receiptAccounting config debug).Issued older r ∧ ¬ t.post.Receives r := by
  have hrun := h.of_suffix hs
  have hlen' := opens_le_of_suffix hlen hs
  obtain ⟨hm, hstep⟩ := run_stepped hrun
  rcases hr.cases hm hstep with
    ⟨l, e, rest, hl, hlabel, he, hend⟩ | ⟨p, c, o, i, hlabel, hserving⟩
  · have hcon := Link.mem_concluded_of_event (he ▸ List.mem_cons_self) hend
    have hon := (run_numbered hrun.tail.1).drawnOn_concluded hl hcon
    exact ⟨(drewId_drawnOn hrun.tail.1).mpr ⟨_, hon⟩,
      not_receives_of_handled hrun hlen' (timely_of_suffix htime hs) hl hlabel he hend⟩
  · exact ⟨Accounting.held_issued _ hrun.tail.1 hlen' (Or.inr (Or.inr ⟨p, c, hserving⟩)),
      not_receives_of_closed hrun (Nat.le_trans (opens_length_suffix hs) hlen) hlabel hserving⟩

end

/-- **An inbound request has one life**, in every run with at most `2 ^ 64`
inbound substreams in which no substream times out while its request waits
in the handler. -/
theorem one_life (h : (fileGetSystem config debug).Run tr s)
    (hlen : (opens tr).length ≤ UInt64.size) (htime : ∀ t ∈ tr, timesOutWaiting t = false)
    (r : RequestId) : OneLife tr s r where
  requestOnce := requests_once h hlen r
  endOnce := ends_once h hlen r
  requestFirst := request_not_after_end h hlen htime r
  announcedFirst := by
    refine (receiptAccounting config debug).pairwise_not_after h hlen
      (not_receives_of_ends h hlen htime r) fun hs hr => ?_
    obtain ⟨p, m, ch, hr⟩ := hr
    obtain ⟨hm, hstep⟩ := run_stepped (h.of_suffix hs)
    exact receives_of_reported hm hstep hr
  notKept u hu hr p c hserving :=
    (receiptAccounting config debug).not_held_after h hlen
      (not_receives_of_ends h hlen htime r) hu hr (Or.inr (Or.inr ⟨p, c, hserving⟩))

end Runs

/-- The request is announced, and then the substream times out. -/
theorem one_life_timeout : ∃ tr s, (fileGetSystem ⟨10⟩ true).Run tr s ∧
    (∃ t ∈ tr, emitsEnd t = some (.nth 0)) ∧ OneLife tr s (.nth 0) := by
  obtain ⟨tr, s, hrun, hP⟩ := Machine.exists_run_of_labels (M := fileGetSystem ⟨10⟩ true)
    [.connectionEstablished ⟨7⟩ ⟨1⟩ (.dialer ⟨"/ip4/10.0.0.2"⟩) false,
      .openInbound ⟨1⟩, .inbound ⟨1⟩ ⟨0⟩ (.received (.ok ⟨"a"⟩)), .pollHandler ⟨1⟩ 0 0,
      .inbound ⟨1⟩ ⟨0⟩ (.fails .timeout), .pollHandler ⟨1⟩ 0 0, .deliverEvent ⟨1⟩,
      .deliverEvent ⟨1⟩]
    (fun tr s => decide ((∃ t ∈ tr, emitsEnd t = some (.nth 0)) ∧
      (opens tr).length ≤ UInt64.size ∧ ∀ t ∈ tr, timesOutWaiting t = false))
    (by decide) (by decide)
  obtain ⟨hend, hlen, htime⟩ := of_decide_eq_true hP
  exact ⟨tr, s, hrun, hend, one_life hrun hlen htime (.nth 0)⟩

/-- The substream times out while the request waits in the handler. The
handler emits `InboundTimeout` and then `Request`; the behaviour reports
the request failed, then announces it, and keeps the id. -/
theorem late_request_announced : ∃ t₁ t₂ t₃ t₄ older s,
    (fileGetSystem ⟨10⟩ true).Run (t₄ :: t₃ :: t₂ :: t₁ :: older) s ∧
    emitsEnd t₁ = some (.nth 0) ∧
    .inboundFailure ⟨7⟩ (.nth 0) .timeout ∈ reports t₂ ∧
    emitsRequest t₃ = some (.nth 0) ∧
    (∃ m ch, .requestReceived ⟨7⟩ (.nth 0) m ch ∈ reports t₄) ∧
    s.fileGet.Serving ⟨7⟩ ⟨1⟩ (.nth 0) := by
  refine ⟨_, _, _, _, _, _, Machine.Run.of_exec
    [.connectionEstablished ⟨7⟩ ⟨1⟩ (.dialer ⟨"/ip4/10.0.0.2"⟩) false,
      .openInbound ⟨1⟩, .inbound ⟨1⟩ ⟨0⟩ (.received (.ok ⟨"a"⟩)),
      .inbound ⟨1⟩ ⟨0⟩ (.fails .timeout), .pollHandler ⟨1⟩ 0 0, .deliverEvent ⟨1⟩,
      .pollHandler ⟨1⟩ 0 0, .deliverEvent ⟨1⟩] .start (by decide) rfl, by decide, by decide,
    by decide, ⟨⟨"a"⟩, ⟨0⟩, by decide⟩, ?_⟩
  exact ⟨⟨⟨1⟩, some ⟨"/ip4/10.0.0.2"⟩, AList.insert (.nth 0) () ∅, ∅⟩, List.mem_singleton.mpr rfl,
    rfl, (AList.mem_insert _).mpr (Or.inl rfl)⟩

end FileSharing
