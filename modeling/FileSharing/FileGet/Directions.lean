/-
FileSharing.FileGet.Directions — which failure is reported for which
request.

Outbound and inbound requests draw their ids from two counters that both
start at 1, so a report in the wrong direction carries a plausible id. The
failures of single requests go the right way: an `OutboundFailure` from a
handler or from a dial is about a request of ours that is still pending
(`Pipeline`), and an `InboundFailure` from a handler is about an id that
`listen_protocol` drew on a connection of that peer (`InboundDrawn`).

`on_connection_closed` does NOT: it reports the inbound requests of the
connection as `OutboundFailure` and ours as `InboundFailure`.
`failures_directed_iff` says what is left: a run reports every failure in
the right direction exactly if each connection that closed held the same
ids on both sides, for instance none at all.
-/
import FileSharing.FileGet.OutboundAccounting
import FileSharing.FileGet.Pipeline
import FileSharing.FileGet.InboundMoves

namespace FileSharing

open Lib FileGet

/-! ## What a step reports -/

/-- The steps that report something, and what. -/
inductive Reported (t : Transition System Label) : FileGetEvent → Prop where
  | dialFailed (p : PeerId) (resolves : Bool) (r : RequestId) :
      t.label = .dialFailure (some p) resolves → t.pre.fileGet.Buffered p r →
      Reported t (.outboundFailure p r .dialFailure)
  | closedServing (p : PeerId) (o i : IterOrder RequestId) (conn : Connection) (r : RequestId) :
      t.label = .connectionClosed p conn.id o i → conn ∈ t.pre.fileGet.connections p →
      r ∈ conn.pendingOutboundResponses →
      Reported t (.outboundFailure p r .connectionClosed)
  | closedWaiting (p : PeerId) (o i : IterOrder RequestId) (conn : Connection) (r : RequestId) :
      t.label = .connectionClosed p conn.id o i → conn ∈ t.pre.fileGet.connections p →
      r ∈ conn.pendingInboundResponses →
      Reported t (.inboundFailure p r .connectionClosed)
  | delivered (l : Link) (e : FileGetHandlerEvent) (rest : List FileGetHandlerEvent) :
      t.label = .deliverEvent l.id → l ∈ t.pre.links → l.events = e :: rest →
      Reported t (e.report l.peer)

/-- A step that queues no event reports nothing. -/
theorem reports_eq_nil {t : Transition System Label} {actions : List NetworkBehaviourAction}
    (h : t.post.fileGet.pendingEvents = t.pre.fileGet.pendingEvents ++ actions)
    (ha : ∀ a ∈ actions, a.event? = none) : reports t = [] := by
  rw [reports_of_append h]
  exact List.filterMap_eq_nil_iff.mpr ha

/-- The reports of a close, in terms of the record. -/
theorem mem_reports_closed {t : Transition System Label} {p : PeerId} {o i : IterOrder RequestId}
    {conn : Connection}
    (h : t.post.fileGet.pendingEvents =
      t.pre.fileGet.pendingEvents ++ closedEvents o i p conn) (e : FileGetEvent) :
    e ∈ reports t ↔
      (∃ r ∈ conn.pendingOutboundResponses, e = .outboundFailure p r .connectionClosed) ∨
      ∃ r ∈ conn.pendingInboundResponses, e = .inboundFailure p r .connectionClosed := by
  rw [reports_of_append h, closedEvents, List.filterMap_append, filterMap_generateEvent,
    filterMap_generateEvent]
  simp only [List.mem_append, List.mem_map, IterOrder.mem_order, AList.mem_keys, eq_comm]

theorem failures_closed {t : Transition System Label} {p : PeerId} {o i : IterOrder RequestId}
    {conn : Connection}
    (h : t.post.fileGet.pendingEvents =
      t.pre.fileGet.pendingEvents ++ closedEvents o i p conn) (r : RequestId) :
    ((∃ error, .outboundFailure p r error ∈ reports t) ↔ r ∈ conn.pendingOutboundResponses) ∧
    ((∃ error, .inboundFailure p r error ∈ reports t) ↔ r ∈ conn.pendingInboundResponses) := by
  constructor <;> simp [mem_reports_closed h]

/-- **Inversion**: every report is one of those `Reported` lists. -/
theorem reports_reported {t : Transition System Label} (hm : Mirror t.pre)
    (h : Stepped t.pre t.label t.post) {e : FileGetEvent} (he : e ∈ reports t) :
    Reported t e := by
  obtain ⟨s, a, s'⟩ := t
  dsimp only at hm h
  -- the steps whose new actions are all dials and notifications
  have hnone : ∀ actions : List NetworkBehaviourAction,
      s'.fileGet.pendingEvents = s.fileGet.pendingEvents ++ actions →
      (∀ x ∈ actions, x.event? = none) → Reported ⟨s, a, s'⟩ e := by
    intro actions happ hall
    rw [reports_eq_nil (t := ⟨s, a, s'⟩) happ hall] at he
    cases he
  have hsame : s'.fileGet.pendingEvents = s.fileGet.pendingEvents → Reported ⟨s, a, s'⟩ e :=
    fun heq => hnone [] (by rw [heq, List.append_nil]) (by simp)
  cases h with
  | buffered p m w _ =>
    exact hnone [.dial p s.fileGet.newHandler] rfl (by simp [NetworkBehaviourAction.event?])
  | dispatched p m w l fg _ _ hd =>
    refine hnone _ hd.events fun x hx => ?_
    obtain ⟨request, -, rfl⟩ := List.mem_map.mp hx
    rfl
  | established p c ep resolves _ _ _ => exact hsame rfl
  | drained p c ep resolves pending fg _ _ _ _ _ hd =>
    refine hnone _ hd.events fun x hx => ?_
    obtain ⟨request, -, rfl⟩ := List.mem_map.mp hx
    rfl
  | closed l o i conn hl hconn hid =>
    rcases (mem_reports_closed rfl e).mp he with ⟨r, hr, rfl⟩ | ⟨r, hr, rfl⟩
    · exact .closedServing l.peer o i conn r (by rw [hid]) hconn hr
    · exact .closedWaiting l.peer o i conn r (by rw [hid]) hconn hr
  | addressChange l ep _ => exact hsame (modifyConnection_pendingEvents _)
  | dialFailed peer resolves _ => exact hsame rfl
  | dialDrained p resolves pending hb =>
    rw [reports_of_append (t := ⟨s, _, _⟩) rfl, filterMap_generateEvent] at he
    obtain ⟨request, hmem, rfl⟩ := List.mem_map.mp he
    exact .dialFailed p resolves request.requestId rfl
      ⟨request, (buffer_of_lookup hb).symm ▸ hmem, rfl⟩
  | swarmNotice event => exact hsame rfl
  | pollIdle _ => exact hsame rfl
  | pollReady action rest hq =>
    -- the queue got shorter
    have hnil : reports ⟨s, .pollBehaviour, System.perform
        { s with fileGet := { s.fileGet with pendingEvents := rest } } action⟩ = [] := by
      unfold reports
      rw [System.perform_fileGet, hq]
      exact congrArg (List.filterMap _) (List.drop_of_length_le (Nat.le_succ rest.length))
    rw [hnil] at he
    cases he
  | deliverEvent l conn ev rest hl hev _ _ =>
    rw [reports_of_append (t := ⟨s, _, _⟩) (afterEvent_pendingEvents ev)] at he
    have heq : e = ev.report l.peer := by simpa [NetworkBehaviourAction.event?] using he
    rw [heq]
    exact .delivered l ev rest rfl hl hev
  | link a c f hf => exact hsame rfl
  | openInbound l _ => exact hsame rfl
  | respond ch reader => exact hsame rfl
  | dropResponder ch => exact hsame rfl

/-! ## Inbound ids -/

/-- The peer and the id of an inbound request a step drew: what
`listen_protocol` gave the new substream. -/
def drew (t : Transition System Label) : Option (PeerId × RequestId) :=
  match t.label with
  | .openInbound c =>
    (t.pre.link? c).map fun l =>
      (l.peer, (l.handler.listenProtocol t.pre.fileGet.inboundIdGenerator
        ⟨t.pre.nextChannel⟩).2.2.info)
  | _ => none

/-- The link carries the inbound id: in an event, in a received request, or
at a substream. -/
inductive Link.Carries (l : Link) (r : RequestId) : Prop where
  | event (e : FileGetHandlerEvent) : e ∈ l.events → e.inboundId? = some r → Carries l r
  | queued (e : FileGetHandlerEvent) : e ∈ l.handler.pendingEvents → e.inboundId? = some r →
      Carries l r
  | received (channel : ChannelId) (message : FileGetMessage) :
      ⟨channel, .received r message⟩ ∈ l.handler.inbound → Carries l r
  | info (sub : InboundSubstream) : sub ∈ l.inbound → sub.info = r → Carries l r
  | upgrade (sub : InboundSubstream) : sub ∈ l.inbound → sub.upgrade.requestId = r → Carries l r

/-- The connection task carries on with the ids the link had. -/
theorem InboundMoved.carries {a : Label} {l l' : Link} (h : InboundMoved a l l') {r : RequestId}
    (hr : l'.Carries r) : l.Carries r := by
  cases hr with
  | event e he hid =>
    rcases h.event he with he | he | ⟨ch, r', m, rfl, hmem⟩
    · exact .event e he hid
    · exact .queued e he hid
    · cases hid
      exact .received ch m hmem
  | queued e he hid =>
    rcases h.pending he with he | hnone | ⟨sub, hsub, queued, hend, he⟩
    · exact .queued e he hid
    · rw [hnone] at hid
      cases hid
    · have hc := hend.concludes e he
      simp only [FileGetHandlerEvent.inboundId?, FileGetHandlerEvent.announces_of_concludes hc,
        hc] at hid
      exact .info sub hsub (Option.some.inj hid)
  | received ch m hmem =>
    obtain ⟨g, hg, -, hstate | hstate | ⟨sub, hsub, m', -, -, hstate⟩⟩ := h.future hmem
    · obtain ⟨ch', state⟩ := g
      obtain rfl : FutureState.received r m = state := hstate
      exact .received ch' m hg
    · cases hstate
    · cases hstate
      exact .upgrade sub hsub rfl
  | info sub hmem hid =>
    obtain ⟨y, hy, -, hinfo, -⟩ := h.substream hmem
    exact .info y hy (hinfo ▸ hid)
  | upgrade sub hmem hid =>
    obtain ⟨y, hy, hup, -, -⟩ := h.substream hmem
    exact .upgrade y hy (hup ▸ hid)

/-- A step carries on with the ids the link had, but for the one it draws. -/
theorem LinkMoved.carries {s : System} {a : Label} {l l' : Link} (h : LinkMoved s a l l')
    {r : RequestId} (hr : l'.Carries r) :
    l.Carries r ∨ a = .openInbound l.id ∧ r = s.fileGet.inboundIdGenerator.nextId.1 := by
  cases h with
  | moved _ _ hmoved => exact Or.inl (hmoved.carries hr)
  | delivered e rest _ he =>
    left
    cases hr with
    | event e' he' hid => exact .event e' (List.mem_of_mem_tail he') hid
    | queued e' he' hid => exact .queued e' he' hid
    | received ch m hmem => exact .received ch m hmem
    | info sub hmem hid => exact .info sub hmem hid
    | upgrade sub hmem hid => exact .upgrade sub hmem hid
  | opened ha =>
    cases hr with
    | event e he hid => exact Or.inl (.event e he hid)
    | queued e he hid => exact Or.inl (.queued e he hid)
    | received ch m hmem =>
      rcases List.mem_append.mp hmem with hmem | hmem
      · exact Or.inl (.received ch m hmem)
      · simp at hmem
    | info sub hmem hid =>
      rcases List.mem_append.mp hmem with hmem | hmem
      · exact Or.inl (.info sub hmem hid)
      · rw [List.mem_singleton.mp hmem] at hid
        exact Or.inr ⟨ha, hid.symm⟩
    | upgrade sub hmem hid =>
      rcases List.mem_append.mp hmem with hmem | hmem
      · exact Or.inl (.upgrade sub hmem hid)
      · rw [List.mem_singleton.mp hmem] at hid
        exact Or.inr ⟨ha, hid.symm⟩
  | told ch response _ =>
    left
    cases hr with
    | event e he hid => exact .event e he hid
    | queued e he hid => exact .queued e he hid
    | received ch m hmem => exact .received ch m hmem
    | info sub hmem hid =>
      obtain ⟨y, hy, -, hinfo, -⟩ := Link.mem_setResponse hmem
      exact .info y hy (hinfo ▸ hid)
    | upgrade sub hmem hid =>
      obtain ⟨y, hy, hup, -⟩ := Link.mem_setResponse hmem
      exact .upgrade y hy (hup ▸ hid)

/-- An earlier step drew the id on a connection of the peer. -/
def Drawn (tr : Trace System Label) (p : PeerId) (r : RequestId) : Prop :=
  ∃ u ∈ tr, drew u = some (p, r)

/-- Every inbound id in the system was drawn on a connection of its peer. -/
structure InboundDrawn (tr : Trace System Label) (s : System) : Prop where
  links : ∀ l ∈ s.links, ∀ r, l.Carries r → Drawn tr l.peer r
  serving : ∀ p c r, s.fileGet.Serving p c r → Drawn tr p r

namespace InboundDrawn

variable {tr : Trace System Label} {t : Transition System Label}

theorem step (hd : InboundDrawn tr t.pre) (hm : Mirror t.pre)
    (hallowed : t.pre.Allowed t.label = true) (h : Stepped t.pre t.label t.post) :
    InboundDrawn (t :: tr) t.post := by
  have hmono : ∀ {p r}, Drawn tr p r → Drawn (t :: tr) p r :=
    fun ⟨u, hu, hr⟩ => ⟨u, List.mem_cons_of_mem _ hu, hr⟩
  constructor
  · intro l' hl' r hr
    cases stepped_linkFrom hm hallowed h hl' with
    | old l hl hid hpeer hmoved =>
      rcases hmoved.carries hr with hr | ⟨hlabel, rfl⟩
      · exact hpeer ▸ hmono (hd.links l hl r hr)
      · -- the id just drawn
        refine ⟨t, List.mem_cons_self, ?_⟩
        simp only [drew, hlabel, hm.link?_eq hl, hpeer]
        rfl
    | new hin hfut hpend hev =>
      cases hr with
      | event e he _ => simp [hev] at he
      | queued e he _ => simp [hpend] at he
      | received ch m hmem => simp [hfut] at hmem
      | info sub hmem _ | upgrade sub hmem _ => simp [hin] at hmem
  · intro p c r hr
    cases stepped_served hm h with
    | same hsame _ _ => exact hmono (hd.serving p c r ((hsame p c r).mp hr))
    | delivered l e rest _ hl he hserving =>
      rcases (hserving p c r).mp hr with ⟨hr, -⟩ | ⟨rfl, -, hx⟩
      · exact hmono (hd.serving p c r hr)
      · have hid : e.inboundId? = some r := by simp [FileGetHandlerEvent.inboundId?, hx]
        exact hmono (hd.links l hl r (.event e (he ▸ List.mem_cons_self) hid))
    | closed l o i _ hl _ hserving =>
      exact hmono (hd.serving p c r ((hserving p c r).mp hr).1)

end InboundDrawn

variable {config : FileGetConfig} {debug : Bool} {tr : Trace System Label} {s : System}

/-- **Inbound ids are drawn ids**, in every run. -/
theorem run_inboundDrawn (h : (fileGetSystem config debug).Run tr s) : InboundDrawn tr s := by
  induction tr generalizing s with
  | nil =>
    cases h
    refine ⟨fun l hl => ?_, fun p c r hr => ?_⟩
    · simp [fileGetSystem, System.init] at hl
    · obtain ⟨conn, hmem, -⟩ := hr
      simp [fileGetSystem, System.init, fromConfig, connections] at hmem
  | cons t tr ih =>
    obtain ⟨hrun, hallowed, -, rfl⟩ := h.tail
    obtain ⟨hm, hstep⟩ := run_stepped h
    exact (ih hrun).step hm hallowed hstep

/-! ## Directions -/

/-- The failures a step reports go the right way: an `OutboundFailure` is
about a request an earlier `send_request` to the peer made and that is
still pending, an `InboundFailure` about an id drawn on a connection of the
peer; and a close reports our requests on the connection as outbound
failures and the remote's as inbound failures. -/
def Directed (older : Trace System Label) (t : Transition System Label) : Prop :=
  (∀ p r error, .outboundFailure p r error ∈ reports t →
    (∃ u ∈ older, returned u = some (p, r)) ∧ t.pre.fileGet.Pending p r) ∧
  (∀ p r error, .inboundFailure p r error ∈ reports t → Drawn older p r) ∧
  ∀ p c o i, t.label = .connectionClosed p c o i →
    (∀ r, t.pre.fileGet.Waiting p c r → ∃ error, .outboundFailure p r error ∈ reports t) ∧
    (∀ r, t.pre.fileGet.Serving p c r → ∃ error, .inboundFailure p r error ∈ reports t)

/-- A close of a connection that holds the same ids on both sides. -/
def ClosesBalanced (t : Transition System Label) : Prop :=
  ∀ p c o i, t.label = .connectionClosed p c o i →
    ∀ r, t.pre.fileGet.Waiting p c r ↔ t.pre.fileGet.Serving p c r

/-- The step closes no connection of a peer on which anything is pending:
the usual way for a close to be balanced. -/
def closesNothing (t : Transition System Label) : Bool :=
  match t.label with
  | .connectionClosed p _ _ _ => (t.pre.fileGet.connections p).all fun conn =>
      conn.pendingInboundResponses.keys.isEmpty && conn.pendingOutboundResponses.keys.isEmpty
  | _ => true

theorem closesNothing_balanced {t : Transition System Label} (h : closesNothing t = true) :
    ClosesBalanced t := by
  intro p c o i hlabel r
  unfold closesNothing at h
  simp only [hlabel, List.all_eq_true, Bool.and_eq_true, List.isEmpty_iff] at h
  have hnone : ∀ ids : HashSet RequestId, ids.keys = [] → r ∉ ids := fun ids hids hr => by
    have := AList.mem_keys.mp hr
    rw [hids] at this
    cases this
  constructor
  · rintro ⟨conn, hmem, -, hr⟩
    exact absurd hr (hnone _ (h conn hmem).1)
  · rintro ⟨conn, hmem, -, hr⟩
    exact absurd hr (hnone _ (h conn hmem).2)

/-- The events whose report is an `OutboundFailure` complete a request. -/
theorem FileGetHandlerEvent.report_outboundFailure {e : FileGetHandlerEvent} {p q : PeerId}
    {r : RequestId} {error : OutboundFailure} (h : .outboundFailure p r error = e.report q) :
    p = q ∧ e.completes = some r := by
  cases e <;> simp_all [FileGetHandlerEvent.report, FileGetHandlerEvent.completes]

/-- The events whose report is an `InboundFailure` are about an inbound id. -/
theorem FileGetHandlerEvent.report_inboundFailure {e : FileGetHandlerEvent} {p q : PeerId}
    {r : RequestId} {error : InboundFailure} (h : .inboundFailure p r error = e.report q) :
    p = q ∧ e.inboundId? = some r := by
  cases e <;> simp_all [FileGetHandlerEvent.report, FileGetHandlerEvent.inboundId?,
    FileGetHandlerEvent.announces, FileGetHandlerEvent.concludes]

/-- The close of a connection: its record and what is reported. -/
theorem closed_reports {t : Transition System Label} (hm : Mirror t.pre)
    (h : Stepped t.pre t.label t.post) {p : PeerId} {c : ConnectionId}
    {o i : IterOrder RequestId} (hlabel : t.label = .connectionClosed p c o i) (r : RequestId) :
    ((∃ error, .outboundFailure p r error ∈ reports t) ↔ t.pre.fileGet.Serving p c r) ∧
    ((∃ error, .inboundFailure p r error ∈ reports t) ↔ t.pre.fileGet.Waiting p c r) := by
  obtain ⟨s, a, s'⟩ := t
  dsimp only at hm h hlabel ⊢
  subst hlabel
  cases h with
  | closed l _ _ conn hl hconn hid =>
    have hserving := serving_conn hm.wf hconn (g := (·.pendingOutboundResponses)) (r := r)
    have hwaiting := serving_conn hm.wf hconn (g := (·.pendingInboundResponses)) (r := r)
    rw [hid] at hserving hwaiting
    exact ⟨(failures_closed rfl r).1.trans hserving.symm,
      (failures_closed rfl r).2.trans hwaiting.symm⟩
  | link _ _ _ hf => cases hf

/-- **Failures are reported for the right direction exactly in the runs in
which every connection that closes holds the same ids on both sides.** -/
theorem failures_directed_iff (h : (fileGetSystem config debug).Run tr s)
    (hn : sends tr ≤ UInt64.size) :
    (∀ newer t older, tr = newer ++ t :: older → Directed older t) ↔
      ∀ t ∈ tr, ClosesBalanced t := by
  constructor
  · -- what a close must report is what it reports of the other side
    intro hdir t ht p c o i hlabel r
    obtain ⟨newer, older, rfl⟩ := List.append_of_mem ht
    obtain ⟨hrun, hallowed, hok⟩ := h.of_append
    have hm := run_mirror hrun
    obtain ⟨hout, hin⟩ := closed_reports hm (step_stepped hm hallowed hok) hlabel r
    obtain ⟨hw, hs⟩ := (hdir newer t older rfl).2.2 p c o i hlabel
    exact ⟨fun hr => hout.mp (hw r hr), fun hr => hin.mp (hs r hr)⟩
  · rintro hbal newer t older rfl
    have ht : t ∈ newer ++ t :: older := List.mem_append_right _ List.mem_cons_self
    obtain ⟨hrun, hallowed, hok⟩ := h.of_append
    have hn' : sends older ≤ UInt64.size := Nat.le_trans (sends_older_le newer t older) hn
    have hm := run_mirror hrun
    have hstep := step_stepped hm hallowed hok
    have hissued : ∀ {p r}, t.pre.fileGet.Pending p r →
        (∃ u ∈ older, returned u = some (p, r)) ∧ t.pre.fileGet.Pending p r :=
      fun {p r} hp => ⟨(requestAccounting config debug).held_issued hrun hn' (x := (p, r)) hp, hp⟩
    have hdrawn := run_inboundDrawn hrun
    refine ⟨fun p r error hmem => ?_, fun p r error hmem => ?_, fun p c o i hlabel => ?_⟩
    · generalize he : FileGetEvent.outboundFailure p r error = e at hmem
      cases reports_reported hm hstep hmem with
      | dialFailed q resolves x _ hb =>
        cases he
        exact hissued (Or.inl hb)
      | closedServing q o i conn x hlabel hconn hx =>
        cases he
        have hserving : t.pre.fileGet.Serving p conn.id r := ⟨conn, hconn, rfl, hx⟩
        exact hissued (Or.inr ⟨conn.id, (hbal t ht p conn.id o i hlabel r).mpr hserving⟩)
      | closedWaiting q o i conn x _ _ _ => cases he
      | delivered l ev rest _ hl hev =>
        obtain ⟨rfl, hcompletes⟩ := FileGetHandlerEvent.report_outboundFailure he
        exact hissued (Or.inr ⟨l.id,
          completes_waiting (run_inFlight hrun hn') hl hev hcompletes⟩)
    · generalize he : FileGetEvent.inboundFailure p r error = e at hmem
      cases reports_reported hm hstep hmem with
      | dialFailed q resolves x _ _ => cases he
      | closedServing q o i conn x _ _ _ => cases he
      | closedWaiting q o i conn x hlabel hconn hx =>
        cases he
        have hwaiting : t.pre.fileGet.Waiting p conn.id r := ⟨conn, hconn, rfl, hx⟩
        exact hdrawn.serving p conn.id r ((hbal t ht p conn.id o i hlabel r).mp hwaiting)
      | delivered l ev rest _ hl hev =>
        obtain ⟨rfl, hid⟩ := FileGetHandlerEvent.report_inboundFailure he
        exact hdrawn.links l hl r (.event ev (hev ▸ List.mem_cons_self) hid)
    · have hb := hbal t ht p c o i hlabel
      refine ⟨fun r hr => ?_, fun r hr => ?_⟩
      · exact (closed_reports hm hstep hlabel r).1.mpr ((hb r).mp hr)
      · exact (closed_reports hm hstep hlabel r).2.mpr ((hb r).mpr hr)

/-- A run in which a connection closes while nothing is pending on it, after
a request of ours timed out. -/
theorem failures_directed_iff_timeout : ∃ tr s, (fileGetSystem ⟨10⟩ true).Run tr s ∧
    (∃ t ∈ tr, .outboundFailure ⟨7⟩ (.nth 0) .timeout ∈ reports t) ∧
    ∀ newer t older, tr = newer ++ t :: older → Directed older t := by
  obtain ⟨tr, s, hrun, hP⟩ := Machine.exists_run_of_labels (M := fileGetSystem ⟨10⟩ true)
    [.connectionEstablished ⟨7⟩ ⟨1⟩ (.dialer ⟨"/ip4/10.0.0.2"⟩) false,
      .sendRequest ⟨7⟩ ⟨"a"⟩ ⟨[]⟩, .pollBehaviour, .deliverCommand ⟨1⟩, .pollHandler ⟨1⟩ 0 0,
      .endOutbound ⟨1⟩ 0 (.error .timeout), .pollHandler ⟨1⟩ 0 0, .deliverEvent ⟨1⟩,
      .connectionClosed ⟨7⟩ ⟨1⟩ (.stored _) (.stored _)]
    (fun tr _ => decide (sends tr ≤ UInt64.size ∧
      (∃ t ∈ tr, .outboundFailure ⟨7⟩ (.nth 0) .timeout ∈ reports t) ∧
      ∀ t ∈ tr, closesNothing t = true)) (by decide) (by decide)
  obtain ⟨hn, hr, hnothing⟩ := of_decide_eq_true hP
  exact ⟨tr, s, hrun, hr, (failures_directed_iff hrun hn).mpr fun t ht =>
    closesNothing_balanced (hnothing t ht)⟩

/-- A close in the middle of a transfer. Our request is reported as an
inbound failure, although no inbound id was ever drawn. -/
theorem closed_request_misdirected : ∃ tr s, (fileGetSystem ⟨10⟩ true).Run tr s ∧
    ¬ ∀ newer t older, tr = newer ++ t :: older → Directed older t := by
  obtain ⟨tr, s, hrun, hP⟩ := Machine.exists_run_of_labels (M := fileGetSystem ⟨10⟩ true)
    [.connectionEstablished ⟨7⟩ ⟨1⟩ (.dialer ⟨"/ip4/10.0.0.2"⟩) false,
      .sendRequest ⟨7⟩ ⟨"a"⟩ ⟨[]⟩, .connectionClosed ⟨7⟩ ⟨1⟩ (.stored _) (.stored _)]
    (fun tr _ => decide ((∃ t ∈ tr, .inboundFailure ⟨7⟩ (.nth 0) .connectionClosed ∈ reports t) ∧
      ∀ t ∈ tr, drew t = none)) (by decide) (by decide)
  obtain ⟨⟨t, ht, hmem⟩, hnone⟩ := of_decide_eq_true hP
  refine ⟨tr, s, hrun, fun hdir => ?_⟩
  obtain ⟨newer, older, rfl⟩ := List.append_of_mem ht
  obtain ⟨u, hu, hdrew⟩ := (hdir newer t older rfl).2.1 _ _ _ hmem
  rw [hnone u (List.mem_append_right _ (List.mem_cons_of_mem _ hu))] at hdrew
  cases hdrew

end FileSharing
