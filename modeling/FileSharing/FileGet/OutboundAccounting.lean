/-
FileSharing.FileGet.OutboundAccounting — no outbound request is lost or
settled twice.

`Placement` says where a request is. Here is added what the application
hears: the step that takes a request out of its place is one of three
kinds (`Settles`) and queues a report for it (`takesOut_reports`).

The count of reports carries a qualification. The ids of inbound requests
come from a counter of their own that also starts at 1, and a close
reports both kinds of request of its connection. So when the closing
connection serves an inbound request with the number of ours, TWO events
with the same peer and id are queued by that one step.
-/
import FileSharing.FileGet.Placement

namespace FileSharing

open Lib FileGet

/-! ## Reports -/

/-- The event an action brings to the application. -/
def NetworkBehaviourAction.event? : NetworkBehaviourAction → Option FileGetEvent
  | .generateEvent e => some e
  | _ => none

/-- The events for the application that a step queued. -/
def reports (t : Transition System Label) : List FileGetEvent :=
  (t.post.fileGet.pendingEvents.drop t.pre.fileGet.pendingEvents.length).filterMap
    NetworkBehaviourAction.event?

/-- How many of them carry the pair. -/
def carrying (p : PeerId) (r : RequestId) (t : Transition System Label) : Nat :=
  (reports t).countP fun e => e.subject = (p, r)

/-- A step that appends actions reports the events among them. -/
theorem reports_of_append {t : Transition System Label} {actions : List NetworkBehaviourAction}
    (h : t.post.fileGet.pendingEvents = t.pre.fileGet.pendingEvents ++ actions) :
    reports t = actions.filterMap NetworkBehaviourAction.event? := by
  unfold reports
  rw [h, List.drop_left]

theorem filterMap_generateEvent {α : Type} (f : α → FileGetEvent) (l : List α) :
    (l.map fun x => NetworkBehaviourAction.generateEvent (f x)).filterMap
      NetworkBehaviourAction.event? = l.map f := by
  rw [List.filterMap_map]
  exact congrFun List.filterMap_eq_map l

/-- One event for each id: the pair is carried as often as the id occurs. -/
theorem countP_subject (p : PeerId) (r : RequestId) (g : RequestId → FileGetEvent)
    (hg : ∀ x, (g x).subject = (p, x)) (ids : List RequestId) :
    (ids.map g).countP (fun e => decide (e.subject = (p, r))) = ids.count r := by
  rw [List.countP_map]
  unfold List.count
  refine congrArg (List.countP · ids) (funext fun x => ?_)
  by_cases hx : x = r <;> simp [hg, hx]

/-- An id of a hash set is met once, in whatever order the set is walked. -/
theorem count_order_keys (o : IterOrder RequestId) (ids : HashSet RequestId) (r : RequestId) :
    (o.order ids.keys).count r = if r ∈ ids then 1 else 0 := by
  rw [(o.perm ids.keys).count_eq]
  split
  · rename_i hr
    exact List.count_eq_one_of_mem ids.nodupKeys (AList.mem_keys.mp hr)
  · rename_i hr
    exact List.count_eq_zero.mpr fun h => hr (AList.mem_keys.mpr h)

/-! ## The steps that settle a request -/

/-- The step is one that settles request `r` to `p`: the handler's event
`Response`, `OutboundTimeout` or `OutboundUnsupportedProtocols` for it, the
dial failure of a peer it is buffered for, or the close of the connection
it waits on. -/
def Settles (p : PeerId) (r : RequestId) (t : Transition System Label) : Prop :=
  (∃ l e rest, t.label = .deliverEvent l.id ∧ t.pre.link? l.id = some l ∧ l.peer = p ∧
    l.events = e :: rest ∧
    (e = .response r ∨ e = .outboundTimeout r ∨ e = .outboundUnsupportedProtocols r)) ∨
  (∃ resolves, t.label = .dialFailure (some p) resolves ∧ t.pre.fileGet.Buffered p r) ∨
  ∃ c o i, t.label = .connectionClosed p c o i ∧ t.pre.fileGet.Waiting p c r

/-- The step closes a connection of `p` that serves an inbound request
numbered `r`. -/
def ClosesServing (p : PeerId) (r : RequestId) (t : Transition System Label) : Prop :=
  ∃ c o i, t.label = .connectionClosed p c o i ∧ t.pre.fileGet.Serving p c r

/-- The step queues one event for the request, and beside it only the
report of an inbound request with the same number. -/
def ReportsOnce (p : PeerId) (r : RequestId) (t : Transition System Label) : Prop :=
  (¬ ClosesServing p r t ∧ carrying p r t = 1) ∨ (ClosesServing p r t ∧ carrying p r t = 2)

theorem FileGetHandlerEvent.completes_eq_some {e : FileGetHandlerEvent} {r : RequestId} :
    e.completes = some r ↔
      e = .response r ∨ e = .outboundTimeout r ∨ e = .outboundUnsupportedProtocols r := by
  cases e <;> simp [FileGetHandlerEvent.completes]

/-- The reports of a close: one for each id of either set. -/
theorem carrying_closed {t : Transition System Label} {p : PeerId} {o i : IterOrder RequestId}
    {conn : Connection}
    (h : t.post.fileGet.pendingEvents =
      t.pre.fileGet.pendingEvents ++ closedEvents o i p conn) (r : RequestId) :
    carrying p r t = (if r ∈ conn.pendingOutboundResponses then 1 else 0) +
      if r ∈ conn.pendingInboundResponses then 1 else 0 := by
  have hevents : reports t =
      (o.order conn.pendingOutboundResponses.keys).map
        (fun x => .outboundFailure p x .connectionClosed) ++
      (i.order conn.pendingInboundResponses.keys).map
        (fun x => .inboundFailure p x .connectionClosed) := by
    rw [reports_of_append h, closedEvents, List.filterMap_append, filterMap_generateEvent,
      filterMap_generateEvent]
  unfold carrying
  rw [hevents, List.countP_append, countP_subject p r _ fun _ => rfl,
    countP_subject p r _ fun _ => rfl, count_order_keys, count_order_keys]

/-- With distinct connection ids, a record's sets are what its connection
serves and waits for. -/
theorem serving_conn {s : FileGet} (hw : s.WellFormed) {p : PeerId} {conn : Connection}
    (hc : conn ∈ s.connections p) {g : Connection → HashSet RequestId} {r : RequestId} :
    s.Holds g p conn.id r ↔ r ∈ g conn := by
  constructor
  · rintro ⟨conn', hmem, hid, hr⟩
    rwa [← List.inj_on_of_nodup_map (hw.ids p) hmem hc hid]
  · exact fun hr => ⟨conn, hc, rfl, hr⟩

/-- **The step that takes a request out reports it.** -/
theorem takesOut_reports {t : Transition System Label} {n : Nat} (hm : Mirror t.pre)
    (hp : Placed n t.pre.fileGet) (h : Stepped t.pre t.label t.post) {p : PeerId} {r : RequestId}
    (ht : TakesOut p r t) : Settles p r t ∧ ReportsOnce p r t := by
  obtain ⟨s, a, s'⟩ := t
  obtain ⟨hpre, hpost⟩ := ht
  dsimp only at hm hp h hpre hpost
  have hleaves := ((stepped_moved hm h).pending_or_leaves hpre).resolve_left hpost
  cases hleaves with
  | dialFailed resolves hb hev =>
    refine ⟨Or.inr (Or.inl ⟨resolves, rfl, hb⟩), Or.inl ⟨?_, ?_⟩⟩
    · rintro ⟨c, o, i, hlabel, -⟩
      cases hlabel
    · have hmap : reports ⟨s, .dialFailure (some p) resolves, s'⟩ =
          ((s.fileGet.buffer p).map (·.requestId)).map
            (fun x => .outboundFailure p x .dialFailure) := by
        rw [reports_of_append hev, filterMap_generateEvent, List.map_map]
        rfl
      unfold carrying
      rw [hmap, countP_subject p r _ fun _ => rfl]
      exact List.count_eq_one_of_mem (hp.bufferNodup p) (List.mem_map.mpr hb)
  | closed o i conn hconn hd hev =>
    refine ⟨Or.inr (Or.inr ⟨conn.id, o, i, rfl, hd⟩), ?_⟩
    have hin : r ∈ conn.pendingInboundResponses := (serving_conn hm.wf hconn).mp hd
    have hcount := carrying_closed (t := ⟨s, .connectionClosed p conn.id o i, s'⟩) hev r
    rw [if_pos hin] at hcount
    have hserve : ClosesServing p r ⟨s, .connectionClosed p conn.id o i, s'⟩ ↔
        r ∈ conn.pendingOutboundResponses := by
      constructor
      · rintro ⟨c, o', i', hlabel, hserving⟩
        cases hlabel
        exact (serving_conn hm.wf hconn).mp hserving
      · exact fun hr => ⟨conn.id, o, i, rfl, (serving_conn hm.wf hconn).mpr hr⟩
    unfold ReportsOnce
    rw [hserve, hcount]
    by_cases hr : r ∈ conn.pendingOutboundResponses <;> simp [hr]
  | completed l e rest hpeer hl he hx hev =>
    subst hpeer
    have hkind := FileGetHandlerEvent.completes_eq_some.mp hx
    refine ⟨Or.inl ⟨l, e, rest, rfl, hl, rfl, he, hkind⟩, Or.inl ⟨?_, ?_⟩⟩
    · rintro ⟨c, o, i, hlabel, -⟩
      cases hlabel
    · unfold carrying
      rw [reports_of_append hev]
      simp [NetworkBehaviourAction.event?, FileGetHandlerEvent.report_subject l.peer hx]

/-! ## The three places of a request -/

/-- The request is once in the dial buffer of its peer, and on no
connection. -/
def InBuffer (s : System) (p : PeerId) (r : RequestId) : Prop :=
  ((s.fileGet.buffer p).map (·.requestId)).count r = 1 ∧ ∀ q c, ¬ s.fileGet.Waiting q c r

/-- The request waits on exactly one connection, of its peer, and is not
buffered. -/
def OnConnection (s : System) (p : PeerId) (r : RequestId) : Prop :=
  (∃ c, s.fileGet.Waiting p c r ∧ ∀ q d, s.fileGet.Waiting q d r → q = p ∧ d = c) ∧
  ∀ q, ¬ s.fileGet.Buffered q r

/-- The request is in neither place. One step of the run took it out, it
is of a settling kind, and it reported as `reported` says. -/
def SettledBy (reported : Transition System Label → Prop) (tr : Trace System Label) (s : System)
    (p : PeerId) (r : RequestId) : Prop :=
  (∀ q, ¬ s.fileGet.Pending q r) ∧
  ∃ newer t older, tr = newer ++ t :: older ∧ TakesOut p r t ∧
    (∀ u ∈ newer, ¬ TakesOut p r u) ∧ (∀ u ∈ older, ¬ TakesOut p r u) ∧
    Settles p r t ∧ reported t

/-- The request was settled, and reported once. -/
def Settled (tr : Trace System Label) (s : System) (p : PeerId) (r : RequestId) : Prop :=
  SettledBy (ReportsOnce p r) tr s p r

variable {config : FileGetConfig} {debug : Bool} {tr : Trace System Label} {s : System}
  {p : PeerId} {r : RequestId}

/-- A pending id is pending for the peer it was returned for. -/
theorem pending_peer (h : (fileGetSystem config debug).Run tr s) (hn : sends tr ≤ UInt64.size)
    (hr : ∃ t ∈ tr, returned t = some (p, r)) {q : PeerId} (hq : s.fileGet.Pending q r) :
    q = p := by
  obtain ⟨t, ht, htr⟩ := hr
  obtain ⟨u, hu, hur⟩ := (requestAccounting config debug).held_issued h hn (x := (q, r)) hq
  exact returned_peer h hn hu ht hur htr

/-- A pending request is in the buffer or on a connection, as the two
predicates say. -/
theorem pending_placed (h : (fileGetSystem config debug).Run tr s) (hn : sends tr ≤ UInt64.size)
    (hr : ∃ t ∈ tr, returned t = some (p, r)) (hp : s.fileGet.Pending p r) :
    InBuffer s p r ∨ OnConnection s p r := by
  have hplaced := run_placed h hn
  rcases hp with hb | ⟨c, hc⟩
  · refine Or.inl ⟨?_, fun q d hd => ?_⟩
    · obtain ⟨request, hmem, hid⟩ := hb
      exact List.count_eq_one_of_mem (hplaced.bufferNodup p)
        (List.mem_map.mpr ⟨request, hmem, hid⟩)
    · have hq := pending_peer h hn hr (Or.inr ⟨d, hd⟩)
      exact hplaced.notBoth hb (hq ▸ hd)
  · refine Or.inr ⟨⟨c, hc, fun q d hd => ?_⟩, fun q hq => ?_⟩
    · have hqp := pending_peer h hn hr (Or.inr ⟨d, hd⟩)
      exact ⟨hqp, hplaced.oneConnection (hqp ▸ hd) hc⟩
    · have hqp := pending_peer h hn hr (Or.inl hq)
      exact hplaced.notBoth (hqp ▸ hq) hc

theorem InBuffer.pending (h : InBuffer s p r) : s.fileGet.Pending p r := by
  have hmem : r ∈ (s.fileGet.buffer p).map (·.requestId) :=
    List.count_pos_iff.mp (by rw [h.1]; exact Nat.one_pos)
  obtain ⟨request, hmem, hid⟩ := List.mem_map.mp hmem
  exact Or.inl ⟨request, hmem, hid⟩

theorem OnConnection.pending (h : OnConnection s p r) : s.fileGet.Pending p r := by
  obtain ⟨⟨c, hc, -⟩, -⟩ := h
  exact Or.inr ⟨c, hc⟩

theorem InBuffer.not_onConnection (h : InBuffer s p r) : ¬ OnConnection s p r :=
  fun ⟨⟨c, hc, _⟩, _⟩ => h.2 p c hc

/-- A request that is not pending any more was settled. -/
theorem settled_of_not_pending (h : (fileGetSystem config debug).Run tr s)
    (hn : sends tr ≤ UInt64.size) (hr : ∃ t ∈ tr, returned t = some (p, r))
    (hp : ¬ s.fileGet.Pending p r) : Settled tr s p r := by
  let A := requestAccounting config debug
  refine ⟨fun q hq => hp (pending_peer h hn hr hq ▸ hq), ?_⟩
  rcases A.issued_cases h hn (x := (p, r)) hr with
    ⟨hheld, -⟩ | ⟨-, newer, t, older, rfl, hg, hne, ho⟩
  · exact absurd hheld hp
  · obtain ⟨hrun, hallowed, hok⟩ := h.of_append
    have hn' : sends older ≤ UInt64.size := Nat.le_trans (sends_older_le newer t older) hn
    have hm := run_mirror hrun
    obtain ⟨hsettles, hreports⟩ :=
      takesOut_reports hm (run_placed hrun hn') (step_stepped hm hallowed hok) hg
    exact ⟨newer, t, older, rfl, hg, hne, ho, hsettles, hreports⟩

/-- **No outbound request is lost or settled twice.** An id that
`send_request` returned is in exactly one of three conditions: once in the
buffer of its peer, on exactly one connection of its peer, or settled by
exactly one step, which reported it; and a settled id is never pending
again. -/
theorem outboundRequest_accounted (h : (fileGetSystem config debug).Run tr s)
    (hn : sends tr ≤ UInt64.size) (hr : ∃ t ∈ tr, returned t = some (p, r)) :
    ((InBuffer s p r ∧ ¬ OnConnection s p r ∧ ¬ Settled tr s p r) ∨
      (¬ InBuffer s p r ∧ OnConnection s p r ∧ ¬ Settled tr s p r) ∨
      (¬ InBuffer s p r ∧ ¬ OnConnection s p r ∧ Settled tr s p r)) ∧
    (Settled tr s p r → ∀ newer s', (fileGetSystem config debug).Run (newer ++ tr) s' →
      sends (newer ++ tr) ≤ UInt64.size → ∀ q, ¬ s'.fileGet.Pending q r) := by
  constructor
  · by_cases hp : s.fileGet.Pending p r
    · have hns : ¬ Settled tr s p r := fun hs => hs.1 p hp
      rcases pending_placed h hn hr hp with hb | hc
      · exact Or.inl ⟨hb, hb.not_onConnection, hns⟩
      · exact Or.inr (Or.inl ⟨fun hb => hb.not_onConnection hc, hc, hns⟩)
    · exact Or.inr (Or.inr ⟨fun hb => hp hb.pending, fun hc => hp hc.pending,
        settled_of_not_pending h hn hr hp⟩)
  · intro hs newer s' h' hn' q hq
    have hr' : ∃ t ∈ newer ++ tr, returned t = some (p, r) := by
      obtain ⟨t, ht, htr⟩ := hr
      exact ⟨t, List.mem_append_right _ ht, htr⟩
    have hqp := pending_peer h' hn' hr' hq
    exact (requestAccounting config debug).gone_stays_gone (x := (p, r)) h h' hn' hr (hs.1 p)
      (hqp ▸ hq)

/-- A request whose response arrives, from `send_request` through the
handler and its substream to the report. -/
theorem outboundRequest_accounted_answered : ∃ tr s,
    (fileGetSystem ⟨10⟩ true).Run tr s ∧ (∃ t ∈ tr, returned t = some (⟨7⟩, .nth 0)) ∧
    Settled tr s ⟨7⟩ (.nth 0) := by
  obtain ⟨tr, s, hrun, hP⟩ := Machine.exists_run_of_labels (M := fileGetSystem ⟨10⟩ true)
    [.connectionEstablished ⟨7⟩ ⟨1⟩ (.dialer ⟨"/ip4/10.0.0.2"⟩) false,
      .sendRequest ⟨7⟩ ⟨"a"⟩ ⟨[]⟩, .pollBehaviour, .deliverCommand ⟨1⟩, .pollHandler ⟨1⟩ 0 0,
      .endOutbound ⟨1⟩ 0 (.ok ()), .pollHandler ⟨1⟩ 0 0, .deliverEvent ⟨1⟩]
    (fun tr s => decide (sends tr ≤ UInt64.size ∧ (∃ t ∈ tr, returned t = some (⟨7⟩, .nth 0)) ∧
      ¬ s.fileGet.Pending ⟨7⟩ (.nth 0))) (by decide) (by decide)
  obtain ⟨hn, hr, hp⟩ := of_decide_eq_true hP
  refine ⟨tr, s, hrun, hr, ?_⟩
  rcases (outboundRequest_accounted hrun hn hr).1 with ⟨hb, -⟩ | ⟨-, hc, -⟩ | ⟨-, -, hs⟩
  · exact absurd hb.pending hp
  · exact absurd hc.pending hp
  · exact hs

/-! ## Why the two qualifications -/

/-- Requests to a peer without a connection pile up in its buffer, however
many there are. -/
theorem exists_run_buffering (config : FileGetConfig) (debug : Bool) (p : PeerId) (n : Nat) :
    ∃ tr s, (fileGetSystem config debug).Run tr s ∧ s.fileGet.connections p = [] ∧
      s.fileGet.requsetIdGenerator.nextId.1 = .nth n ∧
      (s.fileGet.buffer p).map (·.requestId) = (List.range n).map .nth ∧
      (0 < n → ∃ t ∈ tr, returned t = some (p, .nth 0)) := by
  induction n with
  | zero =>
    exact ⟨[], _, .start, by simp [fileGetSystem, System.init, fromConfig, connections], rfl,
      by simp [fileGetSystem, System.init, fromConfig, buffer], fun h => absurd h (by omega)⟩
  | succ n ih =>
    obtain ⟨tr, s, hrun, hnil, hgen, hbuf, hret⟩ := ih
    let m : FileGetMessage := ⟨"a"⟩
    let w : FileWriter := ⟨[]⟩
    have hm := run_mirror hrun
    obtain ⟨-, hs⟩ | ⟨conn, hc, -⟩ := sendRequest_spec hm.wf (p := p) m w
    · let s' : System :=
        { s with fileGet := s.fileGet.drawn.bufferRequest p (s.fileGet.newRequest m w) }
      have hstep : (fileGetSystem config debug).step s (.sendRequest p m w) = .ok s' := by
        show System.step debug s (.sendRequest p m w) = .ok s'
        simp only [System.step, hs, bind, Except.bind]
        rfl
      have hallowed : s.Allowed (.sendRequest p m w) = true := rfl
      refine ⟨_, s', hrun.next hallowed hstep, hnil, ?_, ?_, fun _ => ?_⟩
      · exact RequestIdGenerator.nextId_nth hgen
      · have hb : s'.fileGet.buffer p = s.fileGet.buffer p ++ [s.fileGet.newRequest m w] := by
          show ((s.fileGet.pendingOutboundRequests.insert p _).lookup p).getD [] = _
          rw [AList.lookup_insert]
          rfl
        rw [hb, List.map_append, hbuf, List.range_succ, List.map_append]
        congr 1
        exact congrArg (fun x => [x]) hgen
      · rcases Nat.eq_zero_or_pos n with rfl | hpos
        · refine ⟨_, List.mem_cons_self, (returned_eq_some hm).mpr ⟨m, w, rfl, ?_⟩⟩
          exact hgen.symm
        · obtain ⟨t, ht, htr⟩ := hret hpos
          exact ⟨t, List.mem_cons_of_mem _ ht, htr⟩
    · have hmem := mem_of_chosenConnection hc
      rw [hnil] at hmem
      cases hmem

/-- If the counter comes round, an id is twice in the buffer. -/
theorem count_nth_of_wrap {n : Nat} (hn : 0 < n) (hwrap : RequestId.nth n = .nth 0) :
    2 ≤ ((List.range (n + 1)).map RequestId.nth).count (.nth 0) := by
  rw [List.range_succ, List.map_append, List.count_append]
  have hfirst : RequestId.nth 0 ∈ (List.range n).map RequestId.nth :=
    List.mem_map.mpr ⟨0, List.mem_range.mpr hn, rfl⟩
  have := List.count_pos_iff.mpr hfirst
  have hlast : ([n].map RequestId.nth).count (.nth 0) = 1 := by simp [hwrap]
  omega

/-- Both qualifications are needed. A close can queue two events with the
peer and the id of one request: the connection serves an inbound request
of the same number. And after `2 ^ 64` requests an id is handed out again
while its first holder is still buffered. -/
theorem outboundRequest_not_reported_once :
    (∃ tr s, (fileGetSystem ⟨10⟩ true).Run tr s ∧
      (∃ t ∈ tr, returned t = some (⟨7⟩, .nth 0)) ∧
      ¬ InBuffer s ⟨7⟩ (.nth 0) ∧ ¬ OnConnection s ⟨7⟩ (.nth 0) ∧
      ¬ SettledBy (fun t => carrying ⟨7⟩ (.nth 0) t = 1) tr s ⟨7⟩ (.nth 0)) ∧
    (∃ tr s, (fileGetSystem ⟨10⟩ true).Run tr s ∧
      (∃ t ∈ tr, returned t = some (⟨7⟩, .nth 0)) ∧
      ¬ InBuffer s ⟨7⟩ (.nth 0) ∧ ¬ OnConnection s ⟨7⟩ (.nth 0) ∧
      ¬ SettledBy (fun t => carrying ⟨7⟩ (.nth 0) t = 1) tr s ⟨7⟩ (.nth 0)) := by
  constructor
  · obtain ⟨tr, s, hrun, hP⟩ := Machine.exists_run_of_labels (M := fileGetSystem ⟨10⟩ true)
      [.connectionEstablished ⟨7⟩ ⟨1⟩ (.dialer ⟨"/ip4/10.0.0.2"⟩) false,
        .openInbound ⟨1⟩, .inbound ⟨1⟩ ⟨0⟩ (.received (.ok ⟨"b"⟩)), .pollHandler ⟨1⟩ 0 0,
        .deliverEvent ⟨1⟩, .sendRequest ⟨7⟩ ⟨"a"⟩ ⟨[]⟩,
        .connectionClosed ⟨7⟩ ⟨1⟩ (.stored _) (.stored _)]
      (fun tr s => decide ((∃ t ∈ tr, returned t = some (⟨7⟩, .nth 0)) ∧
        ¬ s.fileGet.Pending ⟨7⟩ (.nth 0) ∧
        ∀ t ∈ tr, TakesOut ⟨7⟩ (.nth 0) t → carrying ⟨7⟩ (.nth 0) t ≠ 1))
      (by decide) (by decide)
    obtain ⟨hr, hp, hall⟩ := of_decide_eq_true hP
    refine ⟨tr, s, hrun, hr, fun hb => hp hb.pending, fun hc => hp hc.pending, ?_⟩
    rintro ⟨-, newer, t, older, rfl, htake, -, -, -, hone⟩
    exact hall t (by simp) htake hone
  · obtain ⟨tr, s, hrun, hnil, -, hbuf, hr⟩ := exists_run_buffering ⟨10⟩ true ⟨7⟩ (UInt64.size + 1)
    have hcount := count_nth_of_wrap (by decide) RequestId.nth_wrap
    rw [← hbuf] at hcount
    have hmem : s.fileGet.Buffered ⟨7⟩ (.nth 0) := by
      have := List.count_pos_iff.mp (Nat.lt_of_lt_of_le (by omega) hcount)
      obtain ⟨request, hmem, hid⟩ := List.mem_map.mp this
      exact ⟨request, hmem, hid⟩
    refine ⟨tr, s, hrun, hr (by omega), fun hb => ?_, fun hc => hc.2 _ hmem, ?_⟩
    · have := hb.1
      omega
    · exact fun hs => hs.1 _ (Or.inl hmem)

end FileSharing
