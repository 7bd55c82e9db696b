/-
FileSharing.FileGet.Fetches — what a `ResponseReceived` says.

Between `send_request` and `ResponseReceived` the request is a protocol
value on its way through queues, then an open substream, then an id in an
event. `Fetching` ties the three together along a run: an open substream
carries a request that was made for the peer of its connection and the
number of that request, and a response, told by a handler or queued for the
application, has a step behind it in which the upgrade of a substream with
its number returned `Ok`.

So a reported response is one to the very request `send_request` made under
its id (`response_fetched`): the file name that was asked for, written to
the writer that was handed over, by an upgrade on a connection to the peer
that was named.
-/
import FileSharing.FileGet.RequestOrder
import FileSharing.FileGet.FailureCauses

namespace FileSharing

open Lib FileGet

/-! ## Fetched requests -/

/-- The upgrade of the request returns `Ok` in this step, on a connection to
the peer. -/
def Fetches (p : PeerId) (request : FileGetOutboundProtocol) (t : Transition System Label) :
    Prop :=
  ∃ l ∈ t.pre.links, l.peer = p ∧ ∃ i, t.label = .endOutbound l.id i (.ok ()) ∧
    l.outbound[i]? = some ⟨request, request.requestId⟩

/-- A request with the id was made for the peer, and then fetched from it. -/
def Fetched (tr : Trace System Label) (p : PeerId) (r : RequestId) : Prop :=
  ∃ request, request.requestId = r ∧
    ∃ t older, t :: older <:+ tr ∧ Fetches p request t ∧ Requested older p request

theorem Fetched.cons {tr : Trace System Label} {p : PeerId} {r : RequestId}
    (h : Fetched tr p r) (t : Transition System Label) : Fetched (t :: tr) p r := by
  obtain ⟨request, hid, u, older, hu, hf, hreq⟩ := h
  exact ⟨request, hid, u, older, hu.trans (List.suffix_cons t tr), hf, hreq⟩

/-! ## What the connection task does -/

namespace Link

variable {l : Link} {r : RequestId}

theorem resumeInbound_outbound (sub : InboundSubstream) (wake : InboundWake) :
    (l.resumeInbound sub wake).outbound = l.outbound := by
  unfold resumeInbound
  split
  · split <;> rfl
  · rfl
  · rfl
  · rfl

theorem inboundEvent_outbound (ch : ChannelId) (event : InboundEvent) :
    (inboundEvent ch event l).outbound = l.outbound := by
  unfold inboundEvent
  split
  · rfl
  · rename_i sub _
    cases event with
    | received result => exact l.resumeInbound_outbound sub _
    | pollReader =>
      dsimp only
      split
      · rfl
      · exact l.resumeInbound_outbound sub _
      · exact l.resumeInbound_outbound sub _
    | copied result => exact l.resumeInbound_outbound sub _
    | fails error => rfl
    | otherProtocol => rfl

/-- The end of an inbound upgrade is no response. -/
theorem response_endInbound {sub : InboundSubstream} {event : ConnectionEvent}
    (hevent : ∀ id, event ≠ .fullyNegotiatedOutbound id)
    (h : (l.endInbound sub event).Tells (.response r)) : l.Tells (.response r) := by
  rcases h with h | h
  · exact .inl h
  · have hdrop : (l.dropInbound sub).Tells (.response r) → l.Tells (.response r) :=
      dropInbound_tells
    refine hdrop (.inr ?_)
    change .response r ∈ ((l.dropInbound sub).handler.onConnectionEvent event).pendingEvents at h
    cases event with
    | fullyNegotiatedOutbound id => exact absurd rfl (hevent id)
    | addressChange => exact h
    | fullyNegotiatedInbound sent id =>
      cases sent <;> simpa [Handler.onConnectionEvent, Handler.queue] using h
    | listenUpgradeError error id | dialUpgradeError error id =>
      cases error <;> simpa [Handler.onConnectionEvent, Handler.queue] using h

theorem response_resumeInbound {sub : InboundSubstream} {wake : InboundWake}
    (h : (l.resumeInbound sub wake).Tells (.response r)) : l.Tells (.response r) := by
  unfold resumeInbound at h
  split at h
  · split at h <;> exact h
  · exact response_endInbound (by simp) h
  · exact response_endInbound (by simp) h
  · exact h

theorem response_inboundEvent {ch : ChannelId} {event : InboundEvent}
    (h : (inboundEvent ch event l).Tells (.response r)) : l.Tells (.response r) := by
  unfold inboundEvent at h
  split at h
  · exact h
  · cases event with
    | received result => exact response_resumeInbound h
    | pollReader =>
      dsimp only at h
      split at h
      · exact h
      · exact response_resumeInbound h
      · exact response_resumeInbound h
    | copied result => exact response_resumeInbound h
    | fails error => exact response_endInbound (by simp) h
    | otherProtocol => exact dropInbound_tells h

theorem response_pollHandler {now : Instant} {pick : Nat}
    (h : (pollHandler now pick l).Tells (.response r)) : l.Tells (.response r) := by
  have hp := l.handler.polled now pick
  unfold pollHandler at h
  generalize l.handler.poll now pick = result at hp h
  cases hp with
  | close error _ => exact h
  | event x rest hev =>
    rcases h with h | h
    · rcases List.mem_append.mp h with h | h
      · exact .inl h
      · rw [List.mem_singleton.mp h]
        exact .inr (hev ▸ List.mem_cons_self)
    · exact .inr (hev ▸ List.mem_cons_of_mem _ h)
  | outbound request rest _ => exact h
  | request ch id m _ =>
    rcases h with h | h
    · rcases List.mem_append.mp h with h | h
      · exact .inl h
      · cases List.mem_singleton.mp h
    · exact .inr h
  | pending inbound keepAlive _ _ _ _ _ => exact h

/-- A response is told when an outbound upgrade has returned `Ok`. -/
theorem response_endOutbound {i : Nat} {result : Except ConnectionHandlerUpgrErr Unit}
    (h : (endOutbound i result l).Tells (.response r)) :
    l.Tells (.response r) ∨
      result = .ok () ∧ ∃ sub, l.outbound[i]? = some sub ∧ sub.info = r := by
  unfold endOutbound at h
  split at h
  · exact .inl h
  · rename_i sub hsub
    rcases h with h | h
    · exact .inl (.inl h)
    · cases result with
      | ok _ =>
        rcases List.mem_append.mp h with h | h
        · exact .inl (.inr h)
        · have heq := List.mem_singleton.mp h
          exact .inr ⟨rfl, sub, hsub, (FileGetHandlerEvent.response.inj heq).symm⟩
      | error error =>
        refine .inl (.inr ?_)
        cases error <;> simpa [Handler.onConnectionEvent, Handler.queue] using h

end Link

/-- The task of a connection tells of a response when an upgrade returns
`Ok`. -/
theorem LinkStep.response {t : Transition System Label} {l : Link} {f : Link → Link}
    (h : LinkStep t.label l.id f) {r : RequestId} (he : (f l).Tells (.response r)) :
    l.Tells (.response r) ∨ ∃ i sub, t.label = .endOutbound l.id i (.ok ()) ∧
      l.outbound[i]? = some sub ∧ sub.info = r := by
  generalize hlabel : t.label = a at h
  generalize hc : l.id = c at h
  cases h with
  | deliverCommand => exact .inl (Link.tells_deliverCommand he)
  | pollHandler => exact .inl (Link.response_pollHandler he)
  | inbound c ch event => exact .inl (Link.response_inboundEvent he)
  | endOutbound c i result =>
    rcases Link.response_endOutbound he with he | ⟨rfl, sub, hsub, hid⟩
    · exact .inl he
    · exact .inr ⟨i, sub, rfl, hsub, hid⟩

/-- A substream is opened for the request that the handler asks one for, with
the number of the request. -/
theorem LinkStep.outbound {t : Transition System Label} {l : Link} {f : Link → Link}
    (hm : Mirror t.pre) (hl : l ∈ t.pre.links) (h : LinkStep t.label l.id f)
    {sub : OutboundSubstream} (hsub : sub ∈ (f l).outbound) :
    sub ∈ l.outbound ∨
      sub.info = sub.protocol.requestId ∧ substreamRequest l.id t = some sub.protocol := by
  generalize hlabel : t.label = a at h
  generalize hc : l.id = c at h
  cases h with
  | deliverCommand =>
    refine .inl ?_
    unfold Link.deliverCommand at hsub
    split at hsub <;> exact hsub
  | inbound c ch event => exact .inl (Link.inboundEvent_outbound ch event ▸ hsub)
  | endOutbound c i result =>
    refine .inl ?_
    unfold Link.endOutbound at hsub
    split at hsub
    · exact hsub
    · exact List.mem_of_mem_eraseIdx hsub
  | pollHandler c now pick =>
    have hrequest : substreamRequest l.id t =
        (l.handler.poll now pick).2.bind (·.protocol?) := by
      subst hc
      simp [substreamRequest, hlabel, hm.link?_eq hl]
    rw [← hc, hrequest]
    have hp := l.handler.polled now pick
    unfold Link.pollHandler at hsub
    generalize l.handler.poll now pick = result at hp hsub
    cases hp with
    | close error _ => exact .inl hsub
    | event x rest _ => exact .inl hsub
    | outbound request rest _ =>
      rcases List.mem_append.mp hsub with hsub | hsub
      · exact .inl hsub
      · rw [List.mem_singleton.mp hsub]
        exact .inr ⟨rfl, rfl⟩
    | request ch id m _ => exact .inl hsub
    | pending inbound keepAlive _ _ _ _ _ => exact .inl hsub

/-! ## Along a run -/

/-- What a connection has open and what its handler tells. -/
structure Link.Fetching (tr : Trace System Label) (l : Link) : Prop where
  outbound : ∀ sub ∈ l.outbound, sub.info = sub.protocol.requestId ∧
    Requested tr l.peer sub.protocol
  told : ∀ r, l.Tells (.response r) → Fetched tr l.peer r

/-- What is on its way back. -/
structure Fetching (tr : Trace System Label) (s : System) : Prop where
  links : ∀ l ∈ s.links, l.Fetching tr
  queued : ∀ p r, .generateEvent (.responseReceived p r) ∈ s.fileGet.pendingEvents →
    Fetched tr p r

section Steps

variable {tr : Trace System Label} {t : Transition System Label}

theorem Link.Fetching.cons {l : Link} (h : l.Fetching tr) (t : Transition System Label) :
    l.Fetching (t :: tr) where
  outbound sub hsub := ⟨(h.outbound sub hsub).1, (h.outbound sub hsub).2.cons t⟩
  told r he := (h.told r he).cons t

/-- What a step does to one connection. -/
theorem Link.Fetching.step {l l' : Link} (hf : l.Fetching tr) (hm : Mirror t.pre)
    (hl : l ∈ t.pre.links) (h : LinkStepped t.pre t.label l l')
    (hrequested : ∀ request, substreamRequest l.id t = some request →
      Requested (t :: tr) l.peer request) : l'.Fetching (t :: tr) := by
  have hold := hf.cons t
  cases h with
  | aside _ _ | readdressed _ _ _ | commanded _ _ | opened _ | told _ _ _ =>
    exact ⟨hold.outbound, hold.told⟩
  | delivered x rest _ _ =>
    exact ⟨hold.outbound, fun r he => hold.told r (he.imp_left List.mem_of_mem_tail)⟩
  | task f hstep =>
    have hpeer : (f l).peer = l.peer := (hstep.keeps l).2.1
    refine ⟨?_, ?_⟩
    · intro sub hsub
      rw [hpeer]
      rcases hstep.outbound hm hl hsub with hsub | ⟨hid, hreq⟩
      · exact hold.outbound sub hsub
      · exact ⟨hid, hrequested _ hreq⟩
    · intro r he
      rw [hpeer]
      rcases hstep.response he with he | ⟨i, sub, hlabel, hsub, hid⟩
      · exact hold.told r he
      · obtain ⟨hinfo, hreq⟩ := hf.outbound sub (List.mem_of_getElem? hsub)
        refine ⟨sub.protocol, hinfo ▸ hid, t, tr, List.suffix_rfl, ⟨l, hl, rfl, i, hlabel, ?_⟩,
          hreq⟩
        rw [hsub, ← hinfo]

theorem Fetching.step_links (hf : Fetching tr t.pre) (hm : Mirror t.pre)
    (h : Stepped t.pre t.label t.post)
    (hrequested : ∀ l ∈ t.pre.links, ∀ request, substreamRequest l.id t = some request →
      Requested (t :: tr) l.peer request) : ∀ l ∈ t.post.links, l.Fetching (t :: tr) := by
  intro l' hl'
  cases stepped_linksStepped hm h with
  | each g hg hlinks =>
    rw [hlinks] at hl'
    obtain ⟨l, hl, rfl⟩ := List.mem_map.mp hl'
    exact (hf.links l hl).step hm hl (hg l hl) (hrequested l hl)
  | established q c ep resolves timeout _ hlinks =>
    rw [hlinks] at hl'
    rcases List.mem_append.mp hl' with hl' | hl'
    · exact (hf.links l' hl').cons t
    · -- a new connection has nothing open and tells nothing
      rw [List.mem_singleton.mp hl']
      refine ⟨fun sub hsub => ?_, fun r he => ?_⟩
      · cases hsub
      · rcases he with he | he <;> cases he
  | closed q c o i _ hlinks =>
    rw [hlinks] at hl'
    exact (hf.links l' (List.mem_of_mem_filter hl')).cons t

theorem Fetching.step_queued (hf : Fetching tr t.pre) (h : Stepped t.pre t.label t.post)
    {p : PeerId} {r : RequestId}
    (hmem : .generateEvent (.responseReceived p r) ∈ t.post.fileGet.pendingEvents) :
    Fetched (t :: tr) p r := by
  have hold : .generateEvent (.responseReceived p r) ∈ t.pre.fileGet.pendingEvents →
      Fetched (t :: tr) p r := fun hmem => (hf.queued p r hmem).cons t
  generalize t.label = a at h
  cases stepped_queued h with
  | added a actions happ hplain =>
    rw [happ] at hmem
    rcases List.mem_append.mp hmem with hmem | hmem
    · exact hold hmem
    · cases hplain _ hmem
  | reported l e rest hl hev hfg =>
    rw [hfg, afterEvent_pendingEvents] at hmem
    rcases List.mem_append.mp hmem with hmem | hmem
    · exact hold hmem
    · have heq := List.mem_singleton.mp hmem
      cases e with
      | response r' =>
        obtain ⟨rfl, rfl⟩ := FileGetEvent.responseReceived.inj
          (NetworkBehaviourAction.generateEvent.inj heq)
        exact ((hf.links l hl).told _ (.inl (hev ▸ List.mem_cons_self))).cons t
      | _ => cases heq
  | polled action rest hq hrest =>
    rw [hrest] at hmem
    exact hold (hq ▸ List.mem_cons_of_mem _ hmem)

end Steps

section Runs

variable {config : FileGetConfig} {debug : Bool} {tr : Trace System Label} {s : System}

theorem run_fetching (h : (fileGetSystem config debug).Run tr s) (hn : sends tr < UInt64.size) :
    Fetching tr s := by
  induction tr generalizing s with
  | nil =>
    cases h
    refine ⟨fun l hl => ?_, fun p r hmem => ?_⟩
    · cases hl
    · cases hmem
  | cons t tr ih =>
    obtain ⟨hrun, -, -, rfl⟩ := h.tail
    obtain ⟨hm, hstep⟩ := run_stepped h
    have hf := ih hrun (Nat.lt_of_le_of_lt (sends_tail_le t tr) hn)
    have hrequested : ∀ l ∈ t.pre.links, ∀ request, substreamRequest l.id t = some request →
        Requested (t :: tr) l.peer request := by
      intro l hl request hreq
      obtain ⟨k, hk, hid, rest, hout⟩ := substreamRequest_some hreq
      obtain rfl : k = l := List.inj_on_of_nodup_map hm.ids hk hl hid
      have hline : request ∈ t.pre.line k := by
        unfold System.line
        simp [hout]
      exact ((run_inOrder hrun (Nat.lt_of_le_of_lt (sends_tail_le t tr) hn)).lineRequested k hl
        request (List.mem_append_right _ hline)).cons t
    exact ⟨hf.step_links hm hstep hrequested, fun p r hmem => hf.step_queued hstep hmem⟩

/-- An id is returned once. -/
theorem returned_inj (h : (fileGetSystem config debug).Run tr s) (hn : sends tr ≤ UInt64.size)
    {u v : Transition System Label} (hu : u ∈ tr) (hv : v ∈ tr) {p q : PeerId} {r : RequestId}
    (hru : returned u = some (p, r)) (hrv : returned v = some (q, r)) : u = v := by
  induction tr generalizing s with
  | nil => cases hu
  | cons t tr ih =>
    rcases List.mem_cons.mp hu with rfl | hu' <;> rcases List.mem_cons.mp hv with rfl | hv'
    · rfl
    · exact absurd hrv (returned_new h hn hru v hv')
    · exact absurd hru (returned_new h hn hrv u hu')
    · exact ih h.tail.1 (Nat.le_trans (sends_tail_le t tr) hn) hu' hv'

/-- Two requests with one id are one. -/
theorem requested_inj (h : (fileGetSystem config debug).Run tr s) (hn : sends tr ≤ UInt64.size)
    {p q : PeerId} {request request' : FileGetOutboundProtocol} (hr : Requested tr p request)
    (hr' : Requested tr q request') (hid : request.requestId = request'.requestId) :
    p = q ∧ request = request' := by
  obtain ⟨u, hu, hlabel, hret⟩ := hr
  obtain ⟨v, hv, hlabel', hret'⟩ := hr'
  rw [← hid] at hret'
  obtain rfl := returned_inj h hn hu hv hret hret'
  rw [hlabel] at hlabel'
  obtain ⟨rfl, hname, hwriter⟩ := Label.sendRequest.inj hlabel'
  obtain ⟨r, fileName, fileWriter⟩ := request
  obtain ⟨r', fileName', fileWriter'⟩ := request'
  dsimp only at hid hname hwriter ⊢
  obtain rfl := hid
  obtain rfl := FileGetMessage.mk.inj hname
  exact ⟨rfl, by rw [hwriter]⟩

/-- **A response is one to the request that was made.** A `ResponseReceived`
from `p` for the id `r` has two steps behind it: the one `send_request` that
returned `r`, which was for `p`, and after it the step in which the upgrade
for that file name and that writer returned `Ok` on a connection to `p`. -/
theorem response_fetched (h : (fileGetSystem config debug).Run tr s)
    (hn : sends tr < UInt64.size) {p : PeerId} {r : RequestId}
    (hevent : .generateEvent (.responseReceived p r) ∈ s.fileGet.pendingEvents) :
    ∃ fileName fileWriter newer v middle u older, tr = newer ++ v :: (middle ++ u :: older) ∧
      u.label = .sendRequest p ⟨fileName⟩ fileWriter ∧
      (∀ x ∈ tr, ∀ q, returned x = some (q, r) ↔ x = u ∧ q = p) ∧
      Fetches p ⟨r, fileName, fileWriter⟩ v := by
  obtain ⟨request, rfl, v, before, ⟨newer, rfl⟩, hf, u, hu, hlabel, hret⟩ :=
    (run_fetching h hn).queued p r hevent
  obtain ⟨middle, older, rfl⟩ := List.append_of_mem hu
  refine ⟨request.fileName, request.fileWriter, newer, v, middle, u, older, rfl, hlabel, ?_, hf⟩
  have hmem : u ∈ newer ++ v :: (middle ++ u :: older) := by simp
  intro x hx q
  constructor
  · intro hx'
    refine ⟨returned_inj h (Nat.le_of_lt hn) hx hmem hx' hret, ?_⟩
    exact returned_peer h (Nat.le_of_lt hn) hx hmem hx' hret
  · rintro ⟨rfl, rfl⟩
    exact hret

end Runs

/-- A request goes out, its upgrade returns `Ok`, and the application is
told. -/
theorem response_fetched_told : ∃ tr s fileName fileWriter, (fileGetSystem ⟨10⟩ true).Run tr s ∧
    (∃ u ∈ tr, u.label = .sendRequest ⟨7⟩ ⟨fileName⟩ fileWriter) ∧
    ∃ v ∈ tr, Fetches ⟨7⟩ ⟨.nth 0, fileName, fileWriter⟩ v := by
  obtain ⟨tr, s, hrun, hP⟩ := Machine.exists_run_of_labels (M := fileGetSystem ⟨10⟩ true)
    [.connectionEstablished ⟨7⟩ ⟨1⟩ (.dialer ⟨"a"⟩) false, .sendRequest ⟨7⟩ ⟨"a"⟩ ⟨[]⟩,
      .pollBehaviour, .deliverCommand ⟨1⟩, .pollHandler ⟨1⟩ 0 0, .endOutbound ⟨1⟩ 0 (.ok ()),
      .pollHandler ⟨1⟩ 0 0, .deliverEvent ⟨1⟩]
    (fun tr s => decide (sends tr < UInt64.size ∧
      .generateEvent (.responseReceived ⟨7⟩ (.nth 0)) ∈ s.fileGet.pendingEvents))
    (by decide) (by decide)
  obtain ⟨hn, hevent⟩ := of_decide_eq_true hP
  obtain ⟨fileName, fileWriter, newer, v, middle, u, older, rfl, hlabel, -, hf⟩ :=
    response_fetched hrun hn hevent
  exact ⟨_, s, fileName, fileWriter, hrun, ⟨u, by simp, hlabel⟩, v, by simp, hf⟩

end FileSharing
