/-
FileSharing.FileGet.Placement — where an outbound request is, at every
point of every run.

An id that `send_request` returned is PENDING while it is in the dial
buffer of its peer or in `pending_inbound_responses` of a connection. The
six things a step can do to pending requests are listed once (`Moved`),
and everything else follows from that list:

* `Leaves` — the three ways a request stops being pending, each with its
  report;
* `Placed` — a pending id is in one place only, and it is one of the ids
  the generator has handed out so far;
* `requestAccounting` — the token discipline of `Lib.Transition` with the
  returned ids as tokens, so that an id leaves its place at exactly one
  step and stays out.

Ids are `u64` and wrap, so all of this is about runs with at most `2 ^ 64`
requests.
-/
import FileSharing.FileGet.SystemTheorems

namespace FileSharing

open Lib FileGet

/-! ## Pending requests -/

/-- Request `r` to `p` is in the dial buffer or waits on a connection. -/
def FileGet.Pending (s : FileGet) (p : PeerId) (r : RequestId) : Prop :=
  s.Buffered p r ∨ ∃ c, s.Waiting p c r

theorem FileGet.pending_iff (s : FileGet) (p : PeerId) (r : RequestId) :
    ((∃ request ∈ s.buffer p, request.requestId = r) ∨
      ∃ conn ∈ s.connections p, r ∈ conn.pendingInboundResponses) ↔ s.Pending p r := by
  refine or_congr Iff.rfl ⟨?_, ?_⟩
  · rintro ⟨conn, hmem, hr⟩
    exact ⟨conn.id, conn, hmem, rfl, hr⟩
  · rintro ⟨c, conn, hmem, -, hr⟩
    exact ⟨conn, hmem, hr⟩

instance (s : FileGet) (p : PeerId) (r : RequestId) : Decidable (s.Pending p r) :=
  decidable_of_iff _ (s.pending_iff p r)

/-- The peer and the id of a request a step made: what `send_request`
returned. -/
def returned (t : Transition System Label) : Option (PeerId × RequestId) :=
  match t.label with
  | .sendRequest p m w =>
    match t.pre.fileGet.sendRequest p m w with
    | .ok (_, r) => some (p, r)
    | .error _ => none
  | _ => none

/-- The step makes a request. -/
def Label.isSend : Label → Bool
  | .sendRequest _ _ _ => true
  | _ => false

/-- How many requests a run has made. -/
def sends (tr : Trace System Label) : Nat := tr.countP fun t => t.label.isSend

/-- The step takes request `r` to `p` out of the place it was in. -/
def TakesOut (p : PeerId) (r : RequestId) (t : Transition System Label) : Prop :=
  t.pre.fileGet.Pending p r ∧ ¬ t.post.fileGet.Pending p r

instance (p : PeerId) (r : RequestId) (t : Transition System Label) : Decidable (TakesOut p r t) :=
  inferInstanceAs (Decidable (_ ∧ _))

/-! ## What a step can do to pending requests -/

/-- The six things a step can do to pending requests. -/
inductive Moved (s s' : System) : Label → Prop where
  /-- All requests stay where they are. -/
  | stay (a : Label) : a.isSend = false →
      (∀ q, s'.fileGet.buffer q = s.fileGet.buffer q) →
      (∀ q d x, s'.fileGet.Waiting q d x ↔ s.fileGet.Waiting q d x) → Moved s s' a
  /-- A new request is buffered. -/
  | buffered (p : PeerId) (m : FileGetMessage) (w : FileWriter) :
      (∀ q, s'.fileGet.buffer q =
        if q = p then s.fileGet.buffer p ++ [s.fileGet.newRequest m w] else s.fileGet.buffer q) →
      (∀ q d x, s'.fileGet.Waiting q d x ↔ s.fileGet.Waiting q d x) →
      Moved s s' (.sendRequest p m w)
  /-- A new request is handed to a connection. -/
  | dispatched (p : PeerId) (m : FileGetMessage) (w : FileWriter) (c : ConnectionId) :
      (∀ q, s'.fileGet.buffer q = s.fileGet.buffer q) →
      (∀ q d x, s'.fileGet.Waiting q d x ↔ s.fileGet.Waiting q d x ∨
        (q = p ∧ d = c ∧ x = (s.fileGet.newRequest m w).requestId)) →
      Moved s s' (.sendRequest p m w)
  /-- A whole buffer goes to a new connection. -/
  | drained (p : PeerId) (c : ConnectionId) (ep : ConnectedPoint) (resolves : Bool) :
      (∀ q, s'.fileGet.buffer q = if q = p then [] else s.fileGet.buffer q) →
      (∀ q d x, s'.fileGet.Waiting q d x ↔ s.fileGet.Waiting q d x ∨
        (q = p ∧ d = c ∧ s.fileGet.Buffered p x)) →
      Moved s s' (.connectionEstablished p c ep resolves)
  /-- A whole buffer is reported as failed. -/
  | dialFailed (p : PeerId) (resolves : Bool) :
      (∀ q, s'.fileGet.buffer q = if q = p then [] else s.fileGet.buffer q) →
      (∀ q d x, s'.fileGet.Waiting q d x ↔ s.fileGet.Waiting q d x) →
      s'.fileGet.pendingEvents = s.fileGet.pendingEvents ++
        (s.fileGet.buffer p).map (fun request =>
          .generateEvent (.outboundFailure p request.requestId .dialFailure)) →
      Moved s s' (.dialFailure (some p) resolves)
  /-- A connection closes and what it holds is reported. -/
  | closed (p : PeerId) (o i : IterOrder RequestId) (conn : Connection) :
      conn ∈ s.fileGet.connections p →
      (∀ q, s'.fileGet.buffer q = s.fileGet.buffer q) →
      (∀ q d x, s'.fileGet.Waiting q d x ↔
        s.fileGet.Waiting q d x ∧ ¬ (q = p ∧ d = conn.id)) →
      s'.fileGet.pendingEvents = s.fileGet.pendingEvents ++ closedEvents o i p conn →
      Moved s s' (.connectionClosed p conn.id o i)
  /-- An event of a handler completes one request. -/
  | completed (l : Link) (e : FileGetHandlerEvent) (rest : List FileGetHandlerEvent)
      (r : RequestId) :
      s.link? l.id = some l → l.events = e :: rest → e.completes = some r →
      (∀ q, s'.fileGet.buffer q = s.fileGet.buffer q) →
      (∀ q d x, s'.fileGet.Waiting q d x ↔
        s.fileGet.Waiting q d x ∧ ¬ (q = l.peer ∧ d = l.id ∧ x = r)) →
      s'.fileGet.pendingEvents = s.fileGet.pendingEvents ++ [.generateEvent (e.report l.peer)] →
      Moved s s' (.deliverEvent l.id)

theorem FileGet.buffer_clearBuffer {s : FileGet} {p q : PeerId} :
    (s.clearBuffer p).buffer q = if q = p then [] else s.buffer q := by
  unfold clearBuffer buffer
  rw [lookup_erase_ite]
  split <;> rfl

theorem FileGet.buffer_of_lookup {s : FileGet} {p : PeerId}
    {pending : List FileGetOutboundProtocol}
    (h : s.pendingOutboundRequests.lookup p = some pending) : s.buffer p = pending := by
  simp [buffer, h]

theorem FileGet.buffer_congr {s s' : FileGet}
    (h : s'.pendingOutboundRequests = s.pendingOutboundRequests) (q : PeerId) :
    s'.buffer q = s.buffer q := by
  unfold buffer
  rw [h]

/-- **Inversion**: what a step does to pending requests. -/
theorem stepped_moved {s s' : System} {a : Label} (hm : Mirror s) (h : Stepped s a s') :
    Moved s s' a := by
  cases h with
  | buffered p m w _ =>
    refine .buffered p m w (fun q => ?_) fun _ _ _ => Iff.rfl
    show ((s.fileGet.pendingOutboundRequests.insert p _).lookup q).getD [] = _
    rw [lookup_insert_ite]
    split <;> rfl
  | dispatched p m w l fg _ _ hd =>
    refine .dispatched p m w l.id (buffer_congr hd.buffers) fun q d x => ?_
    refine (hd.waiting q d x).trans (or_congr Iff.rfl ?_)
    simp [eq_comm]
  | established p c ep resolves _ _ _ =>
    exact .stay _ rfl (fun _ => rfl) fun _ _ _ => addConnection_holds ep fun _ _ => rfl
  | drained p c ep resolves pending fg _ _ _ hb _ hd =>
    refine .drained p c ep resolves (fun q => ?_) fun q d x => (hd.waiting q d x).trans ?_
    · exact (buffer_congr hd.buffers q).trans buffer_clearBuffer
    · refine or_congr (addConnection_holds ep fun _ _ => rfl) ?_
      rw [← buffer_of_lookup hb]
      exact Iff.rfl
  | closed l o i conn hl hconn hid =>
    rw [← hid]
    exact .closed l.peer o i conn hconn (fun _ => rfl) (fun _ _ _ => holds_closed _) rfl
  | addressChange l ep _ =>
    exact .stay _ rfl (fun _ => modifyConnection_buffer _) fun _ _ _ =>
      holds_readdress hm.wf ep fun _ => rfl
  | dialFailed peer resolves _ => exact .stay _ rfl (fun _ => rfl) fun _ _ _ => Iff.rfl
  | dialDrained p resolves pending hb =>
    refine .dialFailed p resolves (fun _ => buffer_clearBuffer) (fun _ _ _ => Iff.rfl) ?_
    rw [buffer_of_lookup hb]
    rfl
  | swarmNotice event =>
    exact .stay _ rfl (fun _ => rfl) fun _ _ _ => Iff.rfl
  | pollIdle _ => exact .stay _ rfl (fun _ => rfl) fun _ _ _ => Iff.rfl
  | pollReady action rest _ =>
    cases action with
    | dial q h => exact .stay _ rfl (fun _ => rfl) fun _ _ _ => Iff.rfl
    | notifyHandler q c request => exact .stay _ rfl (fun _ => rfl) fun _ _ _ => Iff.rfl
    | generateEvent e => cases e <;> exact .stay _ rfl (fun _ => rfl) fun _ _ _ => Iff.rfl
  | deliverEvent l conn e rest hl he _ _ =>
    have hw := fun q d x => afterEvent_waiting hm.wf e (p := l.peer) (c := l.id) (q := q) (d := d)
      (x := x)
    cases hr : e.completes with
    | none =>
      refine .stay _ rfl (fun _ => modifyConnection_buffer _) fun q d x => (hw q d x).trans ?_
      simp [hr]
    | some r =>
      refine .completed l e rest r (hm.link?_eq hl) he hr (fun _ => modifyConnection_buffer _)
        (fun q d x => (hw q d x).trans ?_) (afterEvent_pendingEvents e)
      simp [hr, eq_comm]
  | link a c f hf => cases hf <;> exact .stay _ rfl (fun _ => rfl) fun _ _ _ => Iff.rfl
  | openInbound l _ => exact .stay _ rfl (fun _ => rfl) fun _ _ _ => Iff.rfl
  | respond ch reader => exact .stay _ rfl (fun _ => rfl) fun _ _ _ => Iff.rfl
  | dropResponder ch => exact .stay _ rfl (fun _ => rfl) fun _ _ _ => Iff.rfl

/-- How a request leaves: it is reported failed or completed. -/
inductive Leaves (s s' : System) (p : PeerId) (r : RequestId) : Label → Prop where
  | dialFailed (resolves : Bool) : s.fileGet.Buffered p r →
      s'.fileGet.pendingEvents = s.fileGet.pendingEvents ++
        (s.fileGet.buffer p).map (fun request =>
          .generateEvent (.outboundFailure p request.requestId .dialFailure)) →
      Leaves s s' p r (.dialFailure (some p) resolves)
  | closed (o i : IterOrder RequestId) (conn : Connection) : conn ∈ s.fileGet.connections p →
      s.fileGet.Waiting p conn.id r →
      s'.fileGet.pendingEvents = s.fileGet.pendingEvents ++ closedEvents o i p conn →
      Leaves s s' p r (.connectionClosed p conn.id o i)
  | completed (l : Link) (e : FileGetHandlerEvent) (rest : List FileGetHandlerEvent) :
      l.peer = p → s.link? l.id = some l → l.events = e :: rest → e.completes = some r →
      s'.fileGet.pendingEvents = s.fileGet.pendingEvents ++ [.generateEvent (e.report l.peer)] →
      Leaves s s' p r (.deliverEvent l.id)

/-- A pending request stays pending, or leaves in one of three ways. -/
theorem Moved.pending_or_leaves {s s' : System} {a : Label} (h : Moved s s' a) {p : PeerId}
    {r : RequestId} (hp : s.fileGet.Pending p r) :
    s'.fileGet.Pending p r ∨ Leaves s s' p r a := by
  have hbuf : ∀ request ∈ s'.fileGet.buffer p, request.requestId = r →
      s'.fileGet.Pending p r := fun request hmem hid => Or.inl ⟨request, hmem, hid⟩
  cases h with
  | stay _ _ hb hw =>
    left
    rcases hp with ⟨request, hmem, hid⟩ | ⟨c, hc⟩
    · exact hbuf request ((hb p).symm ▸ hmem) hid
    · exact Or.inr ⟨c, (hw _ _ _).mpr hc⟩
  | buffered q m w hb hw =>
    left
    rcases hp with ⟨request, hmem, hid⟩ | ⟨c, hc⟩
    · refine hbuf request ?_ hid
      rw [hb]
      split
      · rename_i hq
        exact List.mem_append_left _ (hq ▸ hmem)
      · exact hmem
    · exact Or.inr ⟨c, (hw _ _ _).mpr hc⟩
  | dispatched q m w c hb hw =>
    left
    rcases hp with ⟨request, hmem, hid⟩ | ⟨d, hd⟩
    · exact hbuf request ((hb p).symm ▸ hmem) hid
    · exact Or.inr ⟨d, (hw _ _ _).mpr (Or.inl hd)⟩
  | drained q c ep resolves hb hw =>
    left
    rcases hp with ⟨request, hmem, hid⟩ | ⟨d, hd⟩
    · by_cases hq : p = q
      · subst hq
        exact Or.inr ⟨c, (hw _ _ _).mpr (Or.inr ⟨rfl, rfl, request, hmem, hid⟩)⟩
      · refine hbuf request ?_ hid
        rw [hb, if_neg hq]
        exact hmem
    · exact Or.inr ⟨d, (hw _ _ _).mpr (Or.inl hd)⟩
  | dialFailed q resolves hb hw hev =>
    rcases hp with ⟨request, hmem, hid⟩ | ⟨d, hd⟩
    · by_cases hq : p = q
      · subst hq
        exact Or.inr (.dialFailed resolves ⟨request, hmem, hid⟩ hev)
      · left
        refine hbuf request ?_ hid
        rw [hb, if_neg hq]
        exact hmem
    · exact Or.inl (Or.inr ⟨d, (hw _ _ _).mpr hd⟩)
  | closed q o i conn hconn hb hw hev =>
    rcases hp with ⟨request, hmem, hid⟩ | ⟨d, hd⟩
    · exact Or.inl (hbuf request ((hb p).symm ▸ hmem) hid)
    · by_cases hqd : p = q ∧ d = conn.id
      · obtain ⟨rfl, rfl⟩ := hqd
        exact Or.inr (.closed o i conn hconn hd hev)
      · exact Or.inl (Or.inr ⟨d, (hw _ _ _).mpr ⟨hd, hqd⟩⟩)
  | completed l e rest x hl he hx hb hw hev =>
    rcases hp with ⟨request, hmem, hid⟩ | ⟨d, hd⟩
    · exact Or.inl (hbuf request ((hb p).symm ▸ hmem) hid)
    · by_cases hqd : p = l.peer ∧ d = l.id ∧ r = x
      · obtain ⟨hpeer, -, rfl⟩ := hqd
        exact Or.inr (.completed l e rest hpeer.symm hl he hx hev)
      · exact Or.inl (Or.inr ⟨d, (hw _ _ _).mpr ⟨hd, hqd⟩⟩)

/-- Only `send_request` draws from the generator. -/
theorem stepped_generator {s s' : System} {a : Label} (h : Stepped s a s') :
    s'.fileGet.requsetIdGenerator =
      if a.isSend then s.fileGet.requsetIdGenerator.nextId.2 else s.fileGet.requsetIdGenerator := by
  cases h with
  | buffered p m w _ => rfl
  | dispatched p m w l fg _ _ hd => exact hd.generator
  | established p c ep resolves _ _ _ => rfl
  | drained p c ep resolves pending fg _ _ _ _ _ hd => exact hd.generator
  | closed l o i conn _ _ _ => rfl
  | addressChange l ep _ => exact modifyConnection_requsetIdGenerator _
  | dialFailed peer resolves _ => rfl
  | dialDrained p resolves pending _ => rfl
  | swarmNotice event => rfl
  | pollIdle _ => rfl
  | pollReady action rest _ =>
    cases action with
    | dial q h => rfl
    | notifyHandler q c request => rfl
    | generateEvent e => cases e <;> rfl
  | deliverEvent l conn e rest _ _ _ _ => exact modifyConnection_requsetIdGenerator _
  | link a c f hf => cases hf <;> rfl
  | openInbound l _ => rfl
  | respond ch reader => rfl
  | dropResponder ch => rfl

/-! ## One place for every request -/

/-- After `n` requests: a pending id was handed out by the generator, for
one peer, and is in one place. -/
structure Placed (n : Nat) (s : FileGet) : Prop where
  generator : s.requsetIdGenerator.nextId.1 = .nth n
  drawn : ∀ {p r}, s.Pending p r → ∃ k < n, r = .nth k
  bufferNodup : ∀ p, ((s.buffer p).map (·.requestId)).Nodup
  onePeer : ∀ {p q r}, s.Pending p r → s.Pending q r → p = q
  oneConnection : ∀ {p c d r}, s.Waiting p c r → s.Waiting p d r → c = d
  notBoth : ∀ {p c r}, s.Buffered p r → ¬ s.Waiting p c r

namespace Placed

variable {n : Nat} {s s' : FileGet}

/-- The next id is not pending. -/
theorem fresh (hp : Placed n s) (hn : n < UInt64.size) {p : PeerId} {r : RequestId}
    (h : s.Pending p r) : r ≠ s.requsetIdGenerator.nextId.1 := by
  obtain ⟨k, hk, rfl⟩ := hp.drawn h
  rw [hp.generator]
  intro heq
  have := RequestId.nth_inj (Nat.lt_trans hk hn) hn heq
  omega

/-- Taking requests out keeps the rest in place. -/
theorem of_fewer (hp : Placed n s) (hg : s'.requsetIdGenerator = s.requsetIdGenerator)
    (hb : ∀ q, (s'.buffer q).Sublist (s.buffer q))
    (hw : ∀ {q d x}, s'.Waiting q d x → s.Waiting q d x) : Placed n s' := by
  have hbuf : ∀ {q x}, s'.Buffered q x → s.Buffered q x :=
    fun {q x} ⟨request, hmem, hid⟩ => ⟨request, (hb q).mem hmem, hid⟩
  have hpend : ∀ {q x}, s'.Pending q x → s.Pending q x :=
    fun h => h.imp hbuf fun ⟨c, hc⟩ => ⟨c, hw hc⟩
  exact
    { generator := hg ▸ hp.generator
      drawn := fun h => hp.drawn (hpend h)
      bufferNodup := fun p => ((hb p).map _).nodup (hp.bufferNodup p)
      onePeer := fun h h' => hp.onePeer (hpend h) (hpend h')
      oneConnection := fun h h' => hp.oneConnection (hw h) (hw h')
      notBoth := fun h h' => hp.notBoth (hbuf h) (hw h') }

/-- Where a new request may be put: `hpend` says that nothing else became
pending, and the new id is pending for one peer only. -/
theorem of_new (hp : Placed n s) (hn : n < UInt64.size) {p : PeerId}
    (hg : s'.requsetIdGenerator = s.requsetIdGenerator.nextId.2)
    (hpend : ∀ {q x}, s'.Pending q x →
      s.Pending q x ∨ (q = p ∧ x = s.requsetIdGenerator.nextId.1))
    (hb : ∀ q, ((s'.buffer q).map (·.requestId)).Nodup)
    (hone : ∀ {q c d x}, s'.Waiting q c x → s'.Waiting q d x → c = d)
    (hnot : ∀ {q c x}, s'.Buffered q x → ¬ s'.Waiting q c x) : Placed (n + 1) s' where
  generator := by
    rw [hg]
    exact RequestIdGenerator.nextId_nth hp.generator
  drawn h := by
    rcases hpend h with h | ⟨-, rfl⟩
    · obtain ⟨k, hk, hr⟩ := hp.drawn h
      exact ⟨k, Nat.lt_succ_of_lt hk, hr⟩
    · exact ⟨n, Nat.lt_succ_self n, hp.generator⟩
  bufferNodup := hb
  onePeer h h' := by
    rcases hpend h with h | ⟨rfl, hx⟩ <;> rcases hpend h' with h' | ⟨rfl, hx'⟩
    · exact hp.onePeer h h'
    · exact absurd hx' (hp.fresh hn h)
    · exact absurd hx (hp.fresh hn h')
    · rfl
  oneConnection := hone
  notBoth := hnot

/-- A new request is buffered. -/
theorem buffered (hp : Placed n s) (hn : n < UInt64.size) {p : PeerId} {m : FileGetMessage}
    {w : FileWriter} (hg : s'.requsetIdGenerator = s.requsetIdGenerator.nextId.2)
    (hb : ∀ q, s'.buffer q = if q = p then s.buffer p ++ [s.newRequest m w] else s.buffer q)
    (hw : ∀ q d x, s'.Waiting q d x ↔ s.Waiting q d x) : Placed (n + 1) s' := by
  have hbuf : ∀ {q x}, s'.Buffered q x → s.Buffered q x ∨
      (q = p ∧ x = s.requsetIdGenerator.nextId.1) := by
    rintro q x ⟨request, hmem, rfl⟩
    rw [hb] at hmem
    split at hmem
    · rename_i hq
      subst hq
      rcases List.mem_append.mp hmem with hmem | hmem
      · exact Or.inl ⟨request, hmem, rfl⟩
      · rw [List.mem_singleton.mp hmem]
        exact Or.inr ⟨rfl, rfl⟩
    · exact Or.inl ⟨request, hmem, rfl⟩
  refine hp.of_new hn (p := p) hg ?_ (fun q => ?_) ?_ ?_
  · rintro q x (hx | ⟨c, hx⟩)
    · exact (hbuf hx).imp Or.inl id
    · exact Or.inl (Or.inr ⟨c, (hw _ _ _).mp hx⟩)
  · rw [hb]
    split
    · rw [List.map_append, List.nodup_append]
      refine ⟨hp.bufferNodup p, by simp, ?_⟩
      rintro x hx y hy rfl
      obtain ⟨request, hmem, rfl⟩ := List.mem_map.mp hx
      simp only [List.map_cons, List.map_nil, List.mem_singleton] at hy
      exact hp.fresh hn (Or.inl ⟨request, hmem, rfl⟩) hy
    · exact hp.bufferNodup q
  · exact fun hc hd => hp.oneConnection ((hw _ _ _).mp hc) ((hw _ _ _).mp hd)
  · intro q c x hx hc
    rcases hbuf hx with hx | ⟨-, rfl⟩
    · exact hp.notBoth hx ((hw _ _ _).mp hc)
    · exact hp.fresh hn (Or.inr ⟨c, (hw _ _ _).mp hc⟩) rfl

/-- A new request is handed to a connection. -/
theorem dispatched (hp : Placed n s) (hn : n < UInt64.size) {p : PeerId} {c : ConnectionId}
    (hg : s'.requsetIdGenerator = s.requsetIdGenerator.nextId.2)
    (hb : ∀ q, s'.buffer q = s.buffer q)
    (hw : ∀ q d x, s'.Waiting q d x ↔ s.Waiting q d x ∨
      (q = p ∧ d = c ∧ x = s.requsetIdGenerator.nextId.1)) : Placed (n + 1) s' := by
  have hbuf : ∀ {q x}, s'.Buffered q x → s.Buffered q x :=
    fun {q x} ⟨request, hmem, hid⟩ => ⟨request, hb q ▸ hmem, hid⟩
  refine hp.of_new hn (p := p) hg ?_ (fun q => hb q ▸ hp.bufferNodup q) ?_ ?_
  · rintro q x (hx | ⟨d, hx⟩)
    · exact Or.inl (Or.inl (hbuf hx))
    · rcases (hw _ _ _).mp hx with hx | ⟨rfl, -, rfl⟩
      · exact Or.inl (Or.inr ⟨d, hx⟩)
      · exact Or.inr ⟨rfl, rfl⟩
  · intro q d d' x hx hx'
    rcases (hw _ _ _).mp hx with hx | ⟨rfl, rfl, hx⟩ <;>
      rcases (hw _ _ _).mp hx' with hx' | ⟨hq, rfl, hx'⟩
    · exact hp.oneConnection hx hx'
    · exact absurd hx' (hp.fresh hn (Or.inr ⟨d, hx⟩))
    · exact absurd hx (hp.fresh hn (Or.inr ⟨d', hx'⟩))
    · rfl
  · intro q d x hx hd
    rcases (hw _ _ _).mp hd with hd | ⟨-, -, rfl⟩
    · exact hp.notBoth (hbuf hx) hd
    · exact hp.fresh hn (Or.inl (hbuf hx)) rfl

/-- A buffer that is emptied. -/
theorem sublist_of_cleared {p : PeerId}
    (hb : ∀ q, s'.buffer q = if q = p then [] else s.buffer q) (q : PeerId) :
    (s'.buffer q).Sublist (s.buffer q) := by
  rw [hb]
  split
  · exact List.nil_sublist _
  · exact List.Sublist.refl _

/-- A whole buffer goes to a new connection. -/
theorem drained (hp : Placed n s) {p : PeerId} {c : ConnectionId}
    (hg : s'.requsetIdGenerator = s.requsetIdGenerator)
    (hb : ∀ q, s'.buffer q = if q = p then [] else s.buffer q)
    (hw : ∀ q d x, s'.Waiting q d x ↔ s.Waiting q d x ∨ (q = p ∧ d = c ∧ s.Buffered p x)) :
    Placed n s' := by
  have hbuf : ∀ {q x}, s'.Buffered q x → s.Buffered q x ∧ q ≠ p := by
    rintro q x ⟨request, hmem, hid⟩
    refine ⟨⟨request, (sublist_of_cleared hb q).mem hmem, hid⟩, ?_⟩
    rintro rfl
    simp [hb] at hmem
  have hpend : ∀ {q x}, s'.Pending q x → s.Pending q x := by
    rintro q x (hx | ⟨d, hx⟩)
    · exact Or.inl (hbuf hx).1
    · rcases (hw _ _ _).mp hx with hx | ⟨rfl, -, hx⟩
      · exact Or.inr ⟨d, hx⟩
      · exact Or.inl hx
  exact
    { generator := hg ▸ hp.generator
      drawn := fun hx => hp.drawn (hpend hx)
      bufferNodup := fun q => ((sublist_of_cleared hb q).map _).nodup (hp.bufferNodup q)
      onePeer := fun hx hx' => hp.onePeer (hpend hx) (hpend hx')
      oneConnection := by
        intro q d d' x hx hx'
        rcases (hw _ _ _).mp hx with hx | ⟨rfl, rfl, hx⟩ <;>
          rcases (hw _ _ _).mp hx' with hx' | ⟨hq, rfl, hx'⟩
        · exact hp.oneConnection hx hx'
        · exact absurd hx (hp.notBoth (hq ▸ hx'))
        · exact absurd hx' (hp.notBoth hx)
        · rfl
      notBoth := by
        intro q d x hx hd
        obtain ⟨hx, hne⟩ := hbuf hx
        rcases (hw _ _ _).mp hd with hd | ⟨rfl, -, -⟩
        · exact hp.notBoth hx hd
        · exact hne rfl }

theorem step {s s' : System} {a : Label} (hp : Placed n s.fileGet) (hm : Mirror s)
    (h : Stepped s a s') (hn : (if a.isSend then n + 1 else n) ≤ UInt64.size) :
    Placed (if a.isSend then n + 1 else n) s'.fileGet := by
  have hgen := stepped_generator h
  cases stepped_moved hm h with
  | stay _ hsend hb hw =>
    simp only [hsend, Bool.false_eq_true, if_false] at hgen ⊢
    exact hp.of_fewer hgen (fun q => hb q ▸ List.Sublist.refl _) fun hx => (hw _ _ _).mp hx
  | buffered p m w hb hw => exact hp.buffered hn hgen hb hw
  | dispatched p m w c hb hw => exact hp.dispatched hn hgen hb hw
  | drained p c ep resolves hb hw => exact hp.drained hgen hb hw
  | dialFailed p resolves hb hw _ =>
    exact hp.of_fewer hgen (sublist_of_cleared hb) fun hx => (hw _ _ _).mp hx
  | closed p o i conn _ hb hw _ =>
    exact hp.of_fewer hgen (fun q => hb q ▸ List.Sublist.refl _) fun hx => ((hw _ _ _).mp hx).1
  | completed l e rest r _ _ _ hb hw _ =>
    exact hp.of_fewer hgen (fun q => hb q ▸ List.Sublist.refl _) fun hx => ((hw _ _ _).mp hx).1

end Placed

theorem placed_init (config : FileGetConfig) : Placed 0 (fromConfig config) where
  generator := rfl
  drawn h := by
    rcases h with ⟨request, hmem, -⟩ | ⟨c, conn, hmem, -⟩ <;>
      simp [fromConfig, buffer, connections] at hmem
  bufferNodup p := by simp [fromConfig, buffer]
  onePeer h := by
    rcases h with ⟨request, hmem, -⟩ | ⟨c, conn, hmem, -⟩ <;>
      simp [fromConfig, buffer, connections] at hmem
  oneConnection h := by
    obtain ⟨conn, hmem, -⟩ := h
    simp [fromConfig, connections] at hmem
  notBoth h := by
    obtain ⟨request, hmem, -⟩ := h
    simp [fromConfig, buffer] at hmem

variable {config : FileGetConfig} {debug : Bool} {tr : Trace System Label} {s : System}

theorem sends_cons (t : Transition System Label) (tr : Trace System Label) :
    sends (t :: tr) = if t.label.isSend then sends tr + 1 else sends tr := by
  unfold sends
  rw [List.countP_cons]
  cases t.label.isSend <;> rfl

theorem sends_tail_le (t : Transition System Label) (tr : Trace System Label) :
    sends tr ≤ sends (t :: tr) := by
  rw [sends_cons]
  split <;> omega

theorem sends_older_le (newer : Trace System Label) (t : Transition System Label)
    (older : Trace System Label) : sends older ≤ sends (newer ++ t :: older) := by
  unfold sends
  rw [List.countP_append, List.countP_cons]
  omega

/-- **Every pending request has one place**, in every run that has not made
more requests than there are ids. -/
theorem run_placed (h : (fileGetSystem config debug).Run tr s) (hn : sends tr ≤ UInt64.size) :
    Placed (sends tr) s.fileGet := by
  induction tr generalizing s with
  | nil => cases h; exact placed_init config
  | cons t tr ih =>
    obtain ⟨hrun, -, -, rfl⟩ := h.tail
    obtain ⟨hm, hstep⟩ := run_stepped h
    have hp := ih hrun (Nat.le_trans (sends_tail_le t tr) hn)
    rw [sends_cons] at hn ⊢
    exact hp.step hm hstep hn

/-! ## The ids that were returned -/

/-- What a step of a run returned: the id the generator was at. -/
theorem returned_eq_some {t : Transition System Label} (hm : Mirror t.pre) {p : PeerId}
    {r : RequestId} : returned t = some (p, r) ↔
      ∃ m w, t.label = .sendRequest p m w ∧ r = t.pre.fileGet.requsetIdGenerator.nextId.1 := by
  obtain ⟨s, a, s'⟩ := t
  cases a with
  | sendRequest q m w =>
    have hret : returned ⟨s, .sendRequest q m w, s'⟩ =
        some (q, s.fileGet.requsetIdGenerator.nextId.1) := by
      rcases sendRequest_spec hm.wf (p := q) m w with ⟨-, hs⟩ | ⟨conn, -, fg, hs, -⟩ <;>
        simp [returned, hs, newRequest]
    simp only [hret, Option.some.injEq, Prod.mk.injEq, Label.sendRequest.injEq]
    constructor
    · rintro ⟨rfl, rfl⟩
      exact ⟨m, w, ⟨rfl, rfl, rfl⟩, rfl⟩
    · rintro ⟨m', w', ⟨rfl, -, -⟩, rfl⟩
      exact ⟨rfl, rfl⟩
  | _ => simp [returned]

/-- Every id returned so far is one of the first `sends tr`. -/
theorem returned_lt (h : (fileGetSystem config debug).Run tr s) (hn : sends tr ≤ UInt64.size)
    {u : Transition System Label} (hu : u ∈ tr) {p : PeerId} {r : RequestId}
    (hr : returned u = some (p, r)) : ∃ k < sends tr, r = .nth k := by
  induction tr generalizing s with
  | nil => simp at hu
  | cons t tr ih =>
    have hn' := Nat.le_trans (sends_tail_le t tr) hn
    rcases List.mem_cons.mp hu with rfl | hu
    · obtain ⟨m, w, hlabel, rfl⟩ := (returned_eq_some (run_stepped h).1).mp hr
      refine ⟨sends tr, ?_, (run_placed h.tail.1 hn').generator⟩
      rw [sends_cons, hlabel]
      exact Nat.lt_succ_self _
    · obtain ⟨k, hk, hr⟩ := ih h.tail.1 hn' hu
      exact ⟨k, Nat.lt_of_lt_of_le hk (sends_tail_le t tr), hr⟩

/-- An id is returned once. -/
theorem returned_new {t : Transition System Label}
    (h : (fileGetSystem config debug).Run (t :: tr) s) (hn : sends (t :: tr) ≤ UInt64.size)
    {p q : PeerId} {r : RequestId} (hr : returned t = some (p, r)) :
    ∀ u ∈ tr, returned u ≠ some (q, r) := by
  intro u hu hu'
  have hn' := Nat.le_trans (sends_tail_le t tr) hn
  obtain ⟨m, w, hlabel, rfl⟩ := (returned_eq_some (run_stepped h).1).mp hr
  obtain ⟨k, hk, heq⟩ := returned_lt h.tail.1 hn' hu hu'
  rw [(run_placed h.tail.1 hn').generator] at heq
  rw [sends_cons, hlabel] at hn
  have hlt : sends tr < UInt64.size := hn
  have := RequestId.nth_inj hlt (Nat.lt_trans hk hlt) heq
  omega

/-- An id is returned for one peer. -/
theorem returned_peer (h : (fileGetSystem config debug).Run tr s) (hn : sends tr ≤ UInt64.size)
    {u v : Transition System Label} (hu : u ∈ tr) (hv : v ∈ tr) {p q : PeerId} {r : RequestId}
    (hru : returned u = some (p, r)) (hrv : returned v = some (q, r)) : p = q := by
  induction tr generalizing s with
  | nil => simp at hu
  | cons t tr ih =>
    rcases List.mem_cons.mp hu with rfl | hu' <;> rcases List.mem_cons.mp hv with rfl | hv'
    · rw [hru, Option.some.injEq, Prod.mk.injEq] at hrv
      exact hrv.1
    · exact absurd hrv (returned_new h hn hru v hv')
    · exact absurd hru (returned_new h hn hrv u hu')
    · exact ih h.tail.1 (Nat.le_trans (sends_tail_le t tr) hn) hu' hv'

/-! ## The token discipline -/

/-- What is pending after a step was pending before, or is the request the
step made. -/
theorem pending_before {t : Transition System Label} (hm : Mirror t.pre)
    (h : Stepped t.pre t.label t.post) {p : PeerId} {r : RequestId}
    (hp : t.post.fileGet.Pending p r) :
    t.pre.fileGet.Pending p r ∨ returned t = some (p, r) := by
  obtain ⟨s, a, s'⟩ := t
  have hret := returned_eq_some (t := ⟨s, a, s'⟩) hm (p := p) (r := r)
  dsimp only at hm h hp hret ⊢
  cases stepped_moved hm h with
  | stay _ _ hb hw =>
    refine Or.inl (hp.imp ?_ fun ⟨c, hc⟩ => ⟨c, (hw _ _ _).mp hc⟩)
    exact fun ⟨request, hmem, hid⟩ => ⟨request, hb p ▸ hmem, hid⟩
  | buffered q m w hb hw =>
    rcases hp with ⟨request, hmem, rfl⟩ | ⟨c, hc⟩
    · rw [hb] at hmem
      split at hmem
      · rename_i hq
        subst hq
        rcases List.mem_append.mp hmem with hmem | hmem
        · exact Or.inl (Or.inl ⟨request, hmem, rfl⟩)
        · rw [List.mem_singleton.mp hmem] at hret ⊢
          exact Or.inr (hret.mpr ⟨m, w, rfl, rfl⟩)
      · exact Or.inl (Or.inl ⟨request, hmem, rfl⟩)
    · exact Or.inl (Or.inr ⟨c, (hw _ _ _).mp hc⟩)
  | dispatched q m w c hb hw =>
    rcases hp with ⟨request, hmem, hid⟩ | ⟨d, hd⟩
    · exact Or.inl (Or.inl ⟨request, hb p ▸ hmem, hid⟩)
    · rcases (hw _ _ _).mp hd with hd | ⟨rfl, -, rfl⟩
      · exact Or.inl (Or.inr ⟨d, hd⟩)
      · exact Or.inr (hret.mpr ⟨m, w, rfl, rfl⟩)
  | drained q c ep resolves hb hw =>
    left
    rcases hp with ⟨request, hmem, hid⟩ | ⟨d, hd⟩
    · rw [hb] at hmem
      split at hmem
      · simp at hmem
      · exact Or.inl ⟨request, hmem, hid⟩
    · rcases (hw _ _ _).mp hd with hd | ⟨rfl, -, hd⟩
      · exact Or.inr ⟨d, hd⟩
      · exact Or.inl hd
  | dialFailed q resolves hb hw _ =>
    refine Or.inl (hp.imp ?_ fun ⟨c, hc⟩ => ⟨c, (hw _ _ _).mp hc⟩)
    rintro ⟨request, hmem, hid⟩
    rw [hb] at hmem
    split at hmem
    · simp at hmem
    · exact ⟨request, hmem, hid⟩
  | closed q o i conn _ hb hw _ =>
    refine Or.inl (hp.imp ?_ fun ⟨c, hc⟩ => ⟨c, ((hw _ _ _).mp hc).1⟩)
    exact fun ⟨request, hmem, hid⟩ => ⟨request, hb p ▸ hmem, hid⟩
  | completed l e rest x _ _ _ hb hw _ =>
    refine Or.inl (hp.imp ?_ fun ⟨c, hc⟩ => ⟨c, ((hw _ _ _).mp hc).1⟩)
    exact fun ⟨request, hmem, hid⟩ => ⟨request, hb p ▸ hmem, hid⟩

/-- The request a step makes is pending after it. -/
theorem pending_of_returned {t : Transition System Label} (hm : Mirror t.pre)
    (h : Stepped t.pre t.label t.post) {p : PeerId} {r : RequestId}
    (hr : returned t = some (p, r)) : t.post.fileGet.Pending p r := by
  obtain ⟨m, w, hlabel, rfl⟩ := (returned_eq_some hm).mp hr
  obtain ⟨s, a, s'⟩ := t
  dsimp only at hlabel hm h ⊢
  subst hlabel
  cases stepped_moved hm h with
  | stay _ hsend => cases hsend
  | buffered _ _ _ hb _ =>
    refine Or.inl ⟨s.fileGet.newRequest m w, ?_, rfl⟩
    rw [hb, if_pos rfl]
    exact List.mem_append_right _ (List.mem_singleton.mpr rfl)
  | dispatched _ _ _ c _ hw => exact Or.inr ⟨c, (hw _ _ _).mpr (Or.inr ⟨rfl, rfl, rfl⟩)⟩

/-- The token discipline: a returned id is a token, a state holds the
pending ones. -/
def requestAccounting (config : FileGetConfig) (debug : Bool) :
    Accounting (fileGetSystem config debug) (PeerId × RequestId) where
  issued := returned
  held s x := s.fileGet.Pending x.1 x.2
  within tr := sends tr ≤ UInt64.size
  within_tail := fun {t tr} hn => Nat.le_trans (sends_tail_le t tr) hn
  init_held x h := by
    obtain ⟨k, hk, -⟩ := (placed_init config).drawn h
    omega
  held_step := fun h _ _ hx =>
    have hst := run_stepped h
    pending_before hst.1 hst.2 hx
  issued_held := fun h _ _ hx =>
    have hst := run_stepped h
    pending_of_returned hst.1 hst.2 hx
  issued_new := fun h hn _ hx => returned_new h hn hx

end FileSharing
