/-
FileSharing.FileGet.DialBuffer — no request is stranded in the dial
buffer.

The invariant `Awaited` ties three things together: an entry of
`pending_outbound_requests` is never empty, its peer has no connection,
and a dial for it is queued or handed out. A dial can leave the last of
these places only by being resolved, and both ways of resolving it (a
connection to the peer, a dial failure naming the peer) empty the buffer;
that is why the late resolution of an old dial cannot strand a newer
request.
-/
import FileSharing.FileGet.SystemTheorems

namespace FileSharing

open Lib FileGet

/-- A dial for the peer is queued, or handed out and unresolved. -/
def System.Dialing (s : System) (p : PeerId) : Prop :=
  (∃ handler, .dial p handler ∈ s.fileGet.pendingEvents) ∨ p ∈ s.dials

/-- A dial stays known while queue and dials only grow. -/
theorem System.Dialing.mono {s s' : System} {p : PeerId} (h : s.Dialing p)
    (hev : ∀ a ∈ s.fileGet.pendingEvents, a ∈ s'.fileGet.pendingEvents)
    (hd : p ∈ s.dials → p ∈ s'.dials) : s'.Dialing p :=
  h.imp (fun ⟨handler, hmem⟩ => ⟨handler, hev _ hmem⟩) hd

/-- What waits in the buffer is awaited by a dial. -/
structure Awaited (s : System) : Prop where
  nonempty : ∀ p l, s.fileGet.pendingOutboundRequests.lookup p = some l → l ≠ []
  disconnected : ∀ p, p ∈ s.fileGet.pendingOutboundRequests → s.fileGet.connections p = []
  dialing : ∀ p, p ∈ s.fileGet.pendingOutboundRequests → s.Dialing p

namespace Awaited

variable {s s' : System} {p q : PeerId}

/-- A step that leaves the buffer, connects no buffered peer and loses no
dial keeps the invariant. -/
theorem of_same (ha : Awaited s)
    (hbuf : s'.fileGet.pendingOutboundRequests = s.fileGet.pendingOutboundRequests)
    (hconn : ∀ p, p ∈ s.fileGet.pendingOutboundRequests → s.fileGet.connections p = [] →
      s'.fileGet.connections p = [])
    (hdial : ∀ p, p ∈ s.fileGet.pendingOutboundRequests → s.Dialing p → s'.Dialing p) :
    Awaited s' where
  nonempty p l hl := ha.nonempty p l (hbuf ▸ hl)
  disconnected p hp :=
    have hp' : p ∈ s.fileGet.pendingOutboundRequests := hbuf ▸ hp
    hconn p hp' (ha.disconnected p hp')
  dialing p hp :=
    have hp' : p ∈ s.fileGet.pendingOutboundRequests := hbuf ▸ hp
    hdial p hp' (ha.dialing p hp')

/-- A step that clears the buffer of `p` keeps the invariant if it
connects no other buffered peer and loses no other peer's dial. -/
theorem of_clear (ha : Awaited s)
    (hbuf : s'.fileGet.pendingOutboundRequests = s.fileGet.pendingOutboundRequests.erase p)
    (hconn : ∀ q, q ≠ p → s.fileGet.connections q = [] → s'.fileGet.connections q = [])
    (hdial : ∀ q, q ≠ p → s.Dialing q → s'.Dialing q) : Awaited s' where
  nonempty q l hl := by
    rw [hbuf, lookup_erase_ite] at hl
    split at hl
    · cases hl
    · exact ha.nonempty q l hl
  disconnected q hq := by
    rw [hbuf, AList.mem_erase] at hq
    exact hconn q hq.1 (ha.disconnected q hq.2)
  dialing q hq := by
    rw [hbuf, AList.mem_erase] at hq
    exact hdial q hq.1 (ha.dialing q hq.2)

end Awaited

/-! ## One step -/

/-- The table says whether a peer has a connection. -/
theorem FileGet.connections_nil_of_table {s s' : FileGet} {p : PeerId}
    (ht : s'.table p = s.table p) (h : s.connections p = []) : s'.connections p = [] := by
  unfold FileGet.table at ht
  rw [h, List.map_nil, List.map_eq_nil_iff] at ht
  exact ht

/-- Resolving a dial for `p` resolves no dial for another peer. -/
theorem System.mem_dials_erase {s : System} {p q : PeerId} {resolves : Bool} (hq : q ≠ p)
    (h : q ∈ s.dials) : q ∈ if resolves then s.dials.erase p else s.dials := by
  split
  · exact (List.mem_erase_of_ne hq).mpr h
  · exact h

theorem System.mem_dialsAfter {s : System} {peer : Option PeerId} {q : PeerId} {resolves : Bool}
    (hq : peer ≠ some q) (h : q ∈ s.dials) : q ∈ s.dialsAfter peer resolves := by
  unfold System.dialsAfter
  split
  · rename_i p
    have hne : q ≠ p := fun heq => hq (congrArg some heq.symm)
    exact (List.mem_erase_of_ne hne).mpr h
  · exact h

/-- Establishing a connection to `p` connects nobody else. -/
theorem FileGet.addConnection_nil {s : FileGet} {p q : PeerId} {c : ConnectionId}
    {ep : ConnectedPoint} (hq : q ≠ p) (h : s.connections q = []) :
    (s.addConnection p c ep).connections q = [] := by
  rw [addConnection_connections, if_neg hq, h]

/-- Buffering a request queues the dial that will resolve it. -/
theorem Awaited.buffered {s : System} {p : PeerId} (ha : Awaited s)
    (hnil : s.fileGet.connections p = []) (request : FileGetOutboundProtocol) :
    Awaited { s with fileGet := s.fileGet.drawn.bufferRequest p request } where
  nonempty q l hl := by
    simp only [bufferRequest, drawn, lookup_insert_ite] at hl
    split at hl
    · simp only [Option.some.injEq] at hl
      simp [← hl]
    · exact ha.nonempty q l hl
  disconnected q hq := by
    rcases (AList.mem_insert _).mp hq with rfl | hq
    · exact hnil
    · exact ha.disconnected q hq
  dialing q hq := by
    rcases (AList.mem_insert _).mp hq with rfl | hq
    · exact Or.inl ⟨_, List.mem_append_right _ (List.mem_singleton.mpr rfl)⟩
    · exact (ha.dialing q hq).mono (fun _ h => List.mem_append_left _ h) id

/-- Handing an action to the swarm loses no dial: a dial is handed out. -/
theorem System.Dialing.perform {s : System} {p : PeerId} {action : NetworkBehaviourAction}
    {rest : List NetworkBehaviourAction} (hq : s.fileGet.pendingEvents = action :: rest)
    (h : s.Dialing p) :
    (System.perform { s with fileGet := { s.fileGet with pendingEvents := rest } } action).Dialing
      p := by
  rcases h with ⟨handler, hmem⟩ | hmem
  · rw [hq] at hmem
    rcases List.mem_cons.mp hmem with rfl | hrest
    · exact Or.inr List.mem_cons_self
    · refine Or.inl ⟨handler, ?_⟩
      rw [System.perform_fileGet]
      exact hrest
  · right
    cases action with
    | dial q h => exact List.mem_cons_of_mem _ hmem
    | notifyHandler q c request => exact hmem
    | generateEvent e => cases e <;> exact hmem

/-- **One step keeps the dial buffer awaited.** -/
theorem Awaited.step {s s' : System} {a : Label} (hm : Mirror s) (ha : Awaited s)
    (h : Stepped s a s') : Awaited s' := by
  cases h with
  | buffered p m w hnil => exact ha.buffered hnil _
  | dispatched p m w l fg _ _ hd =>
    refine ha.of_same hd.buffers (fun q _ => connections_nil_of_table (hd.table q)) ?_
    exact fun q _ hq => hq.mono (fun _ hx => hd.events ▸ List.mem_append_left _ hx) id
  | established p c ep resolves _ _ hcase =>
    -- whoever is buffered, it is not the peer that connects
    have hne : ∀ q, q ∈ s.fileGet.pendingOutboundRequests → q ≠ p := by
      rintro q hq rfl
      rcases hcase with hcase | hcase
      · exact hcase (ha.disconnected q hq)
      · exact AList.lookup_eq_none.mp hcase hq
    exact ha.of_same rfl (fun q hq => addConnection_nil (hne q hq))
      fun q hq hdial => hdial.mono (fun _ => id) (System.mem_dials_erase (hne q hq))
  | drained p c ep resolves pending fg _ _ _ _ _ hd =>
    refine ha.of_clear hd.buffers (fun q hq hnil => ?_) fun q hq hdial => ?_
    · exact connections_nil_of_table (hd.table q) (addConnection_nil hq hnil)
    · exact hdial.mono (fun _ hx => hd.events ▸ List.mem_append_left _ hx)
        (System.mem_dials_erase hq)
  | closed l o i conn _ _ _ =>
    refine ha.of_same rfl (fun q _ hnil => ?_)
      fun q _ hdial => hdial.mono (fun _ hx => List.mem_append_left _ hx) id
    show (s.fileGet.storeConnections _ _).connections q = []
    rw [storeConnections_connections]
    split
    · rename_i hq
      simp [remaining, ← hq, hnil]
    · exact hnil
  | addressChange l ep _ =>
    refine ha.of_same (modifyConnection_pendingOutboundRequests _) (fun q _ hnil => ?_)
      fun q _ hdial => hdial.mono (fun _ hx => by simpa using hx) id
    refine connections_nil_of_table (s := s.fileGet) ?_ hnil
    rw [readdress_table hm.wf]
    split
    · rename_i hq
      subst hq
      simp [FileGet.table, hnil]
    · rfl
  | dialFailed peer resolves hnone =>
    refine ha.of_same rfl (fun _ _ => id) fun q hq hdial => hdial.mono (fun _ => id) ?_
    refine System.mem_dialsAfter fun hp => ?_
    exact AList.lookup_eq_none.mp (hnone q hp) hq
  | dialDrained p resolves pending _ =>
    refine ha.of_clear (p := p) rfl (fun _ _ => id) fun q hq hdial => ?_
    refine hdial.mono (fun _ hx => List.mem_append_left _ hx) (System.mem_dialsAfter ?_)
    exact fun heq => hq (Option.some.inj heq).symm
  | swarmNotice event => exact ha
  | pollIdle _ => exact ha
  | pollReady action rest hq =>
    have hfg := System.perform_fileGet
      { s with fileGet := { s.fileGet with pendingEvents := rest } } action
    refine ha.of_same (by rw [hfg]) (fun p _ hnil => ?_) fun p _ hdial => hdial.perform hq
    rw [hfg]
    exact hnil
  | deliverEvent l conn e rest _ _ _ _ =>
    refine ha.of_same (modifyConnection_pendingOutboundRequests _) (fun q _ hnil => ?_)
      fun q _ hdial => hdial.mono (fun _ hx => List.mem_append_left _ (by simpa using hx)) id
    exact connections_nil_of_table (s := s.fileGet)
      (modifyConnection_table hm.wf e.effect_id e.effect_address) hnil
  | link a c f _ =>
    exact ha.of_same rfl (fun _ _ => id) fun _ _ hdial => hdial.mono (fun _ => id) id
  | openInbound l _ =>
    exact ha.of_same rfl (fun _ _ => id) fun _ _ hdial => hdial.mono (fun _ => id) id
  | respond ch reader =>
    exact ha.of_same rfl (fun _ _ => id) fun _ _ hdial => hdial.mono (fun _ => id) id
  | dropResponder ch =>
    exact ha.of_same rfl (fun _ _ => id) fun _ _ hdial => hdial.mono (fun _ => id) id

/-! ## Whole runs -/

variable {config : FileGetConfig} {debug : Bool} {tr : Trace System Label} {s : System}

theorem awaited_init (config : FileGetConfig) : Awaited (.init config) where
  nonempty p l hl := by simp [System.init, fromConfig] at hl
  disconnected p hp := by simp [System.init, fromConfig] at hp
  dialing p hp := by simp [System.init, fromConfig] at hp

theorem run_awaited (h : (fileGetSystem config debug).Run tr s) : Awaited s :=
  h.invariant (I := fun _ s => Awaited s) (awaited_init config) fun hrun ha hok hstep =>
    ha.step (run_mirror hrun) (step_stepped (run_mirror hrun) hok hstep)

/-- **No request is stranded in the dial buffer.** A buffered peer has a
non-empty buffer, no connection, and a dial that will be resolved; and
when its first connection is established, `try_send_request` takes every
drained request. -/
theorem dialBuffer_awaited (h : (fileGetSystem config debug).Run tr s) :
    (∀ p l, s.fileGet.pendingOutboundRequests.lookup p = some l →
      l ≠ [] ∧ p ∉ s.fileGet.connected ∧ s.Dialing p) ∧
    (∀ p c ep resolves pending, s.Allowed (.connectionEstablished p c ep resolves) = true →
      (s.linksOf p).length = 0 → s.fileGet.pendingOutboundRequests.lookup p = some pending →
      ∃ fg, s.fileGet.onConnectionEstablished p c ep (s.linksOf p).length = .ok fg ∧
        ((s.fileGet.addConnection p c ep).clearBuffer p).sendBuffered p pending
          = .ok (fg, [])) := by
  have ha := run_awaited h
  have hm := run_mirror h
  refine ⟨fun p l hl => ?_, fun p c ep resolves pending hallowed hzero hl => ?_⟩
  · have hp : p ∈ s.fileGet.pendingOutboundRequests :=
      AList.lookup_isSome.mp (Option.isSome_iff_exists.mpr ⟨l, hl⟩)
    refine ⟨ha.nonempty p l hl, ?_, ha.dialing p hp⟩
    exact AList.lookup_eq_none.mp ((connections_eq_nil hm.wf).mp (ha.disconnected p hp))
  · simp only [System.Allowed, Bool.and_eq_true, decide_eq_true_eq] at hallowed
    rcases onConnectionEstablished_spec hm.wf ep (hm.fresh hallowed.1) (hm.length_eq p) with
      ⟨hcase, -⟩ | ⟨pending', -, hb, fg, hs, hsend, -⟩
    · rw [hm.length_eq, List.length_eq_zero_iff] at hzero
      rcases hcase with hcase | hcase
      · exact absurd hzero hcase
      · rw [hcase] at hl
        cases hl
    · rw [hl, Option.some.injEq] at hb
      subst hb
      exact ⟨fg, hs, hsend⟩

/-- A run in which a first dial fails after a second one was handed out:
the request buffered behind the second dial is still awaited. -/
theorem dialBuffer_awaited_redialed : ∃ tr s,
    (fileGetSystem ⟨10⟩ true).Run tr s ∧
    (s.fileGet.pendingOutboundRequests.lookup ⟨7⟩).isSome = true ∧ s.Dialing ⟨7⟩ := by
  obtain ⟨tr, s, hrun, hP⟩ := Machine.exists_run_of_labels (M := fileGetSystem ⟨10⟩ true)
    [.sendRequest ⟨7⟩ ⟨"a"⟩ ⟨[]⟩, .pollBehaviour, .sendRequest ⟨7⟩ ⟨"b"⟩ ⟨[]⟩, .pollBehaviour,
      .dialFailure (some ⟨7⟩) true, .sendRequest ⟨7⟩ ⟨"c"⟩ ⟨[]⟩]
    (fun _ s => (s.fileGet.pendingOutboundRequests.lookup ⟨7⟩).isSome) (by decide) (by decide)
  obtain ⟨l, hl⟩ := Option.isSome_iff_exists.mp hP
  exact ⟨tr, s, hrun, hP, ((dialBuffer_awaited hrun).1 _ l hl).2.2⟩

end FileSharing
