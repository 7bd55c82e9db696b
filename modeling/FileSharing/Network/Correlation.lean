/-
FileSharing.Network.Correlation — the three tables of the event loop fit
together in every reachable state.

`pending_command_requests` is a store of commands, `pending_list_files`
and `pending_file_gets` are indexes into it (`Lib.IndexTable`): one for
the stored `ListFiles`, one for the stored `GetFile`. `Correlated` says so
and is what a reader of the loop relies on.

It does not keep itself. That a new `GetFile` finds its request id unused,
and that a `ResponseReceived` finds its entry, rests on `FileGet`: ids do
not repeat while there are fewer than `2 ^ 64` commands, and a response is
queued for a request the loop still has an entry for. So the invariant of
a run is `Consistent`, which carries a run of `FileGet`'s side of the
swarm next to the tables.
-/
import FileSharing.Lib.IndexTable
import FileSharing.Network.NodeTheorems

namespace FileSharing

open Lib FileGet

/-- A stored `ListFiles`. -/
def CommandRequest.IsListFiles (request : CommandRequest) : Prop :=
  ∃ userName, request.command = .listFiles userName

/-- A stored `GetFile`. -/
def CommandRequest.IsGetFile (request : CommandRequest) : Prop :=
  ∃ userName fileName, request.command = .getFile userName fileName

/-- The tables of the loop fit together. -/
structure EventLoop.Correlated (l : EventLoop) : Prop where
  keyed : ∀ {k request}, l.pendingCommandRequests.lookup k = some request →
    request.commandRequestId = k
  listFiles : Index CommandRequest.IsListFiles l.pendingCommandRequests l.pendingListFiles
  fileGets : Index CommandRequest.IsGetFile l.pendingCommandRequests l.pendingFileGets
  disjoint : ∀ {i r k}, l.pendingListFiles.lookup i = some k →
    l.pendingFileGets.lookup r ≠ some k

theorem CommandRequest.IsListFiles.not_isGetFile {request : CommandRequest}
    (h : request.IsListFiles) :
    ¬ request.IsGetFile := by
  obtain ⟨userName, hl⟩ := h
  rintro ⟨userName', fileName', hg⟩
  rw [hl] at hg
  cases hg

/-- A stored command keeps its place when another one is stored. -/
theorem lookup_store_ne {l : EventLoop} {request : CommandRequest} {k : UInt64}
    (h : k ≠ request.commandRequestId) :
    (l.store request).pendingCommandRequests.lookup k = l.pendingCommandRequests.lookup k :=
  (lookup_insert_ite _ _ _ _).trans (if_neg h)

theorem lookup_store_self (l : EventLoop) (request : CommandRequest) :
    (l.store request).pendingCommandRequests.lookup request.commandRequestId = some request :=
  (lookup_insert_ite _ _ _ _).trans (if_pos rfl)

namespace EventLoop.Correlated

variable {l : EventLoop}

/-- That the values of the two indexes are disjoint follows from the kinds
of the commands they point to. -/
theorem of_index {l : EventLoop}
    (hk : ∀ {k request}, l.pendingCommandRequests.lookup k = some request →
      request.commandRequestId = k)
    (hl : Index CommandRequest.IsListFiles l.pendingCommandRequests l.pendingListFiles)
    (hf : Index CommandRequest.IsGetFile l.pendingCommandRequests l.pendingFileGets) :
    l.Correlated where
  keyed := hk
  listFiles := hl
  fileGets := hf
  disjoint := by
    intro i r k hi hr
    obtain ⟨request, hreq, hlist⟩ := hl.sound hi
    obtain ⟨request', hreq', hget⟩ := hf.sound hr
    rw [hreq] at hreq'
    obtain rfl := Option.some.inj hreq'
    exact hlist.not_isGetFile hget

theorem keyed_store (hc : l.Correlated) (request : CommandRequest) {k : UInt64}
    {found : CommandRequest} (h : (l.store request).pendingCommandRequests.lookup k = some found) :
    found.commandRequestId = k := by
  unfold store at h
  dsimp only at h
  rw [lookup_insert_ite] at h
  split at h
  · rename_i heq
    rw [← Option.some.inj h, heq]
  · exact hc.keyed h

theorem keyed_take (hc : l.Correlated) {k k' : UInt64} {found : CommandRequest}
    (h : (l.take k).pendingCommandRequests.lookup k' = some found) :
    found.commandRequestId = k' := by
  unfold take at h
  dsimp only at h
  rw [lookup_erase_ite] at h
  split at h
  · cases h
  · exact hc.keyed h

/-- A `ListPeers` is stored. -/
theorem store_listPeers (hc : l.Correlated) {request : CommandRequest}
    (hnew : l.pendingCommandRequests.lookup request.commandRequestId = none)
    (hcmd : request.command = .listPeers) : (l.store request).Correlated := by
  refine of_index (hc.keyed_store request) (hc.listFiles.insert_other hnew ?_)
    (hc.fileGets.insert_other hnew ?_)
  · rintro ⟨userName, h⟩
    rw [hcmd] at h
    cases h
  · rintro ⟨userName, fileName, h⟩
    rw [hcmd] at h
    cases h

/-- A `ListFiles` is stored with its entry. -/
theorem store_listFiles (hc : l.Correlated) {request : CommandRequest} {userName : String}
    {i : ListFilesRequestId}
    (hnew : l.pendingCommandRequests.lookup request.commandRequestId = none)
    (hi : l.pendingListFiles.lookup i = none) (hcmd : request.command = .listFiles userName) :
    EventLoop.Correlated { l.store request with
      pendingListFiles := l.pendingListFiles.insert i request.commandRequestId } :=
  have hkind : request.IsListFiles := ⟨userName, hcmd⟩
  of_index (hc.keyed_store request) (hc.listFiles.insert_entry hnew hi hkind)
    (hc.fileGets.insert_other hnew hkind.not_isGetFile)

/-- A `GetFile` is stored with its entry. -/
theorem store_getFile (hc : l.Correlated) {request : CommandRequest} {userName fileName : String}
    {r : RequestId} {swarm : System}
    (hnew : l.pendingCommandRequests.lookup request.commandRequestId = none)
    (hr : l.pendingFileGets.lookup r = none) (hcmd : request.command = .getFile userName fileName) :
    EventLoop.Correlated { l.store request with
      swarm := swarm
      pendingFileGets := l.pendingFileGets.insert r request.commandRequestId } :=
  have hkind : request.IsGetFile := ⟨userName, fileName, hcmd⟩
  of_index (hc.keyed_store request)
    (hc.listFiles.insert_other hnew fun h => h.not_isGetFile hkind)
    (hc.fileGets.insert_entry hnew hr hkind)

/-- A `ListFiles` is answered. -/
theorem take_listFiles (hc : l.Correlated) {i : ListFilesRequestId} {k : UInt64}
    (hi : l.pendingListFiles.lookup i = some k) :
    EventLoop.Correlated { l.take k with pendingListFiles := l.pendingListFiles.erase i } := by
  obtain ⟨request, hreq, hkind⟩ := hc.listFiles.sound hi
  exact of_index hc.keyed_take (hc.listFiles.erase_entry hi)
    (hc.fileGets.erase_other hreq hkind.not_isGetFile)

/-- A `GetFile` is answered. -/
theorem take_getFile (hc : l.Correlated) {r : RequestId} {k : UInt64} {swarm : System}
    (hr : l.pendingFileGets.lookup r = some k) :
    EventLoop.Correlated { (l.withSwarm swarm).take k with
      pendingFileGets := l.pendingFileGets.erase r } := by
  obtain ⟨request, hreq, hkind⟩ := hc.fileGets.sound hr
  exact of_index hc.keyed_take
    (hc.listFiles.erase_other hreq fun h => h.not_isGetFile hkind) (hc.fileGets.erase_entry hr)

/-- What a discovery leaves in the store. -/
theorem discovered_lookup (env : Env) (registrations : List Registration) (k : UInt64) :
    ((l.discovered env registrations).pendingCommandRequests.lookup k =
        l.pendingCommandRequests.lookup k ∧
      ∀ request, l.pendingCommandRequests.lookup k = some request →
        request.command ≠ .listPeers) ∨
    ((l.discovered env registrations).pendingCommandRequests.lookup k = none ∧
      ∃ request, l.pendingCommandRequests.lookup k = some request ∧
        request.command = .listPeers) := by
  unfold discovered
  dsimp only
  rw [answerListPeers_lookup]
  split
  · rename_i hk
    exact Or.inr ⟨rfl, mem_listPeersKeys.mp hk⟩
  · rename_i hk
    refine Or.inl ⟨rfl, fun request hreq hcmd => hk ?_⟩
    exact mem_listPeersKeys.mpr ⟨request, hreq, hcmd⟩

/-- All stored `ListPeers` are answered. -/
theorem discovered (hc : l.Correlated) (env : Env) (registrations : List Registration) :
    (l.discovered env registrations).Correlated := by
  have hrem : ∀ (P : CommandRequest → Prop),
      (∀ request, request.command = .listPeers → ¬ P request) →
      ∀ k, (l.discovered env registrations).pendingCommandRequests.lookup k =
          l.pendingCommandRequests.lookup k ∨
        ((l.discovered env registrations).pendingCommandRequests.lookup k = none ∧
          ∀ request, l.pendingCommandRequests.lookup k = some request → ¬ P request) := by
    intro P hP k
    rcases discovered_lookup (l := l) env registrations k with ⟨heq, -⟩ | ⟨hnone, found, hf, hcmd⟩
    · exact Or.inl heq
    · refine Or.inr ⟨hnone, fun request hreq => hP request ?_⟩
      rw [hf] at hreq
      rw [← Option.some.inj hreq, hcmd]
  refine of_index (fun {k request} h => ?_) (hc.listFiles.remove_others (hrem _ ?_))
    (hc.fileGets.remove_others (hrem _ ?_))
  · rcases discovered_lookup (l := l) env registrations k with ⟨heq, -⟩ | ⟨hnone, -⟩
    · exact hc.keyed (heq ▸ h)
    · rw [hnone] at h
      cases h
  · rintro request hcmd ⟨userName, h⟩
    rw [hcmd] at h
    cases h
  · rintro request hcmd ⟨userName, fileName, h⟩
    rw [hcmd] at h
    cases h

end EventLoop.Correlated

/-! ## The table of file-get requests follows `FileGet` -/

/-- The swarm has come here by a run with at most `m` requests; the ids in
the table are ids it returned, and the requests that can still be answered
are in the table. -/
structure Follows (config : FileGetConfig) (debug : Bool) (swarm : System) (m : Nat)
    (fileGets : HashMap RequestId UInt64) : Prop where
  run : ∃ tr, (fileGetSystem config debug).Run tr swarm ∧ sends tr ≤ m ∧
    ∀ {r k}, fileGets.lookup r = some k → ∃ j < sends tr, r = .nth j
  outstanding : ∀ {r}, swarm.fileGet.Answerable r → ∃ k, fileGets.lookup r = some k

namespace Follows

variable {config : FileGetConfig} {debug : Bool} {swarm swarm' : System} {m : Nat}
  {fileGets : HashMap RequestId UInt64}

theorem mirror (hf : Follows config debug swarm m fileGets) : Mirror swarm := by
  obtain ⟨tr, hrun, -⟩ := hf.run
  exact run_mirror hrun

theorem mono (hf : Follows config debug swarm m fileGets) {m' : Nat} (hle : m ≤ m') :
    Follows config debug swarm m' fileGets where
  run := by
    obtain ⟨tr, hrun, hn, hdrawn⟩ := hf.run
    exact ⟨tr, hrun, Nat.le_trans hn hle, hdrawn⟩
  outstanding := hf.outstanding

/-- A step of the swarm that makes no request. -/
theorem progress (hf : Follows config debug swarm m fileGets) (hm : m ≤ UInt64.size)
    (label : Label) (hsend : label.isSend = false) (ha : swarm.Allowed label = true)
    (hs : swarm.step debug label = .ok swarm') : Follows config debug swarm' m fileGets := by
  obtain ⟨tr, hrun, hn, hdrawn⟩ := hf.run
  have hmirror := run_mirror hrun
  have hstep : Stepped swarm label swarm' := step_stepped hmirror ha hs
  have hsends : sends (⟨swarm, label, swarm'⟩ :: tr) = sends tr := by
    rw [sends_cons]
    simp [hsend]
  refine ⟨⟨_, hrun.next ha hs, hsends ▸ hn, hsends ▸ hdrawn⟩, fun {r} hr => ?_⟩
  have hflight := run_inFlight hrun (Nat.le_trans hn hm)
  rcases answerable_before hmirror hflight hstep hr with hr | ⟨p, hret⟩
  · exact hf.outstanding hr
  · obtain ⟨message, writer, hlabel, -⟩ := (returned_eq_some hmirror).mp hret
    dsimp only at hlabel
    rw [hlabel] at hsend
    cases hsend

/-- A response is handed out, and its entry taken out of the table. -/
theorem fetched (hf : Follows config debug swarm m fileGets) (hm : m ≤ UInt64.size)
    {p : PeerId} {r : RequestId} {rest : List NetworkBehaviourAction}
    (hq : swarm.fileGet.pendingEvents = .generateEvent (.responseReceived p r) :: rest)
    (hs : swarm.step debug .pollBehaviour = .ok swarm') :
    Follows config debug swarm' m (fileGets.erase r) := by
  have hf' := hf.progress hm .pollBehaviour rfl rfl hs
  obtain ⟨tr, hrun, hn, hdrawn⟩ := hf'.run
  refine ⟨⟨tr, hrun, hn, fun {x k} hx => ?_⟩, fun {x} hx => ?_⟩
  · rw [lookup_erase_ite] at hx
    split at hx
    · cases hx
    · exact hdrawn hx
  · have hne : x ≠ r := by
      rintro rfl
      obtain ⟨tr₀, hrun₀, hn₀, -⟩ := hf.run
      have hans := run_answered hrun₀ (Nat.le_trans hn₀ hm)
      exact hans.not_answerable hf.mirror hq (step_stepped hf.mirror rfl hs) hx
    rw [lookup_erase_ite, if_neg hne]
    exact hf'.outstanding hx

section Send

variable {p : PeerId} {message : FileGetMessage} {writer : FileWriter} {fileGet : FileGet}
  {r : RequestId}

/-- The id a request gets is the number of requests before it. -/
theorem sendRequest_nth {tr : Trace System Label} (hrun : (fileGetSystem config debug).Run tr swarm)
    (hn : sends tr ≤ UInt64.size)
    (hs : swarm.fileGet.sendRequest p message writer = .ok (fileGet, r)) : r = .nth (sends tr) := by
  have hret : returned ⟨swarm, .sendRequest p message writer, swarm⟩ = some (p, r) := by
    simp [returned, hs]
  obtain ⟨-, -, -, hr⟩ := (returned_eq_some (run_mirror hrun)).mp hret
  exact hr.trans (run_placed hrun hn).generator

/-- The id the next request gets is not in the table. -/
theorem fresh (hf : Follows config debug swarm m fileGets) (hm : m < UInt64.size)
    (hs : swarm.fileGet.sendRequest p message writer = .ok (fileGet, r)) :
    fileGets.lookup r = none := by
  obtain ⟨tr, hrun, hn, hdrawn⟩ := hf.run
  have hlt : sends tr < UInt64.size := Nat.lt_of_le_of_lt hn hm
  have hgen := sendRequest_nth hrun (Nat.le_of_lt hlt) hs
  cases hlook : fileGets.lookup r with
  | none => rfl
  | some k =>
    obtain ⟨j, hj, hjr⟩ := hdrawn hlook
    have := RequestId.nth_inj hlt (Nat.lt_trans hj hlt) (hgen.symm.trans hjr)
    omega

/-- A request is made, and entered in the table. -/
theorem sent (hf : Follows config debug swarm m fileGets) (hm : m < UInt64.size)
    (hs : swarm.fileGet.sendRequest p message writer = .ok (fileGet, r)) (k : UInt64) :
    Follows config debug { swarm with fileGet := fileGet } (m + 1) (fileGets.insert r k) := by
  obtain ⟨tr, hrun, hn, hdrawn⟩ := hf.run
  have hn' : sends tr ≤ UInt64.size := Nat.le_of_lt (Nat.lt_of_le_of_lt hn hm)
  have hmirror := run_mirror hrun
  have hgen := sendRequest_nth hrun hn' hs
  have ha : swarm.Allowed (.sendRequest p message writer) = true := rfl
  have hok : swarm.step debug (.sendRequest p message writer) =
      .ok { swarm with fileGet := fileGet } := by
    simp [System.step, hs, bind, Except.bind]
  have hsends : sends (⟨swarm, .sendRequest p message writer, { swarm with fileGet := fileGet }⟩ ::
      tr) = sends tr + 1 := by
    rw [sends_cons]
    rfl
  refine ⟨⟨_, hrun.next ha hok, ?_, fun {x k'} hx => ?_⟩, fun {x} hx => ?_⟩
  · rw [hsends]
    exact Nat.succ_le_succ hn
  · rw [hsends]
    rw [lookup_insert_ite] at hx
    split at hx
    · rename_i heq
      exact ⟨sends tr, Nat.lt_succ_self _, heq.trans hgen⟩
    · obtain ⟨j, hj, hjr⟩ := hdrawn hx
      exact ⟨j, Nat.lt_succ_of_lt hj, hjr⟩
  · rw [lookup_insert_ite]
    split
    · exact ⟨k, rfl⟩
    · rename_i hne
      rcases answerable_before hmirror (run_inFlight hrun hn') (step_stepped hmirror ha hok) hx with
        hx | ⟨q, hq⟩
      · exact hf.outstanding hx
      · have heq : r = x := by
          simp only [returned, hs, Option.some.injEq, Prod.mk.injEq] at hq
          exact hq.2
        exact absurd heq.symm hne

end Send

end Follows

/-! ## The invariant -/

/-- A list without repetition of 64-bit numbers has at most `2 ^ 64`
elements. -/
theorem length_le_of_nodup {ids : List UInt64} (h : ids.Nodup) : ids.length ≤ UInt64.size := by
  have hnat : (ids.map UInt64.toNat).Nodup := h.map fun _ _ heq => UInt64.toNat_inj.mp heq
  have hsub : ids.map UInt64.toNat ⊆ List.range UInt64.size := by
    intro x hx
    obtain ⟨id, -, rfl⟩ := List.mem_map.mp hx
    exact List.mem_range.mpr id.toNat_lt_size
  have hle := (List.subperm_of_subset hnat hsub).length_le
  rwa [List.length_map, List.length_range] at hle

/-- What the contract says about a command. -/
theorem Node.allowed_command {n : Node} {request : CommandRequest} {env : Env}
    (h : n.Allowed (.command request env) = true) :
    n.stopped = none ∧ request.commandRequestId ∉ n.received.map (·.commandRequestId) ∧
      request.responseSender ∉ n.received.map (·.responseSender) ∧
      env.listFilesId ∉ n.listFilesSent := by
  simp only [Node.Allowed, Bool.and_eq_true, decide_eq_true_eq, Option.isNone_iff_eq_none] at h
  exact ⟨h.1.1.1, h.1.1.2, h.1.2, h.2⟩

/-- The swarm makes no request by itself. -/
theorem isSend_of_isOwn {label : Label} (h : Node.isOwn label = false) : label.isSend = false := by
  cases label with
  | sendRequest _ _ _ => cases h
  | _ => rfl

/-- A request that is handed out brings its response sender along. -/
theorem responder_of_poll {debug : Bool} {s s' : System} {peer : PeerId} {r : RequestId}
    {message : FileGetMessage} {channel : ChannelId} {rest : List NetworkBehaviourAction}
    (hq : s.fileGet.pendingEvents =
      .generateEvent (.requestReceived peer r message channel) :: rest)
    (hs : s.step debug .pollBehaviour = .ok s') : channel ∈ s'.responders := by
  simp only [System.step, FileGet.poll, hq, System.perform, Except.ok.injEq] at hs
  subst hs
  exact List.mem_cons_self

/-- The invariant of a node. -/
structure Consistent (config : FileGetConfig) (debug : Bool) (n : Node) : Prop where
  correlated : n.loop.Correlated
  rendezvous : ∃ node, n.loop.rendezvousPointPeerId = some node
  stored : ∀ {k request}, n.loop.pendingCommandRequests.lookup k = some request →
    request ∈ n.received
  distinct : (n.received.map (·.commandRequestId)).Nodup
  numbered : ∀ {i k}, n.loop.pendingListFiles.lookup i = some k → i ∈ n.listFilesSent
  follows : Follows config debug n.loop.swarm n.received.length n.loop.pendingFileGets
  noPanic : ∀ p, n.stopped ≠ some (.panic p)

namespace Consistent

variable {config : FileGetConfig} {debug : Bool} {fits : String → Bool} {n n' : Node}

theorem length_le (hc : Consistent config debug n) : n.received.length ≤ UInt64.size := by
  have := length_le_of_nodup hc.distinct
  rwa [List.length_map] at this

theorem ready (hc : Consistent config debug n) : n.loop.Ready where
  rendezvous := hc.rendezvous
  wellFormed := hc.follows.mirror.wf
  listFiles h := by
    obtain ⟨request, hreq, -⟩ := hc.correlated.listFiles.sound h
    exact ⟨request, hreq⟩
  response h := by
    obtain ⟨k, hk⟩ := hc.follows.outstanding (Or.inr h)
    obtain ⟨request, hreq, userName, fileName, hcmd⟩ := hc.correlated.fileGets.sound hk
    exact ⟨k, request, userName, fileName, hk, hreq, hcmd⟩

/-- A new command is not stored yet. -/
theorem lookup_new (hc : Consistent config debug n) {request : CommandRequest}
    (hnew : request.commandRequestId ∉ n.received.map (·.commandRequestId)) :
    n.loop.pendingCommandRequests.lookup request.commandRequestId = none := by
  cases hlook : n.loop.pendingCommandRequests.lookup request.commandRequestId with
  | none => rfl
  | some found =>
    refine absurd ?_ hnew
    exact List.mem_map.mpr ⟨found, hc.stored hlook, hc.correlated.keyed hlook⟩

/-- There is room for one more command. -/
theorem length_lt (hc : Consistent config debug n) {request : CommandRequest}
    (hnew : request.commandRequestId ∉ n.received.map (·.commandRequestId)) :
    n.received.length < UInt64.size := by
  have hnodup : ((request :: n.received).map (·.commandRequestId)).Nodup :=
    List.nodup_cons.mpr ⟨hnew, hc.distinct⟩
  have := length_le_of_nodup hnodup
  rw [List.length_map, List.length_cons] at this
  omega

/-- After a command. -/
theorem of_command (hc : Consistent config debug n) {request : CommandRequest}
    (hnew : request.commandRequestId ∉ n.received.map (·.commandRequestId))
    (hreceived : n'.received = request :: n.received)
    (hrendezvous : n'.loop.rendezvousPointPeerId = n.loop.rendezvousPointPeerId)
    (hcor : n'.loop.Correlated)
    (hstored : ∀ {k found}, n'.loop.pendingCommandRequests.lookup k = some found →
      n.loop.pendingCommandRequests.lookup k = some found ∨ found = request)
    (hnumbered : ∀ {i k}, n'.loop.pendingListFiles.lookup i = some k → i ∈ n'.listFilesSent)
    (hfollows : Follows config debug n'.loop.swarm (n.received.length + 1) n'.loop.pendingFileGets)
    (hstop : ∀ p, n'.stopped ≠ some (.panic p)) : Consistent config debug n' where
  correlated := hcor
  rendezvous := hrendezvous ▸ hc.rendezvous
  stored h := by
    rw [hreceived]
    rcases hstored h with h | rfl
    · exact List.mem_cons_of_mem _ (hc.stored h)
    · exact List.mem_cons_self
  distinct := by
    rw [hreceived]
    exact List.nodup_cons.mpr ⟨hnew, hc.distinct⟩
  numbered := hnumbered
  follows := by
    rw [hreceived]
    exact hfollows
  noPanic := hstop

/-- After an event: nothing is received, and nothing is put into the
tables. -/
theorem of_event (hc : Consistent config debug n) (hreceived : n'.received = n.received)
    (hsent : n'.listFilesSent = n.listFilesSent)
    (hrendezvous : n'.loop.rendezvousPointPeerId = n.loop.rendezvousPointPeerId)
    (hcor : n'.loop.Correlated)
    (hstored : ∀ {k found}, n'.loop.pendingCommandRequests.lookup k = some found →
      n.loop.pendingCommandRequests.lookup k = some found)
    (hnumbered : ∀ {i k}, n'.loop.pendingListFiles.lookup i = some k →
      n.loop.pendingListFiles.lookup i = some k)
    (hfollows : Follows config debug n'.loop.swarm n.received.length n'.loop.pendingFileGets)
    (hstop : ∀ p, n'.stopped ≠ some (.panic p)) : Consistent config debug n' where
  correlated := hcor
  rendezvous := hrendezvous ▸ hc.rendezvous
  stored h := hreceived ▸ hc.stored (hstored h)
  distinct := hreceived ▸ hc.distinct
  numbered h := hsent ▸ hc.numbered (hnumbered h)
  follows := by
    rw [hreceived]
    exact hfollows
  noPanic := hstop

/-- After progress of the swarm. -/
theorem of_swarm (hc : Consistent config debug n) {swarm : System}
    (hfollows : Follows config debug swarm n.received.length n.loop.pendingFileGets)
    (hloop : n'.loop = n.loop.withSwarm swarm) (hreceived : n'.received = n.received)
    (hsent : n'.listFilesSent = n.listFilesSent) (hstop : ∀ p, n'.stopped ≠ some (.panic p)) :
    Consistent config debug n' := by
  refine hc.of_event hreceived hsent (by rw [hloop]; rfl) (hloop ▸ ?_) (fun h => ?_) (fun h => ?_)
    (hloop ▸ hfollows) hstop
  · exact ⟨hc.correlated.keyed, hc.correlated.listFiles, hc.correlated.fileGets,
      hc.correlated.disjoint⟩
  · rwa [hloop] at h
  · rwa [hloop] at h

/-- **A step keeps the node consistent.** -/
theorem step {a : NodeLabel} (hc : Consistent config debug n) (ha : n.Allowed a = true)
    (h : NodeStepped fits debug n a n') : Consistent config debug n' := by
  have hlen := hc.length_le
  cases h with
  | failed request env e _ | answered request env result _ =>
    obtain ⟨-, hnew, -⟩ := Node.allowed_command ha
    refine hc.of_command hnew rfl rfl hc.correlated Or.inl hc.numbered
      (hc.follows.mono (Nat.le_succ _)) ?_
    first | exact hc.noPanic | simp
  | listPeers request env node hcmd _ =>
    obtain ⟨-, hnew, -⟩ := Node.allowed_command ha
    exact hc.of_command hnew rfl rfl
      (hc.correlated.store_listPeers (hc.lookup_new hnew) hcmd) lookup_of_insert hc.numbered
      (hc.follows.mono (Nat.le_succ _)) hc.noPanic
  | listFiles request env userName peer hcmd _ =>
    obtain ⟨-, hnew, -, hid⟩ := Node.allowed_command ha
    have hi : n.loop.pendingListFiles.lookup env.listFilesId = none := by
      cases hlook : n.loop.pendingListFiles.lookup env.listFilesId with
      | none => rfl
      | some k => exact absurd (hc.numbered hlook) hid
    refine hc.of_command hnew rfl rfl
      (hc.correlated.store_listFiles (hc.lookup_new hnew) hi hcmd) lookup_of_insert
      (fun {i k} h => ?_) (hc.follows.mono (Nat.le_succ _)) hc.noPanic
    rw [lookup_insert_ite] at h
    split at h
    · rename_i heq
      exact heq ▸ List.mem_cons_self
    · exact List.mem_cons_of_mem _ (hc.numbered h)
  | getFile request env userName fileName peer writer fileGet r hcmd _ hs =>
    obtain ⟨-, hnew, -⟩ := Node.allowed_command ha
    have hlt := hc.length_lt hnew
    exact hc.of_command hnew rfl rfl
      (hc.correlated.store_getFile (hc.lookup_new hnew) (hc.follows.fresh hlt hs) hcmd)
      lookup_of_insert hc.numbered (hc.follows.sent hlt hs _) hc.noPanic
  | quiet event env _ _ _ =>
    have hloop := n.settle_loop event
    refine hc.of_event (n.settle_received event) (n.settle_listFilesSent event) (by rw [hloop])
      (hloop ▸ hc.correlated) (fun h => hloop ▸ h) (fun h => hloop ▸ h) (hloop ▸ hc.follows) ?_
    rw [n.settle_stopped event]
    exact hc.noPanic
  | notListed peer channel env e _ =>
    exact hc.of_event rfl rfl rfl hc.correlated id id hc.follows (by simp)
  | discovered registrations env =>
    refine hc.of_event rfl rfl rfl (hc.correlated.discovered env registrations)
      (fun {k found} h => ?_) id hc.follows hc.noPanic
    rcases EventLoop.Correlated.discovered_lookup (l := n.loop) env registrations k with
      ⟨heq, -⟩ | ⟨hnone, -⟩
    · exact heq ▸ h
    · rw [hnone] at h
      cases h
  | listed peer i fileNames env k request hi hk =>
    exact hc.of_event rfl rfl rfl (hc.correlated.take_listFiles hi) lookup_of_erase
      lookup_of_erase hc.follows hc.noPanic
  | polled env swarm hs _ _ =>
    exact hc.of_swarm (hc.follows.progress hlen .pollBehaviour rfl rfl hs) rfl rfl rfl hc.noPanic
  | served env peer r message channel rest file swarm hq _ hs =>
    have hpolled := hc.follows.progress hlen .pollBehaviour rfl rfl hs
    have hallowed : swarm.Allowed (.respond channel file) = true := by
      simpa [System.Allowed] using responder_of_poll hq hs
    exact hc.of_swarm (hpolled.progress hlen (.respond channel file) rfl hallowed rfl) rfl rfl rfl
      hc.noPanic
  | notServed env peer r message channel rest e swarm hq _ hs =>
    have hpolled := hc.follows.progress hlen .pollBehaviour rfl rfl hs
    have hallowed : swarm.Allowed (.dropResponder channel) = true := by
      simpa [System.Allowed] using responder_of_poll hq hs
    exact hc.of_swarm (hpolled.progress hlen (.dropResponder channel) rfl hallowed rfl) rfl rfl rfl
      (by simp)
  | fetched env peer r rest k request userName fileName swarm hq hs hawait =>
    exact hc.of_event rfl rfl rfl (hc.correlated.take_getFile hawait.1) lookup_of_erase id
      (hc.follows.fetched hlen hq hs) hc.noPanic
  | swarm label swarm hown hallowed hs =>
    have hfollows := hc.follows.progress hlen label (isSend_of_isOwn hown) hallowed hs
    exact hc.of_swarm hfollows rfl rfl rfl hc.noPanic
  | lost what _ =>
    have hloop := n.close_loop what
    refine hc.of_event (n.close_received what) (n.close_listFilesSent what) (by rw [hloop])
      (hloop ▸ hc.correlated) (fun h => hloop ▸ h) (fun h => hloop ▸ h) (hloop ▸ hc.follows) ?_
    rw [n.close_stopped what]
    exact hc.noPanic
  | dropSwarm _ => exact hc.of_event rfl rfl rfl hc.correlated id id hc.follows hc.noPanic

theorem init (fits : String → Bool) (start : Started config debug) :
    Consistent config debug (nodeMachine fits start).init where
  correlated :=
    .of_index (fun h => by simp [nodeMachine, Started.node, EventLoop.new] at h) .empty .empty
  rendezvous := ⟨start.rendezvousPointPeerId, rfl⟩
  stored h := by simp [nodeMachine, Started.node, EventLoop.new] at h
  distinct := List.nodup_nil
  numbered h := by simp [nodeMachine, Started.node, EventLoop.new] at h
  follows :=
    { run := ⟨start.trace, start.run, Nat.le_of_eq start.noRequest,
        fun h => by simp [nodeMachine, Started.node, EventLoop.new] at h⟩
      outstanding := by
        -- no request was made, so none is pending
        intro r hr
        have hzero : sends start.trace ≤ UInt64.size := start.noRequest ▸ Nat.zero_le _
        have hdrawn : ∃ k < sends start.trace, r = .nth k := by
          rcases hr with ⟨p, hp⟩ | hr
          · exact (run_placed start.run hzero).drawn hp
          · exact (run_answered start.run hzero).drawn r hr
        obtain ⟨k, hk, -⟩ := hdrawn
        rw [start.noRequest] at hk
        exact absurd hk (Nat.not_lt_zero k) }
  noPanic p := by simp [nodeMachine, Started.node]

end Consistent

section Runs

variable {config : FileGetConfig} {debug : Bool} {fits : String → Bool}
  {start : Started config debug} {tr : Trace Node NodeLabel} {n : Node}

/-- **Every reachable node is consistent.** -/
theorem run_consistent (h : (nodeMachine fits start).Run tr n) : Consistent config debug n :=
  h.invariant (I := fun _ n => Consistent config debug n) (.init fits start)
    fun _ hc ha hok => hc.step ha (step_nodeStepped hc.ready ha hok)

/-- The last step of a run, inverted. -/
theorem run_nodeStepped {t : Transition Node NodeLabel}
    (h : (nodeMachine fits start).Run (t :: tr) n) :
    Consistent config debug t.pre ∧ t.pre.Allowed t.label = true ∧
      NodeStepped fits debug t.pre t.label t.post := by
  obtain ⟨hrun, ha, hok, -⟩ := h.tail
  have hc := run_consistent hrun
  exact ⟨hc, ha, step_nodeStepped hc.ready ha hok⟩

/-- **The tables of the loop fit together in every reachable state**, and
no `ResponseReceived` that `FileGet` may emit there makes its handler
panic, in either build. -/
theorem correlation_consistent (h : (nodeMachine fits start).Run tr n) :
    n.loop.Correlated ∧ (∀ p, n.stopped ≠ some (.panic p)) ∧
    ∀ build env peer r,
      .generateEvent (.responseReceived peer r) ∈ n.loop.swarm.fileGet.pendingEvents →
      (n.loop.handleEvent build env (.fileGet (.responseReceived peer r))).ended = none := by
  have hc := run_consistent h
  refine ⟨hc.correlated, hc.noPanic, fun build env peer r hqueued => ?_⟩
  have hmem : r ∈ n.loop.swarm.fileGet.responses :=
    List.mem_filterMap.mpr ⟨_, hqueued, rfl⟩
  obtain ⟨k, request, userName, fileName, hk, hreq, hcmd⟩ := hc.ready.response hmem
  simp only [EventLoop.handleEvent, hk, hreq, hcmd]

end Runs

/-- A node that has just been started, sharing `d`. -/
def Started.fresh (config : FileGetConfig) (debug : Bool) : Started config debug where
  swarm := .init config
  trace := []
  run := .start
  noRequest := rfl
  rendezvousPointPeerId := ⟨1⟩
  sharingDir := [100]

/-- User `u` is discovered at peer 7, then asked for its files and for one
of them; the file comes first. -/
theorem correlation_consistent_fetched : ∃ tr n,
    (nodeMachine (fun _ => true) (Started.fresh ⟨10⟩ true)).Run tr n ∧
    n.loop.pendingListFiles.lookup ⟨0⟩ = some 0 ∧ n.loop.pendingFileGets.lookup (.nth 0) = none ∧
    n.loop.Correlated := by
  obtain ⟨tr, n, hrun, hP⟩ := Machine.exists_run_of_labels
    (M := nodeMachine (fun _ => true) (Started.fresh ⟨10⟩ true))
    [.event (.rendezvous (.discovered [⟨⟨"u"⟩, ⟨7⟩, [⟨"a"⟩]⟩])) (.calm 0),
      .command ⟨0, .listFiles "u", ⟨0⟩⟩ (.calm 0),
      .swarm (.connectionEstablished ⟨7⟩ ⟨1⟩ (.dialer ⟨"a"⟩) false),
      .command ⟨1, .getFile "u" "f", ⟨1⟩⟩ (.calm 1),
      .pollFileGet (.calm 2),
      .swarm (.deliverCommand ⟨1⟩),
      .swarm (.pollHandler ⟨1⟩ 0 0),
      .swarm (.endOutbound ⟨1⟩ 0 (.ok ())),
      .swarm (.pollHandler ⟨1⟩ 0 0),
      .swarm (.deliverEvent ⟨1⟩),
      .pollFileGet (.calm 2)]
    (fun _ n => n.loop.pendingListFiles.lookup ⟨0⟩ = some 0 &&
      n.loop.pendingFileGets.lookup (.nth 0) = none && n.answered.length = 1)
    (by decide) (by decide)
  simp only [Bool.and_eq_true, decide_eq_true_eq] at hP
  exact ⟨tr, n, hrun, hP.1.1, hP.1.2, (correlation_consistent hrun).1⟩

end FileSharing
