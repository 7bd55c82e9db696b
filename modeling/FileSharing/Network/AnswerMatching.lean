/-
FileSharing.Network.AnswerMatching — an answer belongs to its command.

An answer finds its command over two tables, and the responses come back in
any order. `Uncrossed` is the invariant that keeps them apart. It looks at
the record of the run: every entry of the two indexes was made by the step
that handled its command, and every answer given so far is JUSTIFIED by
steps of the run, the one that sent a request for the command and a later
one that brought the response to that request.

The senders of commands are different, a stored command has not been
answered, and answering takes it out of the store; so a sender is used once
at most.
-/
import FileSharing.Network.Correlation

namespace FileSharing

open Lib FileGet

/-! ## What justifies an answer -/

/-- The step handled the command and asked `peer`, which the user name
resolved to, for its files. -/
def AskedForFiles (fits : String → Bool) (request : CommandRequest) (peer : PeerId)
    (i : ListFilesRequestId) (t : Transition Node NodeLabel) : Prop :=
  ∃ env userName, t.label = .command request env ∧ request.command = .listFiles userName ∧
    t.pre.loop.getPeerId fits userName = some peer ∧
    .sendListFiles peer i ∈ (t.pre.loop.handleCommand fits env request).effects

/-- The step handled the response to a `list_files` request. -/
def GotFiles (i : ListFilesRequestId) (fileNames : List String) (t : Transition Node NodeLabel) :
    Prop :=
  ∃ peer env, t.label = .event (.listFiles (.response peer i fileNames)) env

/-- The step handled the command and asked `peer`, which the user name
resolved to, for the file. -/
def AskedForFile (fits : String → Bool) (request : CommandRequest) (peer : PeerId) (r : RequestId)
    (t : Transition Node NodeLabel) : Prop :=
  ∃ env userName fileName, t.label = .command request env ∧
    request.command = .getFile userName fileName ∧
    t.pre.loop.getPeerId fits userName = some peer ∧
    .sendFileGet peer r ∈ (t.pre.loop.handleCommand fits env request).effects

/-- The step handled `ResponseReceived` for a request. -/
def GotFile (r : RequestId) (t : Transition Node NodeLabel) : Prop :=
  ∃ env peer rest, t.label = .pollFileGet env ∧
    t.pre.loop.swarm.fileGet.pendingEvents = .generateEvent (.responseReceived peer r) :: rest

/-- A step with `P`, and a later one with `Q`. -/
def Followed (tr : Trace Node NodeLabel) (P Q : Transition Node NodeLabel → Prop) : Prop :=
  ∃ newer u older, tr = newer ++ u :: older ∧ Q u ∧ ∃ t ∈ older, P t

/-- The result fits the command, and the run has what it reports. -/
def Justified (fits : String → Bool) (tr : Trace Node NodeLabel) (request : CommandRequest) :
    CommandResult → Prop
  | .register => ∃ userName, request.command = .register userName
  | .listPeers _ => request.command = .listPeers
  | .listFiles fileNames =>
    ∃ peer i, Followed tr (AskedForFiles fits request peer i) (GotFiles i fileNames)
  | .getFile userName fileName => request.command = .getFile userName fileName ∧
    ∃ peer r, Followed tr (AskedForFile fits request peer r) (GotFile r)

theorem Followed.cons {tr : Trace Node NodeLabel} {P Q : Transition Node NodeLabel → Prop}
    (h : Followed tr P Q) (t : Transition Node NodeLabel) : Followed (t :: tr) P Q := by
  obtain ⟨newer, u, older, rfl, hu, ht⟩ := h
  exact ⟨t :: newer, u, older, rfl, hu, ht⟩

theorem Justified.cons {fits : String → Bool} {tr : Trace Node NodeLabel}
    {request : CommandRequest} {result : CommandResult} (h : Justified fits tr request result)
    (t : Transition Node NodeLabel) : Justified fits (t :: tr) request result := by
  cases result with
  | register => exact h
  | listPeers userNames => exact h
  | listFiles fileNames =>
    obtain ⟨peer, i, hf⟩ := h
    exact ⟨peer, i, hf.cons t⟩
  | getFile userName fileName =>
    obtain ⟨hcmd, peer, r, hf⟩ := h
    exact ⟨hcmd, peer, r, hf.cons t⟩

/-! ## The commands a discovery answers -/

namespace EventLoop

/-- The stored `ListPeers`, as a discovery answers them. -/
def discoveredBatch (l : EventLoop) (env : Env) : List CommandRequest :=
  ((listPeersKeys env.commandOrder l.pendingCommandRequests).filterMap fun k =>
    l.pendingCommandRequests.lookup k).reverse

theorem mem_discoveredBatch {l : EventLoop} {env : Env} {request : CommandRequest} :
    request ∈ l.discoveredBatch env ↔
      ∃ k, l.pendingCommandRequests.lookup k = some request ∧ request.command = .listPeers := by
  simp only [discoveredBatch, List.mem_reverse, List.mem_filterMap, mem_listPeersKeys]
  constructor
  · rintro ⟨k, ⟨found, hfound, hcmd⟩, hk⟩
    rw [hfound] at hk
    obtain rfl := Option.some.inj hk
    exact ⟨k, hfound, hcmd⟩
  · rintro ⟨k, hk, hcmd⟩
    exact ⟨k, ⟨request, hk, hcmd⟩, hk⟩

/-- No command is answered twice by one discovery: the table is keyed by
the ids of its commands. -/
theorem nodup_discoveredBatch {l : EventLoop} (hl : l.Correlated) (env : Env) :
    (l.discoveredBatch env).Nodup := by
  refine List.nodup_reverse.mpr (List.Nodup.filterMap (fun k k' request hk hk' => ?_)
    (nodup_listPeersKeys env.commandOrder l.pendingCommandRequests))
  exact (hl.keyed (Option.mem_def.mp hk)).symm.trans (hl.keyed (Option.mem_def.mp hk'))

end EventLoop

/-! ## The invariant -/

/-- Answers and commands are not mixed up. -/
structure Uncrossed (fits : String → Bool) (tr : Trace Node NodeLabel) (n : Node) : Prop where
  senders : (n.received.map (·.responseSender)).Nodup
  known : ∀ x ∈ n.answered, x.1 ∈ n.received.map (·.responseSender)
  once : (n.answered.map (·.1)).Nodup
  unanswered : ∀ {k request}, n.loop.pendingCommandRequests.lookup k = some request →
    request.responseSender ∉ n.answered.map (·.1)
  asked : ∀ {i k request}, n.loop.pendingListFiles.lookup i = some k →
    n.loop.pendingCommandRequests.lookup k = some request →
    ∃ t ∈ tr, ∃ peer, AskedForFiles fits request peer i t
  fetching : ∀ {r k request}, n.loop.pendingFileGets.lookup r = some k →
    n.loop.pendingCommandRequests.lookup k = some request →
    ∃ t ∈ tr, ∃ peer, AskedForFile fits request peer r t
  justified : ∀ request ∈ n.received, ∀ response,
    (request.responseSender, .ok response) ∈ n.answered →
    response.commandRequestId = request.commandRequestId ∧
      Justified fits tr request response.result

namespace Uncrossed

variable {config : FileGetConfig} {debug : Bool} {fits : String → Bool}
  {tr : Trace Node NodeLabel} {t : Transition Node NodeLabel}

/-- Two commands with one sender are one. -/
theorem eq_of_sender {n : Node} (hu : Uncrossed fits tr n) {x y : CommandRequest}
    (hx : x ∈ n.received) (hy : y ∈ n.received) (h : x.responseSender = y.responseSender) : x = y :=
  List.inj_on_of_nodup_map hu.senders hx hy h

/-- After a command, which may have been answered at once. -/
theorem of_command (hu : Uncrossed fits tr t.pre) (hc : Consistent config debug t.pre)
    {request : CommandRequest}
    (hsender : request.responseSender ∉ t.pre.received.map (·.responseSender))
    (hreceived : t.post.received = request :: t.pre.received)
    (answer : Option (Except FileSharingError CommandResponse))
    (hanswered : t.post.answered =
      (answer.toList.map fun result => (request.responseSender, result)) ++ t.pre.answered)
    (hstored : ∀ {k found}, t.post.loop.pendingCommandRequests.lookup k = some found →
      t.pre.loop.pendingCommandRequests.lookup k = some found ∨ (found = request ∧ answer = none))
    (hasked : ∀ {i k found}, t.post.loop.pendingListFiles.lookup i = some k →
      t.post.loop.pendingCommandRequests.lookup k = some found →
      (t.pre.loop.pendingListFiles.lookup i = some k ∧
        t.pre.loop.pendingCommandRequests.lookup k = some found) ∨
      ∃ peer, AskedForFiles fits found peer i t)
    (hfetching : ∀ {r k found}, t.post.loop.pendingFileGets.lookup r = some k →
      t.post.loop.pendingCommandRequests.lookup k = some found →
      (t.pre.loop.pendingFileGets.lookup r = some k ∧
        t.pre.loop.pendingCommandRequests.lookup k = some found) ∨
      ∃ peer, AskedForFile fits found peer r t)
    (hjust : ∀ response, answer = some (.ok response) →
      response.commandRequestId = request.commandRequestId ∧
        Justified fits (t :: tr) request response.result) :
    Uncrossed fits (t :: tr) t.post := by
  -- the sender is new: no earlier answer went to it
  have hnew : request.responseSender ∉ t.pre.answered.map (·.1) := by
    intro hmem
    obtain ⟨x, hx, heq⟩ := List.mem_map.mp hmem
    exact hsender (heq ▸ hu.known x hx)
  have hmem : ∀ {x}, x ∈ t.post.answered →
      (∃ result, answer = some result ∧ x = (request.responseSender, result)) ∨
      x ∈ t.pre.answered := by
    intro x hx
    rw [hanswered] at hx
    rcases List.mem_append.mp hx with hx | hx
    · obtain ⟨result, hresult, rfl⟩ := List.mem_map.mp hx
      exact Or.inl ⟨result, Option.mem_toList.mp hresult, rfl⟩
    · exact Or.inr hx
  constructor
  case senders =>
    rw [hreceived]
    exact List.nodup_cons.mpr ⟨hsender, hu.senders⟩
  case known =>
    intro x hx
    rw [hreceived]
    rcases hmem hx with ⟨result, -, rfl⟩ | hx
    · exact List.mem_cons_self
    · exact List.mem_cons_of_mem _ (hu.known x hx)
  case once =>
    rw [hanswered]
    cases answer with
    | none => exact hu.once
    | some result => exact List.nodup_cons.mpr ⟨hnew, hu.once⟩
  case unanswered =>
    intro k found hfound hin
    obtain ⟨x, hx, heq⟩ := List.mem_map.mp hin
    rcases hstored hfound with hold | ⟨rfl, hnone⟩
    · rcases hmem hx with ⟨result, -, rfl⟩ | hx
      · exact hsender (List.mem_map.mpr ⟨found, hc.stored hold, heq.symm⟩)
      · exact hu.unanswered hold (List.mem_map.mpr ⟨x, hx, heq⟩)
    · rcases hmem hx with ⟨result, hresult, rfl⟩ | hx
      · rw [hnone] at hresult
        cases hresult
      · exact hnew (List.mem_map.mpr ⟨x, hx, heq⟩)
  case asked =>
    intro i k found hi hfound
    rcases hasked hi hfound with ⟨hi', hfound'⟩ | ⟨peer, hasked⟩
    · obtain ⟨u, hut, peer, hpeer⟩ := hu.asked hi' hfound'
      exact ⟨u, List.mem_cons_of_mem _ hut, peer, hpeer⟩
    · exact ⟨t, List.mem_cons_self, peer, hasked⟩
  case fetching =>
    intro r k found hr hfound
    rcases hfetching hr hfound with ⟨hr', hfound'⟩ | ⟨peer, hasked⟩
    · obtain ⟨u, hut, peer, hpeer⟩ := hu.fetching hr' hfound'
      exact ⟨u, List.mem_cons_of_mem _ hut, peer, hpeer⟩
    · exact ⟨t, List.mem_cons_self, peer, hasked⟩
  case justified =>
    intro x hx response hresponse
    rw [hreceived] at hx
    rcases hmem hresponse with ⟨result, hresult, heq⟩ | hold
    · obtain ⟨hsame, rfl⟩ := Prod.mk.inj heq
      have hxr : x = request := by
        rcases List.mem_cons.mp hx with hx | hx
        · exact hx
        · exact absurd (List.mem_map.mpr ⟨x, hx, hsame⟩) hsender
      exact hxr ▸ hjust response hresult
    · rcases List.mem_cons.mp hx with rfl | hx
      · exact absurd (List.mem_map.mpr ⟨_, hold, rfl⟩) hnew
      · obtain ⟨hid, hj⟩ := hu.justified x hx response hold
        exact ⟨hid, hj.cons t⟩

/-- After a step that answers some of the stored commands and takes them
out. -/
theorem of_answers (hu : Uncrossed fits tr t.pre) (hc : Consistent config debug t.pre)
    (hreceived : t.post.received = t.pre.received) (batch : List CommandRequest)
    (result : CommandRequest → CommandResult)
    (hbatch : ∀ request ∈ batch, ∃ k,
      t.pre.loop.pendingCommandRequests.lookup k = some request)
    (hnodup : batch.Nodup)
    (hanswered : t.post.answered = (batch.map fun request =>
      (request.responseSender, .ok ⟨request.commandRequestId, result request⟩)) ++ t.pre.answered)
    (hstored : ∀ {k found}, t.post.loop.pendingCommandRequests.lookup k = some found →
      t.pre.loop.pendingCommandRequests.lookup k = some found ∧ found ∉ batch)
    (hasked : ∀ {i k}, t.post.loop.pendingListFiles.lookup i = some k →
      t.pre.loop.pendingListFiles.lookup i = some k)
    (hfetching : ∀ {r k}, t.post.loop.pendingFileGets.lookup r = some k →
      t.pre.loop.pendingFileGets.lookup r = some k)
    (hjust : ∀ request ∈ batch, Justified fits (t :: tr) request (result request)) :
    Uncrossed fits (t :: tr) t.post := by
  have hin : ∀ {request}, request ∈ batch → request ∈ t.pre.received := by
    intro request hrequest
    obtain ⟨k, hk⟩ := hbatch request hrequest
    exact hc.stored hk
  have hmem : ∀ {x}, x ∈ t.post.answered →
      (∃ request ∈ batch,
        x = (request.responseSender, .ok ⟨request.commandRequestId, result request⟩)) ∨
      x ∈ t.pre.answered := by
    intro x hx
    rw [hanswered] at hx
    rcases List.mem_append.mp hx with hx | hx
    · obtain ⟨request, hrequest, rfl⟩ := List.mem_map.mp hx
      exact Or.inl ⟨request, hrequest, rfl⟩
    · exact Or.inr hx
  constructor
  case senders =>
    rw [hreceived]
    exact hu.senders
  case known =>
    intro x hx
    rw [hreceived]
    rcases hmem hx with ⟨request, hrequest, rfl⟩ | hx
    · exact List.mem_map.mpr ⟨request, hin hrequest, rfl⟩
    · exact hu.known x hx
  case once =>
    rw [hanswered, List.map_append, List.map_map]
    refine List.nodup_append.mpr ⟨?_, hu.once, ?_⟩
    · exact hnodup.map_on fun x hx y hy heq => hu.eq_of_sender (hin hx) (hin hy) heq
    · rintro s hs s' hs' rfl
      obtain ⟨request, hrequest, rfl⟩ := List.mem_map.mp hs
      obtain ⟨k, hk⟩ := hbatch request hrequest
      exact hu.unanswered hk hs'
  case unanswered =>
    intro k found hfound
    obtain ⟨hold, hnot⟩ := hstored hfound
    intro hmem'
    obtain ⟨x, hx, heq⟩ := List.mem_map.mp hmem'
    rcases hmem hx with ⟨request, hrequest, rfl⟩ | hx
    · exact hnot (hu.eq_of_sender (hin hrequest) (hc.stored hold) heq ▸ hrequest)
    · exact hu.unanswered hold (List.mem_map.mpr ⟨x, hx, heq⟩)
  case asked =>
    intro i k found hi hfound
    obtain ⟨u, hut, peer, hpeer⟩ := hu.asked (hasked hi) (hstored hfound).1
    exact ⟨u, List.mem_cons_of_mem _ hut, peer, hpeer⟩
  case fetching =>
    intro r k found hr hfound
    obtain ⟨u, hut, peer, hpeer⟩ := hu.fetching (hfetching hr) (hstored hfound).1
    exact ⟨u, List.mem_cons_of_mem _ hut, peer, hpeer⟩
  case justified =>
    intro x hx response hresponse
    rw [hreceived] at hx
    rcases hmem hresponse with ⟨request, hrequest, heq⟩ | hold
    · obtain ⟨hsame, hresponse⟩ := Prod.mk.inj heq
      obtain rfl := hu.eq_of_sender hx (hin hrequest) hsame
      obtain rfl := Except.ok.inj hresponse
      exact ⟨rfl, hjust x hrequest⟩
    · obtain ⟨hid, hj⟩ := hu.justified x hx response hold
      exact ⟨hid, hj.cons t⟩

/-- After a step that answers nothing and stores nothing. -/
theorem of_quiet (hu : Uncrossed fits tr t.pre) (hc : Consistent config debug t.pre)
    (hreceived : t.post.received = t.pre.received) (hanswered : t.post.answered = t.pre.answered)
    (hstored : ∀ {k found}, t.post.loop.pendingCommandRequests.lookup k = some found →
      t.pre.loop.pendingCommandRequests.lookup k = some found)
    (hasked : ∀ {i k}, t.post.loop.pendingListFiles.lookup i = some k →
      t.pre.loop.pendingListFiles.lookup i = some k)
    (hfetching : ∀ {r k}, t.post.loop.pendingFileGets.lookup r = some k →
      t.pre.loop.pendingFileGets.lookup r = some k) :
    Uncrossed fits (t :: tr) t.post :=
  hu.of_answers hc hreceived [] (fun _ => .register) (by simp) List.nodup_nil hanswered
    (fun h => ⟨hstored h, List.not_mem_nil⟩) hasked hfetching (by simp)

/-- An old entry of an index points to an old command. -/
theorem lookup_old {n : Node} (hc : Consistent config debug n) {request : CommandRequest}
    (hnew : request.commandRequestId ∉ n.received.map (·.commandRequestId))
    {ι : Type} [DecidableEq ι] {P : CommandRequest → Prop} {index : HashMap ι UInt64}
    (hindex : Index P n.loop.pendingCommandRequests index) {i : ι} {k : UInt64}
    (hi : index.lookup i = some k) {found : CommandRequest}
    (h : (n.loop.store request).pendingCommandRequests.lookup k = some found) :
    n.loop.pendingCommandRequests.lookup k = some found := by
  have hne : k ≠ request.commandRequestId := by
    rintro rfl
    exact hindex.ne_of_lookup_none (hc.lookup_new hnew) hi
  exact (lookup_store_ne hne).symm.trans h

/-- The entries of an index after a command is stored with its own. -/
theorem entry_cases {n : Node} (hc : Consistent config debug n) {request : CommandRequest}
    (hnew : request.commandRequestId ∉ n.received.map (·.commandRequestId))
    {ι : Type} [DecidableEq ι] {P : CommandRequest → Prop} {index : HashMap ι UInt64}
    (hindex : Index P n.loop.pendingCommandRequests index) {i j : ι} {k : UInt64}
    (hi : (index.insert j request.commandRequestId).lookup i = some k) {found : CommandRequest}
    (h : (n.loop.store request).pendingCommandRequests.lookup k = some found) :
    (index.lookup i = some k ∧ n.loop.pendingCommandRequests.lookup k = some found) ∨
      (i = j ∧ found = request) := by
  rw [lookup_insert_ite] at hi
  split at hi
  · rename_i heq
    obtain rfl := Option.some.inj hi
    rw [lookup_store_self] at h
    exact Or.inr ⟨heq, (Option.some.inj h).symm⟩
  · exact Or.inl ⟨hi, lookup_old hc hnew hindex hi h⟩

/-- After a command that is stored. -/
theorem of_stored (hu : Uncrossed fits tr t.pre) (hc : Consistent config debug t.pre)
    {request : CommandRequest}
    (hsender : request.responseSender ∉ t.pre.received.map (·.responseSender))
    (hreceived : t.post.received = request :: t.pre.received)
    (hanswered : t.post.answered = t.pre.answered)
    (hpending : t.post.loop.pendingCommandRequests =
      (t.pre.loop.store request).pendingCommandRequests)
    (hasked : ∀ {i k found}, t.post.loop.pendingListFiles.lookup i = some k →
      (t.pre.loop.store request).pendingCommandRequests.lookup k = some found →
      (t.pre.loop.pendingListFiles.lookup i = some k ∧
        t.pre.loop.pendingCommandRequests.lookup k = some found) ∨
      ∃ peer, AskedForFiles fits found peer i t)
    (hfetching : ∀ {r k found}, t.post.loop.pendingFileGets.lookup r = some k →
      (t.pre.loop.store request).pendingCommandRequests.lookup k = some found →
      (t.pre.loop.pendingFileGets.lookup r = some k ∧
        t.pre.loop.pendingCommandRequests.lookup k = some found) ∨
      ∃ peer, AskedForFile fits found peer r t) : Uncrossed fits (t :: tr) t.post := by
  refine hu.of_command hc hsender hreceived none hanswered (fun {k found} h => ?_)
    (fun hi h => hasked hi (hpending ▸ h)) (fun hr h => hfetching hr (hpending ▸ h)) (by simp)
  rw [hpending] at h
  rcases lookup_of_insert h with h | h
  · exact Or.inl h
  · exact Or.inr ⟨h, rfl⟩

/-- After a discovery. -/
theorem of_discovered (hu : Uncrossed fits tr t.pre) (hc : Consistent config debug t.pre)
    (env : Env) (registrations : List Registration)
    (hreceived : t.post.received = t.pre.received)
    (hloop : t.post.loop = t.pre.loop.discovered env registrations)
    (hanswered : t.post.answered =
      (t.pre.loop.discoveredAnswers env registrations).reverse ++ t.pre.answered) :
    Uncrossed fits (t :: tr) t.post := by
  refine hu.of_answers hc hreceived (t.pre.loop.discoveredBatch env) (fun _ => .listPeers
      ((env.namespaceOrder.order (EventLoop.insertRegistrations t.pre.loop.namespacePeers
        registrations).keys).map (·.name)))
    (fun request h => ?_) (EventLoop.nodup_discoveredBatch hc.correlated env) ?_
    (fun {k found} h => ?_) (fun h => ?_) (fun h => ?_) fun request h => ?_
  · obtain ⟨k, hk, -⟩ := EventLoop.mem_discoveredBatch.mp h
    exact ⟨k, hk⟩
  · rw [hanswered]
    simp only [EventLoop.discoveredAnswers, EventLoop.discoveredBatch, List.map_reverse,
      List.map_filterMap]
    rfl
  · rw [hloop] at h
    rcases EventLoop.Correlated.discovered_lookup (l := t.pre.loop) env registrations k with
      ⟨heq, hother⟩ | ⟨hnone, -⟩
    · rw [heq] at h
      refine ⟨h, fun hbatch => ?_⟩
      obtain ⟨k', -, hcmd⟩ := EventLoop.mem_discoveredBatch.mp hbatch
      exact hother found h hcmd
    · rw [hnone] at h
      cases h
  · rw [hloop] at h
    exact h
  · rw [hloop] at h
    exact h
  · obtain ⟨k, -, hcmd⟩ := EventLoop.mem_discoveredBatch.mp h
    exact hcmd

/-- After an answer to one stored command, which is taken out. -/
theorem of_answer (hu : Uncrossed fits tr t.pre) (hc : Consistent config debug t.pre)
    {k : UInt64} {request : CommandRequest} {result : CommandResult}
    (hk : t.pre.loop.pendingCommandRequests.lookup k = some request)
    (hreceived : t.post.received = t.pre.received)
    (hpending : t.post.loop.pendingCommandRequests = t.pre.loop.pendingCommandRequests.erase k)
    (hanswered : t.post.answered = (request.responseSender, .ok ⟨k, result⟩) :: t.pre.answered)
    (hasked : ∀ {i k}, t.post.loop.pendingListFiles.lookup i = some k →
      t.pre.loop.pendingListFiles.lookup i = some k)
    (hfetching : ∀ {r k}, t.post.loop.pendingFileGets.lookup r = some k →
      t.pre.loop.pendingFileGets.lookup r = some k)
    (hjust : Justified fits (t :: tr) request result) : Uncrossed fits (t :: tr) t.post := by
  have hid := hc.correlated.keyed hk
  refine hu.of_answers hc hreceived [request] (fun _ => result) ?_ (List.nodup_singleton _) ?_
    (fun {k' found} h => ?_) hasked hfetching ?_
  · intro x hx
    obtain rfl := List.mem_singleton.mp hx
    exact ⟨k, hk⟩
  · rw [hanswered, ← hid]
    rfl
  · rw [hpending, lookup_erase_ite] at h
    split at h
    · cases h
    · rename_i hne
      refine ⟨h, fun hx => hne ?_⟩
      obtain rfl := List.mem_singleton.mp hx
      exact (hc.correlated.keyed h).symm.trans hid
  · intro x hx
    obtain rfl := List.mem_singleton.mp hx
    exact hjust

/-- **A step keeps answers and commands apart.** -/
theorem step (hu : Uncrossed fits tr t.pre) (hc : Consistent config debug t.pre)
    (ha : t.pre.Allowed t.label = true) (h : NodeStepped fits debug t.pre t.label t.post) :
    Uncrossed fits (t :: tr) t.post := by
  obtain ⟨n, label, n'⟩ := t
  dsimp only at hu hc ha h
  cases h with
  | failed request env e _ =>
    obtain ⟨-, -, hsender, -⟩ := Node.allowed_command ha
    exact hu.of_command hc hsender rfl none rfl Or.inl (fun hi h => Or.inl ⟨hi, h⟩)
      (fun hr h => Or.inl ⟨hr, h⟩) (by simp)
  | answered request env result hresult =>
    obtain ⟨-, -, hsender, -⟩ := Node.allowed_command ha
    refine hu.of_command hc hsender rfl (some result) rfl Or.inl (fun hi h => Or.inl ⟨hi, h⟩)
      (fun hr h => Or.inl ⟨hr, h⟩) fun response heq => ?_
    obtain rfl := Option.some.inj heq
    unfold EventLoop.AnsweredAtOnce at hresult
    cases hcmd : request.command with
    | register userName =>
      simp only [hcmd, Except.ok.injEq] at hresult
      subst hresult
      exact ⟨rfl, userName, hcmd⟩
    | listPeers => simp [hcmd] at hresult
    | listFiles userName => simp [hcmd] at hresult
    | getFile userName fileName => simp [hcmd] at hresult
  | listPeers request env node hcmd _ =>
    obtain ⟨-, hnew, hsender, -⟩ := Node.allowed_command ha
    exact hu.of_stored hc hsender rfl rfl rfl
      (fun hi h => Or.inl ⟨hi, lookup_old hc hnew hc.correlated.listFiles hi h⟩)
      (fun hr h => Or.inl ⟨hr, lookup_old hc hnew hc.correlated.fileGets hr h⟩)
  | listFiles request env userName peer hcmd hpeer =>
    obtain ⟨-, hnew, hsender, -⟩ := Node.allowed_command ha
    refine hu.of_stored hc hsender rfl rfl rfl (fun hi h => ?_)
      (fun hr h => Or.inl ⟨hr, lookup_old hc hnew hc.correlated.fileGets hr h⟩)
    rcases entry_cases hc hnew hc.correlated.listFiles hi h with h | ⟨rfl, rfl⟩
    · exact Or.inl h
    · refine Or.inr ⟨peer, env, userName, rfl, hcmd, hpeer, ?_⟩
      simp [EventLoop.handleCommand, hcmd, hpeer]
  | getFile request env userName fileName peer writer fileGet r hcmd hpeer hs hopen =>
    obtain ⟨-, hnew, hsender, -⟩ := Node.allowed_command ha
    refine hu.of_stored hc hsender rfl rfl rfl
      (fun hi h => Or.inl ⟨hi, lookup_old hc hnew hc.correlated.listFiles hi h⟩) (fun hr h => ?_)
    rcases entry_cases hc hnew hc.correlated.fileGets hr h with h | ⟨rfl, rfl⟩
    · exact Or.inl h
    · refine Or.inr ⟨peer, env, userName, fileName, rfl, hcmd, hpeer, ?_⟩
      simp [EventLoop.handleCommand, hcmd, hopen, hpeer, hs]
  | quiet event env _ _ _ =>
    have hloop := n.settle_loop event
    exact hu.of_quiet hc (n.settle_received event) (n.settle_answered event) (fun h => hloop ▸ h)
      (fun h => hloop ▸ h) fun h => hloop ▸ h
  | notListed peer channel env e _ =>
    exact hu.of_quiet hc rfl rfl (fun h => h) (fun h => h) fun h => h
  | discovered registrations env => exact hu.of_discovered hc env registrations rfl rfl rfl
  | listed peer i fileNames env k request hi hk =>
    obtain ⟨u, hut, asked, hasked⟩ := hu.asked hi hk
    refine hu.of_answer hc hk rfl rfl rfl lookup_of_erase (fun h => h) ?_
    exact ⟨asked, i, [], _, tr, rfl, ⟨peer, env, rfl⟩, u, hut, hasked⟩
  | polled env swarm hs _ _ =>
    exact hu.of_quiet hc rfl rfl (fun h => h) (fun h => h) fun h => h
  | served env peer r message channel rest file swarm hq _ hs =>
    exact hu.of_quiet hc rfl rfl (fun h => h) (fun h => h) fun h => h
  | notServed env peer r message channel rest e swarm hq _ hs =>
    exact hu.of_quiet hc rfl rfl (fun h => h) (fun h => h) fun h => h
  | fetched env peer r rest k request userName fileName swarm hq hs hawait =>
    obtain ⟨hr, hk, hcmd⟩ := hawait
    obtain ⟨u, hut, asked, hasked⟩ := hu.fetching hr hk
    refine hu.of_answer hc hk rfl rfl rfl (fun h => h) lookup_of_erase ⟨hcmd, ?_⟩
    exact ⟨asked, r, [], _, tr, rfl, ⟨env, peer, rest, rfl, hq⟩, u, hut, hasked⟩
  | swarm label swarm hown hallowed hs =>
    exact hu.of_quiet hc rfl rfl (fun h => h) (fun h => h) fun h => h
  | lost what _ =>
    have hloop := n.close_loop what
    exact hu.of_quiet hc (n.close_received what) (n.close_answered what) (fun h => hloop ▸ h)
      (fun h => hloop ▸ h) fun h => hloop ▸ h
  | dropSwarm _ => exact hu.of_quiet hc rfl rfl (fun h => h) (fun h => h) fun h => h

end Uncrossed

section Runs

variable {config : FileGetConfig} {debug : Bool} {fits : String → Bool}
  {start : Started config debug} {tr : Trace Node NodeLabel} {n : Node}

/-- Answers and commands are apart in every reachable state. -/
theorem run_uncrossed (h : (nodeMachine fits start).Run tr n) : Uncrossed fits tr n := by
  induction tr generalizing n with
  | nil =>
    cases h
    constructor <;> simp [nodeMachine, Started.node, EventLoop.new]
  | cons t tr ih =>
    obtain ⟨hc, ha, hstep⟩ := run_nodeStepped h
    obtain ⟨hrun, -, -, rfl⟩ := h.tail
    exact (ih hrun).step hc ha hstep

/-- **Answers never cross.** In every reachable state each sender has been
used once at most, and what was sent with `Ok` on the sender of a command
carries the command's id and a result the run justifies: of the command's
kind, with the file names of the response to the request that its handling
sent, or after the response to the request that its handling sent. -/
theorem answers_never_cross (h : (nodeMachine fits start).Run tr n) :
    (n.answered.map (·.1)).Nodup ∧
    ∀ request ∈ n.received, ∀ response,
      (request.responseSender, .ok response) ∈ n.answered →
      response.commandRequestId = request.commandRequestId ∧
        Justified fits tr request response.result :=
  ⟨(run_uncrossed h).once, (run_uncrossed h).justified⟩

end Runs

/-- Two peers are asked for their files and answer in the other order; the
two lists are not mixed up. -/
theorem answers_never_cross_swapped : ∃ tr n,
    (nodeMachine (fun _ => true) (Started.fresh ⟨10⟩ true)).Run tr n ∧
    n.received = [⟨1, .listFiles "v", ⟨1⟩⟩, ⟨0, .listFiles "u", ⟨0⟩⟩] ∧
    n.answered.map (·.1) = [⟨0⟩, ⟨1⟩] ∧
    ∀ request ∈ n.received, ∀ response,
      (request.responseSender, .ok response) ∈ n.answered →
      response.commandRequestId = request.commandRequestId ∧
        Justified (fun _ => true) tr request response.result := by
  obtain ⟨tr, n, hrun, hP⟩ := Machine.exists_run_of_labels
    (M := nodeMachine (fun _ => true) (Started.fresh ⟨10⟩ true))
    [.event (.rendezvous (.discovered [⟨⟨"u"⟩, ⟨7⟩, [⟨"a"⟩]⟩, ⟨⟨"v"⟩, ⟨8⟩, [⟨"b"⟩]⟩])) (.calm 0),
      .command ⟨0, .listFiles "u", ⟨0⟩⟩ (.calm 0),
      .command ⟨1, .listFiles "v", ⟨1⟩⟩ (.calm 1),
      .event (.listFiles (.response ⟨8⟩ ⟨1⟩ ["g"])) (.calm 2),
      .event (.listFiles (.response ⟨7⟩ ⟨0⟩ ["f"])) (.calm 2)]
    (fun _ n => n.received = [⟨1, .listFiles "v", ⟨1⟩⟩, ⟨0, .listFiles "u", ⟨0⟩⟩] &&
      n.answered.map (·.1) = [⟨0⟩, ⟨1⟩])
    (by decide) (by decide)
  simp only [Bool.and_eq_true, decide_eq_true_eq] at hP
  exact ⟨tr, n, hrun, hP.1, hP.2, (answers_never_cross hrun).2⟩

end FileSharing
