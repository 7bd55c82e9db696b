/-
FileSharing.Network.Answers — is every command answered, or can it still
be?

`Client::send_command` waits for the answer and unwraps it, so a command
whose sender is dropped unused panics the client, and one that is kept
with nothing left to answer it hangs it. `Accounted` says that neither is
the case: the command is answered, or it is stored and what it waits for
is under way and can still come.

The loop does NOT keep this. A command that fails with `Err` takes all
pending commands down with it; a failed discover, a failed `list_files`
request and a failed file transfer are logged or ignored and their
commands stay stored for ever. Nor does it notice what no event tells it:
a discover that is lost with its connection, a request whose connection
task is over. `Harmless` names the steps that do none of that, and
`commands_accounted` says that these are all: in a run of harmless steps
every command is accounted for, all the time.
-/
import FileSharing.FileGet.StrandedRequests
import FileSharing.Network.Resilience

namespace FileSharing

open Lib FileGet

namespace Node

/-- What the command waits for is under way and can still come: a discover,
the response to a `list_files` request, a file. -/
def Outstanding (n : Node) (request : CommandRequest) : Prop :=
  match request.command with
  | .register _ => False
  | .listPeers => 0 < n.discovers
  | .listFiles _ => ∃ i peer,
      n.loop.pendingListFiles.lookup i = some request.commandRequestId ∧
      (i, peer) ∈ n.listFilesOpen
  | .getFile _ _ => ∃ r, n.loop.pendingFileGets.lookup r = some request.commandRequestId ∧
      n.loop.swarm.CanFetch r

/-- The command is answered, or it is stored and can be. -/
def Accounted (n : Node) (request : CommandRequest) : Prop :=
  (∃ result, (request.responseSender, result) ∈ n.answered) ∨
  (n.stopped = none ∧
    n.loop.pendingCommandRequests.lookup request.commandRequestId = some request ∧
    n.Outstanding request)

/-- A command of the given kind is stored. -/
def HasPending (n : Node) (P : CommandRequest → Prop) : Prop :=
  ∃ k request, n.loop.pendingCommandRequests.lookup k = some request ∧ P request

/-- Where the command is sent, somebody is there to answer it: the
rendezvous point can be reached, the peer is not cut off, the connection has
a task. -/
def FindsTask (fits : String → Bool) (n : Node) (request : CommandRequest) : Prop :=
  match request.command with
  | .register _ => True
  | .listPeers => ∀ node, n.loop.rendezvousPointPeerId = some node →
      n.loop.swarm.reaches node = true
  | .listFiles userName => ∀ peer, n.loop.getPeerId fits userName = some peer →
      n.loop.swarm.cutOff peer = false
  | .getFile userName _ => ∀ peer, n.loop.getPeerId fits userName = some peer →
      n.loop.swarm.HandsToTask peer

/-- The step of the swarm ends no task that something a command waits for
depends on: the last one that leads to the rendezvous point or to the peer
asked for its files, the one that fetches a file. -/
structure SparesTasks (n : Node) (label : Label) : Prop where
  discover : ∀ node, n.HasPending (fun request => request.command = .listPeers) →
    n.loop.rendezvousPointPeerId = some node → ¬ EndsLast n.loop.swarm node label
  listFiles : ∀ i peer k, n.loop.pendingListFiles.lookup i = some k →
    (i, peer) ∈ n.listFilesOpen → ¬ EndsLast n.loop.swarm peer label
  fileGet : ∀ r k, n.loop.pendingFileGets.lookup r = some k → ¬ Strands n.loop.swarm r label

/-- The step takes nothing away that a command waits for, and does not stop
the loop while a command waits. -/
def Harmless (fits : String → Bool) (n : Node) : NodeLabel → Prop
  | .command request env =>
    ¬ EventLoop.CommandFails fits env n.loop request ∧ n.FindsTask fits request
  | .event (.rendezvous .discoverFailed) _ =>
    n.HasPending (fun request => request.command = .listPeers) → 1 < n.discovers
  | .event (.listFiles (.outboundFailure _ i)) _ => n.loop.pendingListFiles.lookup i = none
  | .event event env => n.HasPending (fun _ => True) → n.loop.IoSucceeds env event
  | .pollFileGet env => ∀ event rest,
      n.loop.swarm.fileGet.pendingEvents = .generateEvent event :: rest →
      n.HasPending (fun _ => True) → n.loop.IoSucceeds env (.fileGet event)
  | .swarm label => ¬ FailsRequest n.loop.swarm label ∧ n.SparesTasks label
  | .lost .discover => n.HasPending (fun request => request.command = .listPeers) → 1 < n.discovers
  | .lost (.listFiles i) => n.loop.pendingListFiles.lookup i = none
  | .dropSwarm => True

variable {n n' : Node} {request : CommandRequest}

/-- A command received earlier has another id. -/
theorem ne_of_new (hnew : request.commandRequestId ∉ n.received.map (·.commandRequestId))
    {x : CommandRequest} (hx : x ∈ n.received) : x.commandRequestId ≠ request.commandRequestId :=
  fun heq => hnew (List.mem_map.mpr ⟨x, hx, heq⟩)

/-- What keeps a command accounted for. -/
theorem Accounted.keep (h : n.Accounted request)
    (hanswered : ∀ x ∈ n.answered, x ∈ n'.answered) (hstopped : n'.stopped = n.stopped)
    (hstored : n.loop.pendingCommandRequests.lookup request.commandRequestId = some request →
      n.Outstanding request → n'.Accounted request ∨
        n'.loop.pendingCommandRequests.lookup request.commandRequestId = some request ∧
          n'.Outstanding request) :
    n'.Accounted request := by
  rcases h with ⟨result, hresult⟩ | ⟨hstop, hlook, hout⟩
  · exact Or.inl ⟨result, hanswered _ hresult⟩
  · rcases hstored hlook hout with h | ⟨hlook', hout'⟩
    · exact h
    · exact Or.inr ⟨hstopped.trans hstop, hlook', hout'⟩

/-- When nothing is stored, everything is answered. -/
theorem Accounted.of_none (h : n.Accounted request)
    (hanswered : ∀ x ∈ n.answered, x ∈ n'.answered) (hnone : ¬ n.HasPending fun _ => True) :
    n'.Accounted request := by
  rcases h with ⟨result, hresult⟩ | ⟨-, hlook, -⟩
  · exact Or.inl ⟨result, hanswered _ hresult⟩
  · exact absurd ⟨_, request, hlook, trivial⟩ hnone

/-- What keeps a command's answer under way. -/
theorem Outstanding.mono (h : n.Outstanding request)
    (hdiscover : request.command = .listPeers → 0 < n.discovers → 0 < n'.discovers)
    (hlist : ∀ i peer, n.loop.pendingListFiles.lookup i = some request.commandRequestId →
      (i, peer) ∈ n.listFilesOpen →
        n'.loop.pendingListFiles.lookup i = some request.commandRequestId ∧
          (i, peer) ∈ n'.listFilesOpen)
    (hfetch : ∀ r, n.loop.pendingFileGets.lookup r = some request.commandRequestId →
      n.loop.swarm.CanFetch r →
        n'.loop.pendingFileGets.lookup r = some request.commandRequestId ∧
          n'.loop.swarm.CanFetch r) : n'.Outstanding request := by
  unfold Outstanding at h ⊢
  cases hcmd : request.command with
  | register userName => simp [hcmd] at h
  | listPeers =>
    simp only [hcmd] at h ⊢
    exact hdiscover hcmd h
  | listFiles userName =>
    simp only [hcmd] at h ⊢
    obtain ⟨i, peer, hi, hopen⟩ := h
    exact ⟨i, peer, hlist i peer hi hopen⟩
  | getFile userName fileName =>
    simp only [hcmd] at h ⊢
    obtain ⟨r, hr, hcan⟩ := h
    exact ⟨r, hfetch r hr hcan⟩

end Node

/-! ## What is in flight -/

/-- Discovers are in flight only while the rendezvous point can be reached,
and `list_files` requests only to peers that are not cut off. -/
structure InReach (n : Node) : Prop where
  discovers : ∀ node, n.loop.rendezvousPointPeerId = some node → 0 < n.discovers →
    n.loop.swarm.reaches node = true
  listFiles : ∀ x ∈ n.listFilesOpen, n.loop.swarm.cutOff x.2 = false

section Reach

variable {config : FileGetConfig} {debug : Bool} {fits : String → Bool} {n n' : Node}
  {swarm : System}

/-- What the swarm does at the loop's bidding ends no task. -/
theorem InReach.of_step (h : InReach n) (hm : Mirror n.loop.swarm) {label : Label}
    (htarget : label.target? = none) (ha : n.loop.swarm.Allowed label = true)
    (hs : n.loop.swarm.step debug label = .ok swarm) :
    InReach { n with loop := n.loop.withSwarm swarm } where
  discovers node hnode hpos :=
    reaches_after hm (step_stepped hm ha hs) (h.discovers node hnode hpos)
      (not_endsLast_of_target htarget)
  listFiles x hx :=
    not_cutOff_after hm (step_stepped hm ha hs) (h.listFiles x hx) (not_endsLast_of_target htarget)

/-- Requests that are done with are in flight no more. -/
theorem InReach.close (h : InReach n) (what : Lost) : InReach (n.close what) := by
  cases what with
  | discover =>
    refine ⟨?_, h.listFiles⟩
    intro node hnode hpos
    have hmore : 0 < n.discovers - 1 := hpos
    exact h.discovers node hnode (Nat.lt_of_lt_of_le hmore (Nat.sub_le _ _))
  | listFiles i => exact ⟨h.discovers, fun x hx => h.listFiles x (List.mem_of_mem_filter hx)⟩

theorem InReach.settle (h : InReach n) (event : SwarmEvent) : InReach (n.settle event) := by
  unfold Node.settle
  split
  · exact h.close _
  · exact h.close _
  · exact h.close _
  · exact h.close _
  · exact h

theorem InReach.step {a : NodeLabel} (h : InReach n) (hc : Consistent config debug n)
    (hstep : NodeStepped fits debug n a n') : InReach n' := by
  have hm := hc.follows.mirror
  cases hstep with
  | failed _ _ _ _ | answered _ _ _ _ | notListed _ _ _ _ _ | getFile _ _ _ _ _ _ _ _ _ _ _ _
  | dropSwarm _ => exact ⟨h.discovers, h.listFiles⟩
  | listPeers request env node hcmd hnode =>
    refine ⟨fun node' hnode' hpos => ?_, h.listFiles⟩
    obtain rfl : node = node' := Option.some.inj (hnode.symm.trans hnode')
    by_cases hreach : n.loop.swarm.reaches node = true
    · exact hreach
    · have heq : (n.discover node).discovers = n.discovers := if_neg hreach
      exact h.discovers node hnode (heq ▸ hpos)
  | listFiles request env userName peer hcmd _ =>
    refine ⟨h.discovers, fun x hx => ?_⟩
    by_cases hcut : n.loop.swarm.cutOff peer = true
    · have heq : (n.sendListFiles peer env.listFilesId).listFilesOpen = n.listFilesOpen :=
        if_pos hcut
      exact h.listFiles x (heq ▸ hx)
    · have heq : (n.sendListFiles peer env.listFilesId).listFilesOpen =
          (env.listFilesId, peer) :: n.listFilesOpen := if_neg hcut
      rcases List.mem_cons.mp (heq ▸ hx) with rfl | hold
      · exact Bool.eq_false_of_not_eq_true hcut
      · exact h.listFiles x hold
  | quiet event env _ _ _ => exact h.settle event
  | discovered registrations env =>
    have hclose := h.close .discover
    exact ⟨hclose.discovers, hclose.listFiles⟩
  | listed peer i fileNames env k request hi hk =>
    have hclose := h.close (.listFiles i)
    exact ⟨hclose.discovers, hclose.listFiles⟩
  | lost what _ => exact h.close what
  | polled env swarm hs _ _ => exact h.of_step hm rfl rfl hs
  | fetched env peer r rest k request userName fileName swarm hq hs hawait =>
    have hpolled := h.of_step hm rfl rfl hs
    exact ⟨hpolled.discovers, hpolled.listFiles⟩
  | served env peer r message channel rest file swarm hq _ hs =>
    have hpolled := h.of_step hm rfl rfl hs
    have hallowed : swarm.Allowed (.respond channel file) = true := by
      simpa [System.Allowed] using responder_of_poll hq hs
    have hsend : swarm.step debug (.respond channel file) =
        .ok (swarm.sendReader channel file) := rfl
    exact hpolled.of_step (hm.step (step_stepped hm rfl hs)) rfl hallowed hsend
  | notServed env peer r message channel rest e swarm hq ho hs =>
    have hpolled := h.of_step hm rfl rfl hs
    have hallowed : swarm.Allowed (.dropResponder channel) = true := by
      simpa [System.Allowed] using responder_of_poll hq hs
    have hdrop : swarm.step debug (.dropResponder channel) = .ok (swarm.dropSender channel) := rfl
    have hdropped := hpolled.of_step (hm.step (step_stepped hm rfl hs)) rfl hallowed hdrop
    exact ⟨hdropped.discovers, hdropped.listFiles⟩
  | swarm label swarm hown hallowed hs =>
    -- what is out of reach is lost in this very step
    constructor
    · intro node hnode hpos
      by_contra hreach
      have hnode' : n.loop.rendezvousPointPeerId = some node := hnode
      have hzero : (n.withSwarm swarm).discovers = 0 := by
        unfold Node.withSwarm
        dsimp only
        rw [hnode', Option.any_some]
        exact if_neg hreach
      omega
    · intro x hx
      show swarm.cutOff x.2 = false
      simpa using (List.mem_filter.mp hx).2

theorem run_inReach {start : Started config debug} {tr : Trace Node NodeLabel}
    (h : (nodeMachine fits start).Run tr n) : InReach n := by
  induction tr generalizing n with
  | nil =>
    cases h
    exact ⟨fun _ _ hpos => absurd hpos (Nat.lt_irrefl 0), fun _ hx => by cases hx⟩
  | cons t tr ih =>
    obtain ⟨hc, -, hstep⟩ := run_nodeStepped h
    obtain ⟨hrun, -, -, rfl⟩ := h.tail
    exact (ih hrun).step hc hstep

end Reach

/-! ## Commands -/

section Steps

variable {config : FileGetConfig} {debug : Bool} {fits : String → Bool} {n n' : Node}

/-- A file that can come can come after a step of the swarm, too. -/
theorem canFetch_step (hc : Consistent config debug n) {label : Label} {swarm : System}
    (ha : n.loop.swarm.Allowed label = true) (hs : n.loop.swarm.step debug label = .ok swarm)
    (hsend : label.isSend = false) (hno : ¬ FailsRequest n.loop.swarm label) {r : RequestId}
    (hspares : ¬ Strands n.loop.swarm r label)
    (hout : ∀ action rest, label = .pollBehaviour →
      n.loop.swarm.fileGet.pendingEvents = action :: rest → action.response? ≠ some r)
    (hcan : n.loop.swarm.CanFetch r) : swarm.CanFetch r := by
  have hm := hc.follows.mirror
  refine canFetch_after hm ha (step_stepped hm ha hs) hno hspares hcan (fun q hret => ?_) hout
  obtain ⟨m, w, hlabel, -⟩ := (returned_eq_some hm).mp hret
  dsimp only at hlabel
  rw [hlabel] at hsend
  cases hsend

/-- The loop has polled `FileGet`, and no response came out. -/
theorem accounted_polled (hc : Consistent config debug n) {swarm : System}
    (hs : n.loop.swarm.step debug .pollBehaviour = .ok swarm)
    (hout : ∀ action rest, n.loop.swarm.fileGet.pendingEvents = action :: rest →
      action.response? = none) {request : CommandRequest} (h : n.Accounted request) :
    Node.Accounted { n with loop := n.loop.withSwarm swarm } request := by
  refine h.keep (fun _ => id) rfl fun hlook ho => Or.inr ⟨hlook, ?_⟩
  refine ho.mono (fun _ => id) (fun _ _ hi hopen => ⟨hi, hopen⟩) fun r hr hcan => ⟨hr, ?_⟩
  refine canFetch_step hc rfl hs rfl id (not_strands_of_target rfl) ?_ hcan
  intro action rest _ hq
  simp [hout action rest hq]

/-- A reader is sent. -/
theorem accounted_served (hc : Consistent config debug n) {channel : ChannelId}
    {file : FileReader} (hresponder : channel ∈ n.loop.swarm.responders)
    {request : CommandRequest} (h : n.Accounted request) :
    Node.Accounted { n with loop := n.loop.withSwarm (n.loop.swarm.sendReader channel file) }
      request := by
  have ha : n.loop.swarm.Allowed (.respond channel file) = true := by
    simpa [System.Allowed] using hresponder
  refine h.keep (fun _ => id) rfl fun hlook ho => Or.inr ⟨hlook, ?_⟩
  refine ho.mono (fun _ => id) (fun _ _ hi hopen => ⟨hi, hopen⟩) fun r hr hcan => ⟨hr, ?_⟩
  exact canFetch_step hc ha rfl rfl id (not_strands_of_target rfl)
    (fun _ _ hl => by cases hl) hcan

/-- The swarm goes on by itself. -/
theorem accounted_swarm (hc : Consistent config debug n) (hreach : InReach n) {label : Label}
    {swarm : System} (hown : Node.isOwn label = false) (ha : n.loop.swarm.Allowed label = true)
    (hs : n.loop.swarm.step debug label = .ok swarm) (hno : ¬ FailsRequest n.loop.swarm label)
    (hspares : n.SparesTasks label) {request : CommandRequest} (h : n.Accounted request) :
    (n.withSwarm swarm).Accounted request := by
  have hm := hc.follows.mirror
  have hstep := step_stepped hm ha hs
  refine h.keep (fun _ => id) rfl fun hlook ho => Or.inr ⟨hlook, ?_⟩
  refine ho.mono (fun hcmd hpos => ?_) (fun i peer hi hopen => ⟨hi, ?_⟩) fun r hr hcan => ⟨hr, ?_⟩
  · obtain ⟨node, hnode⟩ := hc.rendezvous
    have hlast := hspares.discover node ⟨_, request, hlook, hcmd⟩ hnode
    have hafter := reaches_after hm hstep (hreach.discovers node hnode hpos) hlast
    have hkept : (n.withSwarm swarm).discovers = n.discovers := by
      simp [Node.withSwarm, hnode, hafter]
    exact hkept ▸ hpos
  · have hlast := hspares.listFiles i peer _ hi hopen
    have hafter := not_cutOff_after hm hstep (hreach.listFiles _ hopen) hlast
    exact List.mem_filter.mpr ⟨hopen, by simp [hafter]⟩
  · refine canFetch_step hc ha hs (isSend_of_isOwn hown) hno (hspares.fileGet r _ hr)
      (fun action rest hl => ?_) hcan
    subst hl
    cases hown

/-- A `ListFiles` is sent on its way. -/
theorem accounted_listFiles (hc : Consistent config debug n) {request x : CommandRequest}
    {peer : PeerId} {i : ListFilesRequestId} (hi : i ∉ n.listFilesSent)
    (hne : x.commandRequestId ≠ request.commandRequestId) (h : n.Accounted x) :
    Node.Accounted { n.sendListFiles peer i with
      loop := { n.loop.store request with
        pendingListFiles := n.loop.pendingListFiles.insert i request.commandRequestId }
      received := request :: n.received } x := by
  refine h.keep (fun _ => id) rfl fun hlook ho => Or.inr ⟨(lookup_store_ne hne).trans hlook, ?_⟩
  refine ho.mono (fun _ => id) (fun j p hj hopen => ⟨?_, ?_⟩) fun _ hr hcan => ⟨hr, hcan⟩
  · have hji : j ≠ i := fun heq => hi (heq ▸ hc.numbered hj)
    exact (lookup_insert_ite _ _ _ _).trans ((if_neg hji).trans hj)
  · unfold Node.sendListFiles
    dsimp only
    split
    · exact hopen
    · exact List.mem_cons_of_mem _ hopen

section Send

variable {p : PeerId} {message : FileGetMessage} {writer : FileWriter} {fileGet : FileGet}
  {r : RequestId}

/-- Sending a request is a step of the swarm. -/
theorem sendRequest_stepped {s : System} (hm : Mirror s)
    (hs : s.fileGet.sendRequest p message writer = .ok (fileGet, r)) :
    Stepped s (.sendRequest p message writer) { s with fileGet := fileGet } := by
  have hok : s.step true (.sendRequest p message writer) = .ok { s with fileGet := fileGet } := by
    simp [System.step, hs, bind, Except.bind]
  exact step_stepped hm rfl hok

/-- The request just sent can be answered. -/
theorem sendRequest_canFetch (hc : Consistent config debug n)
    (hs : n.loop.swarm.fileGet.sendRequest p message writer = .ok (fileGet, r))
    (hfresh : n.loop.pendingFileGets.lookup r = none) (hnext : n.loop.swarm.HandsToTask p) :
    System.CanFetch { n.loop.swarm with fileGet := fileGet } r := by
  have hm := hc.follows.mirror
  have hret : returned ⟨n.loop.swarm, .sendRequest p message writer,
      { n.loop.swarm with fileGet := fileGet }⟩ = some (p, r) := by
    simp [returned, hs]
  refine ⟨Or.inl ⟨p, pending_of_returned (t := ⟨n.loop.swarm, _, _⟩) hm
    (sendRequest_stepped hm hs) hret⟩, not_stranded_of_sent hm hs (fun q d hw => ?_) hnext⟩
  obtain ⟨k, hk⟩ := hc.follows.outstanding (Or.inl ⟨q, Or.inr ⟨d, hw⟩⟩)
  rw [hfresh] at hk
  cases hk

/-- A `GetFile` is sent on its way. -/
theorem accounted_getFile (hc : Consistent config debug n) {request x : CommandRequest}
    (hfresh : n.loop.pendingFileGets.lookup r = none)
    (hs : n.loop.swarm.fileGet.sendRequest p message writer = .ok (fileGet, r))
    (hne : x.commandRequestId ≠ request.commandRequestId) (h : n.Accounted x) :
    Node.Accounted { n.receive request with
      loop := { n.loop.store request with
        swarm := { n.loop.swarm with fileGet := fileGet }
        pendingFileGets := n.loop.pendingFileGets.insert r request.commandRequestId } } x := by
  have hm := hc.follows.mirror
  refine h.keep (fun _ => id) rfl fun hlook ho => Or.inr ⟨(lookup_store_ne hne).trans hlook, ?_⟩
  refine ho.mono (fun _ => id) (fun _ _ hi hopen => ⟨hi, hopen⟩) fun y hy hcan => ?_
  have hyr : y ≠ r := by
    rintro rfl
    rw [hfresh] at hy
    cases hy
  refine ⟨(lookup_insert_ite _ _ _ _).trans ((if_neg hyr).trans hy), ?_⟩
  refine canFetch_after hm rfl (sendRequest_stepped hm hs) id (not_strands_of_target rfl) hcan
    (fun q hret => ?_) fun _ _ hpoll => by cases hpoll
  simp only [returned, hs, Option.some.injEq, Prod.mk.injEq] at hret
  exact hyr hret.2.symm

end Send

/-- A request to another behaviour is done with, and no command waits for
it, or another one does as well. -/
theorem accounted_close {what : Lost} (hdiscover : what = .discover →
      n.HasPending (fun request => request.command = .listPeers) → 1 < n.discovers)
    (hlist : ∀ i, what = .listFiles i → n.loop.pendingListFiles.lookup i = none)
    {x : CommandRequest} (h : n.Accounted x) : (n.close what).Accounted x := by
  cases what with
  | discover =>
    refine h.keep (fun _ => id) rfl fun hlook ho => Or.inr ⟨hlook, ?_⟩
    refine ho.mono (fun hcmd _ => ?_) (fun _ _ hi hopen => ⟨hi, hopen⟩)
      fun _ hr hcan => ⟨hr, hcan⟩
    have hmore : 1 < n.discovers := hdiscover rfl ⟨_, x, hlook, hcmd⟩
    exact Nat.sub_pos_of_lt hmore
  | listFiles i =>
    refine h.keep (fun _ => id) rfl fun hlook ho => Or.inr ⟨hlook, ?_⟩
    refine ho.mono (fun _ => id) (fun j p hj hopen => ⟨hj, ?_⟩) fun _ hr hcan => ⟨hr, hcan⟩
    have hji : j ≠ i := by
      rintro rfl
      rw [hlist _ rfl] at hj
      cases hj
    exact List.mem_filter.mpr ⟨hopen, by simpa using hji⟩

/-- An event that only settles what is in flight. -/
theorem accounted_quiet {event : SwarmEvent} {env : Env} (hh : n.Harmless fits (.event event env))
    (hnd : ∀ registrations, event ≠ .rendezvous (.discovered registrations))
    (hnr : ∀ peer i fileNames, event = .listFiles (.response peer i fileNames) →
      n.loop.pendingListFiles.lookup i = none)
    {x : CommandRequest} (h : n.Accounted x) : (n.settle event).Accounted x := by
  cases event with
  | rendezvous event =>
    cases event with
    | discovered registrations => exact absurd rfl (hnd registrations)
    | discoverFailed => exact accounted_close (fun _ => hh) (by simp) h
    | registered _ _ _ | registerFailed | expired _ => exact h
  | listFiles event =>
    cases event with
    | response peer i fileNames =>
      refine accounted_close (by simp) (fun j hj => ?_) h
      exact Lost.listFiles.inj hj ▸ hnr peer i fileNames rfl
    | outboundFailure peer i =>
      refine accounted_close (by simp) (fun j hj => ?_) h
      exact Lost.listFiles.inj hj ▸ hh
    | request _ _ | inboundFailure _ | responseSent _ => exact h
  | newListenAddr _ | fileGet _ | other => exact h

/-- A discovery answers every stored `ListPeers`. -/
theorem accounted_discovered (registrations : List Registration) (env : Env) {x : CommandRequest}
    (h : n.Accounted x) :
    Node.Accounted { n.close .discover with
      loop := n.loop.discovered env registrations
      answered := (n.loop.discoveredAnswers env registrations).reverse ++ n.answered } x := by
  refine h.keep (fun _ => List.mem_append_right _) rfl fun hlook ho => ?_
  by_cases hcmd : x.command = .listPeers
  · obtain ⟨result, hresult⟩ := EventLoop.exists_discoveredAnswer hlook hcmd env registrations
    exact Or.inl (Or.inl ⟨result, List.mem_append_left _ (List.mem_reverse.mpr hresult)⟩)
  · right
    constructor
    · rcases EventLoop.Correlated.discovered_lookup (l := n.loop) env registrations
        x.commandRequestId with ⟨heq, -⟩ | ⟨-, found, hf, hfound⟩
      · exact heq.trans hlook
      · rw [hlook] at hf
        obtain rfl := Option.some.inj hf
        exact absurd hfound hcmd
    · exact ho.mono (fun h => absurd h hcmd) (fun _ _ hi hopen => ⟨hi, hopen⟩)
        fun _ hr hcan => ⟨hr, hcan⟩

/-- A `ListFiles` gets its answer. -/
theorem accounted_listed {i : ListFilesRequestId} {k : UInt64} {request : CommandRequest}
    (hi : n.loop.pendingListFiles.lookup i = some k)
    (hk : n.loop.pendingCommandRequests.lookup k = some request)
    (result : Except FileSharingError CommandResponse) {x : CommandRequest} (h : n.Accounted x) :
    Node.Accounted { n.close (.listFiles i) with
      loop := { n.loop.take k with pendingListFiles := n.loop.pendingListFiles.erase i }
      answered := (request.responseSender, result) :: n.answered } x := by
  refine h.keep (fun _ => List.mem_cons_of_mem _) rfl fun hlook ho => ?_
  by_cases hxk : x.commandRequestId = k
  · rw [hxk, hk] at hlook
    obtain rfl := Option.some.inj hlook
    exact Or.inl (Or.inl ⟨result, List.mem_cons_self⟩)
  · refine Or.inr ⟨(lookup_erase_ite _ _ _).trans ((if_neg hxk).trans hlook), ?_⟩
    refine ho.mono (fun _ => id) (fun j p hj hopen => ?_) fun _ hr hcan => ⟨hr, hcan⟩
    have hji : j ≠ i := by
      rintro rfl
      rw [hi] at hj
      exact hxk (Option.some.inj hj).symm
    exact ⟨(lookup_erase_ite _ _ _).trans ((if_neg hji).trans hj),
      List.mem_filter.mpr ⟨hopen, by simpa using hji⟩⟩

/-- A `GetFile` gets its answer. -/
theorem accounted_fetched (hc : Consistent config debug n) {peer : PeerId} {r : RequestId}
    {rest : List NetworkBehaviourAction} {k : UInt64} {request : CommandRequest}
    {userName fileName : String} {swarm : System}
    (hq : n.loop.swarm.fileGet.pendingEvents = .generateEvent (.responseReceived peer r) :: rest)
    (hs : n.loop.swarm.step debug .pollBehaviour = .ok swarm)
    (hawait : n.loop.Awaits r k request userName fileName)
    (result : Except FileSharingError CommandResponse) {x : CommandRequest} (h : n.Accounted x) :
    Node.Accounted { n with
      loop := { (n.loop.withSwarm swarm).take k with
        pendingFileGets := n.loop.pendingFileGets.erase r }
      answered := (request.responseSender, result) :: n.answered } x := by
  obtain ⟨hr, hk, -⟩ := hawait
  have hm := hc.follows.mirror
  refine h.keep (fun _ => List.mem_cons_of_mem _) rfl fun hlook ho => ?_
  by_cases hxk : x.commandRequestId = k
  · rw [hxk, hk] at hlook
    obtain rfl := Option.some.inj hlook
    exact Or.inl (Or.inl ⟨result, List.mem_cons_self⟩)
  · refine Or.inr ⟨(lookup_erase_ite _ _ _).trans ((if_neg hxk).trans hlook), ?_⟩
    refine ho.mono (fun _ => id) (fun _ _ hi hopen => ⟨hi, hopen⟩) fun y hy hcan => ?_
    have hyr : y ≠ r := by
      rintro rfl
      rw [hr] at hy
      exact hxk (Option.some.inj hy).symm
    refine ⟨(lookup_erase_ite _ _ _).trans ((if_neg hyr).trans hy), ?_⟩
    refine canFetch_step hc rfl hs rfl id (not_strands_of_target rfl)
      (fun action rest' _ hq' hresp => ?_) hcan
    rw [hq] at hq'
    obtain ⟨rfl, -⟩ := List.cons.inj hq'
    exact hyr (Option.some.inj hresp).symm

/-- **A harmless step keeps every command accounted for.** -/
theorem accounted_step {a : NodeLabel} (hc : Consistent config debug n) (hreach : InReach n)
    (ha : n.Allowed a = true) (hh : n.Harmless fits a) (h : NodeStepped fits debug n a n')
    (hacc : ∀ request ∈ n.received, n.Accounted request) :
    ∀ request ∈ n'.received, n'.Accounted request := by
  intro x hx
  cases h with
  | failed request env e hfail => exact absurd hfail hh.1
  | answered request env result _ =>
    rcases List.mem_cons.mp hx with rfl | hx
    · exact Or.inl ⟨result, List.mem_cons_self⟩
    · exact (hacc x hx).keep (fun _ => List.mem_cons_of_mem _) rfl fun hlook ho =>
        Or.inr ⟨hlook, ho⟩
  | listPeers request env node hcmd hnode =>
    obtain ⟨hstop, hnew, -⟩ := Node.allowed_command ha
    have hfinds : n.loop.swarm.reaches node = true := by
      have := hh.2
      simp only [Node.FindsTask, hcmd] at this
      exact this node hnode
    have hdiscover : (n.discover node).discovers = n.discovers + 1 := if_pos hfinds
    rcases List.mem_cons.mp hx with rfl | hx
    · refine Or.inr ⟨hstop, lookup_store_self n.loop x, ?_⟩
      simp [Node.Outstanding, hcmd, hdiscover]
    · have hne := Node.ne_of_new hnew hx
      refine (hacc x hx).keep (fun _ => id) rfl fun hlook ho =>
        Or.inr ⟨(lookup_store_ne hne).trans hlook, ?_⟩
      exact ho.mono (fun _ _ => by simp [hdiscover]) (fun _ _ hi hopen => ⟨hi, hopen⟩)
        fun _ hr hcan => ⟨hr, hcan⟩
  | listFiles request env userName peer hcmd hpeer =>
    obtain ⟨hstop, hnew, -, hid⟩ := Node.allowed_command ha
    have hfinds : n.loop.swarm.cutOff peer = false := by
      have := hh.2
      simp only [Node.FindsTask, hcmd] at this
      exact this peer hpeer
    rcases List.mem_cons.mp hx with rfl | hx
    · refine Or.inr ⟨hstop, lookup_store_self n.loop x, ?_⟩
      simp only [Node.Outstanding, hcmd]
      refine ⟨env.listFilesId, peer, (lookup_insert_ite _ _ _ _).trans (if_pos rfl), ?_⟩
      simp [Node.sendListFiles, hfinds]
    · exact accounted_listFiles hc hid (Node.ne_of_new hnew hx) (hacc x hx)
  | getFile request env userName fileName peer writer fileGet r hcmd hpeer hs =>
    obtain ⟨hstop, hnew, -⟩ := Node.allowed_command ha
    have hfinds : n.loop.swarm.HandsToTask peer := by
      have := hh.2
      simp only [Node.FindsTask, hcmd] at this
      exact this peer hpeer
    have hfresh := hc.follows.fresh (hc.length_lt hnew) hs
    rcases List.mem_cons.mp hx with rfl | hx
    · refine Or.inr ⟨hstop, lookup_store_self n.loop x, ?_⟩
      simp only [Node.Outstanding, hcmd]
      exact ⟨r, (lookup_insert_ite _ _ _ _).trans (if_pos rfl),
        sendRequest_canFetch hc hs hfresh hfinds⟩
    · exact accounted_getFile hc hfresh hs (Node.ne_of_new hnew hx) (hacc x hx)
  | quiet event env _ hnd hnr =>
    rw [n.settle_received event] at hx
    exact accounted_quiet hh hnd hnr (hacc x hx)
  | notListed peer channel env e hd =>
    -- the loop stops, so nothing may be pending
    refine (hacc x hx).of_none (fun _ => id) fun hpending => ?_
    obtain ⟨fileNames, hok⟩ := (EventLoop.ioSucceeds_request env n.loop peer channel).mp
      (hh hpending)
    rw [hd] at hok
    cases hok
  | discovered registrations env => exact accounted_discovered registrations env (hacc x hx)
  | listed peer i fileNames env k request hi hk => exact accounted_listed hi hk _ (hacc x hx)
  | polled env swarm hs hnone _ => exact accounted_polled hc hs hnone (hacc x hx)
  | served env peer r message channel rest file swarm hq _ hs =>
    have hpolled := accounted_polled hc hs (fun action rest' hq' => by
      rw [hq] at hq'
      obtain ⟨rfl, -⟩ := List.cons.inj hq'
      rfl) (hacc x hx)
    have hc' : Consistent config debug { n with loop := n.loop.withSwarm swarm } :=
      hc.of_swarm (hc.follows.progress hc.length_le .pollBehaviour rfl rfl hs) rfl rfl rfl
        hc.noPanic
    exact accounted_served hc' (responder_of_poll hq hs) hpolled
  | notServed env peer r message channel rest e swarm hq ho hs =>
    refine (hacc x hx).of_none (fun _ => id) fun hpending => ?_
    obtain ⟨file, hok⟩ := hh _ rest hq hpending
    rw [ho] at hok
    cases hok
  | fetched env peer r rest k request userName fileName swarm hq hs hawait =>
    exact accounted_fetched hc hq hs hawait _ (hacc x hx)
  | swarm label swarm hown hallowed hs =>
    exact accounted_swarm hc hreach hown hallowed hs hh.1 hh.2 (hacc x hx)
  | lost what _ =>
    rw [n.close_received what] at hx
    refine accounted_close ?_ ?_ (hacc x hx)
    · rintro rfl
      exact hh
    · rintro i rfl
      exact hh
  | dropSwarm hstop =>
    -- a loop that has stopped has answered everything
    rcases hacc x hx with hans | ⟨hrun, -⟩
    · exact Or.inl hans
    · exact absurd hrun hstop

end Steps

/-! ## Whole runs -/

/-- **In a run of harmless steps every command is answered or can be.** -/
theorem commands_accounted {config : FileGetConfig} {debug : Bool} {fits : String → Bool}
    {start : Started config debug} {tr : Trace Node NodeLabel} {n : Node}
    (h : (nodeMachine fits start).Run tr n) (hh : ∀ t ∈ tr, t.pre.Harmless fits t.label) :
    ∀ request ∈ n.received, n.Accounted request := by
  induction tr generalizing n with
  | nil =>
    cases h
    intro request hrequest
    simp [nodeMachine, Started.node] at hrequest
  | cons t tr ih =>
    obtain ⟨hc, ha, hstep⟩ := run_nodeStepped h
    obtain ⟨hrun, -, -, rfl⟩ := h.tail
    have hacc := ih hrun fun u hu => hh u (List.mem_cons_of_mem _ hu)
    exact accounted_step hc (run_inReach hrun) ha (hh t List.mem_cons_self) hstep hacc

/-- Labels that are seen to be harmless at once. -/
def NodeLabel.isHarmless (fits : String → Bool) (n : Node) : NodeLabel → Bool
  | .command ⟨_, .listPeers, _⟩ _ => n.loop.rendezvousPointPeerId.all n.loop.swarm.reaches
  | .command ⟨_, .listFiles userName, _⟩ _ =>
    (n.loop.getPeerId fits userName).all fun peer => !n.loop.swarm.cutOff peer
  | .event (.rendezvous (.discovered _)) _ => true
  | .event (.listFiles (.response _ _ _)) _ => true
  | .swarm (.connectionEstablished _ _ _ _) => true
  | _ => false

theorem NodeLabel.harmless_of_isHarmless {fits : String → Bool} {n : Node} {a : NodeLabel}
    (h : a.isHarmless fits n = true) : n.Harmless fits a := by
  unfold isHarmless at h
  split at h
  · refine ⟨id, fun node hnode => ?_⟩
    simpa [hnode] using h
  · refine ⟨id, fun peer hpeer => ?_⟩
    simpa [hpeer] using h
  · exact fun _ => trivial
  · exact fun _ => trivial
  · exact ⟨id, fun _ _ _ => not_endsLast_of_target rfl, fun _ _ _ _ _ => not_endsLast_of_target rfl,
      fun _ _ _ => not_strands_of_target rfl⟩
  · cases h

/-- One command is answered, one waits for its list of files. -/
theorem commands_accounted_listing : ∃ tr n,
    (nodeMachine (fun _ => true) (Started.fresh ⟨10⟩ true)).Run tr n ∧
    n.received = [⟨1, .listFiles "u", ⟨1⟩⟩, ⟨0, .listPeers, ⟨0⟩⟩] ∧
    ∀ request ∈ n.received, n.Accounted request := by
  obtain ⟨tr, n, hrun, hP⟩ := Machine.exists_run_of_labels
    (M := nodeMachine (fun _ => true) (Started.fresh ⟨10⟩ true))
    [.swarm (.connectionEstablished ⟨1⟩ ⟨0⟩ (.dialer ⟨"r"⟩) false),
      .command ⟨0, .listPeers, ⟨0⟩⟩ (.calm 0),
      .event (.rendezvous (.discovered [⟨⟨"u"⟩, ⟨7⟩, [⟨"a"⟩]⟩])) (.calm 0),
      .command ⟨1, .listFiles "u", ⟨1⟩⟩ (.calm 0)]
    (fun tr n => n.received = [⟨1, .listFiles "u", ⟨1⟩⟩, ⟨0, .listPeers, ⟨0⟩⟩] &&
      tr.all fun t => t.label.isHarmless (fun _ => true) t.pre)
    (by decide) (by decide)
  simp only [Bool.and_eq_true, decide_eq_true_eq, List.all_eq_true] at hP
  refine ⟨tr, n, hrun, hP.1, commands_accounted hrun fun t ht => ?_⟩
  exact NodeLabel.harmless_of_isHarmless (hP.2 t ht)

/-- The peer asked for its files cannot be reached: the command stays
stored, and nothing is left that could answer it. -/
theorem unreachable_peer_not_accounted : ∃ tr n,
    (nodeMachine (fun _ => true) (Started.fresh ⟨10⟩ true)).Run tr n ∧
    ∃ request ∈ n.received, ¬ n.Accounted request := by
  obtain ⟨tr, n, hrun, hP⟩ := Machine.exists_run_of_labels
    (M := nodeMachine (fun _ => true) (Started.fresh ⟨10⟩ true))
    [.event (.rendezvous (.discovered [⟨⟨"u"⟩, ⟨7⟩, [⟨"a"⟩]⟩])) (.calm 0),
      .command ⟨0, .listFiles "u", ⟨0⟩⟩ (.calm 0),
      .event (.listFiles (.outboundFailure ⟨7⟩ ⟨0⟩)) (.calm 0)]
    (fun _ n => n.received = [⟨0, .listFiles "u", ⟨0⟩⟩] && n.answered.isEmpty &&
      n.listFilesOpen.isEmpty)
    (by decide) (by decide)
  simp only [Bool.and_eq_true, decide_eq_true_eq, List.isEmpty_iff] at hP
  obtain ⟨⟨hreceived, hanswered⟩, hopen⟩ := hP
  refine ⟨tr, n, hrun, ⟨0, .listFiles "u", ⟨0⟩⟩, by rw [hreceived]; exact List.mem_cons_self, ?_⟩
  rintro (⟨result, hresult⟩ | ⟨-, -, i, peer, -, hi⟩)
  · rw [hanswered] at hresult
    cases hresult
  · rw [hopen] at hi
    cases hi

end FileSharing
