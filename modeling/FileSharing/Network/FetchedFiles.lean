/-
FileSharing.Network.FetchedFiles — what the answer to a `GetFile` says.

`AnswerMatching` finds two steps of the loop behind it: the one that asked
`FileGet`, and the one that handled its `ResponseReceived`. `Fetches` finds
two steps of `FileGet`'s side of the swarm behind a `ResponseReceived`. The
four are on one string, for an id is returned once (`returned_inj`): the
upgrade that returned `Ok` is for the file that the command names and for
the writer that was opened for it, on a connection to the peer that the
user name stood for when the command was handled.
-/
import FileSharing.FileGet.Fetches
import FileSharing.Network.Startup

namespace FileSharing

open Lib FileGet

variable {config : FileGetConfig} {debug : Bool} {fits : String → Bool}
  {start : Started config debug} {tr : Trace Node NodeLabel} {n : Node}

/-- In this step of the node the upgrade of the request returns `Ok`, on a
connection to the peer. -/
def FetchesFile (p : PeerId) (request : FileGetOutboundProtocol) (t : Transition Node NodeLabel) :
    Prop :=
  ∃ l ∈ t.pre.loop.swarm.links, l.peer = p ∧
    ∃ i, t.label = .swarm (.endOutbound l.id i (.ok ())) ∧
      l.outbound[i]? = some ⟨request, request.requestId⟩

/-- The step handled the command with the user and the file that it names:
the file is open for writing, the user name stands for the peer, and the id
of the request to `FileGet` is that of the upgrade. -/
def SendsFileGet (fits : String → Bool) (request : CommandRequest) (p : PeerId)
    (protocol : FileGetOutboundProtocol) (t : Transition Node NodeLabel) : Prop :=
  ∃ env userName, t.label = .command request env ∧
    request.command = .getFile userName protocol.fileName ∧
    t.pre.loop.getPeerId fits userName = some p ∧
    env.openWrite (Path.push t.pre.loop.sharingDir (utf8 protocol.fileName)) =
      .ok protocol.fileWriter ∧
    .sendFileGet p protocol.requestId ∈ (t.pre.loop.handleCommand fits env request).effects

/-- The one step of `FileGet` that such a step is. -/
theorem AskedForFile.shows (debug : Bool) {request : CommandRequest} {peer : PeerId} {r : RequestId}
    {t : Transition Node NodeLabel} (h : AskedForFile fits request peer r t) :
    ∃ protocol x, protocol.requestId = r ∧ SendsFileGet fits request peer protocol t ∧
      fileGetSteps fits debug t = [x] ∧
      x.label = .sendRequest peer ⟨protocol.fileName⟩ protocol.fileWriter ∧
      returned x = some (peer, r) := by
  obtain ⟨env, userName, fileName, hlabel, hcmd, hpeer, heffect⟩ := h
  have hhandled := EventLoop.handleCommand_handled fits env t.pre.loop request
  have hsent := heffect
  generalize t.pre.loop.handleCommand fits env request = handled at heffect hhandled
  cases hhandled with
  | getFile userName' fileName' writer peer' fileGet r' hcmd' hopen hpeer' hsend =>
    rw [hcmd] at hcmd'
    obtain ⟨rfl, rfl⟩ := Command.getFile.inj hcmd'
    have hr : peer = peer' ∧ r = r' := by simpa using heffect
    obtain ⟨rfl, rfl⟩ := hr
    have hrequest : t.pre.fileGetRequest? fits request env = some (peer, ⟨fileName⟩, writer) := by
      simp [Node.fileGetRequest?, hcmd, hopen, hpeer]
    refine ⟨⟨r, fileName, writer⟩, ⟨t.pre.loop.swarm, .sendRequest peer ⟨fileName⟩ writer,
      t.post.loop.swarm⟩, rfl, ⟨env, userName, hlabel, hcmd, hpeer, hopen, hsent⟩, ?_, rfl, ?_⟩
    · unfold fileGetSteps
      simp only [hlabel, hrequest]
    · simp [returned, hsend]
  | _ => simp at heffect

/-- The older part of a run has made no more requests. -/
theorem sends_part_le (h : (nodeMachine fits start).Run tr n) {newer older : Trace Node NodeLabel}
    (htr : tr = newer ++ older) :
    sends ((nodeDrives fits start).part older) ≤ n.received.length := by
  refine Nat.le_trans ?_ (run_sends_le h)
  rw [htr, nodeDrives_part_append, sends_append]
  exact Nat.le_add_left _ _

/-- The id that a command gets was not returned before. -/
theorem AskedForFile.new {newer older : Trace Node NodeLabel} {u : Transition Node NodeLabel}
    (h : (nodeMachine fits start).Run (newer ++ u :: older) n)
    (hn : sends ((nodeDrives fits start).part (u :: older)) ≤ UInt64.size)
    {request : CommandRequest} {peer q : PeerId} {r : RequestId}
    (hasked : AskedForFile fits request peer r u) {y : Transition System Label}
    (hy : y ∈ (nodeDrives fits start).part older) : returned y ≠ some (q, r) := by
  obtain ⟨protocol, x, -, -, hshows, -, hret⟩ := hasked.shows debug
  have hrun := (nodeDrives fits start).run (h.of_suffix (List.suffix_append newer _)) trivial
  have hpart : (nodeDrives fits start).part (u :: older) =
      x :: (nodeDrives fits start).part older := by
    rw [Drives.part_cons]
    show fileGetSteps fits debug u ++ _ = _
    rw [hshows]
    rfl
  rw [hpart] at hrun hn
  exact returned_new hrun hn hret y hy

/-- A command that got the id of an older request is older than what came
after that request. -/
theorem AskedForFile.older {newer older : Trace Node NodeLabel}
    {v u : Transition Node NodeLabel} (h : (nodeMachine fits start).Run (newer ++ v :: older) n)
    (hn : sends ((nodeDrives fits start).part (newer ++ v :: older)) ≤ UInt64.size)
    {a : Label} (hv : v.label = .swarm a) {request : CommandRequest} {peer q : PeerId}
    {r : RequestId} (hasked : AskedForFile fits request peer r u) (hu : u ∈ newer ++ v :: older)
    {y : Transition System Label} (hy : y ∈ (nodeDrives fits start).part older)
    (hret : returned y = some (q, r)) : u ∈ older := by
  rcases List.mem_append.mp hu with hu | hu
  · obtain ⟨c, d, rfl⟩ := List.append_of_mem hu
    rw [List.append_assoc, List.cons_append] at h hn
    rw [nodeDrives_part_append, sends_append] at hn
    have hmem : y ∈ (nodeDrives fits start).part (d ++ v :: older) := by
      rw [nodeDrives_part_append, Drives.part_cons]
      simp [hy]
    exact absurd hret (hasked.new h (Nat.le_trans (Nat.le_add_left _ _) hn) hmem)
  · rcases List.mem_cons.mp hu with rfl | hu
    · obtain ⟨env, userName, fileName, hcommand, -⟩ := hasked
      rw [hv] at hcommand
      cases hcommand
    · exact hu

/-- Where a step of the swarm by itself is in the record of the node. -/
theorem suffix_swarm {x : Transition System Label} {before : Trace System Label}
    (h : x :: before <:+ (nodeDrives fits start).part tr) (hown : Node.isOwn x.label = false) :
    (∃ newer v older, tr = newer ++ v :: older ∧ v.label = .swarm x.label ∧
      v.pre.loop.swarm = x.pre ∧ before = (nodeDrives fits start).part older) ∨
    x :: before <:+ start.trace := by
  rcases Drives.part_suffix _ h with ⟨newer, v, older, a, b, rfl, hshows, hb⟩ | hbefore
  · have hv : v.label = .swarm x.label :=
      node_of_taken (hshows ▸ List.mem_append_right a List.mem_cons_self) hown
    have hone : [⟨v.pre.loop.swarm, x.label, v.post.loop.swarm⟩] = a ++ x :: b :=
      (fileGetSteps_swarm hv).symm.trans hshows
    refine .inl ⟨newer, v, older, rfl, hv, ?_⟩
    cases a with
    | nil =>
      obtain ⟨hhead, rfl⟩ := List.cons.inj hone
      exact ⟨congrArg Transition.pre hhead, hb⟩
    | cons z a => simp at hone
  · exact .inr hbefore

/-- The answer to a command is of its kind, and names the same user and
file. -/
theorem command_of_answered (h : (nodeMachine fits start).Run tr n) {request : CommandRequest}
    (hreq : request ∈ n.received) {response : CommandResponse}
    (hans : (request.responseSender, .ok response) ∈ n.answered) {userName fileName : String}
    (hresult : response.result = .getFile userName fileName) :
    request.command = .getFile userName fileName := by
  obtain ⟨-, hjust⟩ := (run_uncrossed h).justified request hreq response hans
  rw [hresult] at hjust
  exact hjust.1

/-- The upgrade behind an answer, and the step that asked for it. -/
theorem fetched_of_answered (h : (nodeMachine fits start).Run tr n)
    (hn : n.received.length < UInt64.size) {request : CommandRequest}
    (hreq : request ∈ n.received) {response : CommandResponse}
    (hans : (request.responseSender, .ok response) ∈ n.answered) {userName fileName : String}
    (hresult : response.result = .getFile userName fileName) :
    ∃ newer v middle u older peer protocol, tr = newer ++ v :: (middle ++ u :: older) ∧
      protocol.fileName = fileName ∧ SendsFileGet fits request peer protocol u ∧
      FetchesFile peer protocol v := by
  obtain ⟨-, hjust⟩ := (run_uncrossed h).justified request hreq response hans
  rw [hresult] at hjust
  obtain ⟨hcmd, peer, r, newer, t, older, rfl, ⟨env, q, rest, hpoll, hqueue⟩, u, hu, hasked⟩ :=
    hjust
  -- the run of `FileGet` up to the response
  have hrun := h.of_append.1
  have hinner := (nodeDrives fits start).run hrun trivial
  have hsends := Nat.lt_of_le_of_lt (sends_part_le h (List.append_cons newer t older)) hn
  obtain ⟨protocol, hid, x, before, hsuffix, ⟨l, hl, hpeer, i, hlabel, hsub⟩, y, hy, hylabel,
    hyret⟩ := (run_fetching hinner hsends).queued q r (hqueue ▸ List.mem_cons_self)
  rcases suffix_swarm hsuffix (by rw [hlabel]; rfl) with
    ⟨newer', v, before', rfl, hv, hpre, rfl⟩ | hbefore
  · have hold := hasked.older hrun (Nat.le_of_lt hsends) hv hu hy (hid ▸ hyret)
    obtain ⟨c, d, rfl⟩ := List.append_of_mem hold
    -- it is the same request to `FileGet`
    obtain ⟨protocol', z, hzid, hsent, hshows, hzlabel, hzret⟩ := hasked.shows debug
    have hzu : z ∈ fileGetSteps fits debug u := by simp [hshows]
    have hz : z ∈ (nodeDrives fits start).part (c ++ u :: d) := by
      rw [nodeDrives_part_append, Drives.part_cons]
      exact List.mem_append_right _ (List.mem_append_left _ hzu)
    have hpart : ∀ w ∈ (nodeDrives fits start).part (c ++ u :: d),
        w ∈ (nodeDrives fits start).part (newer' ++ v :: (c ++ u :: d)) := by
      intro w hw
      rw [nodeDrives_part_append, Drives.part_cons]
      exact List.mem_append_right _ (List.mem_append_right _ hw)
    obtain ⟨rfl, rfl⟩ : q = peer ∧ protocol = protocol' :=
      requested_inj hinner (Nat.le_of_lt hsends) ⟨y, hpart y hy, hylabel, hyret⟩
        ⟨z, hpart z hz, hzlabel, hzid ▸ hzret⟩ (hid.trans hzid.symm)
    obtain ⟨env', userName', hcommand, hcmd', hfacts⟩ := hsent
    rw [hcmd] at hcmd'
    obtain ⟨rfl, hname⟩ := Command.getFile.inj hcmd'
    refine ⟨newer ++ t :: newer', v, c, u, d, q, protocol, by simp, hname.symm, ?_, ?_⟩
    · exact ⟨env', userName, hcommand, hname ▸ hcmd, hfacts⟩
    · exact ⟨l, hpre ▸ hl, hpeer, i, hlabel ▸ hv, hsub⟩
  · -- `init` has made no request
    have hmem : y ∈ start.trace := hbefore.subset (List.mem_cons_of_mem _ hy)
    have hnone := List.countP_eq_zero.mp start.noRequest y hmem
    rw [hylabel] at hnone
    exact absurd rfl hnone

/-- **An answered `GetFile` was fetched.** Behind the answer `Ok` there is
the step that handled the command, with the local file open for writing and
the user name standing for a peer, and after it the step in which the upgrade
for just that file name and that local file returned `Ok`, on a connection to
that peer. -/
theorem answered_getFile_was_fetched (h : (nodeMachine fits start).Run tr n)
    (hn : n.received.length < UInt64.size) {request : CommandRequest}
    (hreq : request ∈ n.received) {response : CommandResponse}
    (hans : (request.responseSender, .ok response) ∈ n.answered) {userName fileName : String}
    (hresult : response.result = .getFile userName fileName) :
    request.command = .getFile userName fileName ∧
    ∃ newer v middle u older peer protocol, tr = newer ++ v :: (middle ++ u :: older) ∧
      protocol.fileName = fileName ∧ SendsFileGet fits request peer protocol u ∧
      FetchesFile peer protocol v :=
  ⟨command_of_answered h hreq hans hresult, fetched_of_answered h hn hreq hans hresult⟩

/-- User `u` is discovered at peer 7, and a file of theirs is fetched. -/
theorem answered_getFile_was_fetched_u : ∃ tr n,
    (nodeMachine (fun _ => true) (Started.fresh ⟨10⟩ true)).Run tr n ∧
    (⟨1⟩, .ok ⟨1, .getFile "u" "f"⟩) ∈ n.answered ∧
    ∃ v ∈ tr, ∃ peer protocol, protocol.fileName = "f" ∧ FetchesFile peer protocol v := by
  obtain ⟨tr, n, hrun, hP⟩ := Machine.exists_run_of_labels
    (M := nodeMachine (fun _ => true) (Started.fresh ⟨10⟩ true))
    [.event (.rendezvous (.discovered [⟨⟨"u"⟩, ⟨7⟩, [⟨"a"⟩]⟩])) (.calm 0),
      .swarm (.connectionEstablished ⟨7⟩ ⟨1⟩ (.dialer ⟨"a"⟩) false),
      .command ⟨1, .getFile "u" "f", ⟨1⟩⟩ (.calm 1), .pollFileGet (.calm 2),
      .swarm (.deliverCommand ⟨1⟩), .swarm (.pollHandler ⟨1⟩ 0 0),
      .swarm (.endOutbound ⟨1⟩ 0 (.ok ())), .swarm (.pollHandler ⟨1⟩ 0 0),
      .swarm (.deliverEvent ⟨1⟩), .pollFileGet (.calm 2)]
    (fun _ n => decide (n.received.length < UInt64.size ∧
      ⟨1, .getFile "u" "f", ⟨1⟩⟩ ∈ n.received ∧
      (⟨1⟩, .ok ⟨1, .getFile "u" "f"⟩) ∈ n.answered))
    (by decide) (by decide)
  obtain ⟨hn, hreq, hans⟩ := of_decide_eq_true hP
  obtain ⟨-, newer, v, middle, u, older, peer, protocol, rfl, hname, -, hf⟩ :=
    answered_getFile_was_fetched hrun hn hreq hans rfl
  exact ⟨_, n, hrun, hans, v, by simp, peer, protocol, hname, hf⟩

end FileSharing
