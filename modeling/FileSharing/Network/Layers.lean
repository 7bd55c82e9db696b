/-
FileSharing.Network.Layers — the layers of the program.

The shell drives the node (`shellDrives`), and the node drives `FileGet`
and its side of the swarm (`nodeDrives`): handling a `GetFile` is a
`send_request`, polling `FileGet` is a poll and, when a request comes in,
the send of its reader, or the drop of the sender when the file does not
open. So the program drives `FileGet` (`programDrives`), and every run of the
program has a run of `fileGetSystem` in it, whatever was proved of those.

The steps that are shown carry the data they were made with, and with that
one sees what the program uses `FileGet` for: it asks for the files the
lines name, and it gives the files it opens under `sharing_dir` joined with
the names asked for, each on the channel of its request.
-/
import FileSharing.FileGet.PanickedTasks
import FileSharing.Network.Transcript

namespace FileSharing

open Lib FileGet

variable {config : FileGetConfig} {debug : Bool} {fits : String → Bool} {n n' : Node} {env : Env}

/-! ## What the node asks of `FileGet` -/

/-- The request to `FileGet` that the handling of a command makes. -/
def Node.fileGetRequest? (fits : String → Bool) (n : Node) (request : CommandRequest) (env : Env) :
    Option (PeerId × FileGetMessage × FileWriter) :=
  match request.command with
  | .getFile userName fileName =>
    match env.openWrite (Path.push n.loop.sharingDir (utf8 fileName)),
      n.loop.getPeerId fits userName with
    | .ok writer, some peer => some (peer, ⟨fileName⟩, writer)
    | _, _ => none
  | _ => none

/-- What the handling of `FileGet`'s oldest action does with the sender in
it: a file that opens is sent, and a failure drops the event. -/
def Node.fileGetAnswer? (n : Node) (env : Env) : Option Label :=
  match n.loop.swarm.fileGet.pendingEvents with
  | .generateEvent (.requestReceived _ _ message channel) :: _ =>
    match env.openRead (Path.push n.loop.sharingDir (utf8 message.fileName)) with
    | .ok reader => some (.respond channel reader)
    | .error _ => some (.dropResponder channel)
  | _ => none

/-- The step cannot open the file of a request, and drops the sender of
this channel. -/
def RefusesRequest (ch : ChannelId) (e : IoError) (t : Transition Node NodeLabel) : Prop :=
  ∃ env p r message rest, t.label = .pollFileGet env ∧
    t.pre.loop.swarm.fileGet.pendingEvents =
      .generateEvent (.requestReceived p r message ch) :: rest ∧
    env.openRead (Path.push t.pre.loop.sharingDir (utf8 message.fileName)) = .error e

theorem Node.fileGetAnswer?_ready {peer : PeerId} {r : RequestId} {message : FileGetMessage}
    {channel : ChannelId} {rest : List NetworkBehaviourAction}
    (hq : n.loop.swarm.fileGet.pendingEvents =
      .generateEvent (.requestReceived peer r message channel) :: rest) :
    n.fileGetAnswer? env =
      match env.openRead (Path.push n.loop.sharingDir (utf8 message.fileName)) with
      | .ok reader => some (.respond channel reader)
      | .error _ => some (.dropResponder channel) := by
  simp only [fileGetAnswer?, hq]

/-- An action without a sender in it. -/
theorem Node.fileGetAnswer?_none
    (h : ∀ peer r message channel rest, n.loop.swarm.fileGet.pendingEvents ≠
      .generateEvent (.requestReceived peer r message channel) :: rest) :
    n.fileGetAnswer? env = none := by
  unfold fileGetAnswer?
  split
  · rename_i peer r message channel rest hq
    exact absurd hq (h peer r message channel rest)
  · rfl

/-- A file that is sent is the one that was opened for the request. -/
theorem Node.fileGetAnswer?_respond {channel : ChannelId} {reader : FileReader}
    (h : n.fileGetAnswer? env = some (.respond channel reader)) :
    ∃ peer r message rest, n.loop.swarm.fileGet.pendingEvents =
        .generateEvent (.requestReceived peer r message channel) :: rest ∧
      env.openRead (Path.push n.loop.sharingDir (utf8 message.fileName)) = .ok reader := by
  unfold fileGetAnswer? at h
  split at h
  · rename_i peer r message channel' rest hq
    split at h
    · rename_i reader' hopen
      obtain ⟨rfl, rfl⟩ := Label.respond.inj (Option.some.inj h)
      exact ⟨peer, r, message, rest, hq, hopen⟩
    · cases h
  · cases h

/-- Polling `FileGet` carries out its oldest action. -/
theorem poll_ready {s s' : System} {action : NetworkBehaviourAction}
    {rest : List NetworkBehaviourAction} (hq : s.fileGet.pendingEvents = action :: rest)
    (hs : s.step debug .pollBehaviour = .ok s') :
    s' = System.perform { s with
      fileGet := { s.fileGet with pendingEvents := rest } } action := by
  simpa [System.step, FileGet.poll, hq] using hs.symm

theorem poll_idle {s s' : System} (hq : s.fileGet.pendingEvents = [])
    (hs : s.step debug .pollBehaviour = .ok s') : s' = s := by
  simpa [System.step, FileGet.poll, hq] using hs.symm

/-- **What polling `FileGet` does to the swarm**: the poll, and what becomes
of the sender that the poll handed out. -/
theorem poll_swarm (h : NodeStepped fits debug n (.pollFileGet env) n') :
    ∃ swarm, n.loop.swarm.step debug .pollBehaviour = .ok swarm ∧
      (n.fileGetAnswer? env = none → n'.loop.swarm = swarm) ∧
      ∀ answer, n.fileGetAnswer? env = some answer →
        swarm.Allowed answer = true ∧ swarm.step debug answer = .ok n'.loop.swarm := by
  cases h with
  | polled _ swarm hs _ hother =>
    have hnone : n.fileGetAnswer? env = none := Node.fileGetAnswer?_none hother
    refine ⟨swarm, hs, fun _ => rfl, fun answer hanswer => ?_⟩
    rw [hnone] at hanswer
    cases hanswer
  | fetched _ _ _ _ _ _ _ _ swarm hq hs _ =>
    have hnone : n.fileGetAnswer? env = none := by
      simp only [Node.fileGetAnswer?, hq]
    refine ⟨swarm, hs, fun _ => rfl, fun answer hanswer => ?_⟩
    rw [hnone] at hanswer
    cases hanswer
  | served _ peer r message channel rest reader swarm hq hopen hs =>
    have hanswer : n.fileGetAnswer? env = some (.respond channel reader) := by
      rw [Node.fileGetAnswer?_ready hq, hopen]
    refine ⟨swarm, hs, fun hnone => ?_, fun answer h => ?_⟩
    · rw [hanswer] at hnone
      cases hnone
    · obtain rfl := Option.some.inj (hanswer.symm.trans h)
      exact ⟨by simpa [System.Allowed] using responder_of_poll hq hs, rfl⟩
  | notServed _ peer r message channel rest e swarm hq hopen hs =>
    have hanswer : n.fileGetAnswer? env = some (.dropResponder channel) := by
      rw [Node.fileGetAnswer?_ready hq, hopen]
    refine ⟨swarm, hs, fun hnone => ?_, fun answer h => ?_⟩
    · rw [hanswer] at hnone
      cases hnone
    · obtain rfl := Option.some.inj (hanswer.symm.trans h)
      exact ⟨by simpa [System.Allowed] using responder_of_poll hq hs, rfl⟩

/-! ## The steps of `FileGet` in those of the node -/

/-- The steps of `FileGet`'s side of the swarm that a step of the node is,
newest first. -/
def fileGetSteps (fits : String → Bool) (debug : Bool) (t : Transition Node NodeLabel) :
    Trace System Label :=
  let (pre, post) := (t.pre.loop.swarm, t.post.loop.swarm)
  match t.label with
  | .command request env =>
    match t.pre.fileGetRequest? fits request env with
    | some (peer, message, writer) => [⟨pre, .sendRequest peer message writer, post⟩]
    | none => []
  | .event _ _ => []
  | .pollFileGet env =>
    match pre.step debug .pollBehaviour with
    | .error _ => []
    | .ok swarm =>
      match t.pre.fileGetAnswer? env with
      | some answer => [⟨swarm, answer, post⟩, ⟨pre, .pollBehaviour, swarm⟩]
      | none => [⟨pre, .pollBehaviour, post⟩]
  | .swarm label => [⟨pre, label, post⟩]
  | .lost _ => []
  | .dropSwarm => []

/-- What a step of the node can be to `FileGet`. -/
inductive FileGetShown (fits : String → Bool) (t : Transition Node NodeLabel) : Label → Prop where
  | asks (request : CommandRequest) (env : Env) (p : PeerId) (message : FileGetMessage)
      (writer : FileWriter) : t.label = .command request env →
      t.pre.fileGetRequest? fits request env = some (p, message, writer) →
      FileGetShown fits t (.sendRequest p message writer)
  | polls (env : Env) : t.label = .pollFileGet env → FileGetShown fits t .pollBehaviour
  | serves (env : Env) (channel : ChannelId) (reader : FileReader) :
      t.label = .pollFileGet env → t.pre.fileGetAnswer? env = some (.respond channel reader) →
      FileGetShown fits t (.respond channel reader)
  | refuses (channel : ChannelId) (e : IoError) : RefusesRequest channel e t →
      FileGetShown fits t (.dropResponder channel)
  /-- A step of the swarm by itself. -/
  | alone (label : Label) : t.label = .swarm label → FileGetShown fits t label

theorem fileGetShown_of_answer {answer : Label} (h : n.fileGetAnswer? env = some answer) :
    FileGetShown fits ⟨n, .pollFileGet env, n'⟩ answer := by
  unfold Node.fileGetAnswer? at h
  split at h
  · rename_i peer r message channel rest hq
    split at h
    · rename_i reader hopen
      obtain rfl := Option.some.inj h
      refine .serves env channel reader rfl ?_
      rw [Node.fileGetAnswer?_ready hq, hopen]
    · rename_i e hopen
      obtain rfl := Option.some.inj h
      exact .refuses channel e ⟨env, peer, r, message, rest, rfl, hq, hopen⟩
  · cases h

theorem fileGetShown_of_mem {t : Transition Node NodeLabel} {u : Transition System Label}
    (hu : u ∈ fileGetSteps fits debug t) : FileGetShown fits t u.label := by
  obtain ⟨n, label, n'⟩ := t
  unfold fileGetSteps at hu
  dsimp only at hu
  cases label with
  | command request env =>
    cases hrequest : n.fileGetRequest? fits request env with
    | none => simp [hrequest] at hu
    | some asked =>
      simp only [hrequest, List.mem_singleton] at hu
      rw [hu]
      exact .asks request env asked.1 asked.2.1 asked.2.2 rfl hrequest
  | event _ _ => cases hu
  | pollFileGet env =>
    cases hs : n.loop.swarm.step debug .pollBehaviour with
    | error e => simp [hs] at hu
    | ok swarm =>
      cases hanswer : n.fileGetAnswer? env with
      | none =>
        simp only [hs, hanswer, List.mem_singleton] at hu
        rw [hu]
        exact .polls env rfl
      | some answer =>
        simp only [hs, hanswer, List.mem_cons, List.not_mem_nil, or_false] at hu
        rcases hu with rfl | rfl
        · exact fileGetShown_of_answer hanswer
        · exact .polls env rfl
  | lost _ | dropSwarm => cases hu
  | swarm label =>
    rw [List.mem_singleton.mp hu]
    exact .alone label rfl

/-- What a step of the swarm by itself shows is that step. -/
theorem fileGetSteps_swarm {t : Transition Node NodeLabel} {a : Label}
    (h : t.label = .swarm a) :
    fileGetSteps fits debug t = [⟨t.pre.loop.swarm, a, t.post.loop.swarm⟩] := by
  unfold fileGetSteps
  simp only [h]

/-- What the swarm does by itself is not the loop's doing. -/
theorem isOwn_of_alone {t : Transition Node NodeLabel} {label : Label}
    (h : NodeStepped fits debug t.pre t.label t.post) (hlabel : t.label = .swarm label) :
    Node.isOwn label = false := by
  obtain ⟨n, _, n'⟩ := t
  dsimp only at h hlabel
  subst hlabel
  cases h with
  | swarm _ _ hown _ _ => exact hown

/-- A command that fails asks `FileGet` for nothing. -/
theorem fileGetRequest?_of_fails {request : CommandRequest}
    (h : EventLoop.CommandFails fits env n.loop request) :
    n.fileGetRequest? fits request env = none := by
  unfold EventLoop.CommandFails at h
  unfold Node.fileGetRequest?
  cases hcmd : request.command with
  | getFile userName fileName =>
    simp only [hcmd] at h ⊢
    obtain ⟨e, hopen⟩ := h
    simp [hopen]
  | _ => rfl

/-- Nor does one that is answered at once. -/
theorem fileGetRequest?_of_answered {request : CommandRequest}
    {result : Except FileSharingError CommandResponse}
    (h : EventLoop.AnsweredAtOnce fits n.loop request result) :
    n.fileGetRequest? fits request env = none := by
  unfold EventLoop.AnsweredAtOnce at h
  unfold Node.fileGetRequest?
  cases hcmd : request.command with
  | getFile userName fileName =>
    simp only [hcmd] at h ⊢
    rw [h.1]
    cases env.openWrite (Path.push n.loop.sharingDir (utf8 fileName)) <;> rfl
  | _ => rfl

theorem fileGetRequest?_of_other {request : CommandRequest}
    (h : ∀ userName fileName, request.command ≠ .getFile userName fileName) :
    n.fileGetRequest? fits request env = none := by
  unfold Node.fileGetRequest?
  cases hcmd : request.command with
  | getFile userName fileName => exact absurd hcmd (h userName fileName)
  | _ => rfl

theorem fileGetSteps_command {request : CommandRequest}
    (h : NodeStepped fits debug n (.command request env) n') :
    (fileGetSystem config debug).Steps n.loop.swarm
      (fileGetSteps fits debug ⟨n, .command request env, n'⟩) n'.loop.swarm := by
  unfold fileGetSteps
  dsimp only
  cases h with
  | failed _ _ e hfails =>
    rw [fileGetRequest?_of_fails hfails]
    exact .nil
  | answered _ _ result hresult =>
    rw [fileGetRequest?_of_answered hresult]
    exact .nil
  | listPeers _ _ _ hcmd _ | listFiles _ _ _ _ hcmd _ =>
    rw [fileGetRequest?_of_other (by simp [hcmd])]
    exact .nil
  | getFile _ _ userName fileName peer writer fileGet r hcmd hpeer hs hopen =>
    have hrequest : n.fileGetRequest? fits request env = some (peer, ⟨fileName⟩, writer) := by
      simp [Node.fileGetRequest?, hcmd, hopen, hpeer]
    rw [hrequest]
    have hok : n.loop.swarm.step debug (.sendRequest peer ⟨fileName⟩ writer) =
        .ok { n.loop.swarm with fileGet := fileGet } := by
      simp [System.step, hs, bind, Except.bind]
    exact .single rfl hok

theorem fileGetSteps_event {event : SwarmEvent}
    (h : NodeStepped fits debug n (.event event env) n') :
    n'.loop.swarm = n.loop.swarm := by
  cases h with
  | quiet _ _ _ _ _ => rw [n.settle_loop event]
  | notListed _ _ _ _ _ | discovered _ _ | listed _ _ _ _ _ _ _ _ => rfl

theorem fileGetSteps_poll (h : NodeStepped fits debug n (.pollFileGet env) n') :
    (fileGetSystem config debug).Steps n.loop.swarm
      (fileGetSteps fits debug ⟨n, .pollFileGet env, n'⟩) n'.loop.swarm := by
  obtain ⟨swarm, hs, hquiet, hanswers⟩ := poll_swarm h
  unfold fileGetSteps
  dsimp only
  rw [hs]
  dsimp only
  cases hanswer : n.fileGetAnswer? env with
  | none =>
    rw [hquiet hanswer]
    exact .single rfl hs
  | some answer =>
    obtain ⟨hallowed, hok⟩ := hanswers answer hanswer
    exact .cons (.single rfl hs) hallowed hok

/-- **A step of the node is steps of `FileGet`'s side of the swarm.** -/
theorem fileGetSteps_steps {t : Transition Node NodeLabel}
    (h : NodeStepped fits debug t.pre t.label t.post) :
    (fileGetSystem config debug).Steps t.pre.loop.swarm (fileGetSteps fits debug t)
      t.post.loop.swarm := by
  obtain ⟨n, label, n'⟩ := t
  dsimp only at h
  cases label with
  | command request env => exact fileGetSteps_command h
  | event event env =>
    rw [fileGetSteps_event h]
    exact .nil
  | pollFileGet env => exact fileGetSteps_poll h
  | swarm label =>
    cases h with
    | swarm _ swarm _ hallowed hs => exact .single hallowed hs
  | lost what =>
    cases h with
    | lost _ _ =>
      rw [n.close_loop what]
      exact .nil
  | dropSwarm =>
    cases h with
    | dropSwarm _ => exact .nil

/-- **The node drives `FileGet`.** -/
def nodeDrives (fits : String → Bool) (start : Started config debug) :
    Drives (nodeMachine fits start) (fileGetSystem config debug) :=
  .always (fun n => n.loop.swarm) (fileGetSteps fits debug) start.trace start.run fun h =>
    fileGetSteps_steps (run_nodeStepped h).2.2

theorem nodeDrives_part (start : Started config debug) (tr : Trace Node NodeLabel) :
    (nodeDrives fits start).part tr = tr.flatMap (fileGetSteps fits debug) ++ start.trace := rfl

theorem nodeDrives_part_append (start : Started config debug) (newer older : Trace Node NodeLabel) :
    (nodeDrives fits start).part (newer ++ older) =
      newer.flatMap (fileGetSteps fits debug) ++ (nodeDrives fits start).part older := by
  simp [nodeDrives_part]

/-- **The program drives `FileGet`.** -/
def programDrives (fits : String → Bool) (start : Started config debug) :
    Drives (shellMachine fits start) (fileGetSystem config debug) :=
  (shellDrives fits start).trans (nodeDrives fits start) trivial

/-! ## What the program uses `FileGet` for -/

variable {start : Started config debug}

/-- What a request to `FileGet` was made with. -/
theorem Node.fileGetRequest?_eq_some {request : CommandRequest} {p : PeerId}
    {message : FileGetMessage} {writer : FileWriter}
    (h : n.fileGetRequest? fits request env = some (p, message, writer)) :
    ∃ userName, request.command = .getFile userName message.fileName ∧
      n.loop.getPeerId fits userName = some p ∧
      env.openWrite (Path.push n.loop.sharingDir (utf8 message.fileName)) = .ok writer := by
  unfold fileGetRequest? at h
  split at h
  · rename_i userName fileName hcmd
    split at h
    · rename_i writer' peer hopen hpeer
      simp only [Option.some.injEq, Prod.mk.injEq] at h
      obtain ⟨rfl, rfl, rfl⟩ := h
      exact ⟨userName, hcmd, hpeer, hopen⟩
    · cases h
  · cases h

/-- A request to `FileGet` is made by handling a command. -/
theorem command_of_isSend {t : Transition Node NodeLabel} {u : Transition System Label}
    (h : NodeStepped fits debug t.pre t.label t.post) (hu : u ∈ fileGetSteps fits debug t)
    (hsend : u.label.isSend = true) :
    ∃ request env p message writer, t.label = .command request env ∧
      t.pre.fileGetRequest? fits request env = some (p, message, writer) ∧
      u.label = .sendRequest p message writer := by
  have hshown := fileGetShown_of_mem hu
  generalize u.label = label at hshown hsend ⊢
  cases hshown with
  | asks request env p message writer hlabel hrequest =>
    exact ⟨request, env, p, message, writer, hlabel, hrequest, rfl⟩
  | polls _ _ | serves _ _ _ _ _ | refuses _ _ _ => cases hsend
  | alone label hlabel =>
    have hown := isOwn_of_alone h hlabel
    cases label with
    | sendRequest _ _ _ => cases hown
    | _ => cases hsend

/-- A step of the node makes one request to `FileGet` at most. -/
theorem sends_fileGetSteps_le {t : Transition Node NodeLabel}
    (h : NodeStepped fits debug t.pre t.label t.post) :
    sends (fileGetSteps fits debug t) ≤ t.label.taken.length := by
  by_cases htaken : t.label.taken = []
  · have hzero : sends (fileGetSteps fits debug t) = 0 := by
      refine List.countP_eq_zero.mpr fun u hu hsend => ?_
      obtain ⟨request, env, -, -, -, hlabel, -⟩ := command_of_isSend h hu hsend
      rw [hlabel] at htaken
      cases htaken
    rw [hzero]
    exact Nat.zero_le _
  · obtain ⟨n, label, n'⟩ := t
    cases label with
    | command request env =>
      refine Nat.le_trans List.countP_le_length ?_
      unfold fileGetSteps
      dsimp only
      cases n.fileGetRequest? fits request env <;> simp [NodeLabel.taken]
    | event _ _ | pollFileGet _ | swarm _ | lost _ | dropSwarm => exact absurd rfl htaken

theorem sends_append (newer older : Trace System Label) :
    sends (newer ++ older) = sends newer + sends older := by
  simp [sends]

theorem run_sends_le {tr : Trace Node NodeLabel} (h : (nodeMachine fits start).Run tr n) :
    sends ((nodeDrives fits start).part tr) ≤ n.received.length := by
  induction tr generalizing n with
  | nil =>
    have hstart : (nodeDrives fits start).part [] = start.trace := rfl
    rw [hstart, start.noRequest]
    exact Nat.zero_le _
  | cons t tr ih =>
    obtain ⟨-, -, hstep⟩ := run_nodeStepped h
    obtain ⟨hrun, -, -, rfl⟩ := h.tail
    rw [Drives.part_cons, sends_append, hstep.received_eq, List.length_append]
    exact Nat.add_le_add (sends_fileGetSteps_le hstep) (ih hrun)

/-- Every request to `FileGet` is for the file a received command names. -/
theorem run_sendRequest {tr : Trace Node NodeLabel} (h : (nodeMachine fits start).Run tr n)
    {u : Transition System Label} (hu : u ∈ (nodeDrives fits start).part tr) {p : PeerId}
    {message : FileGetMessage} {writer : FileWriter}
    (hlabel : u.label = .sendRequest p message writer) :
    ∃ request ∈ n.received, ∃ userName, request.command = .getFile userName message.fileName := by
  have hsend : u.label.isSend = true := by rw [hlabel]; rfl
  induction tr generalizing n with
  | nil =>
    -- `init` has made no request
    have hnone := List.countP_eq_zero.mp start.noRequest u hu
    exact absurd hsend hnone
  | cons t tr ih =>
    obtain ⟨-, -, hstep⟩ := run_nodeStepped h
    obtain ⟨hrun, -, -, rfl⟩ := h.tail
    rw [hstep.received_eq]
    rw [Drives.part_cons] at hu
    rcases List.mem_append.mp hu with hnew | hold
    · obtain ⟨request, env, q, m, w, htaken, hrequest, hsame⟩ := command_of_isSend hstep hnew hsend
      rw [hlabel] at hsame
      obtain ⟨rfl, rfl, rfl⟩ := Label.sendRequest.inj hsame
      obtain ⟨userName, hcmd, -⟩ := Node.fileGetRequest?_eq_some hrequest
      rw [htaken]
      exact ⟨request, List.mem_cons_self, userName, hcmd⟩
    · obtain ⟨request, hmem, hcmd⟩ := ih hrun hold
      exact ⟨request, List.mem_append_right _ hmem, hcmd⟩

/-- A request of the client is that of a line. -/
theorem exists_line_of_request {lines : List String} {request : CommandRequest}
    (h : request ∈ requestsOf lines) :
    ∃ line ∈ lines, Command.fromStr line = .ok request.command := by
  induction lines with
  | nil => cases h
  | cons line older ih =>
    cases hline : Command.fromStr line with
    | error e =>
      rw [requestsOf_refused hline] at h
      obtain ⟨line', hmem, hline'⟩ := ih h
      exact ⟨line', List.mem_cons_of_mem _ hmem, hline'⟩
    | ok command =>
      rw [requestsOf_command hline] at h
      rcases List.mem_cons.mp h with rfl | h
      · exact ⟨line, List.mem_cons_self, hline⟩
      · obtain ⟨line', hmem, hline'⟩ := ih h
        exact ⟨line', List.mem_cons_of_mem _ hmem, hline'⟩

/-- **The program drives `FileGet`**: what happens to `FileGet` and its
side of the swarm in a run of the program is a run of `fileGetSystem`, with
no more requests than commands were typed, and every request is for the
file that a `GetFile` line names. -/
theorem program_drives_fileGet {tr : Trace Shell ShellLabel} {s : Shell}
    (h : (shellMachine fits start).Run tr s) (hn : (requestsOf s.read).length ≤ UInt64.size) :
    (fileGetSystem config debug).Run ((programDrives fits start).part tr) s.node.loop.swarm ∧
      sends ((programDrives fits start).part tr) ≤ (requestsOf s.read).length ∧
      ∀ u ∈ (programDrives fits start).part tr, ∀ p message writer,
        u.label = .sendRequest p message writer →
        ∃ line ∈ s.read, ∃ userName,
          Command.fromStr line = .ok (.getFile userName message.fileName) := by
  have hinner := run_nodeTrace h hn
  obtain ⟨hs, -⟩ := run_session h (run_linesRead h ▸ hn)
  have hpart : (programDrives fits start).part tr =
      (nodeDrives fits start).part (nodeTrace tr) := by
    rw [← shellDrives_part start tr]
    exact (shellDrives fits start).part_trans (nodeDrives fits start) trivial tr
  rw [hpart]
  refine ⟨(nodeDrives fits start).run hinner trivial, ?_, ?_⟩
  · exact Nat.le_trans (run_sends_le hinner) hs.received_suffix.length_le
  · intro u hu p message writer hlabel
    obtain ⟨request, hmem, userName, hcmd⟩ := run_sendRequest hinner hu hlabel
    obtain ⟨line, hline, hparse⟩ := exists_line_of_request (hs.received_suffix.subset hmem)
    exact ⟨line, hline, userName, hcmd ▸ hparse⟩

/-- A line asks for a file, and `FileGet` gets the request. -/
theorem program_drives_fileGet_fetching : ∃ tr s,
    (shellMachine (fun _ => true) (Started.fresh ⟨10⟩ true)).Run tr s ∧
    s.node.loop.pendingFileGets.lookup (.nth 0) = some 1 ∧
    (fileGetSystem ⟨10⟩ true).Run
      ((programDrives (fun _ => true) (Started.fresh ⟨10⟩ true)).part tr) s.node.loop.swarm := by
  obtain ⟨tr, s, hrun, hn, hentry, -⟩ := exists_fetching_shell
  exact ⟨tr, s, hrun, hentry, (program_drives_fileGet hrun hn).1⟩

/-! ## Response senders -/

/-- The node drops a response sender only with a request it cannot serve. -/
theorem refuses_of_drop {t : Transition Node NodeLabel} {u : Transition System Label}
    (h : NodeStepped fits debug t.pre t.label t.post) (hu : u ∈ fileGetSteps fits debug t)
    {ch : ChannelId} (hlabel : u.label = .dropResponder ch) : ∃ e, RefusesRequest ch e t := by
  have hshown := fileGetShown_of_mem hu
  generalize u.label = label at hshown hlabel
  cases hshown with
  | asks _ _ _ _ _ _ _ | polls _ _ | serves _ _ _ _ _ => cases hlabel
  | refuses ch' e hrefuses =>
    obtain rfl := Label.dropResponder.inj hlabel
    exact ⟨e, hrefuses⟩
  | alone label halone =>
    have hown := isOwn_of_alone h halone
    rw [hlabel] at hown
    cases hown

/-- And that stops the loop. -/
theorem RefusesRequest.stops {t : Transition Node NodeLabel} {ch : ChannelId} {e : IoError}
    (h : NodeStepped fits debug t.pre t.label t.post) (hrefuses : RefusesRequest ch e t) :
    t.post.stopped = some (.err (.io e)) := by
  obtain ⟨n, label, n'⟩ := t
  obtain ⟨env, p, r, message, rest, hlabel, hq, hopen⟩ := hrefuses
  dsimp only at h hlabel hq hopen ⊢
  subst hlabel
  cases h with
  | polled _ _ _ _ hother => exact absurd hq (hother _ _ _ _ _)
  | served _ _ _ _ _ _ reader _ hq' hopen' _ =>
    rw [hq] at hq'
    cases hq'
    rw [hopen] at hopen'
    cases hopen'
  | notServed _ _ _ _ _ _ e' _ hq' hopen' _ =>
    rw [hq] at hq'
    cases hq'
    rw [hopen] at hopen'
    cases hopen'
    rfl
  | fetched _ _ _ _ _ _ _ _ _ hq' _ _ =>
    rw [hq] at hq'
    cases hq'

/-- The swarm's own steps neither hand a sender out nor take one back. -/
theorem stepped_responders {s s' : System} {label : Label} (hown : Node.isOwn label = false)
    (h : Stepped s label s') : s'.responders = s.responders := by
  cases h with
  | pollReady _ _ _ | pollIdle _ | respond _ _ | dropResponder _ => cases hown
  | _ => rfl

/-- A poll hands a sender out, and it is used or dropped at once. -/
theorem poll_responders (h : NodeStepped fits debug n (.pollFileGet env) n') :
    n'.loop.swarm.responders = n.loop.swarm.responders := by
  obtain ⟨swarm, hs, hquiet, hanswers⟩ := poll_swarm h
  by_cases hrequest : ∃ peer r message channel rest, n.loop.swarm.fileGet.pendingEvents =
      .generateEvent (.requestReceived peer r message channel) :: rest
  · obtain ⟨peer, r, message, channel, rest, hq⟩ := hrequest
    obtain rfl := poll_ready hq hs
    have hanswer := @Node.fileGetAnswer?_ready n env peer r message channel rest hq
    cases hopen : env.openRead (Path.push n.loop.sharingDir (utf8 message.fileName)) with
    | ok reader =>
      rw [hopen] at hanswer
      have hpost := Except.ok.inj (hanswers _ hanswer).2
      rw [← hpost]
      simp [System.perform, System.sendReader]
    | error e =>
      rw [hopen] at hanswer
      have hpost := Except.ok.inj (hanswers _ hanswer).2
      rw [← hpost]
      simp [System.perform, System.dropSender]
  · -- the oldest action has no sender in it
    have hother : ∀ peer r message channel rest, n.loop.swarm.fileGet.pendingEvents ≠
        .generateEvent (.requestReceived peer r message channel) :: rest := by
      intro peer r message channel rest hq
      exact hrequest ⟨peer, r, message, channel, rest, hq⟩
    rw [hquiet (Node.fileGetAnswer?_none hother)]
    cases hq : n.loop.swarm.fileGet.pendingEvents with
    | nil => rw [poll_idle hq hs]
    | cons action rest =>
      rw [poll_ready hq hs]
      cases action with
      | dial _ _ | notifyHandler _ _ _ => rfl
      | generateEvent event =>
        cases event with
        | requestReceived peer r message channel => exact absurd hq (hother _ _ _ _ _)
        | _ => rfl

/-- **A step of the node leaves the senders that are handed out as they
were.** -/
theorem nodeStepped_responders {label : NodeLabel} (hm : Mirror n.loop.swarm)
    (h : NodeStepped fits debug n label n') :
    n'.loop.swarm.responders = n.loop.swarm.responders := by
  cases label with
  | command request env => cases h <;> rfl
  | event event env => rw [fileGetSteps_event h]
  | pollFileGet env => exact poll_responders h
  | swarm label =>
    cases h with
    | swarm _ swarm hown hallowed hs =>
      exact stepped_responders hown (step_stepped hm hallowed hs)
  | lost what =>
    cases h with
    | lost _ _ => rw [n.close_loop what]
  | dropSwarm =>
    cases h with
    | dropSwarm _ => rfl

/-- **A connection task panics over a sender that was dropped**: by what
went before the node, or with the request that stopped it. -/
theorem panicked_by_drop {tr : Trace Node NodeLabel} (h : (nodeMachine fits start).Run tr n)
    {l : Link} (hl : l ∈ n.loop.swarm.links) (hpanicked : l.panicked ≠ none) :
    ∃ sub ∈ l.inbound, sub.response = .dropped ∧
      ((∃ u ∈ start.trace, u.label = .dropResponder sub.channel) ∨
        ∃ e, n.stopped = some (.err (.io e)) ∧ ∃ t ∈ tr, RefusesRequest sub.channel e t) := by
  obtain ⟨sub, hsub, hdropped, u, hu, hlabel⟩ :=
    drop_of_panicked ((nodeDrives fits start).run h trivial) hl hpanicked
  refine ⟨sub, hsub, hdropped, ?_⟩
  rcases List.mem_append.mp hu with hnew | hold
  · obtain ⟨t, ht, hut⟩ := List.mem_flatMap.mp hnew
    obtain ⟨newer, older, rfl⟩ := List.append_of_mem ht
    have hthen := h.of_suffix (List.suffix_append newer _)
    have hstep := (run_nodeStepped hthen).2.2
    obtain ⟨e, hrefuses⟩ := refuses_of_drop hstep hut hlabel
    have hstops := hrefuses.stops hstep
    have hrest := run_atRest hthen h (by simp [hstops])
    exact .inr ⟨e, hrest.stopped.trans hstops, t, ht, hrefuses⟩
  · exact .inl ⟨u, hold, hlabel⟩

/-- The loop keeps no response sender: each that `FileGet` hands out is used
or dropped in the step that hands it out. -/
theorem run_responders {tr : Trace Node NodeLabel} (h : (nodeMachine fits start).Run tr n) :
    n.loop.swarm.responders = start.swarm.responders := by
  induction tr generalizing n with
  | nil =>
    cases h
    rfl
  | cons t tr ih =>
    obtain ⟨hc, -, hstep⟩ := run_nodeStepped h
    obtain ⟨hrun, -, -, rfl⟩ := h.tail
    rw [nodeStepped_responders hc.follows.mirror hstep]
    exact ih hrun

end FileSharing
