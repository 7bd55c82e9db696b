/-
FileSharing.Network.Transcript — what the user gets to see.

`main` answers one line after the other, and every line it is done with has
one output: `Transcript` is that pairing. An output is explained
(`Explained`) by the line, its number and the steps of the node: a refusal
by the line alone, a response by the steps that `Justified` asks for, an
error by the step that handled the command and knew nobody of that name.

Not every line gets an output. `main` waits without a limit for the answer
to a command, and `LostCommands` says of some that there is none: from the
step that fails the request of a `GetFile` on, nothing is printed and no
line is read (`failed_getFile_freezes`). And a loop that stops serves
nobody any more: what it had not answered by then panics `main`, which is
the only way `main` panics (`panicked_by_stop`), and after a stop between
two commands only lines that are none are answered (`stopped_serves_nothing`).
Of such a node nothing moves but the tasks of its connections, and they only
until the swarm is gone (`Node.AtRest`).
-/
import FileSharing.Network.Session

namespace FileSharing

open Lib FileGet

variable {config : FileGetConfig} {debug : Bool} {fits : String → Bool}
  {start : Started config debug} {tr newer older : Trace Shell ShellLabel} {s s' : Shell}
  {a : ShellLabel}

/-! ## Errors that are answers -/

/-- The step handled the command, and knew nobody under the user name. -/
def FoundNobody (fits : String → Bool) (request : CommandRequest) (e : FileSharingError)
    (t : Transition Node NodeLabel) : Prop :=
  ∃ env userName, t.label = .command request env ∧
    (request.command = .listFiles userName ∨
      ∃ fileName, request.command = .getFile userName fileName) ∧
    t.pre.loop.getPeerId fits userName = none ∧ e = .userNotRegistered userName

theorem EventLoop.foundNobody_of_answeredAtOnce {fits : String → Bool} {n n' : Node}
    {request : CommandRequest} {env : Env} {e : FileSharingError}
    (h : AnsweredAtOnce fits n.loop request (.error e)) :
    FoundNobody fits request e ⟨n, .command request env, n'⟩ := by
  unfold AnsweredAtOnce at h
  cases hcmd : request.command with
  | register userName => simp [hcmd] at h
  | listPeers => simp [hcmd] at h
  | listFiles userName =>
    simp only [hcmd, Except.error.injEq] at h
    exact ⟨env, userName, rfl, Or.inl hcmd, h⟩
  | getFile userName fileName =>
    simp only [hcmd, Except.error.injEq] at h
    exact ⟨env, userName, rfl, Or.inr ⟨fileName, hcmd⟩, h⟩

/-- A discovery answers with `Ok`. -/
theorem EventLoop.not_error_of_discovered {l : EventLoop} {env : Env}
    {registrations : List Registration} {sender : SenderId} {e : FileSharingError} :
    (sender, .error e) ∉ l.discoveredAnswers env registrations := by
  intro h
  obtain ⟨k, -, hk⟩ := List.mem_filterMap.mp h
  obtain ⟨request, -, heq⟩ := Option.map_eq_some_iff.mp hk
  cases heq

/-- A step answers with an error when it finds nobody, and in no other
way. -/
theorem NodeStepped.error_cases {fits : String → Bool} {debug : Bool} {n n' : Node} {a : NodeLabel}
    {sender : SenderId} {e : FileSharingError} (h : NodeStepped fits debug n a n')
    (he : (sender, .error e) ∈ n'.answered) :
    (sender, .error e) ∈ n.answered ∨
      ∃ request, request.responseSender = sender ∧ request ∈ n'.received ∧
        FoundNobody fits request e ⟨n, a, n'⟩ := by
  cases h with
  | failed _ _ _ _ | listPeers _ _ _ _ _ | listFiles _ _ _ _ _ _ | getFile _ _ _ _ _ _ _ _ _ _ _ _
  | notListed _ _ _ _ _ | polled _ _ _ _ _ | served _ _ _ _ _ _ _ _ _ _ _
  | notServed _ _ _ _ _ _ _ _ _ _ _ | swarm _ _ _ _ _ | dropSwarm _ => exact Or.inl he
  | quiet event env _ _ _ =>
    exact Or.inl (n.settle_answered event ▸ he)
  | lost what _ => exact Or.inl (n.close_answered what ▸ he)
  | answered request env result hresult =>
    rcases List.mem_cons.mp he with heq | hold
    · obtain ⟨rfl, rfl⟩ := Prod.mk.inj heq
      exact Or.inr ⟨request, rfl, List.mem_cons_self,
        EventLoop.foundNobody_of_answeredAtOnce hresult⟩
    · exact Or.inl hold
  | discovered registrations env =>
    rcases List.mem_append.mp he with hnew | hold
    · exact absurd (List.mem_reverse.mp hnew) EventLoop.not_error_of_discovered
    · exact Or.inl hold
  | listed _ _ _ _ _ _ _ _ | fetched _ _ _ _ _ _ _ _ _ _ _ _ =>
    rcases List.mem_cons.mp he with heq | hold
    · cases heq
    · exact Or.inl hold

/-- What is answered with an error is a command for which nobody was
found. -/
theorem run_foundNobody {config : FileGetConfig} {debug : Bool} {fits : String → Bool}
    {start : Started config debug} {tr : Trace Node NodeLabel} {n : Node}
    (h : (nodeMachine fits start).Run tr n) {request : CommandRequest}
    (hrequest : request ∈ n.received) {e : FileSharingError}
    (he : (request.responseSender, .error e) ∈ n.answered) :
    ∃ t ∈ tr, FoundNobody fits request e t := by
  induction tr generalizing n with
  | nil =>
    cases h
    cases he
  | cons t tr ih =>
    obtain ⟨-, -, hstep⟩ := run_nodeStepped h
    have hu := run_uncrossed h
    obtain ⟨hrun, -, -, rfl⟩ := h.tail
    rcases hstep.error_cases he with hold | ⟨x, hsender, hx, hfound⟩
    · -- the sender was known, so the command was received
      obtain ⟨y, hy, heq⟩ := List.mem_map.mp ((run_uncrossed hrun).known _ hold)
      have hypost : y ∈ t.post.received := by
        rw [hstep.received_eq]
        exact List.mem_append_right _ hy
      obtain rfl := hu.eq_of_sender hypost hrequest heq
      obtain ⟨u, hu, hfound⟩ := ih hrun hy hold
      exact ⟨u, List.mem_cons_of_mem _ hu, hfound⟩
    · obtain rfl := hu.eq_of_sender hx hrequest hsender
      exact ⟨t, List.mem_cons_self, hfound⟩

/-! ## Transcripts -/

/-- Lines and outputs, the newest first: one output for each line. The
relation also sees how many commands came before the line. -/
inductive Transcript (R : Nat → String → Printed → Prop) : List String → List Printed → Prop where
  | nil : Transcript R [] []
  | cons {line : String} {older : List String} {output : Printed} {printed : List Printed} :
      R (requestsOf older).length line output → Transcript R older printed →
      Transcript R (line :: older) (output :: printed)

theorem Transcript.mono {R R' : Nat → String → Printed → Prop}
    (hR : ∀ {k line output}, R k line output → R' k line output) {lines : List String}
    {printed : List Printed} (h : Transcript R lines printed) : Transcript R' lines printed := by
  induction h with
  | nil => exact .nil
  | cons hr _ ih => exact .cons (hR hr) ih

/-- What is known of an output while the shell runs: the line was refused,
or its answer was sent. -/
inductive Shown (n : Node) (k : Nat) (line : String) : Printed → Prop where
  | refused {e : FileSharingError} : Command.fromStr line = .error e → Shown n k line (.refused e)
  | answered {command : Command} {result : Except FileSharingError CommandResponse} :
      Command.fromStr line = .ok command → (⟨k⟩, result) ∈ n.answered →
      ⟨UInt64.ofNat k, command, ⟨k⟩⟩ ∈ n.received →
      Shown n k line (.ofResult result)

/-- The output belongs to the line, the command with number `k` if it is
one. -/
def Explained (fits : String → Bool) (tr : Trace Node NodeLabel) (k : Nat) (line : String) :
    Printed → Prop
  | .refused e => Command.fromStr line = .error e
  | .response response => ∃ command, Command.fromStr line = .ok command ∧
      response.commandRequestId = UInt64.ofNat k ∧
      Justified fits tr ⟨UInt64.ofNat k, command, ⟨k⟩⟩ response.result
  | .error e => ∃ command, Command.fromStr line = .ok command ∧
      ∃ t ∈ tr, FoundNobody fits ⟨UInt64.ofNat k, command, ⟨k⟩⟩ e t

theorem Shown.explained {config : FileGetConfig} {debug : Bool} {fits : String → Bool}
    {start : Started config debug} {tr : Trace Node NodeLabel} {n : Node}
    (h : (nodeMachine fits start).Run tr n) {k : Nat} {line : String} {output : Printed}
    (hshown : Shown n k line output) : Explained fits tr k line output := by
  cases hshown with
  | refused hline => exact hline
  | @answered command result hline hresult hreceived =>
    cases result with
    | ok response =>
      exact ⟨command, hline, (run_uncrossed h).justified _ hreceived response hresult⟩
    | error e => exact ⟨command, hline, run_foundNobody h hreceived hresult⟩

/-- The lines `main` is done with. -/
def Shell.doneLines (s : Shell) : List String :=
  match s.phase.request? with
  | some _ => s.read.tail
  | none => s.read

theorem Shell.doneLines_of_none (h : s.phase.request? = none) : s.doneLines = s.read := by
  simp [doneLines, h]

theorem Shell.doneLines_of_some {request : CommandRequest}
    (h : s.phase.request? = some request) : s.doneLines = s.read.tail := by
  simp [doneLines, h]

/-- What was shown stays shown. -/
theorem Shown.mono {n n' : Node} (hanswered : n.answered <:+ n'.answered)
    (hreceived : n.received <:+ n'.received) {k : Nat} {line : String} {output : Printed}
    (h : Shown n k line output) : Shown n' k line output := by
  cases h with
  | refused hline => exact .refused hline
  | answered hline hresult hmem =>
    exact .answered hline (hanswered.subset hresult) (hreceived.subset hmem)

/-- A step adds the output of one line, or none. -/
theorem Transcript.step (h : Transcript (Shown s.node) s.doneLines s.printed) (hs : Session s)
    (hn : (requestsOf s.read).length ≤ UInt64.size) (hc : Consistent config debug s.node)
    {tr : Trace Node NodeLabel} (hu : Uncrossed fits tr s.node)
    (hstep : ShellStepped fits debug s a s') :
    Transcript (Shown s'.node) s'.doneLines s'.printed := by
  cases hstep with
  | refused line e hphase hline =>
    have hnone : s.phase.request? = none := by rw [hphase]; rfl
    rw [Shell.doneLines_of_none hnone] at h
    have hdone : Shell.doneLines { s with
        read := line :: s.read
        printed := .refused e :: s.printed } = line :: s.read := Shell.doneLines_of_none hnone
    rw [hdone]
    exact .cons (.refused hline) h
  | asked line command request client channel hphase _ _ _ =>
    have hnone : s.phase.request? = none := by rw [hphase]; rfl
    rw [Shell.doneLines_of_none hnone] at h
    exact h
  | inputEnded input result hphase _ =>
    have hnone : s.phase.request? = none := by rw [hphase]; rfl
    rw [Shell.doneLines_of_none hnone] at h
    exact h
  | sent request hphase _ | canceled request hphase _ _ =>
    have hcur : s.phase.request? = some request := by rw [hphase]; rfl
    rw [Shell.doneLines_of_some hcur] at h
    exact h
  | replied request result hphase hanswer =>
    have hcur : s.phase.request? = some request := by rw [hphase]; rfl
    rw [Shell.doneLines_of_some hcur] at h
    have hmem := hs.received_of_answered hn hu hcur hanswer
    obtain ⟨line, older, hread, hreq⟩ := hs.current hcur
    rw [hread] at h hreq
    obtain ⟨hline, hid, hnumber⟩ := requestsOf_cons hreq
    rw [hnumber] at hanswer
    have hrequest : request = ⟨UInt64.ofNat (requestsOf older).length, request.command,
        ⟨(requestsOf older).length⟩⟩ := by
      rw [← hid, ← hnumber]
    rw [hrequest] at hmem
    have hdone : Shell.doneLines { s with
        phase := .reading
        printed := .ofResult result :: s.printed } = line :: older := hread
    rw [hdone]
    exact .cons (.answered hline hanswer hmem) h
  | node label node ha hok =>
    have hallowed := hs.allowed hn ha
    have hnode := step_nodeStepped hc.ready hallowed hok
    have hreceived : s.node.received <:+ node.received := by
      rw [hnode.received_eq]
      exact List.suffix_append _ _
    exact h.mono fun hshown => hshown.mono hnode.answered_suffix hreceived

/-- What a step of a run starts from. -/
theorem run_session_pre {t : Transition Shell ShellLabel}
    (h : (shellMachine fits start).Run (t :: tr) s)
    (hn : (requestsOf s.read).length ≤ UInt64.size) :
    (requestsOf t.pre.read).length ≤ UInt64.size ∧ Session t.pre ∧
      Consistent config debug t.pre.node ∧ Uncrossed fits (nodeTrace tr) t.pre.node := by
  obtain ⟨hrun, -⟩ := h.tail
  rw [run_linesRead h] at hn
  have hn' := Nat.le_trans (length_requestsOf_linesRead_le t tr) hn
  obtain ⟨hs, -⟩ := run_session hrun hn'
  rw [← run_linesRead hrun] at hn'
  have hinner := run_nodeTrace hrun hn'
  exact ⟨hn', hs, run_consistent hinner, run_uncrossed hinner⟩

theorem run_transcript (h : (shellMachine fits start).Run tr s)
    (hn : (requestsOf s.read).length ≤ UInt64.size) :
    Transcript (Shown s.node) s.doneLines s.printed := by
  induction tr generalizing s with
  | nil =>
    cases h
    exact .nil
  | cons t tr ih =>
    obtain ⟨hn', hs, hc, hu⟩ := run_session_pre h hn
    have hstep := run_shellStepped h
    obtain ⟨hrun, -, -, rfl⟩ := h.tail
    exact (ih hrun hn').step hs hn' hc hu hstep

/-- **The shell answers the lines in their order**, each with one output,
and the output is explained by the line, by the number of the commands
before it and by what the node did. -/
theorem outputs_answer_lines (h : (shellMachine fits start).Run tr s)
    (hn : (requestsOf s.read).length ≤ UInt64.size) :
    Transcript (Explained fits (nodeTrace tr)) s.doneLines s.printed :=
  (run_transcript h hn).mono fun hshown => hshown.explained (run_nodeTrace h hn)

/-- Three lines, and three outputs: an answer, a refusal, an error. -/
theorem outputs_answer_lines_three : ∃ tr s,
    (shellMachine (fun _ => true) (Started.fresh ⟨10⟩ true)).Run tr s ∧
    s.doneLines = ["ls@u", "hello", "register v"] ∧
    s.printed = [.error (.userNotRegistered "u"), .refused .invalidCommand,
      .response ⟨0, .register⟩] ∧
    Transcript (Explained (fun _ => true) (nodeTrace tr)) s.doneLines s.printed := by
  obtain ⟨tr, s, hrun, hP⟩ := Machine.exists_run_of_labels
    (M := shellMachine (fun _ => true) (Started.fresh ⟨10⟩ true))
    [.stdin (.ok (some "register v")), .node (.command ⟨0, .register "v", ⟨0⟩⟩ (.calm 0)), .sent,
      .response, .stdin (.ok (some "hello")), .stdin (.ok (some "ls@u")),
      .node (.command ⟨1, .listFiles "u", ⟨1⟩⟩ (.calm 0)), .sent, .response]
    (fun _ s => s.doneLines = ["ls@u", "hello", "register v"] &&
      s.printed = [.error (.userNotRegistered "u"), .refused .invalidCommand,
        .response ⟨0, .register⟩] && (requestsOf s.read).length = 2)
    (by decide) (by decide)
  simp only [Bool.and_eq_true, decide_eq_true_eq] at hP
  obtain ⟨⟨hdone, hprinted⟩, hlen⟩ := hP
  have hn : (requestsOf s.read).length ≤ UInt64.size := by
    rw [hlen]
    decide
  exact ⟨tr, s, hrun, hdone, hprinted, outputs_answer_lines hrun hn⟩

/-- **The client keeps the contract the loop relies on**: what the node
does inside a run of the shell is a run of the node, with ids and senders
of their own, and the loop has received the commands of the lines in their
order, but perhaps for the newest. -/
theorem client_keeps_contract (h : (shellMachine fits start).Run tr s)
    (hn : (requestsOf s.read).length ≤ UInt64.size) :
    (nodeMachine fits start).Run (nodeTrace tr) s.node ∧
      s.node.received <:+ requestsOf s.read ∧
      (requestsOf s.read).length ≤ s.node.received.length + 1 := by
  obtain ⟨hs, -⟩ := run_session h (run_linesRead h ▸ hn)
  refine ⟨run_nodeTrace h hn, hs.received_suffix, ?_⟩
  cases hs.handed with
  | received _ hall => exact hall ▸ Nat.le_succ _
  | queued _ _ _ _ hall | dropped _ _ _ _ hall => exact hall ▸ Nat.le_refl _

/-- **One command at a time.** What the loop keeps is the command `main`
waits for and nothing else, and the two indexes have one entry together at
most. -/
theorem one_command_at_a_time (h : (shellMachine fits start).Run tr s)
    (hn : (requestsOf s.read).length ≤ UInt64.size) :
    (∀ k request, s.node.loop.pendingCommandRequests.lookup k = some request →
      s.phase.request? = some request) ∧
    (∀ i j k k', s.node.loop.pendingListFiles.lookup i = some k →
      s.node.loop.pendingListFiles.lookup j = some k' → i = j) ∧
    (∀ r r' k k', s.node.loop.pendingFileGets.lookup r = some k →
      s.node.loop.pendingFileGets.lookup r' = some k' → r = r') ∧
    ∀ i r k k', s.node.loop.pendingListFiles.lookup i = some k →
      s.node.loop.pendingFileGets.lookup r ≠ some k' := by
  obtain ⟨hs, -⟩ := run_session h (run_linesRead h ▸ hn)
  have hc := (run_consistent (run_nodeTrace h hn)).correlated
  -- two stored commands are one
  have hone : ∀ {k k' x y}, s.node.loop.pendingCommandRequests.lookup k = some x →
      s.node.loop.pendingCommandRequests.lookup k' = some y → k = k' := by
    intro k k' x y hx hy
    obtain rfl := Option.some.inj ((hs.stored hx).symm.trans (hs.stored hy))
    exact (hc.keyed hx).symm.trans (hc.keyed hy)
  refine ⟨fun k request => hs.stored, ?_, ?_, ?_⟩
  · intro i j k k' hi hj
    obtain ⟨x, hx, -⟩ := hc.listFiles.sound hi
    obtain ⟨y, hy, -⟩ := hc.listFiles.sound hj
    exact hc.listFiles.injective hi (hone hx hy ▸ hj)
  · intro r r' k k' hr hr'
    obtain ⟨x, hx, -⟩ := hc.fileGets.sound hr
    obtain ⟨y, hy, -⟩ := hc.fileGets.sound hr'
    exact hc.fileGets.injective hr (hone hx hy ▸ hr')
  · intro i r k k' hi hr
    obtain ⟨x, hx, -⟩ := hc.listFiles.sound hi
    obtain ⟨y, hy, -⟩ := hc.fileGets.sound hr
    exact hc.disjoint hi (hone hx hy ▸ hr)

/-- A `GetFile` on its way after another command: the hypotheses, and the
entry of its request. -/
theorem exists_fetching_shell : ∃ tr s,
    (shellMachine (fun _ => true) (Started.fresh ⟨10⟩ true)).Run tr s ∧
    (requestsOf s.read).length ≤ UInt64.size ∧
    s.node.loop.pendingFileGets.lookup (.nth 0) = some 1 ∧
    s.node.received = [⟨1, .getFile "u" "f", ⟨1⟩⟩, ⟨0, .listFiles "v", ⟨0⟩⟩] := by
  obtain ⟨tr, s, hrun, hP⟩ := Machine.exists_run_of_labels
    (M := shellMachine (fun _ => true) (Started.fresh ⟨10⟩ true))
    [.node (.event (.rendezvous (.discovered [⟨⟨"u"⟩, ⟨7⟩, [⟨"a"⟩]⟩])) (.calm 0)),
      .stdin (.ok (some "ls@v")), .node (.command ⟨0, .listFiles "v", ⟨0⟩⟩ (.calm 0)),
      .sent, .response, .stdin (.ok (some "get@u->f")),
      .node (.command ⟨1, .getFile "u" "f", ⟨1⟩⟩ (.calm 0))]
    (fun _ s => decide (s.node.loop.pendingFileGets.lookup (.nth 0) = some 1 ∧
      s.node.received = [⟨1, .getFile "u" "f", ⟨1⟩⟩, ⟨0, .listFiles "v", ⟨0⟩⟩] ∧
      (requestsOf s.read).length = 2))
    (by decide) (by decide)
  obtain ⟨hentry, hreceived, hlen⟩ := of_decide_eq_true hP
  refine ⟨tr, s, hrun, ?_, hentry, hreceived⟩
  rw [hlen]
  decide

/-- While a `GetFile` is on its way, the second command of two. -/
theorem client_keeps_contract_fetching : ∃ tr s,
    (shellMachine (fun _ => true) (Started.fresh ⟨10⟩ true)).Run tr s ∧
    (nodeMachine (fun _ => true) (Started.fresh ⟨10⟩ true)).Run (nodeTrace tr) s.node ∧
    s.node.received = [⟨1, .getFile "u" "f", ⟨1⟩⟩, ⟨0, .listFiles "v", ⟨0⟩⟩] ∧
    s.node.received <:+ requestsOf s.read := by
  obtain ⟨tr, s, hrun, hn, -, hreceived⟩ := exists_fetching_shell
  obtain ⟨hnode, hsuffix, -⟩ := client_keeps_contract hrun hn
  exact ⟨tr, s, hrun, hnode, hreceived, hsuffix⟩

theorem one_command_at_a_time_fetching : ∃ tr s,
    (shellMachine (fun _ => true) (Started.fresh ⟨10⟩ true)).Run tr s ∧
    s.node.loop.pendingFileGets.lookup (.nth 0) = some 1 ∧
    ∀ i k, s.node.loop.pendingListFiles.lookup i ≠ some k := by
  obtain ⟨tr, s, hrun, hn, hentry, -⟩ := exists_fetching_shell
  obtain ⟨-, -, -, hboth⟩ := one_command_at_a_time hrun hn
  exact ⟨tr, s, hrun, hentry, fun i k hi => hboth i _ k _ hi hentry⟩

/-! ## A loop that has stopped -/

/-- **`main` panics when the loop has stopped, and then only.** The loop
has returned an error, the command was never answered, and it was the
newest line. Nothing happens after that. -/
theorem panicked_by_stop {request : CommandRequest} (h : (shellMachine fits start).Run tr s)
    (hn : (requestsOf s.read).length ≤ UInt64.size) (hphase : s.phase = .panicked request) :
    (∃ e, s.node.stopped = some (.err e)) ∧
      (∀ result, (request.responseSender, result) ∉ s.node.answered) ∧
      (∃ line older, s.read = line :: older ∧ Command.fromStr line = .ok request.command) ∧
      ∀ a, s.Allowed a = false := by
  obtain ⟨hs, -⟩ := run_session h (run_linesRead h ▸ hn)
  have hc := run_consistent (run_nodeTrace h hn)
  obtain ⟨hstop, hnone⟩ := hs.panicked hphase
  refine ⟨?_, hnone, ?_, ?_⟩
  · cases hended : s.node.stopped with
    | none => exact absurd hended hstop
    | some ended =>
      cases ended with
      | err e => exact ⟨e, rfl⟩
      | panic p => exact absurd hended (hc.noPanic p)
  · obtain ⟨line, older, hread, hreq⟩ := hs.current (by rw [hphase]; rfl)
    rw [hread] at hreq
    exact ⟨line, older, hread, (requestsOf_cons hreq).1⟩
  · intro a
    cases a with
    | stdin _ | sent | response => simp [Shell.Allowed, hphase]
    | node label => cases label <;> simp [Shell.Allowed, hphase, Phase.isRunning]

/-- A user name that is too long for a namespace. -/
theorem panicked_by_stop_register : ∃ tr s,
    (shellMachine (fun _ => false) (Started.fresh ⟨10⟩ true)).Run tr s ∧
    s.read = ["register v"] ∧ (∃ e, s.node.stopped = some (.err e)) ∧
    ∀ a, s.Allowed a = false := by
  obtain ⟨tr, s, hrun, hP⟩ := Machine.exists_run_of_labels
    (M := shellMachine (fun _ => false) (Started.fresh ⟨10⟩ true))
    [.stdin (.ok (some "register v")), .node (.command ⟨0, .register "v", ⟨0⟩⟩ (.calm 0)), .sent,
      .response]
    (fun _ s => s.read = ["register v"] && !s.phase.isRunning &&
      s.phase.request? = some ⟨0, .register "v", ⟨0⟩⟩)
    (by decide) (by decide)
  simp only [Bool.and_eq_true, decide_eq_true_eq, Bool.not_eq_true'] at hP
  obtain ⟨⟨hread, hover⟩, hcur⟩ := hP
  have hphase : s.phase = .panicked ⟨0, .register "v", ⟨0⟩⟩ := by
    cases h : s.phase with
    | panicked request =>
      rw [h] at hcur
      exact congrArg _ (Option.some.inj hcur)
    | returned _ | reading =>
      rw [h] at hcur
      cases hcur
    | sending _ | awaiting _ =>
      rw [h] at hover
      cases hover
  have hn : (requestsOf s.read).length ≤ UInt64.size := by
    rw [hread]
    decide
  obtain ⟨hstop, -, -, hnothing⟩ := panicked_by_stop hrun hn hphase
  exact ⟨tr, s, hrun, hread, hstop, hnothing⟩

/-! ## A node at rest -/

/-- What connection tasks do by themselves: they go on and count the
requests that come in, and all else is as it was. -/
structure System.TasksMoved (s s' : System) : Prop where
  fileGet : s'.fileGet =
    { s.fileGet with inboundIdGenerator := s'.fileGet.inboundIdGenerator }
  links : s'.links.map (fun l => (l.id, l.peer)) = s.links.map fun l => (l.id, l.peer)
  usedIds : s'.usedIds = s.usedIds
  dials : s'.dials = s.dials
  responders : s'.responders = s.responders

theorem System.TasksMoved.refl (s : System) : s.TasksMoved s := ⟨rfl, rfl, rfl, rfl, rfl⟩

theorem System.TasksMoved.trans {s s' s'' : System} (h : s.TasksMoved s') (h' : s'.TasksMoved s'') :
    s.TasksMoved s'' where
  fileGet := by
    rw [h'.fileGet, h.fileGet]
  links := h'.links.trans h.links
  usedIds := h'.usedIds.trans h.usedIds
  dials := h'.dials.trans h.dials
  responders := h'.responders.trans h.responders

/-- A change of one link that keeps its id and its peer. -/
theorem System.updateLink_links {s : System} {c : ConnectionId} {f : Link → Link}
    (h : ∀ l, (f l).id = l.id ∧ (f l).peer = l.peer) :
    (s.updateLink c f).links.map (fun l => (l.id, l.peer)) =
      s.links.map fun l => (l.id, l.peer) := by
  simp only [System.updateLink, List.map_map]
  refine List.map_congr_left fun l _ => ?_
  by_cases hid : l.id = c
  · simp [hid, h l]
  · simp [hid]

theorem Stepped.tasksMoved {s s' : System} {label : Label} (htask : Node.isTask label = true)
    (h : Stepped s label s') : s.TasksMoved s' := by
  cases h with
  | link a c f hf =>
    refine ⟨rfl, System.updateLink_links fun l => ?_, rfl, rfl, rfl⟩
    exact ⟨(hf.keeps l).1, (hf.keeps l).2.1⟩
  | openInbound l hl =>
    exact ⟨rfl, System.updateLink_links (s := s) fun k => ⟨rfl, rfl⟩, rfl, rfl, rfl⟩
  | _ => cases htask

/-- What may become of a node whose loop has stopped: the tasks of its
connections go on, until the swarm is gone, and what is in flight may be
lost. -/
structure Node.AtRest (n n' : Node) : Prop where
  loop : n'.loop = n.loop.withSwarm n'.loop.swarm
  swarm : n.loop.swarm.TasksMoved n'.loop.swarm
  received : n'.received = n.received
  answered : n'.answered = n.answered
  discovers : n'.discovers ≤ n.discovers
  listFilesSent : n'.listFilesSent = n.listFilesSent
  listFilesOpen : List.Sublist n'.listFilesOpen n.listFilesOpen
  stopped : n'.stopped = n.stopped
  gone : n.swarmGone = true → n' = n

theorem Node.AtRest.refl (n : Node) : n.AtRest n where
  loop := rfl
  swarm := .refl _
  received := rfl
  answered := rfl
  discovers := Nat.le_refl _
  listFilesSent := rfl
  listFilesOpen := .refl _
  stopped := rfl
  gone _ := rfl

theorem Node.AtRest.trans {n n' n'' : Node} (h : n.AtRest n') (h' : n'.AtRest n'') :
    n.AtRest n'' where
  loop := by
    rw [h'.loop, h.loop]
    rfl
  swarm := h.swarm.trans h'.swarm
  received := h'.received.trans h.received
  answered := h'.answered.trans h.answered
  discovers := Nat.le_trans h'.discovers h.discovers
  listFilesSent := h'.listFilesSent.trans h.listFilesSent
  listFilesOpen := h'.listFilesOpen.trans h.listFilesOpen
  stopped := h'.stopped.trans h.stopped
  gone hgone := by
    have heq := h.gone hgone
    subst heq
    exact h'.gone hgone

/-- **A node whose loop has stopped only lets its tasks go on.** -/
theorem NodeStepped.atRest {n n' : Node} {label : NodeLabel} (hm : Mirror n.loop.swarm)
    (hstop : n.stopped ≠ none) (ha : n.Allowed label = true)
    (h : NodeStepped fits debug n label n') : n.AtRest n' := by
  cases label with
  | command _ _ | event _ _ | pollFileGet _ | lost _ => simp [Node.Allowed, hstop] at ha
  | swarm label =>
    cases h with
    | swarm _ swarm _ hallowed hs =>
      have htask : Node.isTask label = true ∧ n.swarmGone = false := by
        simp only [Node.Allowed, Bool.and_eq_true, Bool.or_eq_true, Bool.not_eq_true',
          Option.isNone_iff_eq_none, hstop, false_or] at ha
        exact ha.2
      have hmoved : n.loop.swarm.TasksMoved swarm :=
        (step_stepped hm hallowed hs).tasksMoved htask.1
      have hdiscovers : (n.withSwarm swarm).discovers ≤ n.discovers := by
        unfold Node.withSwarm
        dsimp only
        split <;> simp
      refine ⟨rfl, hmoved, rfl, rfl, hdiscovers, rfl, List.filter_sublist, rfl, fun hgone => ?_⟩
      rw [htask.2] at hgone
      cases hgone
  | dropSwarm =>
    cases h with
    | dropSwarm _ =>
      refine ⟨rfl, .refl _, rfl, rfl, Nat.le_refl _, rfl, .refl _, rfl, fun hgone => ?_⟩
      simp [Node.Allowed, hgone] at ha

theorem run_atRest {newer older : Trace Node NodeLabel} {n₀ n : Node}
    (h₀ : (nodeMachine fits start).Run older n₀)
    (h : (nodeMachine fits start).Run (newer ++ older) n) (hstop : n₀.stopped ≠ none) :
    n₀.AtRest n := by
  induction newer generalizing n with
  | nil =>
    obtain rfl : n = n₀ := h.eq_of_trace h₀
    exact .refl n
  | cons t newer ih =>
    obtain ⟨hc, ha, hstep⟩ := run_nodeStepped h
    obtain ⟨hrun, -, -, rfl⟩ := h.tail
    have hrest := ih hrun
    exact hrest.trans (hstep.atRest hc.follows.mirror (hrest.stopped ▸ hstop) ha)

/-- What is left after the loop stopped between two commands: the node at
rest, lines that are refused, and perhaps a command it never saw. -/
structure Unserved (s₀ s : Shell) : Prop where
  node : s₀.node.AtRest s.node
  printed : ∃ refusals, s.printed = List.map .refused refusals ++ s₀.printed
  unseen : ∀ {request}, s.phase.request? = some request → request ∉ s.node.received

theorem Unserved.step {s₀ s' : Shell} {a : ShellLabel} (hu : Unserved s₀ s)
    (hstop : s₀.node.stopped ≠ none) (hs : Session s)
    (hn : (requestsOf s.read).length ≤ UInt64.size) (hc : Consistent config debug s.node)
    {inner : Trace Node NodeLabel} (huncrossed : Uncrossed fits inner s.node)
    (h : ShellStepped fits debug s a s') : Unserved s₀ s' := by
  obtain ⟨hnode, ⟨refusals, hprinted⟩, hunseen⟩ := hu
  cases h with
  | refused line e hphase _ =>
    exact ⟨hnode, ⟨e :: refusals, by simp [hprinted]⟩, hunseen⟩
  | asked line command request client channel hphase hline hmake _ =>
    refine ⟨hnode, ⟨refusals, hprinted⟩, fun hcur hmem => ?_⟩
    obtain rfl := Option.some.inj hcur
    -- its sender is the next number
    obtain ⟨-, hall⟩ := hs.all_received (by rw [hphase]; rfl)
    obtain ⟨-, rfl⟩ := Prod.mk.inj hmake
    have hmem' := hall ▸ hmem
    have hlt := (mem_requestsOf hmem').1
    rw [← hs.numbered] at hlt
    exact Nat.lt_irrefl _ hlt
  | inputEnded input result _ _ => exact ⟨hnode, ⟨refusals, hprinted⟩, fun hcur => by cases hcur⟩
  | sent request hphase _ | canceled request hphase _ _ =>
    refine ⟨hnode, ⟨refusals, hprinted⟩, fun hcur => hunseen ?_⟩
    rw [hphase]
    exact hcur
  | replied request result hphase hanswer =>
    have hcur : s.phase.request? = some request := by rw [hphase]; rfl
    exact absurd (hs.received_of_answered hn huncrossed hcur hanswer) (hunseen hcur)
  | node label node ha hok =>
    have hallowed := hs.allowed hn ha
    have hstop' : s.node.stopped ≠ none := hnode.stopped ▸ hstop
    have hrest := (step_nodeStepped hc.ready hallowed hok).atRest hc.follows.mirror hstop' hallowed
    exact ⟨hnode.trans hrest, ⟨refusals, hprinted⟩, fun hcur hmem =>
      hunseen hcur (hrest.received ▸ hmem)⟩

/-- **A loop that has stopped serves nobody.** When it has stopped while
`main` reads, everything printed from then on refuses a line that is no
command, and the node is at rest: only its tasks go on, and once the swarm
is gone it stays as it is. -/
theorem stopped_serves_nothing {s₀ : Shell} (h₀ : (shellMachine fits start).Run older s₀)
    (h : (shellMachine fits start).Run (newer ++ older) s)
    (hn : (requestsOf s.read).length ≤ UInt64.size) (hstop : s₀.node.stopped ≠ none)
    (hidle : s₀.phase.request? = none) :
    s₀.node.AtRest s.node ∧
      ∃ refusals, s.printed = List.map .refused refusals ++ s₀.printed := by
  have hu : Unserved s₀ s := by
    induction newer generalizing s with
    | nil =>
      obtain rfl : s = s₀ := h.eq_of_trace h₀
      exact ⟨.refl _, ⟨[], rfl⟩, fun hcur => by simp [hidle] at hcur⟩
    | cons t newer ih =>
      obtain ⟨hn', hs, hc, huncrossed⟩ := run_session_pre h hn
      have hstep := run_shellStepped h
      obtain ⟨hrun, -, -, rfl⟩ := h.tail
      exact (ih hrun hn').step hstop hs hn' hc huncrossed hstep
  exact ⟨hu.node, hu.printed⟩

/-- A file system whose directories cannot be read. -/
def Env.unreadable : Env := { Env.calm 0 with readDir := fun _ => .error ⟨.notFound⟩ }

/-- A peer asks for the files, and they cannot be listed; the next line is
refused, and the one after that panics `main`. -/
theorem stopped_serves_nothing_unreadable : ∃ tr s,
    (shellMachine (fun _ => true) (Started.fresh ⟨10⟩ true)).Run tr s ∧
    s.read = ["ls_peers", "hello"] ∧ s.phase.isRunning = false ∧
    ∃ refusals, s.printed = List.map .refused refusals := by
  obtain ⟨newer, t, older, s, hrun, -, -, hP⟩ := Machine.exists_run_split
    (M := shellMachine (fun _ => true) (Started.fresh ⟨10⟩ true)) []
    (.node (.event (.listFiles (.request ⟨7⟩ ⟨0⟩)) .unreadable))
    [.stdin (.ok (some "hello")), .stdin (.ok (some "ls_peers")), .sent, .response]
    (fun _ t s => s.read = ["ls_peers", "hello"] && !s.phase.isRunning &&
      t.post.node.stopped.isSome && t.post.phase.request? = none && t.post.printed = [])
    (by decide) (by decide)
  simp only [Bool.and_eq_true, decide_eq_true_eq, Bool.not_eq_true'] at hP
  obtain ⟨⟨⟨⟨hread, hover⟩, hstop⟩, hidle⟩, hprinted⟩ := hP
  have hn : (requestsOf s.read).length ≤ UInt64.size := by
    rw [hread]
    decide
  obtain ⟨-, refusals, hrefusals⟩ := stopped_serves_nothing
    (hrun.of_suffix (List.suffix_append newer _)) hrun hn (Option.isSome_iff_ne_none.mp hstop) hidle
  rw [hprinted, List.append_nil] at hrefusals
  exact ⟨_, s, hrun, hread, hover, refusals, hrefusals⟩

/-! ## Commands that hang -/

section Failed

variable {t : Transition Shell ShellLabel} {p : PeerId} {r : RequestId} {k : UInt64}
  {request : CommandRequest} {userName fileName : String} {label : Label}

theorem nodeTrace_append (hlabel : t.label = .node (.swarm label)) :
    nodeTrace (newer ++ t :: older) =
      nodeTrace newer ++ ⟨t.pre.node, .swarm label, t.post.node⟩ :: nodeTrace older := by
  simp [nodeTrace, nodeTransition?, hlabel, ShellLabel.ofNode?, List.filterMap_append]

/-- The command whose request failed has no answer. -/
theorem failed_unanswered (h : (shellMachine fits start).Run (newer ++ t :: older) s)
    (hn : (requestsOf s.read).length ≤ UInt64.size) (hlabel : t.label = .node (.swarm label))
    (hawait : t.pre.node.loop.Awaits r k request userName fileName)
    (hfail : FailsFileGet t.pre.node.loop.swarm p r label)
    (result : Except FileSharingError CommandResponse) :
    (request.responseSender, result) ∉ s.node.answered := by
  intro hanswer
  have hinner := run_nodeTrace h hn
  rw [nodeTrace_append hlabel] at hinner
  obtain ⟨hlost, -⟩ := run_lost hinner hawait rfl hfail
  exact (run_uncrossed hinner).unanswered hlost.2.1 (List.mem_map.mpr ⟨_, hanswer, rfl⟩)

/-- **A `GetFile` whose request fails freezes the program.** From the step
that fails the request on, whatever happens, no line is read and nothing
is printed. -/
theorem failed_getFile_freezes (h : (shellMachine fits start).Run (newer ++ t :: older) s)
    (hn : (requestsOf s.read).length ≤ UInt64.size) (hlabel : t.label = .node (.swarm label))
    (hawait : t.pre.node.loop.Awaits r k request userName fileName)
    (hfail : FailsFileGet t.pre.node.loop.swarm p r label) :
    s.read = t.pre.read ∧ s.printed = t.pre.printed ∧ s.phase.request? = some request := by
  induction newer generalizing s with
  | nil =>
    obtain ⟨-, hs, -⟩ := run_session_pre h hn
    have hstep := run_shellStepped h
    obtain ⟨-, -, -, rfl⟩ := h.tail
    obtain ⟨pre, tlabel, post⟩ := t
    dsimp only at hlabel hawait hs hstep
    subst hlabel
    cases hstep with
    | node _ node _ _ => exact ⟨rfl, rfl, hs.stored hawait.2.1⟩
  | cons u newer ih =>
    obtain ⟨hn', -⟩ := run_session_pre h hn
    have hstep := run_shellStepped h
    obtain ⟨hrun, -, -, rfl⟩ := h.tail
    obtain ⟨hread, hprinted, hcur⟩ := ih hrun hn'
    have hunanswered := failed_unanswered hrun hn' hlabel hawait hfail
    obtain ⟨upre, ulabel, upost⟩ := u
    dsimp only at hstep hread hprinted hcur hunanswered
    cases hstep with
    | refused _ _ hphase _ | asked _ _ _ _ _ hphase _ _ _ | inputEnded _ _ hphase _ =>
      rw [hphase] at hcur
      cases hcur
    | sent x hphase _ | canceled x hphase _ _ =>
      rw [hphase] at hcur
      exact ⟨hread, hprinted, hcur⟩
    | replied x result hphase hanswer =>
      rw [hphase] at hcur
      obtain rfl := Option.some.inj hcur
      exact absurd hanswer (hunanswered result)
    | node _ _ _ _ => exact ⟨hread, hprinted, hcur⟩

end Failed

/-- `u` cannot be reached: the dial for the `GetFile` fails. -/
theorem failed_getFile_freezes_unreachable : ∃ tr s,
    (shellMachine (fun _ => true) (Started.fresh ⟨10⟩ true)).Run tr s ∧
    s.read = ["get@u->f"] ∧ s.printed = [] ∧
    s.phase.request? = some ⟨0, .getFile "u" "f", ⟨0⟩⟩ := by
  obtain ⟨newer, t, older, s, hrun, hlabel, -, hP⟩ := Machine.exists_run_split
    (M := shellMachine (fun _ => true) (Started.fresh ⟨10⟩ true))
    [.node (.event (.rendezvous (.discovered [⟨⟨"u"⟩, ⟨7⟩, [⟨"a"⟩]⟩])) (.calm 0)),
      .stdin (.ok (some "get@u->f")), .node (.command ⟨0, .getFile "u" "f", ⟨0⟩⟩ (.calm 0)),
      .node (.pollFileGet (.calm 0))]
    (.node (.swarm (.dialFailure (some ⟨7⟩) true)))
    [.sent, .node (.pollFileGet (.calm 0))]
    (fun _ t s => (requestsOf s.read).length = 1 && t.pre.read = ["get@u->f"] &&
      t.pre.printed = [] && t.pre.node.loop.pendingFileGets.lookup (.nth 0) = some 0 &&
      t.pre.node.loop.pendingCommandRequests.lookup 0 = some ⟨0, .getFile "u" "f", ⟨0⟩⟩ &&
      (t.pre.node.loop.swarm.fileGet.buffer ⟨7⟩).any (·.requestId = .nth 0))
    (by decide) (by decide)
  simp only [Bool.and_eq_true, decide_eq_true_eq, List.any_eq_true] at hP
  obtain ⟨⟨⟨⟨⟨hlen, hread⟩, hprinted⟩, hentry⟩, hstored⟩, request, hmem, hid⟩ := hP
  have hn : (requestsOf s.read).length ≤ UInt64.size := by
    rw [hlen]
    decide
  have hawait : t.pre.node.loop.Awaits (.nth 0) 0 ⟨0, .getFile "u" "f", ⟨0⟩⟩ "u" "f" :=
    ⟨hentry, hstored, rfl⟩
  have hfail : FailsFileGet t.pre.node.loop.swarm ⟨7⟩ (.nth 0) (.dialFailure (some ⟨7⟩) true) :=
    .dialFailed true ⟨request, hmem, hid⟩
  obtain ⟨hread', hprinted', hcur⟩ := failed_getFile_freezes hrun hn hlabel hawait hfail
  exact ⟨_, s, hrun, hread'.trans hread, hprinted'.trans hprinted, hcur⟩

end FileSharing
