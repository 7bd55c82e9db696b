/-
FileSharing.Network.Session — the client keeps the contract the node relies
on.

A node assumes that the commands it gets have ids and senders of their own.
`Client` sees to it: it counts. `requestsOf` reads the requests off the
lines, the k-th with id and sender k, and `Session` is the invariant of a
shell: what the loop has received are these requests, but perhaps for the
newest, which is in the channel or was dropped with the loop
(`HandedOver`); a command that is stored is the one `main` waits for; and
while the loop runs, somebody holds the sender `main` waits for, or has
used it.

So every run of the shell drives a run of the node (`shellDrives`), as long
as the 64-bit counter has not gone round. What is proved of all runs of the
node is true of the program.
-/
import FileSharing.Lib.Simulation
import FileSharing.Network.Client
import FileSharing.Network.LostCommands

namespace FileSharing

open Lib

/-! ## Requests and lines -/

/-- The requests the client makes of the lines read; both newest first. -/
def requestsOf : List String → List CommandRequest
  | [] => []
  | line :: older =>
    match Command.fromStr line with
    | .error _ => requestsOf older
    | .ok command =>
      let k := (requestsOf older).length
      ⟨UInt64.ofNat k, command, ⟨k⟩⟩ :: requestsOf older

theorem requestsOf_refused {line : String} {e : FileSharingError}
    (h : Command.fromStr line = .error e) (older : List String) :
    requestsOf (line :: older) = requestsOf older := by
  simp [requestsOf, h]

theorem requestsOf_command {line : String} {command : Command}
    (h : Command.fromStr line = .ok command) (older : List String) :
    requestsOf (line :: older) =
      ⟨UInt64.ofNat (requestsOf older).length, command, ⟨(requestsOf older).length⟩⟩ ::
        requestsOf older := by
  simp [requestsOf, h]

/-- Requests are numbered from 0, and the number is id and sender. -/
theorem mem_requestsOf {lines : List String} {x : CommandRequest} (h : x ∈ requestsOf lines) :
    x.responseSender.key < (requestsOf lines).length ∧
      x.commandRequestId = UInt64.ofNat x.responseSender.key := by
  induction lines with
  | nil => simp [requestsOf] at h
  | cons line older ih =>
    cases hline : Command.fromStr line with
    | error e =>
      rw [requestsOf_refused hline] at h ⊢
      exact ih h
    | ok command =>
      rw [requestsOf_command hline] at h ⊢
      rcases List.mem_cons.mp h with rfl | h
      · simp
      · have hx := ih h
        exact ⟨Nat.lt_succ_of_lt hx.1, hx.2⟩

/-- A line that adds a request is a command, and the request is its. -/
theorem requestsOf_cons {line : String} {older : List String} {request : CommandRequest}
    (h : requestsOf (line :: older) = request :: requestsOf older) :
    Command.fromStr line = .ok request.command ∧
      request.commandRequestId = UInt64.ofNat (requestsOf older).length ∧
      request.responseSender = ⟨(requestsOf older).length⟩ := by
  cases hline : Command.fromStr line with
  | error e =>
    rw [requestsOf_refused hline] at h
    have hlen := congrArg List.length h
    simp at hlen
  | ok command =>
    rw [requestsOf_command hline] at h
    obtain ⟨rfl, -⟩ := List.cons.inj h
    exact ⟨rfl, rfl, rfl⟩

/-- The newest request has an id and a sender that no older one has, until
the counter comes round. -/
theorem requestsOf_fresh {lines older : List String} {request : CommandRequest}
    (h : requestsOf lines = request :: requestsOf older)
    (hnumber : request.responseSender = ⟨(requestsOf older).length⟩)
    (hid : request.commandRequestId = UInt64.ofNat (requestsOf older).length)
    (hn : (requestsOf lines).length ≤ UInt64.size) {x : CommandRequest}
    (hx : x ∈ requestsOf older) :
    x.commandRequestId ≠ request.commandRequestId ∧
      x.responseSender ≠ request.responseSender := by
  obtain ⟨hlt, hxid⟩ := mem_requestsOf hx
  rw [h, List.length_cons] at hn
  constructor
  · rw [hxid, hid]
    intro heq
    have hnat := congrArg UInt64.toNat heq
    simp only [UInt64.toNat_ofNat'] at hnat
    unfold UInt64.size at hn
    omega
  · rw [hnumber]
    intro heq
    rw [heq] at hlt
    exact Nat.lt_irrefl _ hlt

/-! ## Answers -/

theorem Node.isSome_answerTo {n : Node} {sender : SenderId} :
    (n.answerTo sender).isSome = true ↔ ∃ result, (sender, result) ∈ n.answered := by
  unfold answerTo
  rw [Option.isSome_map, List.find?_isSome]
  constructor
  · intro h
    obtain ⟨⟨sender', result⟩, hmem, heq⟩ := h
    have hsame : sender' = sender := by simpa using heq
    exact ⟨result, hsame ▸ hmem⟩
  · intro h
    obtain ⟨result, hmem⟩ := h
    exact ⟨_, hmem, by simp⟩

theorem Node.mem_of_answerTo {n : Node} {sender : SenderId}
    {result : Except FileSharingError CommandResponse} (h : n.answerTo sender = some result) :
    (sender, result) ∈ n.answered := by
  obtain ⟨⟨sender', result'⟩, hfind, rfl⟩ := Option.map_eq_some_iff.mp h
  have hsame : sender' = sender := by simpa using List.find?_some hfind
  exact hsame ▸ List.mem_of_find?_eq_some hfind

/-! ## What a step of the node does to the commands -/

/-- The requests a node's step takes from the channel. -/
def NodeLabel.taken : NodeLabel → List CommandRequest
  | .command request _ => [request]
  | _ => []

namespace NodeStepped

variable {fits : String → Bool} {debug : Bool} {n n' : Node} {a : NodeLabel}

/-- What a node has received is what it took. -/
theorem received_eq (h : NodeStepped fits debug n a n') :
    n'.received = a.taken ++ n.received := by
  cases h with
  | quiet event env _ _ _ => exact n.settle_received event
  | lost what _ => exact n.close_received what
  | _ => rfl

/-- A loop stops with an error, and stays stopped. -/
theorem stopped_cases (h : NodeStepped fits debug n a n') :
    n'.stopped = n.stopped ∨ ∃ e, n'.stopped = some (.err e) := by
  cases h with
  | failed _ _ e _ => exact Or.inr ⟨e, rfl⟩
  | notListed _ _ _ e _ | notServed _ _ _ _ _ _ e _ _ _ _ => exact Or.inr ⟨.io e, rfl⟩
  | quiet event env _ _ _ => exact Or.inl (n.settle_stopped event)
  | lost what _ => exact Or.inl (n.close_stopped what)
  | _ => exact Or.inl rfl

theorem running_before (h : NodeStepped fits debug n a n') (hrun : n'.stopped = none) :
    n.stopped = none := by
  rcases h.stopped_cases with heq | ⟨e, heq⟩
  · exact heq.symm.trans hrun
  · rw [hrun] at heq
    cases heq

/-- A command that does not stop the loop is stored or answered. -/
theorem stored_or_answered {request : CommandRequest} {env : Env}
    (h : NodeStepped fits debug n (.command request env) n') (hstop : n'.stopped = none) :
    n'.loop.pendingCommandRequests.lookup request.commandRequestId = some request ∨
      ∃ result, (request.responseSender, result) ∈ n'.answered := by
  cases h with
  | failed _ _ e _ => cases hstop
  | answered _ _ result _ => exact Or.inr ⟨result, List.mem_cons_self⟩
  | listPeers _ _ _ | listFiles _ _ _ _ _ _ | getFile _ _ _ _ _ _ _ _ _ _ _ _ =>
    exact Or.inl (lookup_store_self n.loop request)

end NodeStepped

/-! ## The steps of the shell -/

/-- Everything an allowed step can do. What the node's steps can do is for
`NodeStepped` to say. -/
inductive ShellStepped (fits : String → Bool) (debug : Bool) (s : Shell) :
    ShellLabel → Shell → Prop where
  /-- The line is no command. -/
  | refused (line : String) (e : FileSharingError) :
      s.phase = .reading → Command.fromStr line = .error e →
      ShellStepped fits debug s (.stdin (.ok (some line)))
        { s with read := line :: s.read, printed := .refused e :: s.printed }
  /-- The line is a command, and its request goes into the channel, if
  there is one. -/
  | asked (line : String) (command : Command) (request : CommandRequest) (client : Client)
      (channel : Option CommandRequest) :
      s.phase = .reading → Command.fromStr line = .ok command →
      s.client.makeRequest command ⟨s.nextSender⟩ = (client, request) →
      (s.node.stopped = none ∧ channel = some request ∨
        s.node.stopped ≠ none ∧ channel = none) →
      ShellStepped fits debug s (.stdin (.ok (some line)))
        { s with
          read := line :: s.read
          client := client
          nextSender := s.nextSender + 1
          phase := .sending request
          channel := channel }
  /-- There is no further line. -/
  | inputEnded (input : Except IoError (Option String)) (result : Except IoError Unit) :
      s.phase = .reading → (∀ line, input ≠ .ok (some line)) →
      ShellStepped fits debug s (.stdin input) { s with phase := .returned result }
  | sent (request : CommandRequest) :
      s.phase = .sending request → s.channel = none →
      ShellStepped fits debug s .sent { s with phase := .awaiting request }
  | replied (request : CommandRequest) (result : Except FileSharingError CommandResponse) :
      s.phase = .awaiting request → (request.responseSender, result) ∈ s.node.answered →
      ShellStepped fits debug s .response
        { s with phase := .reading, printed := .ofResult result :: s.printed }
  | canceled (request : CommandRequest) :
      s.phase = .awaiting request →
      (∀ result, (request.responseSender, result) ∉ s.node.answered) →
      s.Holds request = false →
      ShellStepped fits debug s .response { s with phase := .panicked request }
  | node (label : NodeLabel) (node : Node) :
      s.Allowed (.node label) = true → s.node.step fits debug label = .ok node →
      ShellStepped fits debug s (.node label) (s.withNode label node)

/-- **Inversion**: every allowed step is one of those `ShellStepped`
lists. -/
theorem step_shellStepped {fits : String → Bool} {debug : Bool} {s s' : Shell} {a : ShellLabel}
    (ha : s.Allowed a = true) (hok : s.step fits debug a = .ok s') :
    ShellStepped fits debug s a s' := by
  cases a with
  | stdin input =>
    have hphase : s.phase = .reading := by
      unfold Shell.Allowed at ha
      dsimp only at ha
      split at ha
      · assumption
      · cases ha
    cases input with
    | error e =>
      obtain rfl : _ = s' := Except.ok.inj hok
      exact .inputEnded _ _ hphase (by simp)
    | ok line? =>
      cases line? with
      | none =>
        obtain rfl : _ = s' := Except.ok.inj hok
        exact .inputEnded _ _ hphase (by simp)
      | some line =>
        obtain rfl : s.handleInput line = s' := Except.ok.inj hok
        unfold Shell.handleInput
        cases hline : Command.fromStr line with
        | error e => exact .refused line e hphase hline
        | ok command =>
          refine .asked line command _ _ _ hphase hline rfl ?_
          cases hstop : s.node.stopped with
          | none => exact Or.inl ⟨rfl, rfl⟩
          | some ended => exact Or.inr ⟨by simp, rfl⟩
  | sent =>
    unfold Shell.Allowed at ha
    unfold Shell.step at hok
    dsimp only at ha hok
    split at ha
    · rename_i request hphase
      simp only [hphase, Except.ok.injEq] at hok
      subst hok
      exact .sent request hphase (Option.isNone_iff_eq_none.mp ha)
    · cases ha
  | response =>
    unfold Shell.Allowed at ha
    unfold Shell.step at hok
    dsimp only at ha hok
    split at ha
    · rename_i request hphase
      simp only [hphase, Except.ok.injEq] at hok
      subst hok
      cases hanswer : s.node.answerTo request.responseSender with
      | some result => exact .replied request result hphase (Node.mem_of_answerTo hanswer)
      | none =>
        simp only [hanswer, Option.isSome_none, Bool.false_or, Bool.not_eq_true'] at ha
        refine .canceled request hphase (fun result hresult => ?_) ha
        have hsome := Node.isSome_answerTo.mpr ⟨result, hresult⟩
        rw [hanswer] at hsome
        cases hsome
    · cases ha
  | node label =>
    unfold Shell.step at hok
    dsimp only at hok
    cases hnode : s.node.step fits debug label with
    | error e => simp [hnode, Except.map] at hok
    | ok node =>
      simp only [hnode, Except.map, Except.ok.injEq] at hok
      subst hok
      exact .node label node ha hnode

/-! ## The invariant -/

/-- How far the newest request has come. -/
inductive HandedOver (s : Shell) : Prop where
  /-- The loop has received all requests. -/
  | received : s.channel = none → s.node.received = requestsOf s.read → HandedOver s
  /-- The newest is in the channel. -/
  | queued (request : CommandRequest) :
      s.channel = some request → s.phase = .sending request → s.node.stopped = none →
      requestsOf s.read = request :: s.node.received → HandedOver s
  /-- The loop stopped, and the newest was dropped with the channel. -/
  | dropped (request : CommandRequest) :
      s.channel = none → s.phase.request? = some request → s.node.stopped ≠ none →
      requestsOf s.read = request :: s.node.received → HandedOver s

/-- What holds between `main`, the channel and the loop. -/
structure Session (s : Shell) : Prop where
  counted : s.client.commandRequestIdGenerator.next = UInt64.ofNat (requestsOf s.read).length
  numbered : s.nextSender = (requestsOf s.read).length
  handed : HandedOver s
  /-- `main` is about the newest line. -/
  current : ∀ {request}, s.phase.request? = some request →
    ∃ line older, s.read = line :: older ∧
      requestsOf s.read = request :: requestsOf older
  /-- The loop keeps no command but this one. -/
  stored : ∀ {k request}, s.node.loop.pendingCommandRequests.lookup k = some request →
    s.phase.request? = some request
  /-- While the loop runs, the sender is not lost. -/
  kept : ∀ {request}, s.node.stopped = none → s.phase.request? = some request →
    s.Holds request = true ∨ ∃ result, (request.responseSender, result) ∈ s.node.answered
  panicked : ∀ {request}, s.phase = .panicked request →
    s.node.stopped ≠ none ∧ ∀ result, (request.responseSender, result) ∉ s.node.answered

theorem Shell.holds_of_channel {s : Shell} {request : CommandRequest}
    (h : s.channel = some request) : s.Holds request = true := by
  simp [Holds, h]

theorem Shell.holds_of_stored {s : Shell} {request : CommandRequest} (hstop : s.node.stopped = none)
    (h : s.node.loop.pendingCommandRequests.lookup request.commandRequestId = some request) :
    s.Holds request = true := by
  simp [Holds, hstop, h]

theorem Shell.holds_cases {s : Shell} {request : CommandRequest} (h : s.Holds request = true) :
    s.channel = some request ∨ s.node.stopped = none ∧
      s.node.loop.pendingCommandRequests.lookup request.commandRequestId = some request := by
  simpa [Holds] using h

namespace Session

variable {config : FileGetConfig} {fits : String → Bool} {debug : Bool} {s : Shell}

/-- What was received is the requests of the lines, or the newest is
missing. -/
theorem received_suffix (hs : Session s) : s.node.received <:+ requestsOf s.read := by
  cases hs.handed with
  | received _ h => exact h ▸ List.suffix_rfl
  | queued _ _ _ _ h | dropped _ _ _ _ h => exact h ▸ List.suffix_cons _ _

/-- Nothing is stored while `main` reads. -/
theorem nothing_stored (hs : Session s) (hnone : s.phase.request? = none) {k : UInt64}
    {request : CommandRequest} : s.node.loop.pendingCommandRequests.lookup k ≠ some request := by
  intro hk
  rw [hs.stored hk] at hnone
  cases hnone

/-- While `main` reads, the loop has received all requests. -/
theorem all_received (hs : Session s) (hnone : s.phase.request? = none) :
    s.channel = none ∧ s.node.received = requestsOf s.read := by
  cases hs.handed with
  | received hch h => exact ⟨hch, h⟩
  | queued request _ hphase _ _ =>
    rw [hphase] at hnone
    cases hnone
  | dropped request _ hphase _ _ =>
    rw [hphase] at hnone
    cases hnone

/-- The request in the channel is new to the loop. -/
theorem channel_new (hs : Session s) (hn : (requestsOf s.read).length ≤ UInt64.size)
    {request : CommandRequest} (h : s.channel = some request) :
    request.commandRequestId ∉ s.node.received.map (·.commandRequestId) ∧
      request.responseSender ∉ s.node.received.map (·.responseSender) := by
  cases hs.handed with
  | received hch _ | dropped _ hch _ _ _ =>
    rw [hch] at h
    cases h
  | queued request' hch hphase _ hreq =>
    obtain rfl : request' = request := Option.some.inj (hch ▸ h)
    obtain ⟨line, older, hread, hcur⟩ := hs.current (by rw [hphase]; rfl)
    rw [(List.cons.inj (hreq.symm.trans hcur)).2]
    rw [hread] at hcur hn
    obtain ⟨-, hid, hnumber⟩ := requestsOf_cons hcur
    constructor
    · intro hmem
      obtain ⟨x, hx, heq⟩ := List.mem_map.mp hmem
      exact (requestsOf_fresh hcur hnumber hid hn hx).1 heq
    · intro hmem
      obtain ⟨x, hx, heq⟩ := List.mem_map.mp hmem
      exact (requestsOf_fresh hcur hnumber hid hn hx).2 heq

/-- **The shell keeps the node's contract.** -/
theorem allowed (hs : Session s) (hn : (requestsOf s.read).length ≤ UInt64.size)
    {label : NodeLabel} (ha : s.Allowed (.node label) = true) : s.node.Allowed label = true := by
  cases label with
  | command request env =>
    simp only [Shell.Allowed, Bool.and_eq_true, decide_eq_true_eq] at ha
    obtain ⟨hid, hsender⟩ := hs.channel_new hn ha.1.2
    simp only [Node.Allowed, Bool.and_eq_true, decide_eq_true_eq]
    exact ⟨⟨⟨ha.1.1.2, hid⟩, hsender⟩, ha.2⟩
  | event _ _ | pollFileGet _ | swarm _ | lost _ | dropSwarm =>
    simp only [Shell.Allowed, Bool.and_eq_true] at ha
    exact ha.2

/-- No older request has the sender `main` waits for. -/
theorem current_fresh (hs : Session s) (hn : (requestsOf s.read).length ≤ UInt64.size)
    {request : CommandRequest} (hcur : s.phase.request? = some request) {x : CommandRequest}
    (hx : x ∈ (requestsOf s.read).tail) : x.responseSender ≠ request.responseSender := by
  obtain ⟨line, older, hread, hreq⟩ := hs.current hcur
  rw [hreq, List.tail_cons] at hx
  rw [hread] at hreq hn
  obtain ⟨-, hid, hnumber⟩ := requestsOf_cons hreq
  exact (requestsOf_fresh hreq hnumber hid hn hx).2

/-- A command that is answered was received. -/
theorem received_of_answered (hs : Session s) (hn : (requestsOf s.read).length ≤ UInt64.size)
    {tr : Trace Node NodeLabel} (hu : Uncrossed fits tr s.node) {request : CommandRequest}
    (hcur : s.phase.request? = some request) {result : Except FileSharingError CommandResponse}
    (h : (request.responseSender, result) ∈ s.node.answered) : request ∈ s.node.received := by
  obtain ⟨line, older, hread, hreq⟩ := hs.current hcur
  obtain ⟨x, hx, hsender⟩ := List.mem_map.mp (hu.known _ h)
  have hall := hs.received_suffix.subset hx
  rw [hreq] at hall
  rcases List.mem_cons.mp hall with rfl | hold
  · exact hx
  · have htail : x ∈ (requestsOf s.read).tail := by
      rw [hreq]
      exact hold
    exact absurd hsender (hs.current_fresh hn hcur htail)

/-! ### Steps -/

theorem refused (hs : Session s) {line : String} {e : FileSharingError}
    (hphase : s.phase = .reading) (hline : Command.fromStr line = .error e) :
    Session { s with read := line :: s.read, printed := .refused e :: s.printed } := by
  have hnone : s.phase.request? = none := by rw [hphase]; rfl
  have hreq := requestsOf_refused hline s.read
  obtain ⟨hch, hall⟩ := hs.all_received hnone
  exact
    { counted := hreq.symm ▸ hs.counted
      numbered := hreq.symm ▸ hs.numbered
      handed := .received hch (hall.trans hreq.symm)
      current := fun h => by simp [hnone] at h
      stored := hs.stored
      kept := fun _ h => by simp [hnone] at h
      panicked := fun h => by simp [hphase] at h }

theorem asked (hs : Session s) {line : String} {command : Command} {request : CommandRequest}
    {client : Client} {channel : Option CommandRequest} (hphase : s.phase = .reading)
    (hline : Command.fromStr line = .ok command)
    (hmake : s.client.makeRequest command ⟨s.nextSender⟩ = (client, request))
    (hch : s.node.stopped = none ∧ channel = some request ∨
      s.node.stopped ≠ none ∧ channel = none) :
    Session { s with
      read := line :: s.read
      client := client
      nextSender := s.nextSender + 1
      phase := .sending request
      channel := channel } := by
  have hnone : s.phase.request? = none := by rw [hphase]; rfl
  have hlines := requestsOf_command hline s.read
  obtain ⟨rfl, rfl⟩ := Prod.mk.inj hmake
  -- the generator and the senders count the commands
  rw [← hs.counted, ← hs.numbered] at hlines
  have hlen := congrArg List.length hlines
  obtain ⟨-, hall⟩ := hs.all_received hnone
  constructor
  case counted =>
    rw [hlen, List.length_cons, UInt64.ofNat_add, ← hs.counted]
    rfl
  case numbered =>
    rw [hlen, List.length_cons, ← hs.numbered]
  case handed =>
    rcases hch with ⟨hstop, rfl⟩ | ⟨hstop, rfl⟩
    · exact .queued _ rfl rfl hstop (hall ▸ hlines)
    · exact .dropped _ rfl rfl hstop (hall ▸ hlines)
  case current =>
    intro x hx
    obtain rfl := Option.some.inj hx
    exact ⟨line, s.read, rfl, hlines⟩
  case stored =>
    intro k x hx
    exact absurd hx (hs.nothing_stored hnone)
  case kept =>
    intro x hstop hx
    rcases hch with ⟨-, rfl⟩ | ⟨hstopped, -⟩
    · exact Or.inl (Shell.holds_of_channel hx)
    · exact absurd hstop hstopped
  case panicked =>
    intro x hx
    cases hx

theorem inputEnded (hs : Session s) {result : Except IoError Unit} (hphase : s.phase = .reading) :
    Session { s with phase := .returned result } := by
  have hnone : s.phase.request? = none := by rw [hphase]; rfl
  obtain ⟨hch, hall⟩ := hs.all_received hnone
  exact
    { counted := hs.counted
      numbered := hs.numbered
      handed := .received hch hall
      current := fun h => by cases h
      stored := fun h => absurd h (hs.nothing_stored hnone)
      kept := fun _ h => by cases h
      panicked := fun h => by cases h }

theorem sent (hs : Session s) {request : CommandRequest} (hphase : s.phase = .sending request)
    (hch : s.channel = none) : Session { s with phase := .awaiting request } := by
  have hsame : s.phase.request? = (Phase.awaiting request).request? := by rw [hphase]; rfl
  constructor
  case counted => exact hs.counted
  case numbered => exact hs.numbered
  case handed =>
    cases hs.handed with
    | received h hall => exact .received h hall
    | queued x h _ _ _ =>
      rw [hch] at h
      cases h
    | dropped x h hx hstop hall => exact .dropped x h (hsame ▸ hx) hstop hall
  case current => exact fun h => hs.current (hsame.trans h)
  case stored => exact fun h => hsame.symm.trans (hs.stored h)
  case kept => exact fun hstop h => hs.kept hstop (hsame.trans h)
  case panicked =>
    intro x hx
    cases hx

theorem replied (hs : Session s) (hn : (requestsOf s.read).length ≤ UInt64.size)
    {tr : Trace Node NodeLabel} (hu : Uncrossed fits tr s.node) {request : CommandRequest}
    {result : Except FileSharingError CommandResponse} (hphase : s.phase = .awaiting request)
    (hanswer : (request.responseSender, result) ∈ s.node.answered) (printed : List Printed) :
    Session { s with phase := .reading, printed := printed } := by
  have hcur : s.phase.request? = some request := by rw [hphase]; rfl
  constructor
  case counted => exact hs.counted
  case numbered => exact hs.numbered
  case handed =>
    cases hs.handed with
    | received h hall => exact .received h hall
    | queued x _ hx _ _ =>
      rw [hphase] at hx
      cases hx
    | dropped x _ _ _ hall =>
      -- a request that was dropped is not answered
      have hreceived := hs.received_of_answered hn hu hcur hanswer
      have htail : request ∈ (requestsOf s.read).tail := by
        rw [hall]
        exact hreceived
      exact absurd rfl (hs.current_fresh hn hcur htail)
  case current => exact fun h => by cases h
  case stored =>
    intro k x hx
    obtain rfl : request = x := Option.some.inj (hcur.symm.trans (hs.stored hx))
    exact absurd (List.mem_map.mpr ⟨_, hanswer, rfl⟩) (hu.unanswered hx)
  case kept => exact fun _ h => by cases h
  case panicked => exact fun h => by cases h

theorem canceled (hs : Session s) {request : CommandRequest} (hphase : s.phase = .awaiting request)
    (hnone : ∀ result, (request.responseSender, result) ∉ s.node.answered)
    (hnot : s.Holds request = false) : Session { s with phase := .panicked request } := by
  have hsame : s.phase.request? = (Phase.panicked request).request? := by rw [hphase]; rfl
  -- a loop that runs would hold the sender
  have hstop : s.node.stopped ≠ none := by
    intro hstop
    rcases hs.kept hstop (hsame.trans rfl) with hholds | ⟨result, hresult⟩
    · rw [hnot] at hholds
      cases hholds
    · exact hnone result hresult
  constructor
  case counted => exact hs.counted
  case numbered => exact hs.numbered
  case handed =>
    cases hs.handed with
    | received h hall => exact .received h hall
    | queued x _ _ hrun _ => exact absurd hrun hstop
    | dropped x h hx hstop hall => exact .dropped x h (hsame ▸ hx) hstop hall
  case current => exact fun h => hs.current (hsame.trans h)
  case stored => exact fun h => hsame.symm.trans (hs.stored h)
  case kept => exact fun hrun _ => absurd hrun hstop
  case panicked =>
    intro x hx
    obtain rfl := Phase.panicked.inj hx
    exact ⟨hstop, hnone⟩

/-- What `main` allows the node. -/
theorem running_of_allowed {label : NodeLabel} (ha : s.Allowed (.node label) = true) :
    s.phase.isRunning = true ∧
      ∀ request env, label = .command request env → s.channel = some request := by
  cases label with
  | command request env =>
    simp only [Shell.Allowed, Bool.and_eq_true, decide_eq_true_eq] at ha
    refine ⟨ha.1.1.1, fun request' env' heq => ?_⟩
    obtain ⟨rfl, -⟩ := NodeLabel.command.inj heq
    exact ha.1.2
  | event _ _ | pollFileGet _ | swarm _ | lost _ | dropSwarm =>
    simp only [Shell.Allowed, Bool.and_eq_true] at ha
    exact ⟨ha.1, by simp⟩

/-- The request in the channel is the one `main` is about. -/
theorem current_of_channel (hs : Session s) {request : CommandRequest}
    (h : s.channel = some request) : s.phase.request? = some request := by
  cases hs.handed with
  | received hch _ | dropped _ hch _ _ _ =>
    rw [hch] at h
    cases h
  | queued request' hch hphase _ _ =>
    obtain rfl : request' = request := Option.some.inj (hch ▸ h)
    rw [hphase]
    rfl

section NodeStep

variable {label : NodeLabel} {node : Node}

/-- The channel after a step that takes nothing from it. -/
theorem withNode_channel (htaken : label.taken = []) (hrun : node.stopped = none) :
    (s.withNode label node).channel = s.channel := by
  cases label with
  | command _ _ => cases htaken
  | _ => simp [Shell.withNode, hrun]

theorem withNode_channel_taken {request : CommandRequest} {env : Env} :
    (s.withNode (.command request env) node).channel = none := by
  simp [Shell.withNode]

theorem withNode_channel_stopped (hstop : node.stopped ≠ none) :
    (s.withNode label node).channel = none := by
  simp [Shell.withNode, hstop]

/-- How far the newest request has come after a step of the node. -/
theorem handed_node (hs : Session s) (ha : s.Allowed (.node label) = true)
    (h : NodeStepped fits debug s.node label node) : HandedOver (s.withNode label node) := by
  obtain ⟨-, htakes⟩ := running_of_allowed ha
  have hreceived := h.received_eq
  cases label with
  | command request env =>
    have hch := htakes request env rfl
    refine .received withNode_channel_taken ?_
    cases hs.handed with
    | received hnone _ | dropped _ hnone _ _ _ =>
      rw [hnone] at hch
      cases hch
    | queued request' hch' _ _ hall =>
      obtain rfl : request' = request := Option.some.inj (hch' ▸ hch)
      exact hreceived.trans hall.symm
  | event _ _ | pollFileGet _ | swarm _ | lost _ | dropSwarm =>
    cases hs.handed with
    | received hch hall =>
      refine .received ?_ (hreceived.trans hall)
      by_cases hstop : node.stopped = none
      · exact (withNode_channel rfl hstop).trans hch
      · exact withNode_channel_stopped hstop
    | queued request hch hphase _ hall =>
      have hall' : requestsOf s.read = request :: node.received := by
        rw [hall, hreceived]
        rfl
      by_cases hstop : node.stopped = none
      · exact .queued request ((withNode_channel rfl hstop).trans hch) hphase hstop hall'
      · exact .dropped request (withNode_channel_stopped hstop) (hs.current_of_channel hch) hstop
          hall'
    | dropped request hch hphase hstop hall =>
      have hstop' : node.stopped ≠ none := fun hrun => hstop (h.running_before hrun)
      exact .dropped request (withNode_channel_stopped hstop') hphase hstop'
        (hall.trans (congrArg _ hreceived.symm))

/-- The sender `main` waits for after a step of the node. -/
theorem kept_node (hs : Session s) (hc : Consistent config debug s.node)
    (ha : s.Allowed (.node label) = true) (hallowed : s.node.Allowed label = true)
    (h : NodeStepped fits debug s.node label node) (hstop : node.stopped = none)
    {request : CommandRequest} (hcur : s.phase.request? = some request) :
    (s.withNode label node).Holds request = true ∨
      ∃ result, (request.responseSender, result) ∈ node.answered := by
  obtain ⟨-, htakes⟩ := running_of_allowed ha
  rcases hs.kept (h.running_before hstop) hcur with hholds | ⟨result, hresult⟩
  · rcases Shell.holds_cases hholds with hch | ⟨-, hstored⟩
    · -- in the channel: it stays there, or it is taken out and handled
      cases label with
      | command request' env =>
        obtain rfl : request' = request := Option.some.inj ((htakes _ _ rfl).symm.trans hch)
        rcases h.stored_or_answered hstop with hstored | hanswered
        · exact Or.inl (Shell.holds_of_stored hstop hstored)
        · exact Or.inr hanswered
      | event _ _ | pollFileGet _ | swarm _ | lost _ | dropSwarm =>
        exact Or.inl (Shell.holds_of_channel ((withNode_channel rfl hstop).trans hch))
    · rcases h.stored_after hc hallowed hstored with hstored | hanswered
      · exact Or.inl (Shell.holds_of_stored hstop hstored)
      · exact Or.inr hanswered
  · exact Or.inr ⟨result, h.answered_suffix.subset hresult⟩

theorem withNode (hs : Session s) (hc : Consistent config debug s.node)
    (ha : s.Allowed (.node label) = true) (hallowed : s.node.Allowed label = true)
    (h : NodeStepped fits debug s.node label node) : Session (s.withNode label node) := by
  obtain ⟨hrunning, htakes⟩ := running_of_allowed ha
  constructor
  case counted => exact hs.counted
  case numbered => exact hs.numbered
  case handed => exact hs.handed_node ha h
  case current => exact hs.current
  case stored =>
    intro k x hx
    rcases h.stored_before hx with hold | ⟨env, rfl⟩
    · exact hs.stored hold
    · exact hs.current_of_channel (htakes x env rfl)
  case kept => exact fun hstop hcur => hs.kept_node hc ha hallowed h hstop hcur
  case panicked =>
    intro x hx
    have hphase : s.phase = .panicked x := hx
    rw [hphase] at hrunning
    cases hrunning

end NodeStep

/-- **A step of the shell keeps the invariant.** -/
theorem step (hs : Session s) (hn : (requestsOf s.read).length ≤ UInt64.size)
    (hc : Consistent config debug s.node) {tr : Trace Node NodeLabel}
    (hu : Uncrossed fits tr s.node) {a : ShellLabel} {s' : Shell}
    (h : ShellStepped fits debug s a s') : Session s' := by
  cases h with
  | refused line e hphase hline => exact hs.refused hphase hline
  | asked line command request client channel hphase hline hmake hch =>
    exact hs.asked hphase hline hmake hch
  | inputEnded input result hphase _ => exact hs.inputEnded hphase
  | sent request hphase hch => exact hs.sent hphase hch
  | replied request result hphase hanswer => exact hs.replied hn hu hphase hanswer _
  | canceled request hphase hnone hnot => exact hs.canceled hphase hnone hnot
  | node label node ha hok =>
    have hallowed := hs.allowed hn ha
    exact hs.withNode hc ha hallowed (step_nodeStepped hc.ready hallowed hok)

end Session

/-! ## Runs -/

/-- The line a step reads. -/
def ShellLabel.line? : ShellLabel → Option String
  | .stdin (.ok (some line)) => some line
  | _ => none

/-- The step of the node a step is. -/
def ShellLabel.ofNode? : ShellLabel → Option NodeLabel
  | .node label => some label
  | _ => none

/-- The lines a run has read, newest first. -/
def linesRead (tr : Trace Shell ShellLabel) : List String := tr.filterMap (·.label.line?)

theorem linesRead_cons (t : Transition Shell ShellLabel) (tr : Trace Shell ShellLabel) :
    linesRead (t :: tr) = t.label.line?.toList ++ linesRead tr := by
  unfold linesRead
  cases hline : t.label.line? <;> simp [hline]

theorem length_requestsOf_le (line : String) (older : List String) :
    (requestsOf older).length ≤ (requestsOf (line :: older)).length := by
  cases hline : Command.fromStr line with
  | error e => rw [requestsOf_refused hline]
  | ok command => simp [requestsOf_command hline]

theorem length_requestsOf_linesRead_le (t : Transition Shell ShellLabel)
    (tr : Trace Shell ShellLabel) :
    (requestsOf (linesRead tr)).length ≤ (requestsOf (linesRead (t :: tr))).length := by
  rw [linesRead_cons]
  cases t.label.line? with
  | none => exact Nat.le_refl _
  | some line => exact length_requestsOf_le line _

/-- What a step adds to the lines. -/
theorem ShellStepped.read_eq {fits : String → Bool} {debug : Bool} {s s' : Shell} {a : ShellLabel}
    (h : ShellStepped fits debug s a s') : s'.read = a.line?.toList ++ s.read := by
  cases h with
  | inputEnded input result _ hnone =>
    unfold ShellLabel.line?
    split
    · rename_i line heq
      exact absurd (ShellLabel.stdin.inj heq) (hnone line)
    · rfl
  | _ => rfl

section Runs

variable {config : FileGetConfig} {debug : Bool} {fits : String → Bool}
  {start : Started config debug} {tr : Trace Shell ShellLabel} {s : Shell}

theorem run_shellStepped {t : Transition Shell ShellLabel}
    (h : (shellMachine fits start).Run (t :: tr) s) :
    ShellStepped fits debug t.pre t.label t.post :=
  step_shellStepped h.tail.2.1 h.tail.2.2.1

theorem run_linesRead (h : (shellMachine fits start).Run tr s) : s.read = linesRead tr := by
  induction tr generalizing s with
  | nil =>
    cases h
    rfl
  | cons t tr ih =>
    have hstep := run_shellStepped h
    obtain ⟨hrun, -, -, rfl⟩ := h.tail
    rw [hstep.read_eq, ih hrun, linesRead_cons]

/-- The invariant, and that the node's states are those of a run of it. -/
theorem run_session (h : (shellMachine fits start).Run tr s)
    (hn : (requestsOf (linesRead tr)).length ≤ UInt64.size) :
    Session s ∧ ∃ inner, (nodeMachine fits start).Run inner s.node := by
  induction tr generalizing s with
  | nil =>
    cases h
    refine ⟨?_, [], .start⟩
    exact
      { counted := rfl
        numbered := rfl
        handed := .received rfl rfl
        current := fun h => by cases h
        stored := fun h => by cases h
        kept := fun _ h => by cases h
        panicked := fun h => by cases h }
  | cons t tr ih =>
    have hstep := run_shellStepped h
    obtain ⟨hrun, ha, hok, rfl⟩ := h.tail
    have hn' := Nat.le_trans (length_requestsOf_linesRead_le t tr) hn
    obtain ⟨hs, inner, hinner⟩ := ih hrun hn'
    rw [← run_linesRead hrun] at hn'
    have hc := run_consistent hinner
    refine ⟨hs.step hn' hc (run_uncrossed hinner) hstep, ?_⟩
    obtain ⟨pre, label, post⟩ := t
    dsimp only at hstep hs hn' hinner
    cases hstep with
    | node label node hallowed hnode =>
      exact ⟨_, hinner.next (hs.allowed hn' hallowed) hnode⟩
    | refused _ _ _ _ | asked _ _ _ _ _ _ _ _ _ | inputEnded _ _ _ _ | sent _ _ _ | replied _ _ _ _
    | canceled _ _ _ _ => exact ⟨inner, hinner⟩

/-- The step of the node that a step of the shell is. -/
def nodeTransition? (t : Transition Shell ShellLabel) : Option (Transition Node NodeLabel) :=
  t.label.ofNode?.map fun label => ⟨t.pre.node, label, t.post.node⟩

/-- **The shell drives the node**, as long as the 64-bit counter has not
gone round. -/
def shellDrives (fits : String → Bool) (start : Started config debug) :
    Drives (shellMachine fits start) (nodeMachine fits start) where
  view := Shell.node
  shows t := (nodeTransition? t).toList
  within tr := (requestsOf (linesRead tr)).length ≤ UInt64.size
  within_tail h := Nat.le_trans (length_requestsOf_linesRead_le _ _) h
  before := []
  before_run := .start
  steps := by
    intro t tr s h hn
    have hstep := run_shellStepped h
    obtain ⟨hrun, -⟩ := h.tail
    have hn' := Nat.le_trans (length_requestsOf_linesRead_le t tr) hn
    obtain ⟨hs, -⟩ := run_session hrun hn'
    rw [← run_linesRead hrun] at hn'
    obtain ⟨pre, label, post⟩ := t
    dsimp only at hstep hs hn'
    cases hstep with
    | node label node hallowed hnode => exact .single (hs.allowed hn' hallowed) hnode
    | refused _ _ _ _ | asked _ _ _ _ _ _ _ _ _ | inputEnded _ _ _ _ | sent _ _ _ | replied _ _ _ _
    | canceled _ _ _ _ => exact .nil

/-- The node's part of the record of a run. -/
def nodeTrace (tr : Trace Shell ShellLabel) : Trace Node NodeLabel :=
  tr.filterMap nodeTransition?

theorem shellDrives_part (start : Started config debug) (tr : Trace Shell ShellLabel) :
    (shellDrives fits start).part tr = nodeTrace tr := by
  induction tr with
  | nil => rfl
  | cons t tr ih =>
    rw [Drives.part_cons, ih]
    unfold nodeTrace shellDrives
    cases h : nodeTransition? t <;> simp [h]

/-- **The node's part of a run of the shell is a run of the node.** -/
theorem run_nodeTrace (h : (shellMachine fits start).Run tr s)
    (hn : (requestsOf s.read).length ≤ UInt64.size) :
    (nodeMachine fits start).Run (nodeTrace tr) s.node := by
  rw [run_linesRead h] at hn
  rw [← shellDrives_part start tr]
  exact (shellDrives fits start).run h hn

end Runs

end FileSharing
