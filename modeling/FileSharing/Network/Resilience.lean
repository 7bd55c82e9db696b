/-
FileSharing.Network.Resilience — which events stop the loop.

`run` ends with the first `Err` of a handler, and then everything the loop
holds is dropped: the commands that wait, the transfers under way. Most
branches of `handle_event` log what went wrong and go on. The two that
touch the file system on behalf of a remote peer do NOT: an error of
`read_dir`, of one of its entries, or of `File::open` is returned.

`handleEvent_survives_iff` says that these are all: in every reachable
state an event is survived, with every other command and transfer kept,
exactly if the file-system calls made for it succeed.
-/
import FileSharing.Network.Correlation

namespace FileSharing

open Lib FileGet

namespace EventLoop

/-- The event is what the stored command waits for. -/
def Completes (l : EventLoop) (k : UInt64) (request : CommandRequest) : SwarmEvent → Prop
  | .rendezvous (.discovered _) => request.command = .listPeers
  | .listFiles (.response _ i _) => l.pendingListFiles.lookup i = some k
  | .fileGet (.responseReceived _ r) => l.pendingFileGets.lookup r = some k
  | _ => False

/-- The handler goes on, and all that does not wait for this event is
kept: the other commands, their entries, the state of the transfers. -/
structure Survives (l : EventLoop) (event : SwarmEvent) (h : Handled) : Prop where
  ended : h.ended = none
  commands : ∀ {k request}, l.pendingCommandRequests.lookup k = some request →
    ¬ l.Completes k request event → h.loop.pendingCommandRequests.lookup k = some request
  listFiles : ∀ {i k}, l.pendingListFiles.lookup i = some k →
    (∀ peer fileNames, event ≠ .listFiles (.response peer i fileNames)) →
    h.loop.pendingListFiles.lookup i = some k
  fileGets : ∀ {r k}, l.pendingFileGets.lookup r = some k →
    (∀ peer, event ≠ .fileGet (.responseReceived peer r)) →
    h.loop.pendingFileGets.lookup r = some k
  swarm : h.loop.swarm = l.swarm

/-- The file-system calls made for the event succeed: the directory can be
read with all its entries, the file asked for can be opened. -/
def IoSucceeds (env : Env) (l : EventLoop) : SwarmEvent → Prop
  | .listFiles (.request _ _) =>
    ∃ entries, env.readDir l.sharingDir = .ok entries ∧ ∀ entry ∈ entries, ∃ e, entry = .ok e
  | .fileGet (.requestReceived _ _ message _) =>
    ∃ file, env.openRead (Path.push l.sharingDir (utf8 message.fileName)) = .ok file
  | _ => True

/-- A handler that changes nothing. -/
theorem survives_unchanged (l : EventLoop) (event : SwarmEvent) (effects : List Effect) :
    l.Survives event ⟨l, effects, none⟩ where
  ended := rfl
  commands h _ := h
  listFiles h _ := h
  fileGets h _ := h
  swarm := rfl

/-- The listing of a directory succeeds exactly if all entries can be
read. -/
theorem collectFileNames_ok (entries : List (Except IoError DirEntry)) :
    (∃ fileNames, collectFileNames entries = .ok fileNames) ↔
      ∀ entry ∈ entries, ∃ e, entry = .ok e := by
  induction entries with
  | nil => simp [collectFileNames]
  | cons entry entries ih =>
    cases entry with
    | error e => simp [collectFileNames]
    | ok e =>
      simp only [List.forall_mem_cons, Except.ok.injEq, exists_eq', true_and, ← ih]
      cases hrest : collectFileNames entries with
      | error e' => simp [collectFileNames, hrest, bind, Except.bind]
      | ok fileNames => simp [collectFileNames, hrest, bind, Except.bind]

theorem ioSucceeds_request (env : Env) (l : EventLoop) (peer : PeerId)
    (channel : ListFilesChannel) :
    l.IoSucceeds env (.listFiles (.request peer channel)) ↔
      ∃ fileNames, (env.readDir l.sharingDir >>= collectFileNames) = .ok fileNames := by
  unfold IoSucceeds
  cases env.readDir l.sharingDir with
  | error e => simp [bind, Except.bind]
  | ok entries => simp [bind, Except.bind, collectFileNames_ok]

/-- A `ListFiles` is answered, the rest is kept. -/
theorem survives_listed (l : EventLoop) (peer : PeerId) {i : ListFilesRequestId}
    (fileNames : List String) {k : UInt64} (effects : List Effect)
    (hi : l.pendingListFiles.lookup i = some k) :
    l.Survives (.listFiles (.response peer i fileNames))
      ⟨{ l.take k with pendingListFiles := l.pendingListFiles.erase i }, effects, none⟩ where
  ended := rfl
  commands := by
    intro k' request hk hno
    have hne : k' ≠ k := fun heq => hno (heq ▸ hi)
    exact (lookup_erase_ite _ _ _).trans ((if_neg hne).trans hk)
  listFiles := by
    intro j k' hj hno
    have hne : j ≠ i := fun heq => hno peer fileNames (heq ▸ rfl)
    exact (lookup_erase_ite _ _ _).trans ((if_neg hne).trans hj)
  fileGets h _ := h
  swarm := rfl

/-- A `GetFile` is answered, the rest is kept. -/
theorem survives_fetched (l : EventLoop) (peer : PeerId) {r : RequestId} {k : UInt64}
    (effects : List Effect) (hr : l.pendingFileGets.lookup r = some k) :
    l.Survives (.fileGet (.responseReceived peer r))
      ⟨{ l.take k with pendingFileGets := l.pendingFileGets.erase r }, effects, none⟩ where
  ended := rfl
  commands := by
    intro k' request hk hno
    have hne : k' ≠ k := fun heq => hno (heq ▸ hr)
    exact (lookup_erase_ite _ _ _).trans ((if_neg hne).trans hk)
  listFiles h _ := h
  fileGets := by
    intro r' k' hr' hno
    have hne : r' ≠ r := fun heq => hno peer (heq ▸ rfl)
    exact (lookup_erase_ite _ _ _).trans ((if_neg hne).trans hr')
  swarm := rfl

/-- All `ListPeers` are answered, the rest is kept. -/
theorem survives_discovered (l : EventLoop) (env : Env) (registrations : List Registration)
    (effects : List Effect) :
    l.Survives (.rendezvous (.discovered registrations))
      ⟨l.discovered env registrations, effects, none⟩ where
  ended := rfl
  commands := by
    intro k request hk hno
    rcases Correlated.discovered_lookup (l := l) env registrations k with
      ⟨heq, -⟩ | ⟨-, found, hf, hcmd⟩
    · exact heq.trans hk
    · rw [hk] at hf
      obtain rfl := Option.some.inj hf
      exact absurd hcmd hno
  listFiles h _ := h
  fileGets h _ := h
  swarm := rfl

/-- An event the loop ignores makes no file-system call. -/
theorem Ignores.ioSucceeds {env : Env} {l : EventLoop} {event : SwarmEvent}
    (h : l.Ignores event) : l.IoSucceeds env event := by
  unfold IoSucceeds
  split
  · cases h
  · cases h
  · trivial

/-- An event that somebody waits for, if it has to be waited for, is
survived exactly if the file system does its part. -/
theorem EventHandled.survives_iff {env : Env} {l : EventLoop} {event : SwarmEvent} {h : Handled}
    (hc : l.Correlated) (hh : EventHandled env l event h)
    (hawaited : ∀ peer r, event = .fileGet (.responseReceived peer r) →
      ∃ k request userName fileName, l.Awaits r k request userName fileName) :
    l.Survives event h ↔ l.IoSucceeds env event := by
  cases hh with
  | ignored _ hi => exact iff_of_true (l.survives_unchanged _ _) hi.ioSucceeds
  | discovered registrations =>
    exact iff_of_true (l.survives_discovered env registrations _) trivial
  | directoryListed peer channel fileNames hd =>
    exact iff_of_true (l.survives_unchanged _ _)
      ((ioSucceeds_request env l peer channel).mpr ⟨fileNames, hd⟩)
  | notListed peer channel e hd =>
    refine iff_of_false (fun hs => by cases hs.ended) fun hio => ?_
    obtain ⟨fileNames, hok⟩ := (ioSucceeds_request env l peer channel).mp hio
    rw [hd] at hok
    cases hok
  | listed peer i fileNames k request hi _ =>
    exact iff_of_true (l.survives_listed peer fileNames _ hi) trivial
  | listedForNobody peer i fileNames k h hi hk _ =>
    obtain ⟨request, hreq, -⟩ := hc.listFiles.sound hi
    rw [hk] at hreq
    cases hreq
  | served peer r message channel file ho =>
    exact iff_of_true (l.survives_unchanged _ _) ⟨file, ho⟩
  | notServed peer r message channel e ho =>
    refine iff_of_false (fun hs => by cases hs.ended) ?_
    rintro ⟨file, hok⟩
    rw [ho] at hok
    cases hok
  | fetched peer r k request userName fileName hawait =>
    exact iff_of_true (l.survives_fetched peer _ hawait.1) trivial
  | fetchedForNobody peer r h hnobody _ =>
    obtain ⟨k, request, userName, fileName, hawait⟩ := hawaited peer r rfl
    exact absurd hawait (hnobody k request userName fileName)

end EventLoop

/-- The event can reach the loop: a `ResponseReceived` has to come out of
`FileGet`; everything else may come in any state. -/
def Node.CanArrive (n : Node) : SwarmEvent → Prop
  | .fileGet (.responseReceived peer r) =>
    .generateEvent (.responseReceived peer r) ∈ n.loop.swarm.fileGet.pendingEvents
  | _ => True

/-- **An event is survived exactly if its file-system calls succeed.** For
every reachable state, every event that can arrive there and every outcome
of the calls, in either build. -/
theorem handleEvent_survives_iff {config : FileGetConfig} {debug : Bool} {fits : String → Bool}
    {start : Started config debug} {tr : Trace Node NodeLabel} {n : Node}
    (h : (nodeMachine fits start).Run tr n) (build : Bool) (env : Env) (event : SwarmEvent)
    (harrive : n.CanArrive event) :
    n.loop.Survives event (n.loop.handleEvent build env event) ↔ n.loop.IoSucceeds env event := by
  have hc := run_consistent h
  refine (EventLoop.handleEvent_handled build env n.loop event).survives_iff hc.correlated ?_
  rintro peer r rfl
  exact hc.ready.response (List.mem_filterMap.mpr ⟨_, harrive, rfl⟩)

/-- A node with a command pending lists its directory for a remote peer. -/
theorem handleEvent_survives_iff_listing : ∃ tr n,
    (nodeMachine (fun _ => true) (Started.fresh ⟨10⟩ true)).Run tr n ∧
    n.loop.pendingCommandRequests.lookup 0 = some ⟨0, .listPeers, ⟨0⟩⟩ ∧
    n.loop.Survives (.listFiles (.request ⟨7⟩ ⟨0⟩))
      (n.loop.handleEvent true (.calm 0) (.listFiles (.request ⟨7⟩ ⟨0⟩))) := by
  obtain ⟨tr, n, hrun, hP⟩ := Machine.exists_run_of_labels
    (M := nodeMachine (fun _ => true) (Started.fresh ⟨10⟩ true))
    [.command ⟨0, .listPeers, ⟨0⟩⟩ (.calm 0)]
    (fun _ n => n.loop.pendingCommandRequests.lookup 0 = some ⟨0, .listPeers, ⟨0⟩⟩)
    (by decide) (by decide)
  refine ⟨tr, n, hrun, by simpa using hP, ?_⟩
  exact (handleEvent_survives_iff hrun true (.calm 0) (.listFiles (.request ⟨7⟩ ⟨0⟩)) trivial).mpr
    ⟨[], rfl, by simp⟩

/-- A file system without the file `f`. -/
def Env.missing : Env := { Env.calm 0 with openRead := fun _ => .error ⟨.notFound⟩ }

/-- A remote peer asks for a file that is not there: the loop stops, and
the command that was pending is never answered. -/
theorem missing_file_stops_loop : ∃ tr n,
    (nodeMachine (fun _ => true) (Started.fresh ⟨10⟩ true)).Run tr n ∧
    n.stopped = some (.err (.io ⟨.notFound⟩)) ∧
    n.received = [⟨0, .listPeers, ⟨0⟩⟩] ∧ n.answered.length = 0 := by
  obtain ⟨tr, n, hrun, hP⟩ := Machine.exists_run_of_labels
    (M := nodeMachine (fun _ => true) (Started.fresh ⟨10⟩ true))
    [.command ⟨0, .listPeers, ⟨0⟩⟩ (.calm 0),
      .swarm (.connectionEstablished ⟨7⟩ ⟨1⟩ (.listener ⟨"a"⟩ ⟨"b"⟩) false),
      .swarm (.openInbound ⟨1⟩),
      .swarm (.inbound ⟨1⟩ ⟨0⟩ (.received (.ok ⟨"f"⟩))),
      .swarm (.pollHandler ⟨1⟩ 0 0),
      .swarm (.deliverEvent ⟨1⟩),
      .pollFileGet .missing]
    (fun _ n => n.stopped = some (.err (.io ⟨.notFound⟩)) &&
      n.received = [⟨0, .listPeers, ⟨0⟩⟩] && n.answered.length = 0)
    (by decide) (by decide)
  simp only [Bool.and_eq_true, decide_eq_true_eq] at hP
  exact ⟨tr, n, hrun, hP.1.1, hP.1.2, hP.2⟩

end FileSharing
