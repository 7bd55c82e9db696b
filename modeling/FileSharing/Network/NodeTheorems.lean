/-
FileSharing.Network.NodeTheorems — what a step of a node can do, said once.

`NodeStepped` lists it: sixteen cases with the state each one leads to.
`step_nodeStepped` is the inversion; it needs `Ready`, that the loop is in
a state where the `expect`s and the debug panic of its handlers cannot
fail. Which states those are is the business of the modules above; here
`Ready` is a hypothesis about the state before the step.
-/
import FileSharing.Network.Node
import FileSharing.Network.EventLoopTheorems

namespace FileSharing

open Lib FileGet

/-! ## Effects -/

theorem Node.foldl_perform_answers (n : Node)
    (answers : List (SenderId × Except FileSharingError CommandResponse)) :
    (answers.map fun a => Effect.answer a.1 a.2).foldl Node.perform n =
      { n with answered := answers.reverse ++ n.answered } := by
  induction answers generalizing n with
  | nil => rfl
  | cons a answers ih => simp [Node.perform, ih]

/-! ## Fields -/

namespace Node

variable (n : Node) (what : Lost) (event : SwarmEvent) (swarm : System)

@[simp] theorem close_loop : (n.close what).loop = n.loop := by cases what <;> rfl

@[simp] theorem close_received : (n.close what).received = n.received := by cases what <;> rfl

@[simp] theorem close_answered : (n.close what).answered = n.answered := by cases what <;> rfl

@[simp] theorem close_listFilesSent : (n.close what).listFilesSent = n.listFilesSent := by
  cases what <;> rfl

@[simp] theorem close_stopped : (n.close what).stopped = n.stopped := by cases what <;> rfl

@[simp] theorem settle_loop : (n.settle event).loop = n.loop := by
  unfold settle
  split <;> simp

@[simp] theorem settle_received : (n.settle event).received = n.received := by
  unfold settle
  split <;> simp

@[simp] theorem settle_answered : (n.settle event).answered = n.answered := by
  unfold settle
  split <;> simp

@[simp] theorem settle_listFilesSent : (n.settle event).listFilesSent = n.listFilesSent := by
  unfold settle
  split <;> simp

@[simp] theorem settle_stopped : (n.settle event).stopped = n.stopped := by
  unfold settle
  split <;> simp

@[simp] theorem withSwarm_loop : (n.withSwarm swarm).loop = n.loop.withSwarm swarm := rfl

@[simp] theorem withSwarm_received : (n.withSwarm swarm).received = n.received := rfl

@[simp] theorem withSwarm_answered : (n.withSwarm swarm).answered = n.answered := rfl

@[simp] theorem withSwarm_listFilesSent : (n.withSwarm swarm).listFilesSent = n.listFilesSent :=
  rfl

@[simp] theorem withSwarm_stopped : (n.withSwarm swarm).stopped = n.stopped := rfl

end Node

/-! ## The steps -/

/-- The node has taken a command from the channel. -/
def Node.receive (n : Node) (request : CommandRequest) : Node :=
  { n with received := request :: n.received }

open EventLoop in
/-- Everything an allowed step can do when the loop is ready. -/
inductive NodeStepped (fits : String → Bool) (debug : Bool) (n : Node) :
    NodeLabel → Node → Prop where
  /-- The command's handler returns `Err`. -/
  | failed (request : CommandRequest) (env : Env) (e : FileSharingError) :
      CommandFails fits env n.loop request →
      NodeStepped fits debug n (.command request env)
        { n.receive request with stopped := some (.err e) }
  /-- The command is answered without further ado. -/
  | answered (request : CommandRequest) (env : Env)
      (result : Except FileSharingError CommandResponse) :
      AnsweredAtOnce fits n.loop request result →
      NodeStepped fits debug n (.command request env)
        { n.receive request with
          answered := (request.responseSender, result) :: n.answered }
  | listPeers (request : CommandRequest) (env : Env) (node : PeerId) :
      request.command = .listPeers →
      n.loop.rendezvousPointPeerId = some node →
      NodeStepped fits debug n (.command request env)
        { n.discover node with
          loop := n.loop.store request
          received := request :: n.received }
  | listFiles (request : CommandRequest) (env : Env) (userName : String) (peer : PeerId) :
      request.command = .listFiles userName → n.loop.getPeerId fits userName = some peer →
      NodeStepped fits debug n (.command request env)
        { n.sendListFiles peer env.listFilesId with
          loop := { n.loop.store request with
            pendingListFiles :=
              n.loop.pendingListFiles.insert env.listFilesId request.commandRequestId }
          received := request :: n.received }
  | getFile (request : CommandRequest) (env : Env) (userName fileName : String) (peer : PeerId)
      (writer : FileWriter) (fileGet : FileGet) (r : RequestId) :
      request.command = .getFile userName fileName →
      n.loop.getPeerId fits userName = some peer →
      n.loop.swarm.fileGet.sendRequest peer ⟨fileName⟩ writer = .ok (fileGet, r) →
      env.openWrite (Path.push n.loop.sharingDir (utf8 fileName)) = .ok writer →
      NodeStepped fits debug n (.command request env)
        { n.receive request with
          loop := { n.loop.store request with
            swarm := { n.loop.swarm with fileGet := fileGet }
            pendingFileGets := n.loop.pendingFileGets.insert r request.commandRequestId } }
  /-- The event changes nothing in the loop. -/
  | quiet (event : SwarmEvent) (env : Env) :
      Node.isForeign event = true →
      (∀ registrations, event ≠ .rendezvous (.discovered registrations)) →
      (∀ peer i fileNames, event = .listFiles (.response peer i fileNames) →
        n.loop.pendingListFiles.lookup i = none) →
      NodeStepped fits debug n (.event event env) (n.settle event)
  /-- The directory cannot be listed. -/
  | notListed (peer : PeerId) (channel : ListFilesChannel) (env : Env) (e : IoError) :
      (env.readDir n.loop.sharingDir >>= collectFileNames) = .error e →
      NodeStepped fits debug n (.event (.listFiles (.request peer channel)) env)
        { n with stopped := some (.err (.io e)) }
  | discovered (registrations : List Registration) (env : Env) :
      NodeStepped fits debug n (.event (.rendezvous (.discovered registrations)) env)
        { n.close .discover with
          loop := n.loop.discovered env registrations
          answered := (n.loop.discoveredAnswers env registrations).reverse ++ n.answered }
  | listed (peer : PeerId) (i : ListFilesRequestId) (fileNames : List String) (env : Env)
      (k : UInt64) (request : CommandRequest) :
      n.loop.pendingListFiles.lookup i = some k →
      n.loop.pendingCommandRequests.lookup k = some request →
      NodeStepped fits debug n (.event (.listFiles (.response peer i fileNames)) env)
        { n.close (.listFiles i) with
          loop := { n.loop.take k with pendingListFiles := n.loop.pendingListFiles.erase i }
          answered := (request.responseSender, .ok ⟨k, .listFiles fileNames⟩) :: n.answered }
  /-- An action of `FileGet` that is no event, or an event the loop
  ignores. -/
  | polled (env : Env) (swarm : System) :
      n.loop.swarm.step debug .pollBehaviour = .ok swarm →
      (∀ action rest, n.loop.swarm.fileGet.pendingEvents = action :: rest →
        action.response? = none) →
      (∀ peer r message channel rest, n.loop.swarm.fileGet.pendingEvents ≠
        .generateEvent (.requestReceived peer r message channel) :: rest) →
      NodeStepped fits debug n (.pollFileGet env) { n with loop := n.loop.withSwarm swarm }
  | served (env : Env) (peer : PeerId) (r : RequestId) (message : FileGetMessage)
      (channel : ChannelId) (rest : List NetworkBehaviourAction) (file : FileReader)
      (swarm : System) :
      n.loop.swarm.fileGet.pendingEvents =
        .generateEvent (.requestReceived peer r message channel) :: rest →
      env.openRead (Path.push n.loop.sharingDir (utf8 message.fileName)) = .ok file →
      n.loop.swarm.step debug .pollBehaviour = .ok swarm →
      NodeStepped fits debug n (.pollFileGet env)
        { n with loop := n.loop.withSwarm (swarm.sendReader channel file) }
  /-- The file asked for cannot be opened, and the sender goes with the
  event. -/
  | notServed (env : Env) (peer : PeerId) (r : RequestId) (message : FileGetMessage)
      (channel : ChannelId) (rest : List NetworkBehaviourAction) (e : IoError) (swarm : System) :
      n.loop.swarm.fileGet.pendingEvents =
        .generateEvent (.requestReceived peer r message channel) :: rest →
      env.openRead (Path.push n.loop.sharingDir (utf8 message.fileName)) = .error e →
      n.loop.swarm.step debug .pollBehaviour = .ok swarm →
      NodeStepped fits debug n (.pollFileGet env)
        { n with
          loop := n.loop.withSwarm (swarm.dropSender channel)
          stopped := some (.err (.io e)) }
  | fetched (env : Env) (peer : PeerId) (r : RequestId) (rest : List NetworkBehaviourAction)
      (k : UInt64) (request : CommandRequest) (userName fileName : String) (swarm : System) :
      n.loop.swarm.fileGet.pendingEvents = .generateEvent (.responseReceived peer r) :: rest →
      n.loop.swarm.step debug .pollBehaviour = .ok swarm →
      n.loop.Awaits r k request userName fileName →
      NodeStepped fits debug n (.pollFileGet env)
        { n with
          loop := { (n.loop.withSwarm swarm).take k with
            pendingFileGets := n.loop.pendingFileGets.erase r }
          answered :=
            (request.responseSender, .ok ⟨k, .getFile userName fileName⟩) :: n.answered }
  /-- The swarm goes on by itself. -/
  | swarm (label : Label) (swarm : System) :
      Node.isOwn label = false → n.loop.swarm.Allowed label = true →
      n.loop.swarm.step debug label = .ok swarm →
      NodeStepped fits debug n (.swarm label) (n.withSwarm swarm)
  | lost (what : Lost) : n.CanLose what = true →
      NodeStepped fits debug n (.lost what) (n.close what)
  /-- What is left of a loop that has stopped. -/
  | dropSwarm : n.stopped ≠ none →
      NodeStepped fits debug n .dropSwarm { n with swarmGone := true }

section Inversion

open EventLoop

variable {fits : String → Bool} {debug : Bool} {n n' : Node}

/-- A command. -/
theorem after_command (hr : n.loop.Ready) (hstop : n.stopped = none) (request : CommandRequest)
    (env : Env) : NodeStepped fits debug n (.command request env)
      ((n.receive request).after (n.loop.handleCommand fits env request)) := by
  have hh := handleCommand_handled fits env n.loop request
  obtain ⟨loop, received, answered, discovers, sent, opened, stopped, gone⟩ := n
  obtain ⟨node, hnode⟩ := hr.rendezvous
  dsimp only at hstop hnode hh
  subst hstop
  generalize loop.handleCommand fits env request = handled at hh
  cases hh with
  | nameTooLong userName hc hn =>
    refine .failed request env .namespaceTooLong ?_
    simpa [CommandFails, hc, Namespace.new] using hn
  | noPoint _ hnone =>
    rw [hnone] at hnode
    cases hnode
  | registered userName namespace_ node hc _ _ =>
    refine .answered request env _ ?_
    simp only [AnsweredAtOnce, hc]
  | listPeers node hc hp => exact .listPeers request env node hc hp
  | listFiles userName peer hc hp => exact .listFiles request env userName peer hc hp
  | nobodyListed userName hc hp =>
    refine .answered request env _ ?_
    simp only [AnsweredAtOnce, hc, hp, true_and]
  | notOpened userName fileName e hc ho =>
    refine .failed request env (.io e) ?_
    simp only [CommandFails, hc]
    exact ⟨e, ho⟩
  | nobodyAsked userName fileName writer hc _ hp =>
    refine .answered request env _ ?_
    simp only [AnsweredAtOnce, hc, hp, true_and]
  | notSent userName fileName writer peer p _ _ _ hs =>
    -- `send_request` does not panic
    rcases sendRequest_spec hr.wellFormed (p := peer) ⟨fileName⟩ writer with
      ⟨-, hs'⟩ | ⟨conn, -, fg, hs', -⟩
    · rw [hs'] at hs
      cases hs
    · rw [hs'] at hs
      cases hs
  | getFile userName fileName writer peer fileGet r hc ho hp hs =>
    exact .getFile request env userName fileName peer writer fileGet r hc hp hs ho

/-- An event that does not come from `FileGet`. -/
theorem after_event (hr : n.loop.Ready) (hstop : n.stopped = none) {event : SwarmEvent}
    (hf : Node.isForeign event = true) {env : Env} {handled : Handled}
    (hh : EventHandled env n.loop event handled) :
    NodeStepped fits debug n (.event event env) ((n.settle event).after handled) := by
  obtain ⟨loop, received, answered, discovers, sent, opened, stopped, gone⟩ := n
  dsimp only at hstop hr hh
  subst hstop
  cases hh with
  | ignored event hi =>
    have hquiet : Node.after
        (Node.settle ⟨loop, received, answered, discovers, sent, opened, none, gone⟩ event)
        ⟨loop, [], none⟩ =
        Node.settle ⟨loop, received, answered, discovers, sent, opened, none, gone⟩ event := by
      unfold Node.settle
      split <;> rfl
    rw [hquiet]
    refine .quiet event env hf ?_ ?_
    · rintro registrations rfl
      exact hi
    · rintro peer i fileNames rfl
      exact hi
  | discovered registrations =>
    unfold Node.after
    dsimp only
    rw [Node.foldl_perform_answers]
    exact .discovered registrations env
  | directoryListed peer channel fileNames hd => exact .quiet _ env hf (by simp) (by simp)
  | notListed peer channel e hd => exact .notListed peer channel env e hd
  | listed peer i fileNames k request hi hk => exact .listed peer i fileNames env k request hi hk
  | listedForNobody peer i fileNames k h hi hk _ =>
    obtain ⟨request, hreq⟩ := hr.listFiles hi
    rw [hk] at hreq
    cases hreq
  | served | notServed | fetched | fetchedForNobody => simp [Node.isForeign] at hf

/-- `FileGet` is polled and has an event. -/
theorem after_fileGet (hr : n.loop.Ready) (hstop : n.stopped = none) {env : Env} {swarm : System}
    (hs : n.loop.swarm.step debug .pollBehaviour = .ok swarm) {event : FileGetEvent}
    {rest : List NetworkBehaviourAction}
    (hq : n.loop.swarm.fileGet.pendingEvents = .generateEvent event :: rest) {handled : Handled}
    (hh : EventHandled env (n.loop.withSwarm swarm) (.fileGet event) handled) :
    NodeStepped fits debug n (.pollFileGet env)
      ({ n with loop := n.loop.withSwarm swarm }.after handled) := by
  obtain ⟨loop, received, answered, discovers, sent, opened, stopped, gone⟩ := n
  dsimp only at hstop hr hh hq hs
  subst hstop
  cases hh with
  | ignored _ hi =>
    refine .polled env swarm hs (fun action rest' hq' => ?_)
      fun peer r message channel rest' hq' => ?_
    · rw [hq] at hq'
      obtain ⟨rfl, -⟩ := List.cons.inj hq'
      cases event with
      | responseReceived _ _ => cases hi
      | _ => rfl
    · rw [hq] at hq'
      obtain ⟨hevent, -⟩ := List.cons.inj hq'
      obtain rfl := NetworkBehaviourAction.generateEvent.inj hevent
      cases hi
  | served peer r message channel file ho =>
    exact .served env peer r message channel rest file swarm hq ho hs
  | notServed peer r message channel e ho =>
    exact .notServed env peer r message channel rest e swarm hq ho hs
  | fetched peer r k request userName fileName hawait =>
    exact .fetched env peer r rest k request userName fileName swarm hq hs hawait
  | fetchedForNobody peer r h hnobody _ =>
    have hmem : r ∈ loop.swarm.fileGet.responses := by
      simp [FileGet.responses, hq, NetworkBehaviourAction.response?]
    obtain ⟨k, request, userName, fileName, hawait⟩ := hr.response hmem
    exact absurd hawait (hnobody k request userName fileName)

/-- `FileGet` is polled. -/
theorem after_poll (hr : n.loop.Ready) (hstop : n.stopped = none) (env : Env)
    (hok : n.step fits debug (.pollFileGet env) = .ok n') :
    NodeStepped fits debug n (.pollFileGet env) n' := by
  unfold Node.step at hok
  dsimp only at hok
  cases hs : n.loop.swarm.step debug .pollBehaviour with
  | error e => simp [hs, bind, Except.bind] at hok
  | ok swarm =>
    simp only [hs, bind, Except.bind] at hok
    cases hq : n.loop.swarm.fileGet.pendingEvents with
    | nil =>
      simp only [hq, Except.ok.injEq] at hok
      subst hok
      exact .polled env swarm hs (by simp [hq]) (by simp [hq])
    | cons action rest =>
      cases action with
      | dial _ _ | notifyHandler _ _ _ =>
        simp only [hq, Except.ok.injEq] at hok
        subst hok
        exact .polled env swarm hs (by simp [hq, NetworkBehaviourAction.response?]) (by simp [hq])
      | generateEvent event =>
        simp only [hq, Except.ok.injEq] at hok
        subst hok
        exact after_fileGet hr hstop hs hq (handleEvent_handled debug env _ _)

/-- **Inversion**: every allowed step of a ready node is one of those
`NodeStepped` lists. -/
theorem step_nodeStepped {a : NodeLabel} (hr : n.loop.Ready) (ha : n.Allowed a = true)
    (hok : n.step fits debug a = .ok n') : NodeStepped fits debug n a n' := by
  cases a with
  | command request env =>
    simp only [Node.Allowed, Bool.and_eq_true, Option.isNone_iff_eq_none] at ha
    obtain rfl : _ = n' := Except.ok.inj hok
    exact after_command hr ha.1.1.1 request env
  | event event env =>
    simp only [Node.Allowed, Bool.and_eq_true, Option.isNone_iff_eq_none] at ha
    obtain rfl : _ = n' := Except.ok.inj hok
    exact after_event hr ha.1 ha.2 (handleEvent_handled debug env n.loop event)
  | pollFileGet env =>
    simp only [Node.Allowed, Option.isNone_iff_eq_none] at ha
    exact after_poll hr ha env hok
  | swarm label =>
    simp only [Node.Allowed, Bool.and_eq_true, Bool.not_eq_true'] at ha
    unfold Node.step at hok
    dsimp only at hok
    cases hs : n.loop.swarm.step debug label with
    | error e => simp [hs, bind, Except.bind] at hok
    | ok swarm =>
      simp only [hs, bind, Except.bind, Except.ok.injEq] at hok
      subst hok
      exact .swarm label swarm ha.1.1 ha.1.2 hs
  | lost what =>
    simp only [Node.Allowed, Bool.and_eq_true] at ha
    obtain rfl : _ = n' := Except.ok.inj hok
    exact .lost what ha.2
  | dropSwarm =>
    simp only [Node.Allowed, Bool.and_eq_true] at ha
    obtain rfl : _ = n' := Except.ok.inj hok
    exact .dropSwarm (Option.isSome_iff_ne_none.mp ha.1)

end Inversion

end FileSharing
