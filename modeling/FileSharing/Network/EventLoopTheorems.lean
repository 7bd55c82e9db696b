/-
FileSharing.Network.EventLoopTheorems — what the two handlers of the loop
can do, said once.

`CommandHandled` lists the outcomes of `handle_command`, `EventHandled`
those of `handle_event`; `handleCommand_handled` and `handleEvent_handled`
are the inversions. Some are outcomes nobody wants: no rendezvous point to
ask, a list of files for a command that is gone, a response nobody waits
for. That they do not happen in a reachable state is the business of the
modules above; here `Ready` names the state in which they cannot.
-/
import FileSharing.FileGet.Responses
import FileSharing.Network.EventLoop

namespace FileSharing

open Lib FileGet

/-! ## Answering `ListPeers` -/

namespace EventLoop

theorem mem_listPeersKeys {order : IterOrder UInt64} {pending : HashMap UInt64 CommandRequest}
    {k : UInt64} : k ∈ listPeersKeys order pending ↔
      ∃ request, pending.lookup k = some request ∧ request.command = .listPeers := by
  simp only [listPeersKeys, List.mem_filter, IterOrder.mem_order]
  constructor
  · rintro ⟨-, h⟩
    cases hk : pending.lookup k with
    | none => simp [hk] at h
    | some request => exact ⟨request, rfl, by simpa [hk] using h⟩
  · rintro ⟨request, hk, hc⟩
    refine ⟨AList.lookup_isSome.mp (by simp [hk]), by simpa [hk] using hc⟩

theorem nodup_listPeersKeys (order : IterOrder UInt64) (pending : HashMap UInt64 CommandRequest) :
    (listPeersKeys order pending).Nodup :=
  (order.nodup_order pending.keys_nodup).filter _

/-- The commands left are those not asked for. -/
theorem answerListPeers_lookup (userNames : List String) (keys : List UInt64)
    (pending : HashMap UInt64 CommandRequest) (k : UInt64) :
    (answerListPeers userNames pending keys).1.lookup k =
      if k ∈ keys then none else pending.lookup k := by
  induction keys generalizing pending with
  | nil => simp [answerListPeers]
  | cons key keys ih =>
    unfold answerListPeers
    cases hkey : pending.lookup key with
    | none =>
      simp only [ih, List.mem_cons]
      by_cases hk : k = key
      · subst hk
        simp [hkey]
      · simp [hk]
    | some request =>
      simp only [ih, lookup_erase_ite, List.mem_cons]
      by_cases hk : k = key
      · simp [hk]
      · simp [hk]

/-- The answer a stored command gets. -/
def listPeersAnswer (userNames : List String) (request : CommandRequest) :
    SenderId × Except FileSharingError CommandResponse :=
  (request.responseSender, .ok ⟨request.commandRequestId, .listPeers userNames⟩)

/-- Every command asked for is answered, in the order asked. -/
theorem answerListPeers_effects (userNames : List String) (keys : List UInt64)
    (hn : keys.Nodup) (pending : HashMap UInt64 CommandRequest) :
    (answerListPeers userNames pending keys).2 =
      (keys.filterMap fun k => (pending.lookup k).map (listPeersAnswer userNames)).map fun a =>
        .answer a.1 a.2 := by
  induction keys generalizing pending with
  | nil => rfl
  | cons key keys ih =>
    obtain ⟨hkey, hn⟩ := List.nodup_cons.mp hn
    unfold answerListPeers
    cases hlook : pending.lookup key with
    | none => simp [hlook, ih hn]
    | some request =>
      -- taking the key out changes nothing for the keys after it
      have hrest : (keys.filterMap fun k =>
            ((pending.erase key).lookup k).map (listPeersAnswer userNames)) =
          keys.filterMap fun k => (pending.lookup k).map (listPeersAnswer userNames) := by
        refine List.filterMap_congr fun k hk => ?_
        have hne : k ≠ key := fun h => hkey (h ▸ hk)
        rw [lookup_erase_ite, if_neg hne]
      simp [hlook, ih hn, hrest, listPeersAnswer]

end EventLoop

/-! ## Outcomes -/

namespace EventLoop

/-- The loop with another swarm. -/
def withSwarm (l : EventLoop) (swarm : System) : EventLoop := { l with swarm := swarm }

/-- The loop with a command stored. -/
def store (l : EventLoop) (request : CommandRequest) : EventLoop :=
  { l with pendingCommandRequests :=
      l.pendingCommandRequests.insert request.commandRequestId request }

/-- The loop with a command taken out. -/
def take (l : EventLoop) (k : UInt64) : EventLoop :=
  { l with pendingCommandRequests := l.pendingCommandRequests.erase k }

/-- The loop after a discovery. -/
def discovered (l : EventLoop) (env : Env) (registrations : List Registration) : EventLoop :=
  let namespacePeers := insertRegistrations l.namespacePeers registrations
  let userNames := (env.namespaceOrder.order namespacePeers.keys).map (·.name)
  { l with
    namespacePeers := namespacePeers
    pendingCommandRequests := (answerListPeers userNames l.pendingCommandRequests
      (listPeersKeys env.commandOrder l.pendingCommandRequests)).1 }

/-- The answers a discovery sends. -/
def discoveredAnswers (l : EventLoop) (env : Env) (registrations : List Registration) :
    List (SenderId × Except FileSharingError CommandResponse) :=
  let namespacePeers := insertRegistrations l.namespacePeers registrations
  let userNames := (env.namespaceOrder.order namespacePeers.keys).map (·.name)
  (listPeersKeys env.commandOrder l.pendingCommandRequests).filterMap fun k =>
    (l.pendingCommandRequests.lookup k).map (listPeersAnswer userNames)

/-- A discovery answers every stored `ListPeers`. -/
theorem exists_discoveredAnswer {l : EventLoop} {k : UInt64} {request : CommandRequest}
    (hk : l.pendingCommandRequests.lookup k = some request) (hc : request.command = .listPeers)
    (env : Env) (registrations : List Registration) :
    ∃ result, (request.responseSender, result) ∈ l.discoveredAnswers env registrations := by
  have hkey : k ∈ listPeersKeys env.commandOrder l.pendingCommandRequests :=
    mem_listPeersKeys.mpr ⟨request, hk, hc⟩
  exact ⟨_, List.mem_filterMap.mpr ⟨k, hkey, by rw [hk]; rfl⟩⟩

/-- The handler of the command returns `Err`. -/
def CommandFails (fits : String → Bool) (env : Env) (l : EventLoop) (request : CommandRequest) :
    Prop :=
  match request.command with
  | .register userName => fits userName = false
  | .listPeers => False
  | .listFiles _ => False
  | .getFile _ fileName =>
    ∃ e, env.openWrite (Path.push l.sharingDir (utf8 fileName)) = .error e

/-- The handler of the command answers it. -/
def AnsweredAtOnce (fits : String → Bool) (l : EventLoop) (request : CommandRequest)
    (result : Except FileSharingError CommandResponse) : Prop :=
  match request.command with
  | .register _ => result = .ok ⟨request.commandRequestId, .register⟩
  | .listPeers => False
  | .listFiles userName =>
    l.getPeerId fits userName = none ∧ result = .error (.userNotRegistered userName)
  | .getFile userName _ =>
    l.getPeerId fits userName = none ∧ result = .error (.userNotRegistered userName)

/-- A `GetFile` waits for the response to `r` under the id `k`. -/
def Awaits (l : EventLoop) (r : RequestId) (k : UInt64) (request : CommandRequest)
    (userName fileName : String) : Prop :=
  l.pendingFileGets.lookup r = some k ∧ l.pendingCommandRequests.lookup k = some request ∧
    request.command = .getFile userName fileName

/-- The state in which no `expect` of a handler can fail. -/
structure Ready (l : EventLoop) : Prop where
  rendezvous : ∃ node, l.rendezvousPointPeerId = some node
  wellFormed : l.swarm.fileGet.WellFormed
  listFiles : ∀ {i k}, l.pendingListFiles.lookup i = some k →
    ∃ request, l.pendingCommandRequests.lookup k = some request
  response : ∀ {r}, r ∈ l.swarm.fileGet.responses →
    ∃ k request userName fileName, l.Awaits r k request userName fileName

/-- Everything `handle_command` can do. -/
inductive CommandHandled (fits : String → Bool) (env : Env) (l : EventLoop)
    (request : CommandRequest) : Handled → Prop where
  /-- The user name is no namespace. -/
  | nameTooLong (userName : String) : request.command = .register userName →
      Namespace.new fits userName = none →
      CommandHandled fits env l request ⟨l, [], some (.err .namespaceTooLong)⟩
  /-- There is no rendezvous point to ask. -/
  | noPoint : (∀ userName fileName, request.command ≠ .getFile userName fileName) →
      l.rendezvousPointPeerId = none →
      CommandHandled fits env l request ⟨l, [], some noRendezvousPoint⟩
  | registered (userName : String) (namespace_ : Namespace) (node : PeerId) :
      request.command = .register userName → Namespace.new fits userName = some namespace_ →
      l.rendezvousPointPeerId = some node →
      CommandHandled fits env l request ⟨l, [.register namespace_ node,
        .answer request.responseSender (.ok ⟨request.commandRequestId, .register⟩)], none⟩
  | listPeers (node : PeerId) : request.command = .listPeers →
      l.rendezvousPointPeerId = some node →
      CommandHandled fits env l request ⟨l.store request, [.discover node], none⟩
  | listFiles (userName : String) (peer : PeerId) : request.command = .listFiles userName →
      l.getPeerId fits userName = some peer →
      CommandHandled fits env l request
        ⟨{ l.store request with
            pendingListFiles :=
              l.pendingListFiles.insert env.listFilesId request.commandRequestId },
          [.sendListFiles peer env.listFilesId], none⟩
  /-- The user whose files are to be listed is not known. -/
  | nobodyListed (userName : String) : request.command = .listFiles userName →
      l.getPeerId fits userName = none →
      CommandHandled fits env l request
        ⟨l, [.answer request.responseSender (.error (.userNotRegistered userName))], none⟩
  /-- The local file cannot be opened. -/
  | notOpened (userName fileName : String) (e : IoError) :
      request.command = .getFile userName fileName →
      env.openWrite (Path.push l.sharingDir (utf8 fileName)) = .error e →
      CommandHandled fits env l request
        ⟨l, [.openWrite (Path.push l.sharingDir (utf8 fileName))], some (.err (.io e))⟩
  /-- The user whose file is wanted is not known. -/
  | nobodyAsked (userName fileName : String) (writer : FileWriter) :
      request.command = .getFile userName fileName →
      env.openWrite (Path.push l.sharingDir (utf8 fileName)) = .ok writer →
      l.getPeerId fits userName = none →
      CommandHandled fits env l request
        ⟨l, [.openWrite (Path.push l.sharingDir (utf8 fileName)),
          .answer request.responseSender (.error (.userNotRegistered userName))], none⟩
  | notSent (userName fileName : String) (writer : FileWriter) (peer : PeerId) (p : Panic) :
      request.command = .getFile userName fileName →
      env.openWrite (Path.push l.sharingDir (utf8 fileName)) = .ok writer →
      l.getPeerId fits userName = some peer →
      l.swarm.fileGet.sendRequest peer ⟨fileName⟩ writer = .error p →
      CommandHandled fits env l request
        ⟨l, [.openWrite (Path.push l.sharingDir (utf8 fileName))], some (.panic p)⟩
  | getFile (userName fileName : String) (writer : FileWriter) (peer : PeerId) (fileGet : FileGet)
      (r : RequestId) :
      request.command = .getFile userName fileName →
      env.openWrite (Path.push l.sharingDir (utf8 fileName)) = .ok writer →
      l.getPeerId fits userName = some peer →
      l.swarm.fileGet.sendRequest peer ⟨fileName⟩ writer = .ok (fileGet, r) →
      CommandHandled fits env l request
        ⟨{ l.store request with
            swarm := { l.swarm with fileGet := fileGet }
            pendingFileGets := l.pendingFileGets.insert r request.commandRequestId },
          [.openWrite (Path.push l.sharingDir (utf8 fileName)), .sendFileGet peer r], none⟩

/-- **Inversion**: `handle_command` does one of the things listed. -/
theorem handleCommand_handled (fits : String → Bool) (env : Env) (l : EventLoop)
    (request : CommandRequest) :
    CommandHandled fits env l request (l.handleCommand fits env request) := by
  unfold handleCommand
  cases hc : request.command with
  | register userName =>
    dsimp only
    cases hn : Namespace.new fits userName with
    | none => exact .nameTooLong userName hc hn
    | some namespace_ =>
      dsimp only
      cases hr : l.rendezvousPointPeerId with
      | none => exact .noPoint (by simp [hc]) hr
      | some node => exact .registered userName namespace_ node hc hn hr
  | listPeers =>
    dsimp only
    split
    · rename_i hr
      exact .noPoint (by simp [hc]) hr
    · rename_i node hr
      exact .listPeers node hc hr
  | listFiles userName =>
    dsimp only
    cases hp : l.getPeerId fits userName with
    | none => exact .nobodyListed userName hc hp
    | some peer => exact .listFiles userName peer hc hp
  | getFile userName fileName =>
    dsimp only
    cases ho : env.openWrite (Path.push l.sharingDir (utf8 fileName)) with
    | error e => exact .notOpened userName fileName e hc ho
    | ok writer =>
      dsimp only
      cases hp : l.getPeerId fits userName with
      | none => exact .nobodyAsked userName fileName writer hc ho hp
      | some peer =>
        dsimp only
        cases hs : l.swarm.fileGet.sendRequest peer ⟨fileName⟩ writer with
        | error p => exact .notSent userName fileName writer peer p hc ho hp hs
        | ok result =>
          obtain ⟨fileGet, r⟩ := result
          exact .getFile userName fileName writer peer fileGet r hc ho hp hs

/-- The handler of the event only logs, or does nothing at all. -/
def Ignores (l : EventLoop) : SwarmEvent → Prop
  | .rendezvous (.discovered _) => False
  | .listFiles (.request _ _) => False
  | .listFiles (.response _ i _) => l.pendingListFiles.lookup i = none
  | .fileGet (.requestReceived _ _ _ _) => False
  | .fileGet (.responseReceived _ _) => False
  | _ => True

/-- Everything `handle_event` can do. -/
inductive EventHandled (env : Env) (l : EventLoop) : SwarmEvent → Handled → Prop where
  | ignored (event : SwarmEvent) : l.Ignores event → EventHandled env l event ⟨l, [], none⟩
  | discovered (registrations : List Registration) :
      EventHandled env l (.rendezvous (.discovered registrations))
        ⟨l.discovered env registrations,
          (l.discoveredAnswers env registrations).map fun a => .answer a.1 a.2, none⟩
  /-- The directory is listed for a remote peer. -/
  | directoryListed (peer : PeerId) (channel : ListFilesChannel) (fileNames : List String) :
      (env.readDir l.sharingDir >>= collectFileNames) = .ok fileNames →
      EventHandled env l (.listFiles (.request peer channel))
        ⟨l, [.readDir l.sharingDir, .sendListFilesResponse channel fileNames], none⟩
  /-- The directory cannot be listed. -/
  | notListed (peer : PeerId) (channel : ListFilesChannel) (e : IoError) :
      (env.readDir l.sharingDir >>= collectFileNames) = .error e →
      EventHandled env l (.listFiles (.request peer channel))
        ⟨l, [.readDir l.sharingDir], some (.err (.io e))⟩
  /-- A `ListFiles` gets its answer. -/
  | listed (peer : PeerId) (i : ListFilesRequestId) (fileNames : List String) (k : UInt64)
      (request : CommandRequest) :
      l.pendingListFiles.lookup i = some k → l.pendingCommandRequests.lookup k = some request →
      EventHandled env l (.listFiles (.response peer i fileNames))
        ⟨{ l.take k with pendingListFiles := l.pendingListFiles.erase i },
          [.answer request.responseSender (.ok ⟨k, .listFiles fileNames⟩)], none⟩
  /-- The command the list is for is gone. -/
  | listedForNobody (peer : PeerId) (i : ListFilesRequestId) (fileNames : List String) (k : UInt64)
      (h : Handled) :
      l.pendingListFiles.lookup i = some k → l.pendingCommandRequests.lookup k = none →
      h.effects = [] → EventHandled env l (.listFiles (.response peer i fileNames)) h
  /-- A remote peer gets the file it asked for. -/
  | served (peer : PeerId) (r : RequestId) (message : FileGetMessage) (channel : ChannelId)
      (file : FileReader) :
      env.openRead (Path.push l.sharingDir (utf8 message.fileName)) = .ok file →
      EventHandled env l (.fileGet (.requestReceived peer r message channel))
        ⟨l, [.openRead (Path.push l.sharingDir (utf8 message.fileName)),
          .sendReader channel file], none⟩
  /-- The file cannot be opened. -/
  | notServed (peer : PeerId) (r : RequestId) (message : FileGetMessage) (channel : ChannelId)
      (e : IoError) :
      env.openRead (Path.push l.sharingDir (utf8 message.fileName)) = .error e →
      EventHandled env l (.fileGet (.requestReceived peer r message channel))
        ⟨l, [.openRead (Path.push l.sharingDir (utf8 message.fileName)), .dropSender channel],
          some (.err (.io e))⟩
  /-- A `GetFile` gets its answer. -/
  | fetched (peer : PeerId) (r : RequestId) (k : UInt64) (request : CommandRequest)
      (userName fileName : String) :
      l.Awaits r k request userName fileName →
      EventHandled env l (.fileGet (.responseReceived peer r))
        ⟨{ l.take k with pendingFileGets := l.pendingFileGets.erase r },
          [.answer request.responseSender (.ok ⟨k, .getFile userName fileName⟩)], none⟩
  /-- No `GetFile` waits for the response. -/
  | fetchedForNobody (peer : PeerId) (r : RequestId) (h : Handled) :
      (∀ k request userName fileName, ¬ l.Awaits r k request userName fileName) →
      h.effects = [] → EventHandled env l (.fileGet (.responseReceived peer r)) h

/-- **Inversion**: `handle_event` does one of the things listed. -/
theorem handleEvent_handled (debug : Bool) (env : Env) (l : EventLoop) (event : SwarmEvent) :
    EventHandled env l event (l.handleEvent debug env event) := by
  cases event with
  | newListenAddr _ | other => exact .ignored _ trivial
  | rendezvous event =>
    cases event with
    | discovered registrations =>
      have heffects := answerListPeers_effects
        ((env.namespaceOrder.order
          (insertRegistrations l.namespacePeers registrations).keys).map (·.name))
        (listPeersKeys env.commandOrder l.pendingCommandRequests)
        (nodup_listPeersKeys env.commandOrder l.pendingCommandRequests) l.pendingCommandRequests
      unfold handleEvent
      dsimp only
      rw [heffects]
      exact .discovered registrations
    | registered _ _ _ | registerFailed | discoverFailed | expired _ => exact .ignored _ trivial
  | listFiles event =>
    cases event with
    | request peer channel =>
      unfold handleEvent
      dsimp only
      cases hd : env.readDir l.sharingDir >>= collectFileNames with
      | error e => exact .notListed peer channel e hd
      | ok fileNames => exact .directoryListed peer channel fileNames hd
    | response peer i fileNames =>
      unfold handleEvent
      dsimp only
      cases hi : l.pendingListFiles.lookup i with
      | none => exact .ignored _ hi
      | some k =>
        dsimp only
        cases hk : l.pendingCommandRequests.lookup k with
        | none => exact .listedForNobody peer i fileNames k _ hi hk rfl
        | some request => exact .listed peer i fileNames k request hi hk
    | outboundFailure _ _ | inboundFailure _ | responseSent _ => exact .ignored _ trivial
  | fileGet event =>
    cases event with
    | requestReceived peer r message channel =>
      unfold handleEvent
      dsimp only
      cases ho : env.openRead (Path.push l.sharingDir (utf8 message.fileName)) with
      | error e => exact .notServed peer r message channel e ho
      | ok file => exact .served peer r message channel file ho
    | responseReceived peer r =>
      unfold handleEvent
      dsimp only
      cases hr : l.pendingFileGets.lookup r with
      | none => exact .fetchedForNobody peer r _ (by simp [Awaits, hr]) rfl
      | some k =>
        dsimp only
        cases hk : l.pendingCommandRequests.lookup k with
        | none =>
          refine .fetchedForNobody peer r _ ?_ rfl
          rintro k' request userName fileName ⟨hr', hk', -⟩
          rw [hr] at hr'
          obtain rfl := Option.some.inj hr'
          rw [hk] at hk'
          cases hk'
        | some request =>
          dsimp only
          cases hc : request.command with
          | getFile userName fileName =>
            exact .fetched peer r k request userName fileName ⟨hr, hk, hc⟩
          | register _ | listPeers | listFiles _ =>
            refine .fetchedForNobody peer r _ ?_ ?_
            · rintro k' request' userName fileName ⟨hr', hk', hc'⟩
              rw [hr] at hr'
              obtain rfl := Option.some.inj hr'
              rw [hk] at hk'
              obtain rfl := Option.some.inj hk'
              rw [hc] at hc'
              cases hc'
            · cases debug <;> rfl
    | responseSent _ _ | outboundFailure _ _ _ | inboundFailure _ _ _ => exact .ignored _ trivial

end EventLoop

end FileSharing
