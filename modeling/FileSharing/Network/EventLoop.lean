/-
FileSharing.Network.EventLoop — the event loop of a node
(`src/network/mod.rs`): its state, `handle_command` and `handle_event`.

The loop owns the swarm. Of what is in it the loop's state keeps the
`FileGet` behaviour with its connections (`FileGet.System`), for
`handle_command` calls `send_request`; what the loop asks of the other
behaviours (`rendezvous`, `list_files`) and of the file system is recorded
as a list of `Effect`s, in the order in which it happens. What the
surroundings give back during one call (the id of a `list_files` request,
the results of file-system calls, the order in which hash tables are
walked) is its `Env`.

A handler either goes on, returns `Err` (after which `run` returns and the
loop is dropped with everything in it), or panics.

`Namespace::new` belongs to `libp2p-rendezvous`: whether it accepts a name
is the parameter `fits`.
-/
import FileSharing.Lib.LexicalPath
import FileSharing.FileGet.System
import FileSharing.Network.Command

namespace FileSharing

open Lib

/-! ## Identities and events of the other behaviours -/

/-- `rendezvous::Namespace`. -/
structure Namespace where
  name : String
  deriving DecidableEq, Repr

/-- `Namespace::new`; `none` is `NamespaceTooLong`. -/
def Namespace.new (fits : String → Bool) (name : String) : Option Namespace :=
  if fits name then some ⟨name⟩ else none

/-- `request_response::RequestId`. -/
structure ListFilesRequestId where
  key : Nat
  deriving DecidableEq, Repr

/-- `request_response::ResponseChannel`, known by its identity. -/
structure ListFilesChannel where
  key : Nat
  deriving DecidableEq, Repr

/-- `rendezvous::Registration`, with the fields the loop reads. -/
structure Registration where
  namespace_ : Namespace
  peerId : PeerId
  addresses : List Multiaddr
  deriving DecidableEq, Repr

/-- `rendezvous::client::Event`. -/
inductive RendezvousEvent where
  | registered (namespace_ : Namespace) (ttl : Nat) (rendezvousNode : PeerId)
  | registerFailed
  | discoverFailed
  | expired (peer : PeerId)
  | discovered (registrations : List Registration)
  deriving DecidableEq, Repr

/-- `RequestResponseEvent<ListFilesRequest, ListFilesResponse>`. -/
inductive ListFilesEvent where
  | request (peer : PeerId) (channel : ListFilesChannel)
  | response (peer : PeerId) (requestId : ListFilesRequestId) (fileNames : List String)
  | outboundFailure (peer : PeerId) (requestId : ListFilesRequestId)
  | inboundFailure (peer : PeerId)
  | responseSent (peer : PeerId)
  deriving DecidableEq, Repr

/-- `SwarmEvent<ComposedEvent, ..>`. `other` is everything the last arm of
`handle_event` ignores besides: identify, ping, and the swarm's own
events. -/
inductive SwarmEvent where
  | newListenAddr (address : Multiaddr)
  | rendezvous (event : RendezvousEvent)
  | listFiles (event : ListFilesEvent)
  | fileGet (event : FileGetEvent)
  | other
  deriving DecidableEq, Repr

/-! ## The state and its surroundings -/

/-- `EventLoop`, without the receiving end of the command channel. -/
structure EventLoop where
  swarm : System
  rendezvousPointPeerId : Option PeerId
  namespacePeers : HashMap Namespace PeerId
  pendingCommandRequests : HashMap UInt64 CommandRequest
  pendingListFiles : HashMap ListFilesRequestId UInt64
  pendingFileGets : HashMap RequestId UInt64
  sharingDir : Path
  deriving DecidableEq

/-- `tokio::fs::DirEntry`: the name and what `path().is_dir()` says. -/
structure DirEntry where
  fileName : List UInt8
  isDir : Bool
  deriving DecidableEq, Repr

/-- What the surroundings give back during one call. -/
structure Env where
  /-- The id `list_files.send_request` will return. -/
  listFilesId : ListFilesRequestId
  /-- `File::open`. -/
  openRead : Path → Except IoError FileReader
  /-- `OpenOptions::new().create(true).write(true).open(..)`. -/
  openWrite : Path → Except IoError FileWriter
  /-- `tokio::fs::read_dir` and the entries it then yields. -/
  readDir : Path → Except IoError (List (Except IoError DirEntry))
  /-- The order in which `pending_command_requests` is walked. -/
  commandOrder : IterOrder UInt64
  /-- The order in which the keys of `namespace_peers` are walked. -/
  namespaceOrder : IterOrder Namespace

/-- A file system in which everything can be opened and nothing is in any
directory, and `list_files` at the given id. -/
def Env.calm (listFilesId : Nat) : Env where
  listFilesId := ⟨listFilesId⟩
  openRead _ := .ok ⟨[]⟩
  openWrite path := .ok ⟨path⟩
  readDir _ := .ok []
  commandOrder := .stored _
  namespaceOrder := .stored _

/-- What a handler does to its surroundings. -/
inductive Effect where
  | answer (sender : SenderId) (result : Except FileSharingError CommandResponse)
  | register (namespace_ : Namespace) (rendezvousNode : PeerId)
  | discover (rendezvousNode : PeerId)
  | sendListFiles (peer : PeerId) (requestId : ListFilesRequestId)
  | sendListFilesResponse (channel : ListFilesChannel) (fileNames : List String)
  | openRead (path : Path)
  | openWrite (path : Path)
  | readDir (path : Path)
  | sendReader (resSender : ChannelId) (reader : FileReader)
  | dropSender (resSender : ChannelId)
  | sendFileGet (peer : PeerId) (requestId : RequestId)

/-- How a handler ends other than with `Ok`. -/
inductive Ended where
  | err (e : FileSharingError)
  | panic (p : Panic)
  deriving DecidableEq, Repr

/-- The result of a handler: the loop, what it did, and how it ended. -/
structure Handled where
  loop : EventLoop
  effects : List Effect
  ended : Option Ended

/-! ## File names -/

/-- A UTF-8 sequence begun: the range its next byte has to be in, how many
bytes come after that one, and the code point so far. -/
structure Utf8Begun where
  low : UInt8
  high : UInt8
  more : Nat
  code : Nat

/-- What stands for an invalid sequence: U+FFFD. -/
def replacementCharacter : Char := Char.ofNat 0xFFFD

/-- The first byte of a sequence. -/
def utf8First (b : UInt8) : List Char × Option Utf8Begun :=
  if b < 0x80 then ([Char.ofNat b.toNat], none)
  else if b < 0xC2 then ([replacementCharacter], none)
  else if b < 0xE0 then ([], some ⟨0x80, 0xBF, 0, b.toNat % 0x20⟩)
  else if b < 0xF0 then
    let low := if b = 0xE0 then 0xA0 else 0x80
    let high := if b = 0xED then 0x9F else 0xBF
    ([], some ⟨low, high, 1, b.toNat % 0x10⟩)
  else if b < 0xF5 then
    let low := if b = 0xF0 then 0x90 else 0x80
    let high := if b = 0xF4 then 0x8F else 0xBF
    ([], some ⟨low, high, 2, b.toNat % 0x08⟩)
  else ([replacementCharacter], none)

/-- The next byte. One that cannot continue the sequence ends it as invalid
and begins a new one. -/
def utf8Next (begun : Option Utf8Begun) (b : UInt8) : List Char × Option Utf8Begun :=
  match begun with
  | none => utf8First b
  | some u =>
    if u.low ≤ b ∧ b ≤ u.high then
      let code := u.code * 0x40 + b.toNat % 0x40
      match u.more with
      | 0 => ([Char.ofNat code], none)
      | more + 1 => ([], some ⟨0x80, 0xBF, more, code⟩)
    else
      let (chars, begun) := utf8First b
      (replacementCharacter :: chars, begun)

/-- The characters of the bytes to come. -/
def utf8Lossy : Option Utf8Begun → List UInt8 → List Char
  | none, [] => []
  | some _, [] => [replacementCharacter]
  | begun, b :: rest =>
    let (chars, begun) := utf8Next begun b
    chars ++ utf8Lossy begun rest

/-- `OsStr::to_string_lossy`. -/
def toStringLossy (name : List UInt8) : String := String.ofList (utf8Lossy none name)

/-- The stream of `read_dir` entries, filtered, named and collected; the
first entry that cannot be read ends it with its error. -/
def collectFileNames : List (Except IoError DirEntry) → Except IoError (List String)
  | [] => .ok []
  | .error e :: _ => .error e
  | .ok entry :: rest => do
    let fileNames ← collectFileNames rest
    .ok (if entry.isDir then fileNames else toStringLossy entry.fileName :: fileNames)

namespace EventLoop

/-- `EventLoop::new`. -/
def new (swarm : System) (sharingDir : Path) : EventLoop where
  swarm := swarm
  rendezvousPointPeerId := none
  namespacePeers := ∅
  pendingCommandRequests := ∅
  pendingListFiles := ∅
  pendingFileGets := ∅
  sharingDir := sharingDir

/-- `EventLoop::get_peer_id`. -/
def getPeerId (fits : String → Bool) (s : EventLoop) (userName : String) : Option PeerId :=
  (Namespace.new fits userName).bind fun namespace_ => s.namespacePeers.lookup namespace_

/-! ## Commands -/

/-- The panic of a missing rendezvous point. -/
def noRendezvousPoint : Ended :=
  .panic (.expect "Rendezvous point peer id has been set before register")

/-- `EventLoop::handle_command`. -/
def handleCommand (fits : String → Bool) (env : Env) (s : EventLoop) (request : CommandRequest) :
    Handled :=
  match request.command with
  | .register userName =>
    match Namespace.new fits userName with
    | none => ⟨s, [], some (.err .namespaceTooLong)⟩
    | some namespace_ =>
      match s.rendezvousPointPeerId with
      | none => ⟨s, [], some noRendezvousPoint⟩
      | some node =>
        ⟨s, [.register namespace_ node,
          .answer request.responseSender (.ok ⟨request.commandRequestId, .register⟩)], none⟩
  | .listPeers =>
    match s.rendezvousPointPeerId with
    | none => ⟨s, [], some noRendezvousPoint⟩
    | some node =>
      ⟨{ s with pendingCommandRequests :=
          s.pendingCommandRequests.insert request.commandRequestId request },
        [.discover node], none⟩
  | .listFiles userName =>
    match s.getPeerId fits userName with
    | some peer =>
      ⟨{ s with
          pendingCommandRequests :=
            s.pendingCommandRequests.insert request.commandRequestId request
          pendingListFiles := s.pendingListFiles.insert env.listFilesId request.commandRequestId },
        [.sendListFiles peer env.listFilesId], none⟩
    | none => ⟨s, [.answer request.responseSender (.error (.userNotRegistered userName))], none⟩
  | .getFile userName fileName =>
    let filePath := Path.push s.sharingDir (utf8 fileName)
    match env.openWrite filePath with
    | .error e => ⟨s, [.openWrite filePath], some (.err (.io e))⟩
    | .ok writer =>
      match s.getPeerId fits userName with
      | some peer =>
        match s.swarm.fileGet.sendRequest peer ⟨fileName⟩ writer with
        | .error p => ⟨s, [.openWrite filePath], some (.panic p)⟩
        | .ok (fileGet, requestId) =>
          ⟨{ s with
              swarm := { s.swarm with fileGet := fileGet }
              pendingCommandRequests :=
                s.pendingCommandRequests.insert request.commandRequestId request
              pendingFileGets := s.pendingFileGets.insert requestId request.commandRequestId },
            [.openWrite filePath, .sendFileGet peer requestId], none⟩
      | none =>
        ⟨s, [.openWrite filePath,
          .answer request.responseSender (.error (.userNotRegistered userName))], none⟩

/-! ## Discovery -/

/-- The loop over the registrations and their addresses. -/
def insertRegistrations (namespacePeers : HashMap Namespace PeerId)
    (registrations : List Registration) : HashMap Namespace PeerId :=
  registrations.foldl (fun peers registration =>
    registration.addresses.foldl (fun peers _ =>
      peers.insert registration.namespace_ registration.peerId) peers) namespacePeers

/-- `to_remove`: the keys of the stored `ListPeers` commands, in the order
in which the table is walked. -/
def listPeersKeys (order : IterOrder UInt64) (pending : HashMap UInt64 CommandRequest) :
    List UInt64 :=
  (order.order pending.keys).filter fun key =>
    match pending.lookup key with
    | some request => request.command = .listPeers
    | none => false

/-- The loop over `to_remove`: the commands left, and the answers. -/
def answerListPeers (userNames : List String) (pending : HashMap UInt64 CommandRequest) :
    List UInt64 → HashMap UInt64 CommandRequest × List Effect
  | [] => (pending, [])
  | key :: keys =>
    match pending.lookup key with
    | none => answerListPeers userNames pending keys
    | some request =>
      let (left, effects) := answerListPeers userNames (pending.erase key) keys
      (left, .answer request.responseSender
        (.ok ⟨request.commandRequestId, .listPeers userNames⟩) :: effects)

/-! ## Events -/

/-- The message of both `expect`s of the `ResponseReceived` branch. -/
def notPending : Ended :=
  .panic (.expect "Expect command request to be pending before response is received.")

/-- `EventLoop::handle_event`. The branches that only log do nothing. -/
def handleEvent (debug : Bool) (env : Env) (s : EventLoop) : SwarmEvent → Handled
  | .newListenAddr _ => ⟨s, [], none⟩
  | .rendezvous (.registered _ _ _) => ⟨s, [], none⟩
  | .rendezvous .registerFailed => ⟨s, [], none⟩
  | .rendezvous .discoverFailed => ⟨s, [], none⟩
  | .rendezvous (.expired _) => ⟨s, [], none⟩
  | .rendezvous (.discovered registrations) =>
    let namespacePeers := insertRegistrations s.namespacePeers registrations
    let userNames := (env.namespaceOrder.order namespacePeers.keys).map (·.name)
    let (left, effects) := answerListPeers userNames s.pendingCommandRequests
      (listPeersKeys env.commandOrder s.pendingCommandRequests)
    ⟨{ s with namespacePeers := namespacePeers, pendingCommandRequests := left }, effects, none⟩
  | .listFiles (.request _ channel) =>
    match env.readDir s.sharingDir >>= collectFileNames with
    | .error e => ⟨s, [.readDir s.sharingDir], some (.err (.io e))⟩
    | .ok fileNames =>
      ⟨s, [.readDir s.sharingDir, .sendListFilesResponse channel fileNames], none⟩
  | .listFiles (.response _ requestId fileNames) =>
    match s.pendingListFiles.lookup requestId with
    | none => ⟨s, [], none⟩
    | some commandRequestId =>
      let s := { s with pendingListFiles := s.pendingListFiles.erase requestId }
      match s.pendingCommandRequests.lookup commandRequestId with
      | none => ⟨s, [], none⟩
      | some request =>
        ⟨{ s with pendingCommandRequests := s.pendingCommandRequests.erase commandRequestId },
          [.answer request.responseSender (.ok ⟨commandRequestId, .listFiles fileNames⟩)], none⟩
  | .listFiles (.outboundFailure _ _) => ⟨s, [], none⟩
  | .listFiles (.inboundFailure _) => ⟨s, [], none⟩
  | .fileGet (.requestReceived _ _ message resSender) =>
    let filePath := Path.push s.sharingDir (utf8 message.fileName)
    match env.openRead filePath with
    | .error e => ⟨s, [.openRead filePath, .dropSender resSender], some (.err (.io e))⟩
    | .ok file => ⟨s, [.openRead filePath, .sendReader resSender file], none⟩
  | .fileGet (.responseReceived _ requestId) =>
    match s.pendingFileGets.lookup requestId with
    | none => ⟨s, [], some notPending⟩
    | some commandRequestId =>
      let s := { s with pendingFileGets := s.pendingFileGets.erase requestId }
      match s.pendingCommandRequests.lookup commandRequestId with
      | none => ⟨s, [], some notPending⟩
      | some request =>
        let s :=
          { s with pendingCommandRequests := s.pendingCommandRequests.erase commandRequestId }
        match request.command with
        | .getFile userName fileName =>
          ⟨s, [.answer request.responseSender
            (.ok ⟨commandRequestId, .getFile userName fileName⟩)], none⟩
        | _ =>
          if debug then ⟨s, [], some (.panic (.explicit "Expect command to be GetFile"))⟩
          else ⟨s, [], none⟩
  -- the last arm, `_ => {}`
  | .listFiles (.responseSent _) => ⟨s, [], none⟩
  | .fileGet (.responseSent _ _) => ⟨s, [], none⟩
  | .fileGet (.outboundFailure _ _ _) => ⟨s, [], none⟩
  | .fileGet (.inboundFailure _ _ _) => ⟨s, [], none⟩
  | .other => ⟨s, [], none⟩

end EventLoop

end FileSharing
