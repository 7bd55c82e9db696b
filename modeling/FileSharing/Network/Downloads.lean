/-
FileSharing.Network.Downloads — what `GetFile` leaves on the disk.

`handle_command` opens the local file first and asks for the peer after
that. Two things follow. A command that is refused because the user is
unknown has already CREATED the file, so it changes the file system unless
the file was there (`refused_getFile_unchanged_iff`). And as the file is
opened without `truncate`, a download over a longer file leaves the end of
the old one behind the new bytes (`downloaded_eq_served_iff`).
-/
import FileSharing.FileGet.Transfer
import FileSharing.Network.FileSystem
import FileSharing.Network.EventLoopTheorems

namespace FileSharing

open Lib

/-! ## Refused commands -/

/-- The handler answers the command with an error, or returns one. -/
def Handled.Refused (h : Handled) (request : CommandRequest) : Prop :=
  (∃ e, .answer request.responseSender (.error e) ∈ h.effects) ∨ ∃ e, h.ended = some (.err e)

/-- The handler has left everything as it was: the file system, the two
tables, and `FileGet`. -/
structure Unchanged (fs : FileSystem) (l : EventLoop) (h : Handled) : Prop where
  fileSystem : fs.after h = fs
  commands : h.loop.pendingCommandRequests = l.pendingCommandRequests
  fileGets : h.loop.pendingFileGets = l.pendingFileGets
  fileGet : h.loop.swarm.fileGet = l.swarm.fileGet

section Refused

variable {fits : String → Bool} {fs : FileSystem} {l : EventLoop} {request : CommandRequest}
  {userName fileName : String} {i : ListFilesRequestId} {co : IterOrder UInt64}
  {no : IterOrder Namespace}

/-- A refused `GetFile` did nothing but open the file. -/
theorem refused_getFile (hcmd : request.command = .getFile userName fileName)
    (hr : (l.handleCommand fits (fs.env i co no) request).Refused request) :
    (l.handleCommand fits (fs.env i co no) request).loop = l ∧
    fs.after (l.handleCommand fits (fs.env i co no) request) =
      (fs.openWrite (Path.push l.sharingDir (utf8 fileName))).1 := by
  have hh := EventLoop.handleCommand_handled fits (fs.env i co no) l request
  generalize l.handleCommand fits (fs.env i co no) request = handled at hr hh
  cases hh with
  | notOpened user file e hc _ | nobodyAsked user file writer hc _ _ =>
    obtain ⟨rfl, rfl⟩ := Command.getFile.inj (hcmd.symm.trans hc)
    exact ⟨rfl, rfl⟩
  | notSent _ _ _ _ _ _ _ _ _ | getFile _ _ _ _ _ _ _ _ _ _ =>
    -- a known user: the command is not refused
    simp [Handled.Refused] at hr
  | noPoint hc _ => exact absurd hcmd (hc userName fileName)
  | nameTooLong _ hc _ | registered _ _ _ hc _ _ | listPeers _ hc _ | listFiles _ _ hc _
  | nobodyListed _ hc _ =>
    rw [hcmd] at hc
    cases hc

/-- **A refused `GetFile` changes nothing exactly when the file cannot be
opened or is there already.** For every state of the loop and every
content of the file system. -/
theorem refused_getFile_unchanged_iff (hcmd : request.command = .getFile userName fileName)
    (hr : (l.handleCommand fits (fs.env i co no) request).Refused request) :
    Unchanged fs l (l.handleCommand fits (fs.env i co no) request) ↔
      (∃ e, (fs.openWrite (Path.push l.sharingDir (utf8 fileName))).2 = .error e) ∨
      ∃ bytes, fs.contents (Path.push l.sharingDir (utf8 fileName)) = some bytes := by
  obtain ⟨hloop, hfs⟩ := refused_getFile hcmd hr
  rw [← fs.openWrite_unchanged_iff, ← hfs]
  constructor
  · intro hu
    exact hu.fileSystem
  · intro hsame
    exact ⟨hsame, by rw [hloop], by rw [hloop], by rw [hloop]⟩

end Refused

/-- A file system with the directory `d` and these files in it. -/
def directoryWith (files : List (List UInt8 × List UInt8)) : FileSystem where
  entries := files.foldl
    (fun entries file => entries.insert (Path.resolve (Path.push [100] file.1)) (.file file.2))
    (AList.singleton (Path.resolve [100]) .directory)
  refuses _ := none

/-- A loop that shares the directory `d` and knows the user `bob`. -/
def sharingLoop : EventLoop :=
  { EventLoop.new (.init ⟨10⟩) [100] with
    namespacePeers := AList.singleton ⟨"bob"⟩ ⟨7⟩ }

/-- `GetFile { user_name: userName, file_name: "a" }`. -/
def getA (userName : String) : CommandRequest := ⟨1, .getFile userName "a", ⟨5⟩⟩

/-- The user is unknown, the file is there: nothing happens. -/
theorem refused_getFile_unchanged_present :
    Unchanged (directoryWith [([97], [1, 2, 3])]) sharingLoop
      (sharingLoop.handleCommand (fun _ => true)
        ((directoryWith [([97], [1, 2, 3])]).env ⟨0⟩ (.stored _) (.stored _)) (getA "eve")) :=
  (refused_getFile_unchanged_iff rfl (Or.inl ⟨.userNotRegistered "eve",
    List.mem_cons_of_mem _ List.mem_cons_self⟩)).mpr (Or.inr ⟨[1, 2, 3], by decide⟩)

/-- The user is unknown and the directory empty: the command is refused,
and the directory lists a new file. -/
theorem refused_getFile_creates_file : ∃ fs l request,
    (l.handleCommand (fun _ => true) (fs.env ⟨0⟩ (.stored _) (.stored _)) request).Refused request ∧
    (fs.dirEntries (Path.resolve l.sharingDir) = []) ∧
    (fs.after (l.handleCommand (fun _ => true) (fs.env ⟨0⟩ (.stored _) (.stored _)) request)).dirEntries
      (Path.resolve l.sharingDir) = [⟨[97], false⟩] ∧
    ¬ Unchanged fs l
      (l.handleCommand (fun _ => true) (fs.env ⟨0⟩ (.stored _) (.stored _)) request) := by
  refine ⟨directoryWith [], sharingLoop, getA "eve", Or.inl ⟨.userNotRegistered "eve",
    List.mem_cons_of_mem _ List.mem_cons_self⟩, by decide, by decide, fun hu => ?_⟩
  have hlisted := congrArg (fun fs => fs.dirEntries (Path.resolve [100])) hu.fileSystem
  revert hlisted
  decide

/-! ## Downloads -/

/-- A download from the command to its answer. The file system before it,
the command and its handling, the outbound upgrade with the writer that
was opened (`file` is what the writer has taken when the upgrade returns,
`pieces` how it was cut into writes), and the handling of the response.
Nobody else writes to the file in the meantime. -/
structure Download (fits : String → Bool) where
  fs : FileSystem
  loop : EventLoop
  request : CommandRequest
  userName : String
  fileName : String
  command : request.command = .getFile userName fileName
  listFilesId : ListFilesRequestId
  commandOrder : IterOrder UInt64
  namespaceOrder : IterOrder Namespace
  peer : PeerId
  requestId : RequestId
  /-- The file is opened and the request made. -/
  asked :
    (loop.handleCommand fits (fs.env listFilesId commandOrder namespaceOrder) request).effects =
      [.openWrite (Path.push loop.sharingDir (utf8 fileName)), .sendFileGet peer requestId]
  socket : Sink
  incoming : List ReadResult
  faults : List (Option WriteFault)
  socketAfter : Sink
  file : Sink
  /-- The upgrade returns `Ok`. -/
  transferred : (FileGetOutboundProtocol.mk requestId fileName
      ⟨Path.push loop.sharingDir (utf8 fileName)⟩).upgradeOutbound socket incoming ⟨[], faults⟩ =
    ((socketAfter, file), .ok ())
  pieces : List (List UInt8)
  cut : pieces.flatten = file.written
  debug : Bool
  later : EventLoop
  env : Env
  /-- The command is answered `Ok`. -/
  answered : (later.handleEvent debug env (.fileGet (.responseReceived peer requestId))).effects =
    [.answer request.responseSender (.ok ⟨request.commandRequestId, .getFile userName fileName⟩)]
  served : List UInt8
  /-- The served bytes have reached the writer, all of them. -/
  delivered : file.written = served

namespace Download

variable {fits : String → Bool}

/-- `sharing_dir/file_name`. -/
def path (d : Download fits) : Path := Path.push d.loop.sharingDir (utf8 d.fileName)

/-- The bytes of the local file before the command; none if there is no
file. -/
def previous (d : Download fits) : List UInt8 := (d.fs.contents d.path).getD []

/-- The local file when the command is answered. -/
def localFile (d : Download fits) : Option (List UInt8) :=
  ((d.fs.after (d.loop.handleCommand fits
      (d.fs.env d.listFilesId d.commandOrder d.namespaceOrder) d.request)).writeAll
    ⟨d.path⟩ 0 d.pieces).contents d.path

/-- A command that makes a request has opened its file. -/
theorem opened (d : Download fits) : ∃ writer, (d.fs.openWrite d.path).2 = .ok writer := by
  cases ho : (d.fs.openWrite d.path).2 with
  | ok writer => exact ⟨writer, rfl⟩
  | error e =>
    have hopen : (d.fs.env d.listFilesId d.commandOrder d.namespaceOrder).openWrite
        (Path.push d.loop.sharingDir (utf8 d.fileName)) = .error e := ho
    have hasked := d.asked
    simp [EventLoop.handleCommand, d.command, hopen] at hasked

/-- The served bytes, and behind them what the old file had there. -/
theorem localFile_eq (d : Download fits) :
    d.localFile = some (d.served ++ d.previous.drop d.served.length) := by
  obtain ⟨writer, hwriter⟩ := d.opened
  have hfs : d.fs.after (d.loop.handleCommand fits
      (d.fs.env d.listFilesId d.commandOrder d.namespaceOrder) d.request) =
      (d.fs.openWrite d.path).1 := by
    simp [FileSystem.after, d.asked, FileSystem.perform, path]
  have hopened : (d.fs.openWrite d.path).1.contents (FileWriter.mk d.path).path = _ :=
    FileSystem.openWrite_contents hwriter
  have hwritten := FileSystem.writeAll_contents hopened (Nat.zero_le _) d.pieces
  unfold localFile
  rw [hfs, hwritten, FileSystem.writeAt_eq (Nat.zero_le _), d.cut, d.delivered]
  simp [previous]

/-- **The downloaded file is the served file exactly when the file it
overwrote was not longer.** -/
theorem downloaded_eq_served_iff (d : Download fits) :
    d.localFile = some d.served ↔ d.previous.length ≤ d.served.length := by
  rw [d.localFile_eq, Option.some.injEq, List.append_right_eq_self, List.drop_eq_nil_iff]

/-- One byte is downloaded over a file of three: the last two stay. -/
theorem downloaded_over_longer_file : ∃ d : Download (fun _ => true),
    d.served = [9] ∧ d.localFile = some [9, 2, 3] ∧ d.localFile ≠ some d.served := by
  refine ⟨{
    fs := directoryWith [([97], [1, 2, 3])]
    loop := sharingLoop
    request := getA "bob"
    userName := "bob"
    fileName := "a"
    command := rfl
    listFilesId := ⟨0⟩
    commandOrder := .stored _
    namespaceOrder := .stored _
    peer := ⟨7⟩
    requestId := .nth 0
    asked := rfl
    socket := ⟨[], []⟩
    incoming := [.data [9]]
    faults := []
    socketAfter := ⟨[0, 0, 0, 3, 10, 1, 97], []⟩
    file := ⟨[9], []⟩
    transferred := by decide
    pieces := [[9]]
    cut := rfl
    debug := true
    later := { sharingLoop with
      pendingCommandRequests := AList.singleton 1 (getA "bob")
      pendingFileGets := AList.singleton (.nth 0) 1 }
    env := Env.calm 0
    answered := rfl
    served := [9]
    delivered := rfl }, rfl, by decide, by decide⟩

end Download

end FileSharing
