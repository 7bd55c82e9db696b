/-
FileSharing.Network.FileSystem — the file system under the event loop, as
far as the loop sees it: opening for reading, opening for writing, listing
a directory, and writing through an open file.

Entries are kept by the place a path leads to, after lexical resolution
(`Lib.LexicalPath`). The operating system follows a path part by part, and
every place in which it looks up a part has to be a directory, the one
before a slash at the end included (`obstacle`). What it may have against a
path besides (permissions, a name that is too long, a link that leads
nowhere) is the table `refuses`.

`OpenOptions::new().create(true).write(true)` has neither `truncate` nor
`create_new`: a file that is there keeps its bytes, one that is not is
CREATED EMPTY, and writing starts at offset 0 in both cases.
-/
import FileSharing.Network.EventLoop

namespace FileSharing

open Lib

/-- What is at a place. -/
inductive FileEntry where
  | file (bytes : List UInt8)
  | directory
  deriving DecidableEq, Repr

/-- A file system. -/
structure FileSystem where
  entries : HashMap (Resolved (List UInt8)) FileEntry
  refuses : Path → Option IoError

/-- The directory a place is in. -/
def Lib.Resolved.parent (place : Resolved (List UInt8)) : Resolved (List UInt8) :=
  { place with names := place.names.dropLast }

namespace FileSystem

/-! ## Opening and listing -/

/-- There is a directory at the place. The root, the working directory and
those above it are there without an entry. -/
def isDirectory (fs : FileSystem) (place : Resolved (List UInt8)) : Bool :=
  place.names.isEmpty || fs.entries.lookup place = some .directory

/-- The bytes of the file a path leads to. -/
def contents (fs : FileSystem) (path : Path) : Option (List UInt8) :=
  match fs.entries.lookup (Path.resolve path) with
  | some (.file bytes) => some bytes
  | _ => none

/-- What stops the way along a path. The empty path leads nowhere. -/
def obstacle (fs : FileSystem) (path : Path) : Option IoError :=
  if path.isEmpty then some ⟨.notFound⟩
  else
    (Path.placesOf path).findSome? fun place =>
      if fs.isDirectory place then none
      else if (fs.entries.lookup place).isSome then some ⟨.notADirectory⟩
      else some ⟨.notFound⟩

/-- What the operating system has against a path. -/
def objection (fs : FileSystem) (path : Path) : Option IoError :=
  (fs.refuses path).or (fs.obstacle path)

/-- `File::open`. A directory can be opened, but not read. -/
def openRead (fs : FileSystem) (path : Path) : Except IoError FileReader :=
  match fs.objection path with
  | some e => .error e
  | none =>
    let place := Path.resolve path
    if fs.isDirectory place then .ok ⟨[.error ⟨.isADirectory⟩]⟩
    else
      match fs.contents path with
      | some bytes => .ok ⟨[.data bytes]⟩
      | none => .error ⟨.notFound⟩

/-- `OpenOptions::new().create(true).write(true).open(..)`: the file system
after it, and its result. -/
def openWrite (fs : FileSystem) (path : Path) : FileSystem × Except IoError FileWriter :=
  match fs.objection path with
  | some e => (fs, .error e)
  | none =>
    let place := Path.resolve path
    if fs.isDirectory place then (fs, .error ⟨.isADirectory⟩)
    else if (fs.contents path).isSome then (fs, .ok ⟨path⟩)
    else ({ fs with entries := fs.entries.insert place (.file []) }, .ok ⟨path⟩)

/-- The entries of the directory at a place. -/
def dirEntries (fs : FileSystem) (dir : Resolved (List UInt8)) : List DirEntry :=
  fs.entries.entries.filterMap fun entry =>
    match entry.1.names.getLast? with
    | some name =>
      if entry.1.parent = dir then some ⟨name, decide (entry.2 = .directory)⟩ else none
    | none => none

/-- `tokio::fs::read_dir` and the entries it then yields. -/
def readDir (fs : FileSystem) (path : Path) : Except IoError (List (Except IoError DirEntry)) :=
  match fs.objection path with
  | some e => .error e
  | none =>
    let place := Path.resolve path
    if fs.isDirectory place then .ok ((fs.dirEntries place).map .ok)
    else if (fs.contents path).isSome then .error ⟨.notADirectory⟩
    else .error ⟨.notFound⟩

/-- The surroundings of a handler that runs on this file system. -/
def env (fs : FileSystem) (listFilesId : ListFilesRequestId) (commandOrder : IterOrder UInt64)
    (namespaceOrder : IterOrder Namespace) : Env where
  listFilesId := listFilesId
  openRead := fs.openRead
  openWrite path := (fs.openWrite path).2
  readDir := fs.readDir
  commandOrder := commandOrder
  namespaceOrder := namespaceOrder

/-- What an effect of a handler does to the file system. -/
def perform (fs : FileSystem) : Effect → FileSystem
  | .openWrite path => (fs.openWrite path).1
  | _ => fs

/-- The file system after a handler ran. -/
def after (fs : FileSystem) (h : Handled) : FileSystem := h.effects.foldl perform fs

/-! ## Writing -/

/-- The bytes of a file after some are written at an offset; a gap before
the offset reads as zeros. -/
def writeAt (bytes : List UInt8) (offset : Nat) (piece : List UInt8) : List UInt8 :=
  (bytes ++ List.replicate (offset - bytes.length) 0).take offset ++ piece ++
    bytes.drop (offset + piece.length)

/-- One write through an open file. -/
def write (fs : FileSystem) (writer : FileWriter) (offset : Nat) (piece : List UInt8) :
    FileSystem :=
  match fs.contents writer.path with
  | some bytes =>
    { fs with entries :=
        fs.entries.insert (Path.resolve writer.path) (.file (writeAt bytes offset piece)) }
  | none => fs

/-- One write after the other, from an offset on. -/
def writeAll (fs : FileSystem) (writer : FileWriter) : Nat → List (List UInt8) → FileSystem
  | _, [] => fs
  | offset, piece :: rest =>
    (fs.write writer offset piece).writeAll writer (offset + piece.length) rest

/-! ## What the operations do -/

theorem obstacle_eq_none_iff {fs : FileSystem} {path : Path} :
    fs.obstacle path = none ↔
      path ≠ [] ∧ ∀ place ∈ Path.placesOf path, fs.isDirectory place = true := by
  unfold obstacle
  cases path with
  | nil => simp
  | cons b rest =>
    simp only [List.isEmpty_cons, Bool.false_eq_true, if_false, List.findSome?_eq_none_iff, ne_eq,
      reduceCtorEq, not_false_eq_true, true_and]
    refine forall₂_congr fun place _ => ?_
    split
    · rename_i hdir
      simp [hdir]
    · rename_i hdir
      split <;> simp [hdir]

/-- The way to an entry of a directory is the way to the directory. -/
theorem obstacle_push {fs : FileSystem} {base : Path} {seg : List UInt8}
    (h : fs.obstacle base = none) (hdir : fs.isDirectory (Path.resolve base) = true)
    (hslash : Path.slash ∉ seg) : fs.obstacle (Path.push base seg) = none := by
  obtain ⟨hne, hplaces⟩ := obstacle_eq_none_iff.mp h
  refine obstacle_eq_none_iff.mpr ⟨?_, ?_⟩
  · unfold Path.push
    rw [Path.isAbsolute_of_no_slash hslash]
    simp only [Bool.false_eq_true, if_false]
    split <;> simp [hne]
  · intro place hplace
    obtain hbase | rfl := Path.mem_placesOf_push hslash hplace
    · exact hplaces place hbase
    · exact hdir

/-- The outcomes of opening for writing. -/
inductive Opened (fs : FileSystem) (path : Path) :
    FileSystem × Except IoError FileWriter → Prop where
  | refused (e : IoError) : Opened fs path (fs, .error e)
  | present (bytes : List UInt8) : fs.contents path = some bytes → Opened fs path (fs, .ok ⟨path⟩)
  | created : fs.entries.lookup (Path.resolve path) = none →
      Opened fs path
        ({ fs with entries := fs.entries.insert (Path.resolve path) (.file []) }, .ok ⟨path⟩)

/-- **Inversion** of opening for writing. -/
theorem openWrite_opened (fs : FileSystem) (path : Path) : Opened fs path (fs.openWrite path) := by
  unfold openWrite
  split
  · exact .refused _
  · dsimp only
    by_cases hdir : fs.isDirectory (Path.resolve path) = true
    · rw [if_pos hdir]
      exact .refused _
    · rw [if_neg hdir]
      cases hlook : fs.entries.lookup (Path.resolve path) with
      | none => simpa [contents, hlook] using Opened.created hlook
      | some entry =>
        cases entry with
        | directory => exact absurd (by simp [isDirectory, hlook]) hdir
        | file bytes =>
          have hbytes : fs.contents path = some bytes := by simp [contents, hlook]
          simpa [hbytes] using Opened.present bytes hbytes

/-- Opening for writing leaves the file system alone exactly when it fails
or the file is there. -/
theorem openWrite_unchanged_iff (fs : FileSystem) (path : Path) :
    (fs.openWrite path).1 = fs ↔
      (∃ e, (fs.openWrite path).2 = .error e) ∨ ∃ bytes, fs.contents path = some bytes := by
  have ho := fs.openWrite_opened path
  generalize fs.openWrite path = result at ho
  cases ho with
  | refused e => simp
  | present bytes hbytes => simp [hbytes]
  | created hnone =>
    -- the new entry was not there before
    have hne : { fs with entries := fs.entries.insert (Path.resolve path) (.file []) } ≠ fs := by
      intro heq
      have hlook := congrArg (fun g => g.entries.lookup (Path.resolve path)) heq
      simp [hnone] at hlook
    simp [hne, contents, hnone]

/-- The bytes of the file that an opened writer writes to: those that were
there, or none. -/
theorem openWrite_contents {fs : FileSystem} {path : Path} {writer : FileWriter}
    (h : (fs.openWrite path).2 = .ok writer) :
    (fs.openWrite path).1.contents path = some ((fs.contents path).getD []) := by
  have ho := fs.openWrite_opened path
  generalize fs.openWrite path = result at ho h
  cases ho with
  | refused e => cases h
  | present bytes hbytes => simp [hbytes]
  | created hnone => simp [contents, hnone]

theorem write_contents {fs : FileSystem} {writer : FileWriter} {bytes : List UInt8}
    (h : fs.contents writer.path = some bytes) (offset : Nat) (piece : List UInt8) :
    (fs.write writer offset piece).contents writer.path = some (writeAt bytes offset piece) := by
  unfold write
  rw [h]
  simp [contents]

/-- Inside the file, or at its end, there is no gap. -/
theorem writeAt_eq {bytes : List UInt8} {offset : Nat} (h : offset ≤ bytes.length)
    (piece : List UInt8) :
    writeAt bytes offset piece =
      bytes.take offset ++ piece ++ bytes.drop (offset + piece.length) := by
  unfold writeAt
  rw [Nat.sub_eq_zero_of_le h, List.replicate_zero, List.append_nil]

/-- Pieces written one after the other are the whole written at once. -/
theorem writeAt_append {bytes : List UInt8} {offset : Nat} (h : offset ≤ bytes.length)
    (piece rest : List UInt8) :
    writeAt (writeAt bytes offset piece) (offset + piece.length) rest =
      writeAt bytes offset (piece ++ rest) := by
  have hfront : (bytes.take offset ++ piece).length = offset + piece.length := by
    simp only [List.length_append, List.length_take]
    omega
  have hlen : offset + piece.length ≤
      (bytes.take offset ++ piece ++ bytes.drop (offset + piece.length)).length := by
    rw [List.length_append, hfront]
    exact Nat.le_add_right _ _
  rw [writeAt_eq h, writeAt_eq h, writeAt_eq hlen, List.take_left' hfront, ← List.drop_drop,
    List.drop_left' hfront, List.drop_drop]
  simp [Nat.add_assoc]

/-- **However the bytes are cut, they end up in the file from the offset
on**, and what was behind them stays. -/
theorem writeAll_contents {fs : FileSystem} {writer : FileWriter} {bytes : List UInt8}
    (h : fs.contents writer.path = some bytes) {offset : Nat} (hoff : offset ≤ bytes.length)
    (pieces : List (List UInt8)) :
    (fs.writeAll writer offset pieces).contents writer.path =
      some (writeAt bytes offset pieces.flatten) := by
  induction pieces generalizing fs bytes offset with
  | nil =>
    rw [writeAll, h, List.flatten_nil, writeAt_eq hoff]
    simp
  | cons piece rest ih =>
    have hlen : offset + piece.length ≤ (writeAt bytes offset piece).length := by
      rw [writeAt_eq hoff]
      simp only [List.length_append, List.length_take]
      omega
    rw [writeAll, ih (write_contents h offset piece) hlen, writeAt_append hoff, List.flatten_cons]

end FileSystem

end FileSharing
