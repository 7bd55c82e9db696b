/-
FileSharing.Network.Confinement — which files the loop opens.

Two handlers join a file name to `sharing_dir` and open the result: the
one for `RequestReceived`, whose name a remote peer chose, and the one for
`GetFile`, whose name comes from the command line. Neither looks at the
name. So whether the opened path lies inside `sharing_dir` is a matter of
the name alone, and `opened_inside_iff` says exactly of which names it
does (`Path.StaysInside`).
-/
import FileSharing.Network.EventLoopTheorems

namespace FileSharing

open Lib

/-- The path an effect opens. -/
def Effect.opened? : Effect → Option Path
  | .openRead path => some path
  | .openWrite path => some path
  | _ => none

/-- The paths a handler opens. -/
def Handled.opened (h : Handled) : List Path := h.effects.filterMap (·.opened?)

/-- The file name an event asks for. -/
def SwarmEvent.fileName? : SwarmEvent → Option String
  | .fileGet (.requestReceived _ _ message _) => some message.fileName
  | _ => none

/-- The file name a command asks for. -/
def Command.fileName? : Command → Option String
  | .getFile _ fileName => some fileName
  | _ => none

/-- The path lies inside the directory, after lexical resolution. -/
def Path.LiesIn (dir path : Path) : Prop := (Path.resolve dir).Inside (Path.resolve path)

instance (dir path : Path) : Decidable (Path.LiesIn dir path) :=
  inferInstanceAs (Decidable (_ ∧ _ ∧ _))

/-- The handler opens paths inside the directory only, and every reader it
sends to a remote peer is one of a file inside. -/
structure Confined (dir : Path) (env : Env) (h : Handled) : Prop where
  opened : ∀ path ∈ h.opened, Path.LiesIn dir path
  sent : ∀ channel reader, .sendReader channel reader ∈ h.effects →
    ∃ path, Path.LiesIn dir path ∧ env.openRead path = .ok reader

namespace EventLoop

variable {l : EventLoop} {env : Env}

/-- What an event opens. -/
theorem EventHandled.opened {event : SwarmEvent} {h : Handled}
    (hh : EventHandled env l event h) :
    h.opened = (event.fileName?.map fun name => Path.push l.sharingDir (utf8 name)).toList := by
  cases hh with
  | ignored event hi =>
    cases event with
    | fileGet event =>
      cases event with
      | requestReceived => cases hi
      | _ => rfl
    | _ => rfl
  | discovered registrations =>
    refine List.filterMap_eq_nil_iff.mpr fun effect heffect => ?_
    obtain ⟨answer, -, rfl⟩ := List.mem_map.mp heffect
    rfl
  | directoryListed | notListed | listed | served | notServed | fetched => rfl
  | listedForNobody peer i fileNames k h _ _ heffects =>
    simp [Handled.opened, heffects, SwarmEvent.fileName?]
  | fetchedForNobody peer r h _ heffects =>
    simp [Handled.opened, heffects, SwarmEvent.fileName?]

/-- A reader that is sent is the one of the file opened. -/
theorem EventHandled.sent {event : SwarmEvent} {h : Handled} (hh : EventHandled env l event h)
    {channel : ChannelId} {reader : FileReader} (hs : .sendReader channel reader ∈ h.effects) :
    ∃ path ∈ h.opened, env.openRead path = .ok reader := by
  cases hh with
  | served peer r message ch file ho =>
    refine ⟨_, List.mem_cons_self, ?_⟩
    simp only [List.mem_cons, reduceCtorEq, Effect.sendReader.injEq, List.not_mem_nil, or_false,
      false_or] at hs
    rw [ho, hs.2]
  | discovered registrations =>
    obtain ⟨answer, -, heq⟩ := List.mem_map.mp hs
    cases heq
  | listedForNobody peer i fileNames k h _ _ heffects => simp [heffects] at hs
  | fetchedForNobody peer r h _ heffects => simp [heffects] at hs
  | ignored | directoryListed | notListed | listed | notServed | fetched => simp at hs

/-- What a command opens. -/
theorem handleCommand_opened (fits : String → Bool) (request : CommandRequest) :
    (l.handleCommand fits env request).opened =
      (request.command.fileName?.map fun name => Path.push l.sharingDir (utf8 name)).toList := by
  have hh := handleCommand_handled fits env l request
  generalize l.handleCommand fits env request = handled at hh
  cases hh with
  | noPoint hc _ =>
    cases h : request.command with
    | getFile userName fileName => exact absurd h (hc userName fileName)
    | register _ | listPeers | listFiles _ => rfl
  | nameTooLong _ hc _ | registered _ _ _ hc _ _ | listPeers _ hc _ | listFiles _ _ hc _
  | nobodyListed _ hc _ | notOpened _ _ _ hc _ | nobodyAsked _ _ _ hc _ _
  | notSent _ _ _ _ _ hc _ _ _ | getFile _ _ _ _ _ _ hc _ _ _ =>
    rw [hc]
    rfl

/-- Opening the joined path of at most one name is opening inside exactly
if that name stays inside. -/
theorem opened_inside (dir : Path) (name? : Option String) :
    (∀ path ∈ (name?.map fun name => Path.push dir (utf8 name)).toList, Path.LiesIn dir path) ↔
      ∀ name, name? = some name → Path.StaysInside dir (utf8 name) := by
  cases name? with
  | none => simp
  | some name =>
    simp only [Option.map_some, Option.toList_some, List.mem_singleton, forall_eq,
      Option.some.injEq, forall_eq']
    exact Path.inside_push_iff dir (utf8 name)

/-- **The loop stays inside `sharing_dir` exactly if the file names it is
given do**: for every event with its name chosen by a remote peer, and for
every command. -/
theorem opened_inside_iff (l : EventLoop) (env : Env) :
    (∀ debug event, Confined l.sharingDir env (l.handleEvent debug env event) ↔
      ∀ name, event.fileName? = some name → Path.StaysInside l.sharingDir (utf8 name)) ∧
    ∀ fits request,
      (∀ path ∈ (l.handleCommand fits env request).opened, Path.LiesIn l.sharingDir path) ↔
        ∀ name, request.command.fileName? = some name →
          Path.StaysInside l.sharingDir (utf8 name) := by
  refine ⟨fun debug event => ?_, fun fits request => ?_⟩
  · have hh := handleEvent_handled debug env l event
    rw [← opened_inside, ← hh.opened]
    refine ⟨fun hc => hc.opened, fun hopened => ⟨hopened, fun channel reader hs => ?_⟩⟩
    obtain ⟨path, hpath, hread⟩ := hh.sent hs
    exact ⟨path, hopened path hpath, hread⟩
  · rw [handleCommand_opened, opened_inside]

/-- A remote peer asks for `../x`, a command for `/x`: both open a file
outside the directory `d`. -/
theorem file_names_escape :
    ((EventLoop.new (.init ⟨10⟩) (utf8 "d")).handleEvent false (.calm 0)
      (.fileGet (.requestReceived ⟨7⟩ (.nth 0) ⟨"../x"⟩ ⟨0⟩))).opened = [utf8 "d/../x"] ∧
    ¬ Path.LiesIn (utf8 "d") (utf8 "d/../x") ∧
    ((EventLoop.new (.init ⟨10⟩) (utf8 "d")).handleCommand (fun _ => true) (.calm 0)
      ⟨0, .getFile "u" "/x", ⟨0⟩⟩).opened = [utf8 "/x"] ∧
    ¬ Path.LiesIn (utf8 "d") (utf8 "/x") := by
  decide

end EventLoop

end FileSharing
