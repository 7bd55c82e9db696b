/-
FileSharing.Network.CommandParser — the lines a user types: reading one
(`Command::from_str`, `src/command.rs`) and writing one as the README does.

`from_str` looks at the first word of the line and, for `register`, at the
second; what stands after that it never reads, and of the parts of a `get@`
word it reads two. So reading is exact on the lines `render` makes out of a
command with well-formed names (`fromStr_render_iff`), and loses text on
exactly the lines with a leftover (`understood_iff`).
-/
import FileSharing.Lib.Splitting
import FileSharing.Network.Command

namespace FileSharing

open Lib

/-! ## The string functions -/

/-- `char::is_whitespace`: the Unicode property `White_Space`. -/
def isWhitespace (c : Char) : Bool :=
  c.toNat = 0x20 || (0x09 ≤ c.toNat && c.toNat ≤ 0x0D) || c.toNat = 0x85 || c.toNat = 0xA0 ||
    c.toNat = 0x1680 || (0x2000 ≤ c.toNat && c.toNat ≤ 0x200A) || c.toNat = 0x2028 ||
    c.toNat = 0x2029 || c.toNat = 0x202F || c.toNat = 0x205F || c.toNat = 0x3000

/-- `str::split_whitespace`. -/
def splitWhitespace (s : String) : List String :=
  (words isWhitespace s.toList).map String.ofList

/-- `str::split`, at a string. -/
def splitStr (separator s : String) : List String :=
  (splitSeq separator.toList s.toList).map String.ofList

/-- `str::starts_with`. -/
def startsWith (s start : String) : Bool := start.toList.isPrefixOf s.toList

/-- `&s[n..]`, after `n` characters of one byte each. -/
def sliceFrom (s : String) (n : Nat) : String := String.ofList (s.toList.drop n)

/-! ## Reading and writing a line -/

/-- `Command::from_str`. The `parse` of a name into a `String` cannot fail. -/
def Command.fromStr (s : String) : Except FileSharingError Command :=
  match splitWhitespace s with
  | [] => .error .invalidCommand
  | command :: parts =>
    if command = "register" then
      match parts with
      | [] => .error .invalidCommand
      | userName :: _ => .ok (.register userName)
    else if command = "ls_peers" then .ok .listPeers
    else if startsWith command "ls@" then .ok (.listFiles (sliceFrom command 3))
    else if startsWith command "get@" then
      match splitStr "->" (sliceFrom command 4) with
      | userName :: fileName :: _ => .ok (.getFile userName fileName)
      | _ => .error .invalidCommand
    else .error .invalidCommand

/-- The README's way of writing a command. -/
def Command.render : Command → String
  | .register userName => "register " ++ userName
  | .listPeers => "ls_peers"
  | .listFiles userName => "ls@" ++ userName
  | .getFile userName fileName => "get@" ++ userName ++ "->" ++ fileName

example : Command.fromStr "  get@alice->a.txt " = .ok (.getFile "alice" "a.txt") := by decide
example : Command.fromStr "register" = .error .invalidCommand := by decide

/-! ## What the string functions do -/

/-- No character of the name is whitespace. -/
def NoWhitespace (name : String) : Prop := ∀ c ∈ name.toList, isWhitespace c = false

instance (name : String) : Decidable (NoWhitespace name) :=
  decidable_of_iff (name.toList.all (!isWhitespace ·) = true) (by simp [NoWhitespace])

/-- `part` occurs in `name`. -/
def Occurs (part name : String) : Prop := part.toList <:+: name.toList

theorem NoWhitespace.append {a b : String} (ha : NoWhitespace a) (hb : NoWhitespace b) :
    NoWhitespace (a ++ b) := by
  intro c hc
  rw [String.toList_append] at hc
  rcases List.mem_append.mp hc with hc | hc
  · exact ha c hc
  · exact hb c hc

theorem NoWhitespace.of_append {a b : String} (h : NoWhitespace (a ++ b)) : NoWhitespace b := by
  intro c hc
  refine h c ?_
  rw [String.toList_append]
  exact List.mem_append_right _ hc

theorem map_ofList_toList (l : List (List Char)) : (l.map String.ofList).map String.toList = l := by
  rw [List.map_map]
  exact List.map_id'' (fun w => String.toList_ofList) l

theorem splitWhitespace_mem {s w : String} (h : w ∈ splitWhitespace s) :
    w ≠ "" ∧ NoWhitespace w := by
  obtain ⟨v, hv, rfl⟩ := List.mem_map.mp h
  obtain ⟨hne, hfree⟩ := mem_words hv
  refine ⟨?_, ?_⟩
  · rw [Ne, ← String.toList_inj, String.toList_ofList]
    exact hne
  · rw [NoWhitespace, String.toList_ofList]
    exact hfree

theorem toList_ne_nil {s : String} (h : s ≠ "") : s.toList ≠ [] :=
  fun hs => h (String.toList_inj.mp hs)

theorem splitWhitespace_eq_singleton {s : String} (hne : s ≠ "") (h : NoWhitespace s) :
    splitWhitespace s = [s] := by
  rw [splitWhitespace, words_eq_singleton (toList_ne_nil hne) h]
  simp

/-- A line that begins with a word of the syntax and goes on without
whitespace is one word. -/
theorem splitWhitespace_of_keyword {keyword rest : String} (hne : keyword ≠ "")
    (hkeyword : NoWhitespace keyword) (hrest : NoWhitespace rest) :
    splitWhitespace (keyword ++ rest) = [keyword ++ rest] := by
  refine splitWhitespace_eq_singleton ?_ (hkeyword.append hrest)
  rw [Ne, String.append_eq_empty_iff]
  exact fun h => hne h.1

/-- A space ends the words before it. -/
theorem splitWhitespace_space (a b : String) :
    splitWhitespace (a ++ " " ++ b) = splitWhitespace a ++ splitWhitespace b := by
  have hspace : (a ++ " " ++ b).toList = a.toList ++ ' ' :: b.toList := by
    simp [String.toList_append]
  rw [splitWhitespace, hspace, words_append_cons (by decide), List.map_append]
  rfl

theorem startsWith_iff {s start : String} :
    startsWith s start = true ↔ ∃ rest, s = start ++ rest := by
  rw [startsWith, List.isPrefixOf_iff_prefix]
  constructor
  · rintro ⟨t, ht⟩
    refine ⟨String.ofList t, ?_⟩
    rw [← String.toList_inj, String.toList_append, String.toList_ofList, ht]
  · rintro ⟨rest, rfl⟩
    rw [String.toList_append]
    exact List.prefix_append _ _

theorem ne_of_startsWith {s t start : String} (hs : startsWith s start = true)
    (ht : startsWith t start = false) : s ≠ t := by
  rintro rfl
  rw [hs] at ht
  cases ht

theorem sliceFrom_append (start rest : String) :
    sliceFrom (start ++ rest) start.toList.length = rest := by
  rw [sliceFrom, String.toList_append, List.drop_left, String.ofList_toList]

/-! ### The arrow -/

theorem arrow_ne_nil : "->".toList ≠ [] := by decide

/-- `-` is not `>`: two arrows do not overlap. -/
theorem arrow_unbordered : Unbordered "->".toList := by
  intro u v w hu hv hne
  match u, v, hne with
  | [], _, _ => rfl
  | [_], [x], _ =>
    cases hu
    cases hv
  | _ :: _ :: u, x :: v, _ =>
    have := congrArg List.length hu
    simp at this

theorem splitStr_mem {s part : String} (h : part ∈ splitStr "->" s) :
    ¬ Occurs "->" part ∧ ∀ c ∈ part.toList, c ∈ s.toList := by
  obtain ⟨v, hv, rfl⟩ := List.mem_map.mp h
  have hchars : (String.ofList v).toList = v := String.toList_ofList
  rw [Occurs, hchars]
  refine ⟨not_infix_of_mem_splitSeq arrow_ne_nil hv, fun c hc => ?_⟩
  have hjoin : c ∈ "->".toList.intercalate (splitSeq "->".toList s.toList) :=
    mem_intercalate hv hc
  rwa [intercalate_splitSeq arrow_ne_nil] at hjoin

theorem splitStr_arrow {u f : String} (hu : ¬ Occurs "->" u) (hf : ¬ Occurs "->" f) :
    splitStr "->" (u ++ "->" ++ f) = [u, f] := by
  have hjoin : (u ++ "->" ++ f).toList = "->".toList.intercalate [u.toList, f.toList] := by
    rw [intercalate_cons_of_ne_nil (List.cons_ne_nil _ _), intercalate_singleton]
    simp only [String.toList_append, List.append_assoc]
  have hparts : ∀ part ∈ [u.toList, f.toList], ¬ "->".toList <:+: part := by
    intro part hpart
    rcases List.mem_pair.mp hpart with rfl | rfl
    · exact hu
    · exact hf
  rw [splitStr, hjoin,
    splitSeq_intercalate arrow_ne_nil arrow_unbordered (List.cons_ne_nil _ _) hparts]
  simp only [List.map_cons, String.ofList_toList, List.map_nil]

/-- The parts of a `get@` word, joined again. -/
theorem toList_of_splitStr {s : String} {parts : List String} (h : splitStr "->" s = parts) :
    s.toList = "->".toList.intercalate (parts.map String.toList) := by
  rw [← h, splitStr, map_ofList_toList, intercalate_splitSeq arrow_ne_nil]

/-! ## What `from_str` accepts -/

namespace Command

/-- The lines `from_str` reads as a command: which words and parts it looks
at, and which it leaves. -/
inductive Read (s : String) : Command → Prop where
  | register {userName : String} {rest : List String}
      (words : splitWhitespace s = "register" :: userName :: rest) : Read s (.register userName)
  | listPeers {rest : List String} (words : splitWhitespace s = "ls_peers" :: rest) :
      Read s .listPeers
  | listFiles {userName : String} {rest : List String}
      (words : splitWhitespace s = ("ls@" ++ userName) :: rest) : Read s (.listFiles userName)
  | getFile {word userName fileName : String} {rest parts : List String}
      (words : splitWhitespace s = ("get@" ++ word) :: rest)
      (split : splitStr "->" word = userName :: fileName :: parts) :
      Read s (.getFile userName fileName)

theorem read_of_fromStr {s : String} {c : Command} (h : fromStr s = .ok c) : Read s c := by
  rw [fromStr] at h
  cases hwords : splitWhitespace s with
  | nil =>
    rw [hwords] at h
    cases h
  | cons command parts =>
    rw [hwords] at h
    dsimp only at h
    split at h
    · rename_i hcommand
      subst hcommand
      cases parts with
      | nil => cases h
      | cons userName rest =>
        cases h
        exact .register hwords
    · split at h
      · rename_i hcommand
        subst hcommand
        cases h
        exact .listPeers hwords
      · split at h
        · rename_i hstarts
          obtain ⟨userName, rfl⟩ := startsWith_iff.mp hstarts
          cases h
          rw [show sliceFrom ("ls@" ++ userName) 3 = userName from sliceFrom_append _ _]
          exact .listFiles hwords
        · split at h
          · rename_i hstarts
            obtain ⟨word, rfl⟩ := startsWith_iff.mp hstarts
            rw [show sliceFrom ("get@" ++ word) 4 = word from sliceFrom_append _ _] at h
            split at h
            · rename_i userName fileName more hsplit
              cases h
              exact .getFile hwords hsplit
            · cases h
          · cases h

theorem Read.accepted {s : String} {c : Command} (h : Read s c) : fromStr s = .ok c := by
  cases h with
  | register hwords =>
    rw [fromStr, hwords]
    rfl
  | listPeers hwords =>
    rw [fromStr, hwords]
    rfl
  | @listFiles userName rest hwords =>
    have hstarts : startsWith ("ls@" ++ userName) "ls@" = true := startsWith_iff.mpr ⟨_, rfl⟩
    have hregister : "ls@" ++ userName ≠ "register" := ne_of_startsWith hstarts (by decide)
    have hlist : "ls@" ++ userName ≠ "ls_peers" := ne_of_startsWith hstarts (by decide)
    rw [fromStr, hwords]
    simp only [if_neg hregister, if_neg hlist, if_pos hstarts]
    rw [show sliceFrom ("ls@" ++ userName) 3 = userName from sliceFrom_append _ _]
  | @getFile word userName fileName rest parts hwords hsplit =>
    have hstarts : startsWith ("get@" ++ word) "get@" = true := startsWith_iff.mpr ⟨_, rfl⟩
    have hregister : "get@" ++ word ≠ "register" := ne_of_startsWith hstarts (by decide)
    have hlist : "get@" ++ word ≠ "ls_peers" := ne_of_startsWith hstarts (by decide)
    have hls : ¬ startsWith ("get@" ++ word) "ls@" = true := by
      rw [startsWith, String.toList_append]
      exact Bool.false_ne_true
    rw [fromStr, hwords]
    simp only [if_neg hregister, if_neg hlist, if_neg hls, if_pos hstarts]
    rw [show sliceFrom ("get@" ++ word) 4 = word from sliceFrom_append _ _, hsplit]

theorem fromStr_ok_iff {s : String} {c : Command} : fromStr s = .ok c ↔ Read s c :=
  ⟨read_of_fromStr, Read.accepted⟩

/-- Every line `from_str` does not read it rejects in the one way. -/
theorem fromStr_error {s : String} {e : FileSharingError} (h : fromStr s = .error e) :
    e = .invalidCommand := by
  rw [fromStr] at h
  split at h
  · cases h
    rfl
  · split at h
    · split at h
      · cases h
        rfl
      · cases h
    · split at h
      · cases h
      · split at h
        · cases h
        · split at h
          · split at h
            · cases h
            · cases h
              rfl
          · cases h
            rfl

/-! ## The commands that can be expressed -/

/-- The names in a command. -/
def names : Command → List String
  | .register userName => [userName]
  | .listPeers => []
  | .listFiles userName => [userName]
  | .getFile userName fileName => [userName, fileName]

/-- A line can name this command. -/
structure Expressible (c : Command) : Prop where
  noWhitespace : ∀ name ∈ c.names, NoWhitespace name
  register : ∀ userName, c = .register userName → userName ≠ ""
  getFile : ∀ userName fileName, c = .getFile userName fileName →
    ¬ Occurs "->" userName ∧ ¬ Occurs "->" fileName

/-- What comes out of a line can be put into one, whatever the line. -/
theorem Read.expressible {s : String} {c : Command} (h : Read s c) : c.Expressible := by
  cases h with
  | @register userName rest hwords =>
    have hmem : userName ∈ splitWhitespace s := by
      rw [hwords]
      exact List.mem_cons_of_mem _ List.mem_cons_self
    obtain ⟨hne, hfree⟩ := splitWhitespace_mem hmem
    refine ⟨?_, ?_, ?_⟩
    · intro name hname
      rw [List.mem_singleton.mp hname]
      exact hfree
    · intro user huser
      cases huser
      exact hne
    · intro user file hc
      cases hc
  | listPeers hwords =>
    refine ⟨?_, ?_, ?_⟩
    · intro name hname
      cases hname
    · intro user huser
      cases huser
    · intro user file hc
      cases hc
  | @listFiles userName rest hwords =>
    have hmem : "ls@" ++ userName ∈ splitWhitespace s := hwords ▸ List.mem_cons_self
    have hfree : NoWhitespace userName := (splitWhitespace_mem hmem).2.of_append
    refine ⟨?_, ?_, ?_⟩
    · intro name hname
      rw [List.mem_singleton.mp hname]
      exact hfree
    · intro user huser
      cases huser
    · intro user file hc
      cases hc
  | @getFile word userName fileName rest parts hwords hsplit =>
    have hmem : "get@" ++ word ∈ splitWhitespace s := hwords ▸ List.mem_cons_self
    have hword : NoWhitespace word := (splitWhitespace_mem hmem).2.of_append
    have huser : userName ∈ splitStr "->" word := hsplit ▸ List.mem_cons_self
    have hfile : fileName ∈ splitStr "->" word := by
      rw [hsplit]
      exact List.mem_cons_of_mem _ List.mem_cons_self
    refine ⟨?_, ?_, ?_⟩
    · intro name hname c hc
      rcases List.mem_pair.mp hname with rfl | rfl
      · exact hword c ((splitStr_mem huser).2 c hc)
      · exact hword c ((splitStr_mem hfile).2 c hc)
    · intro user hc
      cases hc
    · intro user file hc
      cases hc
      exact ⟨(splitStr_mem huser).1, (splitStr_mem hfile).1⟩

theorem Expressible.read {c : Command} (h : c.Expressible) : Read c.render c := by
  cases c with
  | register userName =>
    have hname := h.noWhitespace userName List.mem_cons_self
    have hwords : splitWhitespace ("register" ++ " " ++ userName) = ["register", userName] := by
      rw [splitWhitespace_space, splitWhitespace_eq_singleton (h.register userName rfl) hname]
      rfl
    exact .register hwords
  | listPeers =>
    have hwords : splitWhitespace "ls_peers" = ["ls_peers"] := by decide
    exact .listPeers hwords
  | listFiles userName =>
    have hname := h.noWhitespace userName List.mem_cons_self
    exact .listFiles (splitWhitespace_of_keyword (by decide) (by decide) hname)
  | getFile userName fileName =>
    have huser := h.noWhitespace userName List.mem_cons_self
    have hfile := h.noWhitespace fileName (List.mem_cons_of_mem _ List.mem_cons_self)
    obtain ⟨hu, hf⟩ := h.getFile userName fileName rfl
    have hword : NoWhitespace (userName ++ "->" ++ fileName) :=
      (huser.append (by decide)).append hfile
    have hwords : splitWhitespace (render (.getFile userName fileName)) =
        ["get@" ++ (userName ++ "->" ++ fileName)] := by
      have hrender : render (.getFile userName fileName) =
          "get@" ++ (userName ++ "->" ++ fileName) := by
        simp only [render, String.append_assoc]
      rw [hrender]
      exact splitWhitespace_of_keyword (by decide) (by decide) hword
    exact .getFile hwords (splitStr_arrow hu hf)

/-- **Exactly the expressible commands come back** from the line the README
writes for them. -/
theorem fromStr_render_iff (c : Command) : fromStr c.render = .ok c ↔ c.Expressible := by
  rw [fromStr_ok_iff]
  exact ⟨Read.expressible, Expressible.read⟩

/-! ## The lines that are read completely -/

/-- The line without whitespace at its ends, and with one space for every
run of whitespace in it. -/
def normalize (s : String) : String :=
  String.ofList (squeeze isWhitespace ' ' (trim isWhitespace s.toList))

/-- The line is run as the command it writes out, or it is rejected. -/
def Understood (s : String) : Prop :=
  (∃ c, fromStr s = .ok c ∧ normalize s = c.render) ∨ fromStr s = .error .invalidCommand

/-- A word after a complete command, or a second arrow in a `get@` word. -/
inductive Leftover (s : String) : Prop where
  | afterRegister {userName extra : String} {rest : List String}
      (words : splitWhitespace s = "register" :: userName :: extra :: rest)
  | afterListPeers {extra : String} {rest : List String}
      (words : splitWhitespace s = "ls_peers" :: extra :: rest)
  | afterListFiles {userName extra : String} {rest : List String}
      (words : splitWhitespace s = ("ls@" ++ userName) :: extra :: rest)
  | afterGetFile {word userName fileName extra : String} {rest : List String}
      (words : splitWhitespace s = ("get@" ++ word) :: extra :: rest)
      (split : splitStr "->" word = [userName, fileName])
  | secondArrow {word userName fileName extra : String} {rest parts : List String}
      (words : splitWhitespace s = ("get@" ++ word) :: rest)
      (split : splitStr "->" word = userName :: fileName :: extra :: parts)

theorem toList_normalize {s : String} {line : List String} (h : splitWhitespace s = line) :
    (normalize s).toList = [' '].intercalate (line.map String.toList) := by
  rw [normalize, String.toList_ofList, squeeze_trim, ← h, splitWhitespace, map_ofList_toList]

/-- A line is its first word exactly if there is no other. -/
theorem normalize_eq_word_iff {s word : String} {rest : List String}
    (h : splitWhitespace s = word :: rest) : normalize s = word ↔ rest = [] := by
  rw [← String.toList_inj, toList_normalize h, List.map_cons,
    intercalate_cons_eq_self_iff (List.cons_ne_nil ' ' []), List.map_eq_nil_iff]

theorem normalize_register_iff {s userName : String} {rest : List String}
    (h : splitWhitespace s = "register" :: userName :: rest) :
    normalize s = (register userName).render ↔ rest = [] := by
  have hrender : (register userName).render.toList =
      "register".toList ++ [' '] ++ userName.toList := by
    rw [render, String.toList_append]
    rfl
  rw [← String.toList_inj, toList_normalize h, hrender, List.map_cons, List.map_cons,
    intercalate_cons_of_ne_nil (List.cons_ne_nil _ _), List.append_cancel_left_eq,
    intercalate_cons_eq_self_iff (List.cons_ne_nil ' ' []), List.map_eq_nil_iff]

theorem normalize_getFile_iff {s word userName fileName : String} {rest parts : List String}
    (h : splitWhitespace s = ("get@" ++ word) :: rest)
    (hsplit : splitStr "->" word = userName :: fileName :: parts) :
    normalize s = (getFile userName fileName).render ↔ rest = [] ∧ parts = [] := by
  have hword : word.toList = userName.toList ++ "->".toList ++
      "->".toList.intercalate (fileName.toList :: parts.map String.toList) := by
    rw [toList_of_splitStr hsplit, List.map_cons, List.map_cons,
      intercalate_cons_of_ne_nil (List.cons_ne_nil _ _)]
  have hrender : (getFile userName fileName).render.toList =
      "get@".toList ++ (userName.toList ++ "->".toList ++ fileName.toList) := by
    simp only [render, String.toList_append, List.append_assoc]
  have hparts : "get@" ++ word = (getFile userName fileName).render ↔ parts = [] := by
    rw [← String.toList_inj, hrender, String.toList_append, List.append_cancel_left_eq, hword,
      List.append_cancel_left_eq, intercalate_cons_eq_self_iff arrow_ne_nil, List.map_eq_nil_iff]
  constructor
  · intro he
    -- the rendering begins the word, and the word begins the line
    have hword_le : ("get@" ++ word).toList <+: (normalize s).toList := by
      rw [toList_normalize h, List.map_cons]
      exact prefix_intercalate _ _ _
    have hrender_le : (getFile userName fileName).render.toList <+: ("get@" ++ word).toList := by
      rw [hrender, String.toList_append, List.prefix_append_right_inj, hword,
        List.prefix_append_right_inj]
      exact prefix_intercalate _ _ _
    rw [he] at hword_le
    have heq : ("get@" ++ word).toList = (getFile userName fileName).render.toList :=
      hword_le.eq_of_length_le hrender_le.length_le
    rw [← he] at heq
    exact ⟨(normalize_eq_word_iff h).mp (String.toList_inj.mp heq).symm,
      hparts.mp ((String.toList_inj.mp heq).trans he)⟩
  · rintro ⟨hrest, hmore⟩
    exact ((normalize_eq_word_iff h).mpr hrest).trans (hparts.mpr hmore)

/-- A line with a leftover is run as a command it does not write out. -/
theorem Leftover.read {s : String} (h : Leftover s) : ∃ c, Read s c ∧ normalize s ≠ c.render := by
  cases h with
  | afterRegister hwords =>
    refine ⟨_, .register hwords, fun h => ?_⟩
    exact List.cons_ne_nil _ _ ((normalize_register_iff hwords).mp h)
  | afterListPeers hwords =>
    refine ⟨_, .listPeers hwords, fun h => ?_⟩
    exact List.cons_ne_nil _ _ ((normalize_eq_word_iff hwords).mp h)
  | afterListFiles hwords =>
    refine ⟨_, .listFiles hwords, fun h => ?_⟩
    exact List.cons_ne_nil _ _ ((normalize_eq_word_iff hwords).mp h)
  | afterGetFile hwords hsplit =>
    refine ⟨_, .getFile hwords hsplit, fun h => ?_⟩
    exact List.cons_ne_nil _ _ ((normalize_getFile_iff hwords hsplit).mp h).1
  | secondArrow hwords hsplit =>
    refine ⟨_, .getFile hwords hsplit, fun h => ?_⟩
    exact List.cons_ne_nil _ _ ((normalize_getFile_iff hwords hsplit).mp h).2

/-- A line that is read without a leftover writes out what it is read as. -/
theorem Read.normalize_eq {s : String} {c : Command} (h : Read s c) (hleft : ¬ Leftover s) :
    normalize s = c.render := by
  cases h with
  | @register userName rest hwords =>
    cases rest with
    | nil => exact (normalize_register_iff hwords).mpr rfl
    | cons extra rest => exact absurd (.afterRegister hwords) hleft
  | @listPeers rest hwords =>
    cases rest with
    | nil => exact (normalize_eq_word_iff hwords).mpr rfl
    | cons extra rest => exact absurd (.afterListPeers hwords) hleft
  | @listFiles userName rest hwords =>
    cases rest with
    | nil => exact (normalize_eq_word_iff hwords).mpr rfl
    | cons extra rest => exact absurd (.afterListFiles hwords) hleft
  | @getFile word userName fileName rest parts hwords hsplit =>
    cases parts with
    | cons extra parts => exact absurd (.secondArrow hwords hsplit) hleft
    | nil =>
      cases rest with
      | nil => exact (normalize_getFile_iff hwords hsplit).mpr ⟨rfl, rfl⟩
      | cons extra rest => exact absurd (.afterGetFile hwords hsplit) hleft

/-- **A line is understood exactly if nothing is left over**: no word after
the command, and no second arrow. -/
theorem understood_iff (s : String) : Understood s ↔ ¬ Leftover s := by
  constructor
  · intro h hleft
    obtain ⟨c, hread, hne⟩ := hleft.read
    have hok := hread.accepted
    rcases h with ⟨c', hc', hnormal⟩ | herror
    · rw [hok] at hc'
      cases hc'
      exact hne hnormal
    · rw [hok] at herror
      cases herror
  · intro hleft
    cases h : fromStr s with
    | error e =>
      rw [fromStr_error h] at h
      exact Or.inr h
    | ok c => exact Or.inl ⟨c, h, (read_of_fromStr h).normalize_eq hleft⟩

/-- A file name with a space is cut at it, and the rest is lost. -/
theorem spaced_file_name_is_cut :
    ¬ (∀ s c, fromStr s = .ok c → normalize s = c.render) := by
  intro h
  have hcut := h "get@alice->my file.txt" (.getFile "alice" "my") (by decide)
  revert hcut
  decide

end Command

end FileSharing
