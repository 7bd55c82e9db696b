/-
FileSharing.Lib.Splitting — lists cut into words, and lists split at a
separator that is itself a list.

A word is a longest run of elements outside a predicate, so the breaks
between words leave no trace: `squeeze_trim` says that the words with one
`b` between them are the list with its ends trimmed and every inner run of
breaks replaced by `b`.

A split keeps everything: `intercalate_splitSeq` puts the list back, and no
part contains the separator. Parts without the separator come back from
their concatenation only if no end of the separator is also a beginning of
it (`Unbordered`); otherwise an occurrence can straddle the joint.
-/
import Mathlib.Data.List.Basic
import Mathlib.Data.List.DropRight
import Mathlib.Data.List.Infix

namespace FileSharing.Lib

variable {α : Type}

/-! ## Joining -/

theorem intercalate_cons_of_ne_nil {sep a : List α} {l : List (List α)} (h : l ≠ []) :
    sep.intercalate (a :: l) = a ++ sep ++ sep.intercalate l := by
  obtain ⟨d, l', rfl⟩ := List.exists_cons_of_ne_nil h
  simp [List.intercalate, List.intersperse]

theorem intercalate_singleton (sep a : List α) : sep.intercalate [a] = a := by
  simp [List.intercalate]

/-- Joining begins with the first part. -/
theorem prefix_intercalate (sep a : List α) (l : List (List α)) :
    a.IsPrefix (sep.intercalate (a :: l)) := by
  cases l with
  | nil => exact ⟨[], by rw [intercalate_singleton, List.append_nil]⟩
  | cons d l =>
    rw [intercalate_cons_of_ne_nil (List.cons_ne_nil d l), List.append_assoc]
    exact List.prefix_append _ _

/-- Nothing but a single part joins to its own first part. -/
theorem intercalate_cons_eq_self_iff {sep a : List α} {l : List (List α)} (hsep : sep ≠ []) :
    sep.intercalate (a :: l) = a ↔ l = [] := by
  constructor
  · intro h
    by_contra hl
    rw [intercalate_cons_of_ne_nil hl, List.append_assoc, List.append_right_eq_self] at h
    exact hsep (List.append_eq_nil_iff.mp h).1
  · rintro rfl
    exact intercalate_singleton sep a

/-- An element before the first part is an element before the whole. -/
theorem intercalate_modifyHead {sep : List α} (c : α) {l : List (List α)} (h : l ≠ []) :
    sep.intercalate (l.modifyHead (c :: ·)) = c :: sep.intercalate l := by
  obtain ⟨d, l', rfl⟩ := List.exists_cons_of_ne_nil h
  cases l' with
  | nil => simp
  | cons e l' =>
    rw [List.modifyHead_cons, intercalate_cons_of_ne_nil (List.cons_ne_nil e l'),
      intercalate_cons_of_ne_nil (List.cons_ne_nil e l')]
    rfl

/-- What the parts are made of, the whole is made of. -/
theorem mem_intercalate {sep : List α} {c : α} {w : List α} {l : List (List α)} (hw : w ∈ l)
    (hc : c ∈ w) : c ∈ sep.intercalate l := by
  induction l with
  | nil => cases hw
  | cons a l ih =>
    rcases List.mem_cons.mp hw with rfl | hw
    · exact (prefix_intercalate sep w l).subset hc
    · have hl : l ≠ [] := List.ne_nil_of_mem hw
      rw [intercalate_cons_of_ne_nil hl]
      exact List.mem_append_right _ (ih hw)

/-! ## Words -/

section Words

variable (p : α → Bool)

/-- The longest runs of elements outside `p`. -/
def words (s : List α) : List (List α) := (s.splitOnP p).filter fun w => !w.isEmpty

/-- The list without the elements of `p` at its two ends. -/
def trim (s : List α) : List α := (s.dropWhile p).rdropWhile p

/-- One `b` for every run of elements of `p`; `inRun` says that the element
before was in one. -/
def squeezeFrom (b : α) : Bool → List α → List α
  | _, [] => []
  | inRun, c :: s =>
    if p c then (if inRun then [] else [b]) ++ squeezeFrom b true s
    else c :: squeezeFrom b false s

/-- One `b` for every run of elements of `p`. -/
def squeeze (b : α) (s : List α) : List α := squeezeFrom p b false s

variable {p}

@[simp] theorem words_nil : words p [] = [] := by simp [words]

/-- An element of `p` ends one word and begins none. -/
theorem words_append_cons {c : α} (hc : p c = true) (s t : List α) :
    words p (s ++ c :: t) = words p s ++ words p t := by
  rw [words, List.splitOnP_append_cons s t hc, List.filter_append]
  rfl

theorem words_cons {c : α} (hc : p c = true) (s : List α) : words p (c :: s) = words p s := by
  have h := words_append_cons hc [] s
  rwa [List.nil_append, words_nil, List.nil_append] at h

theorem words_append_singleton {c : α} (hc : p c = true) (s : List α) :
    words p (s ++ [c]) = words p s := by
  rw [words_append_cons hc, words_nil, List.append_nil]

theorem words_eq_singleton {s : List α} (hne : s ≠ []) (h : ∀ c ∈ s, p c = false) :
    words p s = [s] := by
  rw [words, List.splitOnP_eq_singleton h]
  simp [hne]

/-- A break right after the first element makes that element a word. -/
theorem words_cons_cons_break {a d : α} (ha : p a = false) (hd : p d = true) (s : List α) :
    words p (a :: d :: s) = [a] :: words p s := by
  have h := words_append_cons hd [a] s
  rw [words_eq_singleton (List.cons_ne_nil a []) (by simpa using ha)] at h
  exact h

theorem not_of_mem_splitOnP {s w : List α} (hw : w ∈ s.splitOnP p) {c : α} (hc : c ∈ w) :
    p c = false := by
  induction s generalizing w c with
  | nil =>
    rw [List.splitOnP_nil, List.mem_singleton] at hw
    subst hw
    cases hc
  | cons a s ih =>
    rw [List.splitOnP_cons_eq_if_modifyHead] at hw
    obtain ⟨d, l, hl⟩ := List.exists_cons_of_ne_nil (List.splitOnP_ne_nil p s)
    have htail : ∀ v ∈ l, ∀ x ∈ v, p x = false := fun v hv x hx =>
      ih (hl ▸ List.mem_cons_of_mem d hv) hx
    have hhead : ∀ x ∈ d, p x = false := fun x hx => ih (hl ▸ List.mem_cons_self) hx
    by_cases ha : p a = true
    · rw [if_pos ha, hl] at hw
      rcases List.mem_cons.mp hw with rfl | hw
      · cases hc
      · exact ih (hl ▸ hw) hc
    · rw [if_neg ha, hl, List.modifyHead_cons] at hw
      rcases List.mem_cons.mp hw with rfl | hw
      · rcases List.mem_cons.mp hc with rfl | hc
        · exact Bool.eq_false_iff.mpr ha
        · exact hhead c hc
      · exact htail w hw c hc

/-- A word is not empty and has no break in it. -/
theorem mem_words {s w : List α} (h : w ∈ words p s) : w ≠ [] ∧ ∀ c ∈ w, p c = false := by
  obtain ⟨hw, hne⟩ := List.mem_filter.mp h
  exact ⟨by simpa using hne, fun c hc => not_of_mem_splitOnP hw hc⟩

theorem words_cons_of_neg {c d : α} (hc : p c = false) (hd : p d = false) (s : List α) :
    ∃ w l, words p (d :: s) = w :: l ∧ words p (c :: d :: s) = (c :: w) :: l := by
  obtain ⟨v, l, hl⟩ := List.exists_cons_of_ne_nil (List.splitOnP_ne_nil p s)
  refine ⟨d :: v, l.filter fun w => !w.isEmpty, ?_, ?_⟩
  · simp [words, List.splitOnP_cons_eq_if_modifyHead, hd, hl]
  · simp [words, List.splitOnP_cons_eq_if_modifyHead, hc, hd, hl]

theorem words_ne_nil {s : List α} {c : α} (hc : c ∈ s) (hp : p c = false) : words p s ≠ [] := by
  induction s with
  | nil => cases hc
  | cons a s ih =>
    by_cases ha : p a = true
    · rw [words_cons ha]
      rcases List.mem_cons.mp hc with rfl | hc
      · rw [hp] at ha
        cases ha
      · exact ih hc
    · have ha : p a = false := Bool.eq_false_iff.mpr ha
      cases s with
      | nil =>
        rw [words_eq_singleton (List.cons_ne_nil a []) (by simpa using ha)]
        exact List.cons_ne_nil _ _
      | cons d s =>
        by_cases hd : p d = true
        · rw [words_cons_cons_break ha hd]
          exact List.cons_ne_nil _ _
        · obtain ⟨w, l, -, h⟩ := words_cons_of_neg ha (Bool.eq_false_iff.mpr hd) s
          rw [h]
          exact List.cons_ne_nil _ _

/-! ### The words with one `b` between them -/

theorem words_dropWhile (s : List α) : words p (s.dropWhile p) = words p s := by
  induction s with
  | nil => rfl
  | cons a s ih =>
    by_cases ha : p a = true
    · rw [List.dropWhile_cons_of_pos ha, ih, words_cons ha]
    · rw [List.dropWhile_cons_of_neg ha]

theorem words_rdropWhile (s : List α) : words p (s.rdropWhile p) = words p s := by
  induction s using List.reverseRecOn with
  | nil => rfl
  | append_singleton s a ih =>
    by_cases ha : p a = true
    · rw [List.rdropWhile_concat_pos _ _ _ ha, ih, words_append_singleton ha]
    · rw [List.rdropWhile_concat_neg _ _ _ ha]

theorem words_trim (s : List α) : words p (trim p s) = words p s := by
  rw [trim, words_rdropWhile, words_dropWhile]

/-- The list does not end in a break. -/
def EndsOutside (p : α → Bool) (s : List α) : Prop := ∀ c, c ∈ s.getLast? → p c = false

theorem EndsOutside.tail {a d : α} {s : List α} (h : EndsOutside p (a :: d :: s)) :
    EndsOutside p (d :: s) := by
  intro c hc
  refine h c ?_
  rwa [List.getLast?_cons_cons]

theorem EndsOutside.words_ne_nil {s : List α} (h : EndsOutside p s) (hne : s ≠ []) :
    words p s ≠ [] :=
  Lib.words_ne_nil (List.getLast_mem hne) (h _ (List.getLast_mem_getLast? hne))

/-- After a run of breaks the next word follows; outside a run the run is
still to be written. -/
theorem squeezeFrom_eq (b : α) {s : List α} (h : EndsOutside p s) :
    squeezeFrom p b true s = [b].intercalate (words p s) ∧
      squeezeFrom p b false s =
        (if s.head?.any p then [b] else []) ++ [b].intercalate (words p s) := by
  induction s with
  | nil => simp [squeezeFrom, List.intercalate]
  | cons a s ih =>
    by_cases ha : p a = true
    · -- the run goes on, and no word has begun
      have hne : s ≠ [] := by
        rintro rfl
        have := h a rfl
        rw [ha] at this
        cases this
      obtain ⟨d, s, rfl⟩ := List.exists_cons_of_ne_nil hne
      have ih := ih h.tail
      rw [words_cons ha]
      simp [squeezeFrom, ha, ← ih.1]
    · -- a word goes on: what comes after decides whether it ends here
      have ha : p a = false := Bool.eq_false_iff.mpr ha
      have key : a :: squeezeFrom p b false s = [b].intercalate (words p (a :: s)) := by
        cases s with
        | nil =>
          rw [words_eq_singleton (List.cons_ne_nil a []) (by simpa using ha),
            intercalate_singleton]
          rfl
        | cons d s =>
          have ih := ih h.tail
          by_cases hd : p d = true
          · have hwords : words p (a :: d :: s) = [a] :: words p (d :: s) := by
              rw [words_cons_cons_break ha hd, words_cons hd]
            rw [hwords, intercalate_cons_of_ne_nil (h.tail.words_ne_nil (List.cons_ne_nil d s)),
              ih.2]
            simp [hd]
          · have hd : p d = false := Bool.eq_false_iff.mpr hd
            obtain ⟨w, l, hw, hcons⟩ := words_cons_of_neg ha hd s
            have hmodify : words p (a :: d :: s) = (words p (d :: s)).modifyHead (a :: ·) := by
              rw [hw, hcons]
              rfl
            rw [hmodify, intercalate_modifyHead a (by rw [hw]; exact List.cons_ne_nil _ _), ih.2]
            simp [hd]
      simp [squeezeFrom, ha, key]

theorem trim_endsOutside (s : List α) : EndsOutside p (trim p s) := by
  intro c hc
  obtain ⟨hne, rfl⟩ := List.mem_getLast?_eq_getLast hc
  exact Bool.eq_false_iff.mpr (List.rdropWhile_last_not p _ hne)

theorem trim_head (s : List α) : (trim p s).head?.any p = false := by
  have hprefix : (trim p s).IsPrefix (s.dropWhile p) := List.rdropWhile_prefix p _
  cases ht : trim p s with
  | nil => rfl
  | cons a t =>
    rw [ht] at hprefix
    obtain ⟨rest, hrest⟩ := hprefix
    have hhead : (s.dropWhile p).head? = some a := by
      rw [← hrest]
      rfl
    simpa [hhead] using List.head?_dropWhile_not p s

/-- **Trimmed and squeezed, a list is its words** with one `b` between them. -/
theorem squeeze_trim (b : α) (s : List α) :
    squeeze p b (trim p s) = [b].intercalate (words p s) := by
  rw [squeeze, (squeezeFrom_eq b (trim_endsOutside s)).2, trim_head, words_trim]
  rfl

end Words

/-! ## Splitting at a separator -/

/-- No proper end of the list is also a beginning of it. -/
def Unbordered (sep : List α) : Prop :=
  ∀ u v w : List α, sep = u ++ v → sep = v ++ w → v ≠ [] → u = []

/-- Before the end of a list without the separator no occurrence begins,
also not one that reaches into a separator after the list. -/
theorem Unbordered.not_starts {sep u : List α} (hborder : Unbordered sep) (hu : u ≠ [])
    (h : ¬ sep <:+: u) (t : List α) : ¬ sep <+: u ++ (sep ++ t) := by
  intro hp
  rcases List.prefix_or_prefix_of_prefix hp (List.prefix_append u (sep ++ t)) with hin | ⟨v, hv⟩
  · exact h hin.isInfix
  · -- the rest `v` of the occurrence is also a beginning of the separator
    have hrest : v <+: sep ++ t := by
      rw [← hv, List.append_assoc, List.prefix_append_right_inj] at hp
      rw [← hv]
      simpa using hp
    have hlength : v.length ≤ sep.length := by
      rw [← hv, List.length_append]
      exact Nat.le_add_left _ _
    obtain ⟨w, hw⟩ := List.prefix_of_prefix_length_le hrest (List.prefix_append sep t) hlength
    refine hu (hborder u v w hv.symm hw.symm ?_)
    rintro rfl
    rw [List.append_nil] at hv
    exact h (hv ▸ List.infix_rfl)

section Split

variable [DecidableEq α] (sep : List α)

/-- Split at the occurrences of `sep`, from left to right and without
overlap. The first argument is how many elements of an occurrence are still
to be passed over. -/
def splitSeqFrom : Nat → List α → List (List α)
  | _, [] => [[]]
  | k + 1, _ :: s => splitSeqFrom k s
  | 0, c :: s =>
    if sep.isPrefixOf (c :: s) then [] :: splitSeqFrom (sep.length - 1) s
    else (splitSeqFrom 0 s).modifyHead (c :: ·)

/-- Split at the occurrences of `sep`. -/
def splitSeq (s : List α) : List (List α) := splitSeqFrom sep 0 s

variable {sep}

theorem splitSeqFrom_ne_nil (k : Nat) (s : List α) : splitSeqFrom sep k s ≠ [] := by
  induction s generalizing k with
  | nil => exact List.cons_ne_nil _ _
  | cons c s ih =>
    cases k with
    | succ k => exact ih k
    | zero =>
      rw [splitSeqFrom]
      split
      · exact List.cons_ne_nil _ _
      · rw [Ne, List.modifyHead_eq_nil_iff]
        exact ih 0

/-- Passing over `k` elements is starting after them. -/
theorem splitSeqFrom_eq_drop (k : Nat) (s : List α) :
    splitSeqFrom sep k s = splitSeq sep (s.drop k) := by
  induction s generalizing k with
  | nil =>
    rw [List.drop_nil]
    rfl
  | cons c s ih =>
    cases k with
    | zero => rfl
    | succ k => exact ih k

theorem splitSeq_append (hsep : sep ≠ []) (t : List α) :
    splitSeq sep (sep ++ t) = [] :: splitSeq sep t := by
  obtain ⟨c, sep', rfl⟩ := List.exists_cons_of_ne_nil hsep
  have hprefix : (c :: sep').isPrefixOf (c :: (sep' ++ t)) = true :=
    List.isPrefixOf_iff_prefix.mpr (List.prefix_append (c :: sep') t)
  rw [List.cons_append, splitSeq, splitSeqFrom, if_pos hprefix, splitSeqFrom_eq_drop]
  simp

theorem splitSeq_cons_of_not_starts {c : α} {s : List α} (h : ¬ sep <+: c :: s) :
    splitSeq sep (c :: s) = (splitSeq sep s).modifyHead (c :: ·) := by
  rw [splitSeq, splitSeqFrom, if_neg (fun hp => h (List.isPrefixOf_iff_prefix.mp hp))]
  rfl

theorem splitSeq_eq_singleton {s : List α} (h : ¬ sep <:+: s) : splitSeq sep s = [s] := by
  induction s with
  | nil => rfl
  | cons c s ih =>
    rw [splitSeq_cons_of_not_starts fun hp => h hp.isInfix,
      ih fun hi => h (hi.trans (List.suffix_cons c s).isInfix)]
    rfl

/-- A list without the separator before the separator is the first part. -/
theorem splitSeq_join (hsep : sep ≠ []) (hborder : Unbordered sep) {u : List α}
    (h : ¬ sep <:+: u) (t : List α) : splitSeq sep (u ++ (sep ++ t)) = u :: splitSeq sep t := by
  induction u with
  | nil => exact splitSeq_append hsep t
  | cons c u ih =>
    have hu : ¬ sep <:+: u := fun hi => h (hi.trans (List.suffix_cons c u).isInfix)
    have hcons := splitSeq_cons_of_not_starts (hborder.not_starts (List.cons_ne_nil c u) h t)
    rw [List.cons_append]
    exact hcons.trans (by rw [List.append_eq, ih hu]; rfl)

/-- **The parts of a list are its only reading**: parts without the
separator come back from what they join to. -/
theorem splitSeq_intercalate (hsep : sep ≠ []) (hborder : Unbordered sep) {l : List (List α)}
    (hne : l ≠ []) (h : ∀ u ∈ l, ¬ sep <:+: u) : splitSeq sep (sep.intercalate l) = l := by
  induction l with
  | nil => exact absurd rfl hne
  | cons u l ih =>
    by_cases hl : l = []
    · subst hl
      rw [intercalate_singleton]
      exact splitSeq_eq_singleton (h u List.mem_cons_self)
    · rw [intercalate_cons_of_ne_nil hl, List.append_assoc,
        splitSeq_join hsep hborder (h u List.mem_cons_self),
        ih hl fun v hv => h v (List.mem_cons_of_mem u hv)]

theorem intercalate_splitSeqFrom (hsep : sep ≠ []) (k : Nat) (s : List α) :
    sep.intercalate (splitSeqFrom sep k s) = s.drop k := by
  induction s generalizing k with
  | nil => rw [splitSeqFrom, intercalate_singleton, List.drop_nil]
  | cons c s ih =>
    cases k with
    | succ k => exact ih k
    | zero =>
      rw [splitSeqFrom]
      split
      · rename_i hp
        obtain ⟨t, ht⟩ := List.isPrefixOf_iff_prefix.mp hp
        rw [intercalate_cons_of_ne_nil (splitSeqFrom_ne_nil _ s), ih, List.nil_append]
        obtain ⟨d, sep', rfl⟩ := List.exists_cons_of_ne_nil hsep
        obtain ⟨rfl, rfl⟩ := List.cons.inj ht
        simp
      · rw [intercalate_modifyHead c (splitSeqFrom_ne_nil 0 s), ih]
        rfl

/-- Joining the parts gives the list back. -/
theorem intercalate_splitSeq (hsep : sep ≠ []) (s : List α) : sep.intercalate (splitSeq sep s) = s :=
  intercalate_splitSeqFrom hsep 0 s

/-- No part contains the separator. -/
theorem not_infix_of_mem_splitSeq (hsep : sep ≠ []) {k : Nat} {s u : List α}
    (hu : u ∈ splitSeqFrom sep k s) : ¬ sep <:+: u := by
  induction s generalizing k u with
  | nil =>
    rw [splitSeqFrom, List.mem_singleton] at hu
    subst hu
    exact fun h => hsep (List.infix_nil.mp h)
  | cons c s ih =>
    cases k with
    | succ k => exact ih hu
    | zero =>
      rw [splitSeqFrom] at hu
      split at hu
      · rcases List.mem_cons.mp hu with rfl | hu
        · exact fun h => hsep (List.infix_nil.mp h)
        · exact ih hu
      · rename_i hp
        have hne : splitSeqFrom sep 0 s ≠ [] := splitSeqFrom_ne_nil 0 s
        obtain ⟨d, l, hl⟩ := List.exists_cons_of_ne_nil hne
        rw [hl, List.modifyHead_cons] at hu
        rcases List.mem_cons.mp hu with rfl | hu
        · -- an occurrence at the front of the part is one at the front of the list
          intro h
          rcases List.infix_cons_iff.mp h with h | h
          · have hd : d <+: s := by
              have := prefix_intercalate sep d l
              rwa [← hl, intercalate_splitSeqFrom hsep, List.drop_zero] at this
            exact hp (List.isPrefixOf_iff_prefix.mpr
              (h.trans ((List.prefix_cons_inj c).mpr hd)))
          · exact ih (k := 0) (hl ▸ List.mem_cons_self) h
        · exact ih (k := 0) (hl ▸ List.mem_cons_of_mem d hu)

end Split

end FileSharing.Lib
