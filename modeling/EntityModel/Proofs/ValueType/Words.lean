import EntityModel.Proofs.Outcome
import EntityModel.ValueType.Parser
import Mathlib.Data.List.DropRight

/-!
# The words of type expressions

A text goes on with a word or with a mark, either of them behind blanks. No blank and no mark is a
character of names, so that a word ends where the next mark or blank stands. `Word` and `Mark` say
so without the reader, and the reader finds exactly such words and marks.

* `not_isNameChar_of_isBlank`: a blank is no character of names.
* `spanName_skipBlanks_iff`: reading a word.
* `skipBlanks_eq_cons_iff`, `expect_ok_iff`: reading a mark.
-/

namespace EntityModel

/-- What lies in one of two classes whose ranges are apart does not lie in the other. -/
theorem Text.not_inRanges_of_apart {ranges others : List (Nat × Nat)} {code : Nat}
    (hapart : ∀ range ∈ ranges, ∀ other ∈ others, range.2 < other.1 ∨ other.2 < range.1)
    (h : inRanges ranges code = true) : inRanges others code = false := by
  obtain ⟨range, hrange, hlow, hhigh⟩ := inRanges_iff.mp h
  rw [← Bool.not_eq_true, inRanges_iff]
  rintro ⟨other, hother, hlow', hhigh'⟩
  rcases hapart range hrange other hother with hlt | hlt
  · omega
  · omega

namespace ValueType

/-! ## Characters -/

theorem not_isNameChar_of_isBlank {c : Char} (h : Text.isBlank c = true) :
    isNameChar c = false := by
  have hapart : ∀ range ∈ Text.blankRanges, ∀ other ∈ Text.alphanumericRanges,
      range.2 < other.1 ∨ other.2 < range.1 := by decide +kernel
  have halphanumeric : Text.isAlphanumeric c = false := Text.not_inRanges_of_apart hapart h
  have hunderscore : c ≠ '_' := by
    rintro rfl
    exact absurd h (by decide)
  have hhyphen : c ≠ '-' := by
    rintro rfl
    exact absurd h (by decide)
  simp [isNameChar, halphanumeric, hunderscore, hhyphen]

/-- The marks of type expressions. -/
def marks : List Char := ['<', '>', '\x7b', '\x7d', ':', ',']

theorem not_isBlank_of_mem_marks : ∀ mark ∈ marks, Text.isBlank mark = false := by
  have hall : marks.all (fun mark => !Text.isBlank mark) = true := by decide
  simpa only [List.all_eq_true, Bool.not_eq_true'] using hall

theorem not_isNameChar_of_mem_marks : ∀ mark ∈ marks, isNameChar mark = false := by
  have hall : marks.all (fun mark => !isNameChar mark) = true := by decide +kernel
  simpa only [List.all_eq_true, Bool.not_eq_true'] using hall

/-! ## Blanks -/

/-- A run of blanks, maybe empty. -/
def Blanks (text : List Char) : Prop := ∀ c ∈ text, Text.isBlank c = true

@[simp] theorem blanks_nil : Blanks [] := nofun

theorem skipBlanks_append {blanks : List Char} (h : Blanks blanks) (text : List Char) :
    skipBlanks (blanks ++ text) = skipBlanks text :=
  List.dropWhile_append_of_pos h

theorem skipBlanks_cons_of_not {c : Char} (h : Text.isBlank c = false) (text : List Char) :
    skipBlanks (c :: text) = c :: text :=
  List.dropWhile_cons_of_neg (by simp [h])

theorem exists_blanks (text : List Char) :
    ∃ blanks, Blanks blanks ∧ text = blanks ++ skipBlanks text :=
  ⟨text.takeWhile Text.isBlank, fun _ hc => List.mem_takeWhile_imp hc,
    List.takeWhile_append_dropWhile.symm⟩

theorem skipBlanks_eq_nil_iff {text : List Char} : skipBlanks text = [] ↔ Blanks text :=
  List.dropWhile_eq_nil_iff

theorem length_skipBlanks_le (text : List Char) : (skipBlanks text).length ≤ text.length :=
  List.length_dropWhile_le _ text

/-! ## Marks -/

/-- A text goes on with a mark, behind blanks. -/
def Mark (mark : Char) (text rest : List Char) : Prop :=
  ∃ blanks, Blanks blanks ∧ text = blanks ++ mark :: rest

theorem Mark.length_lt {mark : Char} {text rest : List Char} (h : Mark mark text rest) :
    rest.length < text.length := by
  obtain ⟨blanks, -, rfl⟩ := h
  simp only [List.length_append, List.length_cons]
  omega

theorem skipBlanks_eq_cons_iff {mark : Char} (hmark : mark ∈ marks) {text rest : List Char} :
    skipBlanks text = mark :: rest ↔ Mark mark text rest := by
  constructor
  · intro h
    obtain ⟨blanks, hblanks, htext⟩ := exists_blanks text
    exact ⟨blanks, hblanks, by rwa [h] at htext⟩
  · rintro ⟨blanks, hblanks, rfl⟩
    rw [skipBlanks_append hblanks, skipBlanks_cons_of_not (not_isBlank_of_mem_marks mark hmark)]

theorem expect_ok_iff {input : String} {mark : Char} (hmark : mark ∈ marks)
    {text rest : List Char} : expect input mark text = .ok rest ↔ Mark mark text rest := by
  rw [← skipBlanks_eq_cons_iff hmark, expect]
  split
  · next c others heq =>
    rw [heq, List.cons.injEq]
    split
    · next hc => simp [hc]
    · next hc => simp [hc]
  · next heq => simp [heq]

theorem length_lt_of_expect {input : String} {mark : Char} (hmark : mark ∈ marks)
    {text rest : List Char} (h : expect input mark text = .ok rest) : rest.length < text.length :=
  ((expect_ok_iff hmark).mp h).length_lt

/-! ## Words -/

/-- A name of a field: characters of names, at least one. -/
def IsFieldName (name : String) : Prop := name ≠ "" ∧ ∀ c ∈ name.toList, isNameChar c = true

instance (name : String) : Decidable (IsFieldName name) :=
  decidable_of_iff (name ≠ "" ∧ name.toList.all isNameChar = true)
    (by rw [List.all_eq_true]; rfl)

/-- No name goes on at the beginning of a text. -/
def NameEnds (text : List Char) : Prop := ∀ c rest, text = c :: rest → isNameChar c = false

@[simp] theorem nameEnds_nil : NameEnds [] := nofun

theorem nameEnds_cons {c : Char} (h : isNameChar c = false) (rest : List Char) :
    NameEnds (c :: rest) := by
  rintro _ _ ⟨⟩
  exact h

theorem nameEnds_append {blanks rest : List Char} (hblanks : Blanks blanks)
    (hrest : NameEnds rest) : NameEnds (blanks ++ rest) := by
  cases blanks with
  | nil => exact hrest
  | cons c others =>
    exact nameEnds_cons (not_isNameChar_of_isBlank (hblanks c List.mem_cons_self)) _

theorem Mark.nameEnds {mark : Char} (hmark : mark ∈ marks) {text rest : List Char}
    (h : Mark mark text rest) : NameEnds text := by
  obtain ⟨blanks, hblanks, rfl⟩ := h
  exact nameEnds_append hblanks (nameEnds_cons (not_isNameChar_of_mem_marks mark hmark) rest)

/-- A text goes on with a word: a name behind blanks, which ends there. -/
def Word (word : String) (text rest : List Char) : Prop :=
  IsFieldName word ∧ NameEnds rest ∧
    ∃ blanks, Blanks blanks ∧ text = blanks ++ (word.toList ++ rest)

/-- A name is a word if a mark follows it, with or without blanks between them. -/
theorem IsFieldName.word {name : String} (hname : IsFieldName name)
    {text rest blanks gap : List Char} (hblanks : Blanks blanks) (hgap : Blanks gap) {mark : Char}
    (hmark : mark ∈ marks) (htext : text = blanks ++ (name.toList ++ (gap ++ mark :: rest))) :
    Word name text (gap ++ mark :: rest) :=
  ⟨hname, Mark.nameEnds hmark ⟨gap, hgap, rfl⟩, blanks, hblanks, htext⟩

theorem Word.length_lt {word : String} {text rest : List Char} (h : Word word text rest) :
    rest.length < text.length := by
  obtain ⟨⟨hne, -⟩, -, blanks, -, rfl⟩ := h
  have hlength : 0 < word.toList.length := List.length_pos_iff.mpr (by simpa using hne)
  simp only [List.length_append]
  omega

theorem spanName_append {name rest : List Char} (hname : ∀ c ∈ name, isNameChar c = true)
    (hrest : NameEnds rest) : spanName (name ++ rest) = (name, rest) := by
  rw [spanName, List.takeWhile_append_of_pos hname, List.dropWhile_append_of_pos hname]
  cases rest with
  | nil => simp
  | cons c others => simp [hrest c others rfl]

theorem nameEnds_spanName (text : List Char) : NameEnds (spanName text).2 := by
  intro c rest h
  have hhead := List.head?_dropWhile_not isNameChar text
  rw [show text.dropWhile isNameChar = c :: rest from h] at hhead
  simpa using hhead

/-- The reader finds a word exactly where there is one. -/
theorem spanName_skipBlanks_iff {word : String} (hne : word ≠ "") {text rest : List Char} :
    spanName (skipBlanks text) = (word.toList, rest) ↔ Word word text rest := by
  constructor
  · intro h
    obtain ⟨blanks, hblanks, htext⟩ := exists_blanks text
    obtain ⟨hname, hrest⟩ := Prod.mk.inj h
    have hwhole : word.toList ++ rest = skipBlanks text := by
      rw [← hname, ← hrest, List.takeWhile_append_dropWhile]
    refine ⟨⟨hne, fun c hc => ?_⟩, ?_, blanks, hblanks, by rwa [hwhole]⟩
    · rw [← hname] at hc
      exact List.mem_takeWhile_imp hc
    · have hends := nameEnds_spanName (skipBlanks text)
      rwa [h] at hends
  · rintro ⟨⟨-, hname⟩, hrest, blanks, hblanks, rfl⟩
    obtain ⟨c, others, hchars⟩ : ∃ c others, word.toList = c :: others :=
      List.exists_cons_of_ne_nil (by simpa using hne)
    -- a name does not begin with a blank
    have hc : Text.isBlank c = false := by
      have hnameChar := hname c (hchars ▸ List.mem_cons_self)
      by_contra hblank
      rw [Bool.not_eq_false] at hblank
      rw [not_isNameChar_of_isBlank hblank] at hnameChar
      cases hnameChar
    have hskip : skipBlanks (word.toList ++ rest) = word.toList ++ rest := by
      rw [hchars, List.cons_append, skipBlanks_cons_of_not hc]
    rw [skipBlanks_append hblanks, hskip, spanName_append hname hrest]

theorem Word.reads {word : String} {text rest : List Char} (h : Word word text rest) :
    spanName (skipBlanks text) = (word.toList, rest) :=
  (spanName_skipBlanks_iff h.1.1).mpr h

/-- Either a text goes on with a word, and the reader finds it, or it finds no name. -/
theorem spanName_skipBlanks (text : List Char) :
    (∃ word rest, spanName (skipBlanks text) = (word.toList, rest) ∧ Word word text rest) ∨
      ∃ rest, spanName (skipBlanks text) = ([], rest) ∧
        ∀ word after, ¬ Word word text after := by
  cases hspan : spanName (skipBlanks text) with
  | mk name rest =>
    by_cases hname : name = []
    · refine .inr ⟨rest, by rw [hname], fun word after hword => ?_⟩
      have hreads := hword.reads
      rw [hspan, hname, Prod.mk.injEq] at hreads
      exact hword.1.1 (by simpa using hreads.1.symm)
    · have hchars : (String.ofList name).toList = name := String.toList_ofList
      refine .inl ⟨String.ofList name, rest, by rw [hchars], ?_⟩
      exact (spanName_skipBlanks_iff (by simpa using hname)).mp (by rw [hspan, hchars])

/-- There is one word only that a text goes on with. -/
theorem Word.exists_iff {word : String} {text rest : List Char} (h : Word word text rest)
    {P : String → List Char → Prop} :
    (∃ other after, Word other text after ∧ P other after) ↔ P word rest := by
  constructor
  · rintro ⟨other, after, hother, hP⟩
    have hreads := h.reads
    rw [hother.reads, Prod.mk.injEq, String.toList_inj] at hreads
    rwa [hreads.1, hreads.2] at hP
  · exact fun hP => ⟨word, rest, h, hP⟩

theorem word_skipBlanks_iff {word : String} {text rest : List Char} :
    Word word (skipBlanks text) rest ↔ Word word text rest := by
  have hskip : skipBlanks (skipBlanks text) = skipBlanks text := List.dropWhile_idempotent _ text
  constructor
  · intro h
    have hreads := h.reads
    rw [hskip] at hreads
    exact (spanName_skipBlanks_iff h.1.1).mp hreads
  · intro h
    have hreads := h.reads
    rw [← hskip] at hreads
    exact (spanName_skipBlanks_iff h.1.1).mp hreads

/-- Where a text goes on with a word it does not go on with a mark. -/
theorem Word.not_mark {word : String} {text rest after : List Char} (h : Word word text rest)
    {mark : Char} (hmark : mark ∈ marks) : ¬ Mark mark text after := by
  intro hother
  have hreads := h.reads
  rw [(skipBlanks_eq_cons_iff hmark).mpr hother] at hreads
  have hspan : spanName (mark :: after) = ([], mark :: after) := by
    simp [spanName, not_isNameChar_of_mem_marks mark hmark]
  rw [hreads, Prod.mk.injEq] at hspan
  exact h.1.1 (by simpa using hspan.1)

end ValueType

end EntityModel
