import EntityModel.Proofs.Path.Grammar

/-!
# Places of errors in paths

A text that is no path is refused with the byte offset of what is wrong with it. The reader counts
offsets on its way through the parts and their brackets, and each error takes its place from another
one of these counts. `Located` says of the whole text what stands at the place of an error.

* `ReadsFrom`, `CharAt`: what a text holds from a byte offset on.
* `Stuck`: what is left of a part where the reader stops.
* `readIndices_error`, `readPart_error`, `readParts_error`: where the readers stop.
* `parse_error_located`: the place of an error.
-/

namespace EntityModel.Path

/-! ## Places of a text -/

/-- From a byte offset on, a text consists of given characters. -/
def ReadsFrom (input : String) (place : Nat) (rest : List Char) : Prop :=
  ∃ before : String, before.utf8ByteSize = place ∧ input.toList = before.toList ++ rest

/-- A character begins at a byte offset of a text. -/
def CharAt (input : String) (place : Nat) (c : Char) : Prop :=
  ∃ rest, ReadsFrom input place (c :: rest)

/-- What stands at the place of an error in the text that was refused. -/
def ParseError.Located (input : String) : ParseError → Prop
  | .empty => input = ""
  -- the name would begin at the text's beginning or behind a point
  | .emptyName place =>
    (place = 0 ∨ ∃ point, place = point + 1 ∧ CharAt input point '.') ∧
      (place = input.utf8ByteSize ∨ CharAt input place '.' ∨ CharAt input place '[')
  -- the part with the bracket ends at the next point or with the text
  | .unclosedBracket place =>
    ∃ within rest, ReadsFrom input place ('[' :: within ++ rest) ∧ ']' ∉ within ∧
      '.' ∉ within ∧ (rest = [] ∨ rest.head? = some '.')
  -- the text between the brackets is no number that is a position
  | .invalidIndex place text =>
    ∃ opened rest, place = opened + 1 ∧
      ReadsFrom input opened ('[' :: text.toList ++ ']' :: rest) ∧ ']' ∉ text.toList ∧
        ∀ position, ¬ IndexText ('[' :: text.toList ++ [']']) position
  | .unexpectedChar found place => CharAt input place found

variable {input : String} {text before rest within part : List Char} {place opened : Nat}
  {first : Bool} {e : ParseError}

@[simp] theorem byteLength_append (before rest : List Char) :
    byteLength (before ++ rest) = byteLength before + byteLength rest := by
  induction before with
  | nil => simp [byteLength]
  | cons c before ih => rw [List.cons_append, byteLength, byteLength, ih, Nat.add_assoc]

/-- The brackets around a text take one byte each. -/
theorem byteLength_group (within rest : List Char) :
    byteLength ('[' :: within ++ ']' :: rest) = 1 + byteLength within + (1 + byteLength rest) := by
  rw [byteLength_append]
  rfl

theorem utf8ByteSize_ofList (text : List Char) :
    (String.ofList text).utf8ByteSize = byteLength text := by
  induction text with
  | nil => rfl
  | cons c rest ih =>
    rw [String.ofList_cons, String.utf8ByteSize_append, String.utf8ByteSize_singleton, ih,
      byteLength]

theorem readsFrom_of_append (h : input.toList = before ++ rest) :
    ReadsFrom input (byteLength before) rest :=
  ⟨String.ofList before, utf8ByteSize_ofList before, by rw [h, String.toList_ofList]⟩

theorem ReadsFrom.drop (h : ReadsFrom input place (before ++ rest)) :
    ReadsFrom input (place + byteLength before) rest := by
  obtain ⟨start, rfl, htext⟩ := h
  refine ⟨start ++ String.ofList before, ?_, ?_⟩
  · rw [String.utf8ByteSize_append, utf8ByteSize_ofList]
  · rw [htext, String.toList_append, String.toList_ofList, List.append_assoc]

/-! ## Where a part is not read on -/

/-- What is left of a part where its reader stops, from an offset on. -/
inductive Stuck (place : Nat) : List Char → ParseError → Prop where
  | char (c : Char) (rest : List Char) : Stuck place (c :: rest) (.unexpectedChar c place)
  | bracket {within : List Char} (hopen : ']' ∉ within) :
      Stuck place ('[' :: within) (.unclosedBracket place)
  | index {text rest : List Char} (hclose : ']' ∉ text) (hindex : index? text = none) :
      Stuck place ('[' :: text ++ ']' :: rest) (.invalidIndex (place + 1) (String.ofList text))

theorem readBracket_unclosed {digits : List Char} (h : ']' ∉ text) :
    readBracket opened place digits text = .error (.unclosedBracket opened) := by
  have hread : readBracket opened place digits (text ++ []) = _ := readBracket_append h
  rwa [List.append_nil, readBracket] at hread

theorem readIndices_error {text : List Char} {place : Nat}
    (h : readIndices place text = .error e) :
    ∃ before rest, text = before ++ rest ∧ Stuck (place + byteLength before) rest e := by
  cases text with
  | nil => cases h
  | cons c text =>
    rw [readIndices] at h
    split at h
    · next hc =>
      subst hc
      by_cases hclose : ']' ∈ text
      · obtain ⟨within, after, rfl, hwithin⟩ := List.eq_append_cons_of_mem hclose
        rw [readBracket_append hwithin, List.nil_append, readBracket, if_pos rfl] at h
        split at h
        · next hindex =>
          cases h
          exact ⟨[], _, rfl, .index hwithin hindex⟩
        · next position hindex =>
          obtain ⟨before, rest, rfl, hstuck⟩ := readIndices_error (bind_pure_error_iff.mp h)
          refine ⟨'[' :: within ++ ']' :: before, rest, by simp, ?_⟩
          have hplace : place + byteLength ('[' :: within ++ ']' :: before) =
              place + 1 + byteLength within + 1 + byteLength before := by
            rw [byteLength_group]
            omega
          rwa [hplace]
      · rw [readBracket_unclosed hclose] at h
        cases h
        exact ⟨[], _, rfl, .bracket hclose⟩
    · cases h
      exact ⟨[], _, rfl, .char c text⟩
termination_by text.length

theorem takeWhile_ne_append {c : Char} (h : c ∉ before) (after : List Char) :
    (before ++ c :: after).takeWhile (· ≠ c) = before := by
  have hbefore : ∀ other ∈ before, decide (other ≠ c) = true := by
    intro other hother
    rw [decide_eq_true_iff]
    rintro rfl
    exact h hother
  rw [List.takeWhile_append_of_pos hbefore]
  simp

theorem takeWhile_ne_eq_nil {c : Char} (h : text.takeWhile (· ≠ c) = []) :
    text = [] ∨ text.head? = some c := by
  cases text with
  | nil => exact .inl rfl
  | cons other rest =>
    rw [List.takeWhile_cons, ite_eq_right_iff] at h
    exact .inr (by simpa using h)

/-- A text is cut at the first place of a character. -/
theorem takeWhile_ne_split {c : Char} (h : c ∈ text) :
    ∃ after, text = text.takeWhile (· ≠ c) ++ c :: after := by
  obtain ⟨before, after, rfl, hbefore⟩ := List.eq_append_cons_of_mem h
  exact ⟨after, by rw [takeWhile_ne_append hbefore]⟩

/-- A part is refused for want of a name, or its reader stops in it. -/
theorem readPart_error (h : readPart first place part = .error e) :
    (e = .emptyName place ∧ (part = [] ∨ part.head? = some '[')) ∨
      ∃ before rest, part = before ++ rest ∧ Stuck (place + byteLength before) rest e := by
  have hwhole : part.takeWhile (· ≠ '[') ++ part.dropWhile (· ≠ '[') = part :=
    List.takeWhile_append_dropWhile
  unfold readPart at h
  dsimp only at h
  split at h
  · next hempty =>
    cases h
    have hname : (part.takeWhile (· ≠ '[')).isEmpty = true := (Bool.and_eq_true_iff.mp hempty).1
    exact .inl ⟨rfl, takeWhile_ne_eq_nil (List.isEmpty_iff.mp hname)⟩
  split at h
  · next hclose =>
    cases h
    obtain ⟨after, hname⟩ := takeWhile_ne_split (List.contains_iff_mem.mp hclose)
    refine .inr ⟨_, ']' :: after ++ part.dropWhile (· ≠ '['), ?_, .char ']' _⟩
    rw [← List.append_assoc, ← hname, hwhole]
  · have hindices := bind_pure_error_iff.mp h
    obtain ⟨before, rest, hrest, hstuck⟩ := readIndices_error hindices
    refine .inr ⟨part.takeWhile (· ≠ '[') ++ before, rest, ?_, ?_⟩
    · rw [List.append_assoc, ← hrest, hwhole]
    · rwa [byteLength_append, ← Nat.add_assoc]

/-- The parts in front of a point each. -/
def pointed (parts : List (List Char)) : List Char := parts.flatMap (· ++ ['.'])

/-- Of parts that are not read one is refused, at its offset. -/
theorem readParts_error {parts : List (List Char)} (h : readParts first place parts = .error e) :
    ∃ front part back, parts = front ++ part :: back ∧
      readPart (first && front.isEmpty) (place + byteLength (pointed front)) part = .error e := by
  induction parts generalizing first place with
  | nil => cases h
  | cons part parts ih =>
    simp only [readParts, bind_error_iff, pure_ne_error, and_false, exists_false, or_false] at h
    rcases h with h | ⟨segments, -, h⟩
    · exact ⟨[], part, parts, rfl, by simpa [pointed, byteLength] using h⟩
    · obtain ⟨front, refused, back, rfl, hrefused⟩ := ih h
      refine ⟨part :: front, refused, back, rfl, ?_⟩
      have hpoint : '.'.utf8Size = 1 := rfl
      have hplace : place + byteLength (pointed (part :: front)) =
          place + byteLength part + 1 + byteLength (pointed front) := by
        rw [pointed, List.flatMap_cons, byteLength_append, byteLength_append, byteLength,
          byteLength, hpoint, pointed]
        omega
      simpa [hplace] using hrefused

/-! ## Whole texts -/

theorem pointed_cons (part : List Char) (parts : List (List Char)) :
    pointed (part :: parts) = part ++ parts.flatMap ('.' :: ·) ++ ['.'] := by
  induction parts generalizing part with
  | nil => simp [pointed]
  | cons second rest ih =>
    have hfirst : pointed (part :: second :: rest) = part ++ ['.'] ++ pointed (second :: rest) :=
      rfl
    rw [hfirst, ih]
    simp

/-- A part stands behind the parts before it and their points. -/
theorem eq_of_splitPoints_append {front back : List (List Char)}
    (h : splitPoints text = front ++ part :: back) :
    text = pointed front ++ (part ++ back.flatMap ('.' :: ·)) := by
  cases front with
  | nil => exact eq_of_splitPoints h
  | cons first rest =>
    rw [List.cons_append] at h
    rw [eq_of_splitPoints h, pointed_cons, List.flatMap_append, List.flatMap_cons]
    simp

/-- What the reader of a part says stands in the whole text. -/
theorem Stuck.located {behind : List Char} (h : Stuck place rest e) (hpoint : '.' ∉ rest)
    (hread : ReadsFrom input place (rest ++ behind))
    (hbehind : behind = [] ∨ behind.head? = some '.') : e.Located input := by
  cases h with
  | char c rest => exact ⟨_, hread⟩
  | bracket hopen =>
    exact ⟨_, behind, hread, hopen, fun hmem => hpoint (List.mem_cons_of_mem _ hmem), hbehind⟩
  | @index text rest hclose hindex =>
    refine ⟨place, rest ++ behind, rfl, ?_, ?_, fun position htext => ?_⟩
    · simpa using hread
    · rwa [String.toList_ofList]
    · obtain ⟨numeral, heq, hnumeral⟩ := indexText_iff.mp htext
      have hsame : text = numeral := by simpa using heq
      rw [hsame, hnumeral] at hindex
      cases hindex

/-- A name is wanting behind nothing or a point, and before nothing, a point or a bracket. -/
theorem emptyName_located {front back : List (List Char)}
    (htext : input.toList = pointed front ++ (part ++ back.flatMap ('.' :: ·)))
    (hpart : part = [] ∨ part.head? = some '[') :
    (ParseError.emptyName (byteLength (pointed front))).Located input := by
  constructor
  · cases front with
    | nil => exact .inl rfl
    | cons first others =>
      rw [pointed_cons] at htext ⊢
      refine .inr ⟨byteLength (first ++ others.flatMap ('.' :: ·)), byteLength_append _ _,
        part ++ back.flatMap ('.' :: ·), ?_⟩
      exact readsFrom_of_append (htext.trans (List.append_assoc _ ['.'] _))
  · have hread := readsFrom_of_append htext
    rcases hpart with rfl | hpart
    · cases back with
      | nil =>
        have hsize := utf8ByteSize_ofList input.toList
        rw [String.ofList_toList, htext] at hsize
        exact .inl (by simpa using hsize.symm)
      | cons second others => exact .inr (.inl ⟨_, hread⟩)
    · obtain ⟨rest, rfl⟩ := List.head?_eq_some_iff.mp hpart
      exact .inr (.inr ⟨_, hread⟩)

/-- The place of an error is the byte offset at which the text has what the error speaks of. -/
theorem parse_error_located (h : parse input = .error e) : e.Located input := by
  rw [parse] at h
  split at h
  · next hempty =>
    cases h
    exact String.isEmpty_iff.mp hempty
  obtain ⟨front, part, back, hparts, hpart⟩ := readParts_error h
  rw [Nat.zero_add] at hpart
  have htext := eq_of_splitPoints_append hparts
  rcases readPart_error hpart with ⟨rfl, hname⟩ | ⟨before, rest, rfl, hstuck⟩
  · exact emptyName_located htext hname
  · have hpoint : '.' ∉ before ++ rest :=
      splitPoints_no_point input.toList _
        (hparts ▸ List.mem_append_right front List.mem_cons_self)
    have hread := readsFrom_of_append htext
    rw [List.append_assoc] at hread
    have hbehind : back.flatMap ('.' :: ·) = [] ∨
        (back.flatMap ('.' :: ·)).head? = some '.' := by
      cases back with
      | nil => exact .inl rfl
      | cons second others => exact .inr rfl
    exact hstuck.located (fun hmem => hpoint (List.mem_append_right _ hmem)) hread.drop hbehind

/-- A letter of two bytes stands before each of the brackets. -/
theorem numeral_error_located :
    parse "é[0].ü[x]" = .error (.invalidIndex 9 "x") ∧
      (ParseError.invalidIndex 9 "x").Located "é[0].ü[x]" := by
  have hrefused : parse "é[0].ü[x]" = .error (.invalidIndex 9 "x") := by decide +kernel
  exact ⟨hrefused, parse_error_located hrefused⟩

end EntityModel.Path
