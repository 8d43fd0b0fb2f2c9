import EntityModel.Proofs.Path.Spelling

/-!
# The grammar of paths

`PathText` says which texts are which paths: parts with points between them, each a name with
indices behind it, and the first one maybe indices alone. The reader cuts a text at its points
before it looks for brackets, which makes no difference, as no point can stand in a name or between
brackets.

* `readIndices_ok_iff`, `readPart_ok_iff`: reading what stands between two points.
* `pathText_of_parse`, `PathText.parse_ok`: the reader takes exactly what the grammar derives.
* `parse_iff_pathText`: `parse` accepts exactly the texts of paths.
-/

namespace EntityModel.Path

/-! ## The grammar -/

/-- A text is a position in brackets: decimal digits, maybe behind a plus sign. -/
inductive IndexText : List Char → UInt64 → Prop where
  | index {sign digits : List Char} {position : UInt64} (hsign : sign = [] ∨ sign = ['+'])
      (hne : digits ≠ []) (hdigits : ∀ c ∈ digits, c.isDigit = true)
      (hvalue : Nat.ofDigitChars 10 digits 0 = position.toNat) :
      IndexText ('[' :: sign ++ digits ++ [']']) position

/-- A text is indices, maybe none. -/
inductive IndicesText : List Char → Path → Prop where
  | none : IndicesText [] []
  | more {text rest : List Char} {position : UInt64} {path : Path}
      (hindex : IndexText text position) (hrest : IndicesText rest path) :
      IndicesText (text ++ rest) (.index position :: path)

/-- A text is a name, free of points and brackets, with indices behind it. -/
inductive PartText : List Char → Path → Prop where
  | part {name : String} {text : List Char} {path : Path} (hname : Schema.isName name = true)
      (hindices : IndicesText text path) : PartText (name.toList ++ text) (.key name :: path)

/-- The first part may be indices alone. -/
inductive FirstText : List Char → Path → Prop where
  | named {text : List Char} {path : Path} (hpart : PartText text path) : FirstText text path
  | unnamed {text : List Char} {path : Path} (hindices : IndicesText text path)
      (hne : path ≠ []) :
      FirstText text path

/-- A text is parts, each behind a point. -/
inductive PartsText : List Char → Path → Prop where
  | none : PartsText [] []
  | more {text rest : List Char} {path others : Path} (hpart : PartText text path)
      (hrest : PartsText rest others) : PartsText ('.' :: text ++ rest) (path ++ others)

/-- A text is a path. -/
inductive PathText : List Char → Path → Prop where
  | path {text rest : List Char} {path others : Path} (hfirst : FirstText text path)
      (hrest : PartsText rest others) : PathText (text ++ rest) (path ++ others)

variable {text rest part : List Char} {path others : Path} {position : UInt64} {place : Nat}
  {first : Bool}

/-! ## Indices -/

theorem indexText_iff : IndexText text position ↔
    ∃ numeral, text = '[' :: numeral ++ [']'] ∧ index? numeral = some position := by
  constructor
  · rintro ⟨hsign, hne, hdigits, hvalue⟩
    refine ⟨_, rfl,
      index?_eq_some.mpr ⟨_, ?_, decimal?_eq_some.mpr ⟨hne, hdigits, hvalue⟩⟩⟩
    rcases hsign with rfl | rfl
    · exact .inl rfl
    · exact .inr rfl
  · rintro ⟨numeral, rfl, hindex⟩
    obtain ⟨digits, hnumeral, hdecimal⟩ := index?_eq_some.mp hindex
    obtain ⟨hne, hdigits, hvalue⟩ := decimal?_eq_some.mp hdecimal
    rcases hnumeral with rfl | rfl
    · exact .index (.inl rfl) hne hdigits hvalue
    · exact .index (.inr rfl) hne hdigits hvalue

/-- The indices of a text are groups of numerals. -/
theorem indicesText_iff : IndicesText text path ↔ ∃ numerals : List Numeral,
    text = numerals.flatMap Numeral.group ∧
      path = numerals.map fun numeral => .index numeral.position := by
  constructor
  · intro h
    induction h with
    | none => exact ⟨[], rfl, rfl⟩
    | more hindex _ ih =>
      obtain ⟨numeral, rfl, hreads⟩ := indexText_iff.mp hindex
      obtain ⟨numerals, rfl, rfl⟩ := ih
      exact ⟨⟨numeral, _, hreads⟩ :: numerals, rfl, rfl⟩
  · rintro ⟨numerals, rfl, rfl⟩
    induction numerals with
    | nil => exact .none
    | cons numeral rest ih =>
      have hindex := indexText_iff.mpr ⟨numeral.text, rfl, numeral.reads⟩
      exact .more hindex ih

mutual
theorem indicesText_of_readIndices : ∀ {text : List Char} {place : Nat} {path : Path},
    readIndices place text = .ok path → IndicesText text path
  | [], _, _, h => by
    cases h
    exact .none
  | c :: rest, _, _, h => by
    rw [readIndices] at h
    split at h
    · next hc =>
      obtain ⟨digits, after, position, others, rfl, hindex, hafter, rfl⟩ :=
        indicesText_of_readBracket h
      have htext := IndicesText.more (indexText_iff.mpr ⟨_, rfl, hindex⟩) hafter
      simpa [hc] using htext
    · cases h

theorem indicesText_of_readBracket : ∀ {text digits : List Char} {opened place : Nat}
    {path : Path}, readBracket opened place digits text = .ok path →
    ∃ more rest position others, text = more ++ ']' :: rest ∧
      index? (digits ++ more) = some position ∧ IndicesText rest others ∧
      path = .index position :: others
  | [], _, _, _, _, h => by cases h
  | c :: rest, digits, _, _, _, h => by
    rw [readBracket] at h
    split at h
    · next hc =>
      split at h
      · cases h
      · next position hindex =>
        simp only [bind_ok_iff, pure_ok_iff] at h
        obtain ⟨others, hothers, rfl⟩ := h
        exact ⟨[], rest, position, others, by rw [hc, List.nil_append], by simpa using hindex,
          indicesText_of_readIndices hothers, rfl⟩
    · obtain ⟨more, after, position, others, rfl, hindex, hothers, rfl⟩ :=
        indicesText_of_readBracket h
      exact ⟨c :: more, after, position, others, rfl, by simpa using hindex, hothers, rfl⟩
end

theorem readIndices_ok_iff : readIndices place text = .ok path ↔ IndicesText text path := by
  refine ⟨indicesText_of_readIndices, fun h => ?_⟩
  obtain ⟨numerals, rfl, rfl⟩ := indicesText_iff.mp h
  exact readIndices_groups numerals place

/-! ## Parts -/

theorem readPart_of_partText (h : PartText part path) (first : Bool) (place : Nat) :
    readPart first place part = .ok path := by
  obtain ⟨hname, hindices⟩ := h
  obtain ⟨numerals, rfl, rfl⟩ := indicesText_iff.mp hindices
  have hread : readPart first place (Part.text ⟨_, numerals⟩) = _ :=
    readPart_text hname first place
  exact hread

theorem readPart_of_indicesText (h : IndicesText part path) (hne : path ≠ []) (place : Nat) :
    readPart true place part = .ok path := by
  -- nothing stands before the first bracket
  obtain ⟨rest, rfl⟩ : ∃ rest, part = '[' :: rest := by
    cases h with
    | none => exact absurd rfl hne
    | more hindex _ =>
      cases hindex
      exact ⟨_, rfl⟩
  have hread : readIndices place ('[' :: rest) = .ok path := readIndices_ok_iff.mpr h
  simp [readPart, byteLength, hread]

/-- A text without points is read as a part, or as the first part. -/
theorem readPart_ok_iff (hpoint : '.' ∉ part) : readPart first place part = .ok path ↔
    if first then FirstText part path else PartText part path := by
  constructor
  · intro h
    obtain ⟨name, rest, indices, _, rfl, hopen, hclose, hindices, hcases⟩ := readPart_ok h
    rw [readIndices_ok_iff] at hindices
    rcases hcases with ⟨rfl, rfl, hne, rfl⟩ | ⟨hne, rfl⟩
    · refine .unnamed hindices ?_
      rintro rfl
      cases hindices
      exact hne rfl
    · have hpoint' : '.' ∉ name := fun hmem => hpoint (List.mem_append_left rest hmem)
      have hpart := PartText.part (isName_ofList hne hpoint' hopen hclose) hindices
      rw [String.toList_ofList] at hpart
      cases first with
      | false => exact hpart
      | true => exact .named hpart
  · intro h
    cases first with
    | false => exact readPart_of_partText h false place
    | true =>
      obtain hpart | ⟨hindices, hne⟩ := h
      · exact readPart_of_partText hpart true place
      · exact readPart_of_indicesText hindices hne place

theorem IndicesText.no_point (h : IndicesText text path) : '.' ∉ text := by
  obtain ⟨numerals, rfl, -⟩ := indicesText_iff.mp h
  intro hmem
  obtain ⟨numeral, -, hmem⟩ := List.mem_flatMap.mp hmem
  have hpoint := numeral.no_mark.2
  simp [Numeral.group, hpoint] at hmem

theorem PartText.no_point (h : PartText part path) : '.' ∉ part := by
  obtain ⟨hname, hindices⟩ := h
  rw [List.mem_append, not_or]
  exact ⟨Schema.isName_no_point hname, hindices.no_point⟩

theorem FirstText.no_point (h : FirstText part path) : '.' ∉ part := by
  obtain hpart | ⟨hindices, -⟩ := h
  · exact hpart.no_point
  · exact hindices.no_point

/-! ## Whole texts -/

/-- Cut at its points, a text of parts falls into these parts. -/
theorem readParts_of_partsText (h : PartsText rest others) : ∀ {part : List Char} {path : Path}
    {first : Bool} (place : Nat), '.' ∉ part →
    (∀ place, readPart first place part = .ok path) →
    readParts first place (splitPoints (part ++ rest)) = .ok (path ++ others) := by
  induction h with
  | none =>
    intro part path first place hpoint hread
    rw [splitPoints_eq_splitOn, List.append_nil, List.splitOn_eq_singleton hpoint]
    simp [readParts, hread]
  | more hpart hrest ih =>
    intro part path first place hpoint hread
    rw [splitPoints_eq_splitOn, List.cons_append,
      List.splitOn_append_cons_self_of_not_mem hpoint, ← splitPoints_eq_splitOn]
    have hothers := fun place => ih place hpart.no_point (readPart_of_partText hpart false)
    simp [readParts, hread, hothers]

theorem partsText_of_readParts : ∀ {parts : List (List Char)} {place : Nat} {path : Path},
    (∀ part ∈ parts, '.' ∉ part) → readParts false place parts = .ok path →
    PartsText (parts.flatMap ('.' :: ·)) path
  | [], _, _, _, h => by
    cases h
    exact .none
  | part :: rest, _, _, hpoint, h => by
    rw [List.forall_mem_cons] at hpoint
    simp only [readParts, bind_ok_iff, pure_ok_iff] at h
    obtain ⟨segments, hsegments, others, hothers, rfl⟩ := h
    have hpart : PartText part segments := (readPart_ok_iff hpoint.1).mp hsegments
    exact .more hpart (partsText_of_readParts hpoint.2 hothers)

/-- A text is its parts with points between them. -/
theorem eq_of_splitPoints {parts : List (List Char)} (h : splitPoints text = part :: parts) :
    text = part ++ parts.flatMap ('.' :: ·) := by
  have hwhole : ['.'].intercalate (part :: parts) = text := by
    rw [← h, splitPoints_eq_splitOn, List.intercalate_splitOn]
  rw [← hwhole]
  clear h hwhole
  induction parts generalizing part with
  | nil => simp
  | cons second rest ih =>
    rw [List.intercalate_cons_cons, ih, List.flatMap_cons, List.append_assoc]
    rfl

theorem pathText_of_parse {input : String} (h : parse input = .ok path) :
    PathText input.toList path := by
  rw [parse] at h
  split at h
  · cases h
  obtain ⟨part, parts, hparts⟩ : ∃ part parts, splitPoints input.toList = part :: parts := by
    rw [splitPoints_eq_splitOn]
    exact List.exists_cons_of_ne_nil (List.splitOn_ne_nil '.' _)
  have hpoint := splitPoints_no_point input.toList
  rw [hparts, List.forall_mem_cons] at hpoint
  rw [hparts] at h
  simp only [readParts, bind_ok_iff, pure_ok_iff] at h
  obtain ⟨segments, hsegments, others, hothers, rfl⟩ := h
  have hfirst : FirstText part segments := (readPart_ok_iff hpoint.1).mp hsegments
  rw [eq_of_splitPoints hparts]
  exact .path hfirst (partsText_of_readParts hpoint.2 hothers)

theorem FirstText.ne_nil (h : FirstText part path) : part ≠ [] ∧ path ≠ [] := by
  obtain ⟨hname, -⟩ | ⟨hindices, hne⟩ := h
  · have hnotEmpty := Schema.isName_ne_empty hname
    exact ⟨by simp [hnotEmpty], List.cons_ne_nil _ _⟩
  · refine ⟨?_, hne⟩
    rintro rfl
    obtain ⟨numerals, hgroups, rfl⟩ := indicesText_iff.mp hindices
    cases numerals with
    | nil => exact hne rfl
    | cons numeral rest => simp [Numeral.group] at hgroups

theorem PathText.parse_ok {input : String} (h : PathText input.toList path) :
    parse input = .ok path := by
  generalize htext : input.toList = text at h
  obtain ⟨hfirst, hrest⟩ := h
  have hne : input ≠ "" := by
    rintro rfl
    rw [String.toList_empty, List.nil_eq_append_iff] at htext
    exact hfirst.ne_nil.1 htext.1
  rw [parse, if_neg (by simpa using hne), htext]
  exact readParts_of_partsText hrest 0 hfirst.no_point
    fun place => (readPart_ok_iff hfirst.no_point).mpr hfirst

/-- Exactly the texts of paths are read, each as its names and positions in order. -/
theorem parse_iff_pathText (input : String) (path : Path) :
    parse input = .ok path ↔ PathText input.toList path :=
  ⟨pathText_of_parse, PathText.parse_ok⟩

end EntityModel.Path
