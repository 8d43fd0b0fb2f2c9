import EntityModel.Proofs.Path.Names

/-!
# Texts of paths

A path of names can be written with indices behind any of them. The parts below are the pieces of
such a text between its points, and reading it gives back the names and positions in order, in
whatever digits the positions are written.

* `Numeral`: a text that is read as a position; `Numeral.ofPosition` writes a position.
* `parse_spell`: reading the text of parts.
* `names_flatMap`: the names that are read.
* `eq_of_parse_key`: what is read as one name is that name.
-/

namespace EntityModel.Path

/-- A text in brackets that is read as a position. -/
structure Numeral where
  text : List Char
  position : UInt64
  reads : index? text = some position

/-- A name and the indices that are written behind it. -/
structure Part where
  name : String
  indices : List Numeral

def Numeral.group (numeral : Numeral) : List Char := '[' :: numeral.text ++ [']']

namespace Part

def ofName (name : String) : Part := ⟨name, []⟩

def text (part : Part) : List Char := part.name.toList ++ part.indices.flatMap Numeral.group

def segments (part : Part) : List Segment :=
  .key part.name :: part.indices.map fun numeral => .index numeral.position

end Part

/-- The text of parts, with points between them. -/
def spell (parts : List Part) : String := String.ofList (['.'].intercalate (parts.map Part.text))

/-! ## Numerals -/

theorem decimal?_eq_some {digits : List Char} {n : Nat} : decimal? digits = some n ↔
    digits ≠ [] ∧ (∀ c ∈ digits, c.isDigit = true) ∧ Text.decimalValue digits = n := by
  rw [decimal?]
  split
  · next h =>
    rw [Bool.or_eq_true, List.isEmpty_iff, Bool.not_eq_true', ← Bool.not_eq_true,
      List.all_eq_true] at h
    tauto
  · next h =>
    rw [Bool.or_eq_true, List.isEmpty_iff, Bool.not_eq_true', ← Bool.not_eq_true,
      List.all_eq_true, not_or, not_not] at h
    exact ⟨fun heq => ⟨h.1, h.2, Option.some.inj heq⟩,
      fun ⟨_, _, heq⟩ => congrArg some heq⟩

/-- A position is read from digits that are no more than its value, maybe behind a plus sign. -/
theorem index?_eq_some {text : List Char} {position : UInt64} : index? text = some position ↔
    ∃ digits, (text = digits ∨ text = '+' :: digits) ∧
      decimal? digits = some position.toNat := by
  have hbound : ∀ digits, ((decimal? digits).bind fun n =>
      if n < UInt64.size then some (UInt64.ofNat n) else none) = some position ↔
        decimal? digits = some position.toNat := by
    intro digits
    rw [Option.bind_eq_some_iff]
    constructor
    · rintro ⟨n, hn, h⟩
      split at h
      · next hlt =>
        cases h
        rw [hn, UInt64.toNat_ofNat', Nat.mod_eq_of_lt hlt]
      · cases h
    · intro h
      exact ⟨_, h, by rw [if_pos position.toNat_lt, UInt64.ofNat_toNat]⟩
  unfold index?
  split
  · next digits =>
    refine (hbound digits).trans ⟨fun h => ⟨digits, .inr rfl, h⟩, ?_⟩
    rintro ⟨others, rfl | heq, h⟩
    · have hplus : '+'.isDigit = true := (decimal?_eq_some.mp h).2.1 '+' List.mem_cons_self
      exact absurd hplus (by decide)
    · cases heq
      exact h
  · next hsign =>
    refine (hbound text).trans ⟨fun h => ⟨text, .inl rfl, h⟩, ?_⟩
    rintro ⟨others, rfl | heq, h⟩
    · exact h
    · exact absurd heq (hsign others)

theorem chars_of_index? {text : List Char} {position : UInt64} (h : index? text = some position) :
    ∀ c ∈ text, c = '+' ∨ c.isDigit = true := by
  obtain ⟨digits, htext, hdecimal⟩ := index?_eq_some.mp h
  obtain ⟨-, hdigits, -⟩ := decimal?_eq_some.mp hdecimal
  rcases htext with rfl | rfl
  · exact fun c hc => .inr (hdigits c hc)
  · intro c hc
    rcases List.mem_cons.mp hc with rfl | hc
    · exact .inl rfl
    · exact .inr (hdigits c hc)

theorem Numeral.no_mark (numeral : Numeral) : ']' ∉ numeral.text ∧ '.' ∉ numeral.text := by
  have hchars := chars_of_index? numeral.reads
  constructor
  · intro hmem
    exact absurd (hchars _ hmem) (by decide)
  · intro hmem
    exact absurd (hchars _ hmem) (by decide)

theorem index?_toDigits (position : UInt64) :
    index? (Nat.toDigits 10 position.toNat) = some position := by
  have hdigits : ∀ c ∈ Nat.toDigits 10 position.toNat, c.isDigit = true :=
    fun c hc => Nat.isDigit_of_mem_toDigits (by decide) (by decide) hc
  have hvalue : Text.decimalValue (Nat.toDigits 10 position.toNat) = position.toNat :=
    Nat.ofDigitChars_toDigits (by decide) (by decide)
  refine index?_eq_some.mpr ⟨_, .inl rfl, decimal?_eq_some.mpr ⟨?_, hdigits, hvalue⟩⟩
  exact Nat.toDigits_ne_nil

/-- A position in decimal digits. -/
def Numeral.ofPosition (position : UInt64) : Numeral where
  text := Nat.toDigits 10 position.toNat
  position := position
  reads := index?_toDigits position

/-! ## Reading indices -/

theorem readBracket_append {opened place : Nat} {digits text rest : List Char} (h : ']' ∉ text) :
    readBracket opened place digits (text ++ rest) =
      readBracket opened (place + byteLength text) (digits ++ text) rest := by
  induction text generalizing place digits with
  | nil => simp [byteLength]
  | cons c text ih =>
    obtain ⟨hc, htext⟩ : ']' ≠ c ∧ ']' ∉ text := by simpa using h
    rw [List.cons_append, readBracket, if_neg hc.symm, ih htext, byteLength, Nat.add_assoc,
      List.append_assoc, List.singleton_append]

theorem readIndices_group {place : Nat} (numeral : Numeral) {rest : List Char}
    {segments : List Segment} (h : ∀ place, readIndices place rest = .ok segments) :
    readIndices place (numeral.group ++ rest) = .ok (.index numeral.position :: segments) := by
  have htext : numeral.group ++ rest = '[' :: (numeral.text ++ ']' :: rest) := by
    simp [Numeral.group]
  rw [htext, readIndices, if_pos rfl, readBracket_append numeral.no_mark.1, readBracket, if_pos rfl,
    List.nil_append, numeral.reads]
  simp [h]

theorem readIndices_groups (numerals : List Numeral) (place : Nat) :
    readIndices place (numerals.flatMap Numeral.group) =
      .ok (numerals.map fun numeral => .index numeral.position) := by
  induction numerals generalizing place with
  | nil => rfl
  | cons numeral rest ih =>
    rw [List.flatMap_cons]
    exact readIndices_group numeral ih

/-! ## Reading parts -/

theorem readPart_text {part : Part} (hname : Schema.isName part.name = true) (first : Bool)
    (place : Nat) : readPart first place part.text = .ok part.segments := by
  obtain ⟨hopen, hclose⟩ := Schema.isName_no_bracket hname
  have hnotEmpty : part.name.toList ≠ [] := by
    simpa using Schema.isName_ne_empty hname
  have hbefore : ∀ c ∈ part.name.toList, decide (c ≠ '[') = true := by
    intro c hc
    rw [decide_eq_true_iff]
    rintro rfl
    exact hopen hc
  -- the indices begin with a bracket, so the name ends where they begin
  have htake : part.text.takeWhile (· ≠ '[') = part.name.toList := by
    rw [Part.text, List.takeWhile_append_of_pos hbefore]
    cases part.indices <;> simp [Numeral.group]
  have hdrop : part.text.dropWhile (· ≠ '[') = part.indices.flatMap Numeral.group := by
    rw [Part.text, List.dropWhile_append_of_pos hbefore]
    cases part.indices <;> simp [Numeral.group]
  rw [readPart]
  simp only [htake, hdrop, readIndices_groups]
  simp [hnotEmpty, hclose, Part.segments]

theorem readParts_text {parts : List Part}
    (hnames : ∀ part ∈ parts, Schema.isName part.name = true)
    (first : Bool) (place : Nat) :
    readParts first place (parts.map Part.text) = .ok (parts.flatMap Part.segments) := by
  induction parts generalizing first place with
  | nil => rfl
  | cons part rest ih =>
    rw [List.forall_mem_cons] at hnames
    simp [readParts, readPart_text hnames.1, ih hnames.2]

theorem splitPoints_eq_splitOn (text : List Char) : splitPoints text = text.splitOn '.' := by
  induction text with
  | nil => rfl
  | cons c rest ih =>
    obtain ⟨part, parts, heq⟩ := List.exists_cons_of_ne_nil (List.splitOn_ne_nil '.' rest)
    have hcons : (c :: rest).splitOn '.' =
        if c = '.' then [] :: part :: parts else (c :: part) :: parts := by
      rw [List.splitOn_eq_splitOnP, List.splitOnP_cons_eq_if_modifyHead,
        ← List.splitOn_eq_splitOnP, heq]
      simp
    rw [splitPoints, ih, heq, hcons]

theorem Part.text_no_point {part : Part} (hname : Schema.isName part.name = true) :
    '.' ∉ part.text := by
  intro hmem
  rcases List.mem_append.mp hmem with hmem | hmem
  · exact Schema.isName_no_point hname hmem
  · obtain ⟨numeral, -, hmem⟩ := List.mem_flatMap.mp hmem
    have hpoint := numeral.no_mark.2
    simp [Numeral.group, hpoint] at hmem

/-- The text of parts is read as their names and positions in order. -/
theorem parse_spell {parts : List Part} (hne : parts ≠ [])
    (hnames : ∀ part ∈ parts, Schema.isName part.name = true) :
    parse (spell parts) = .ok (parts.flatMap Part.segments) := by
  have hpoints : ∀ text ∈ parts.map Part.text, '.' ∉ text := by
    intro text htext
    obtain ⟨part, hpart, rfl⟩ := List.mem_map.mp htext
    exact Part.text_no_point (hnames part hpart)
  have hsplit : splitPoints (spell parts).toList = parts.map Part.text := by
    rw [splitPoints_eq_splitOn, spell, String.toList_ofList]
    exact List.splitOn_intercalate '.' hpoints (by simpa using hne)
  have hnotEmpty : (spell parts).isEmpty = false := by
    obtain ⟨part, rest, rfl⟩ := List.exists_cons_of_ne_nil hne
    have hname := Schema.isName_ne_empty (hnames part List.mem_cons_self)
    cases rest <;> simp [spell, Part.text, hname]
  rw [parse, hnotEmpty, if_neg (by decide), hsplit]
  exact readParts_text hnames true 0

/-! ## The names -/

theorem names_segments (part : Part) : names part.segments = [part.name] := by
  have hindices : ∀ numerals : List Numeral,
      names (numerals.map fun numeral => Segment.index numeral.position) = [] := by
    intro numerals
    induction numerals with
    | nil => rfl
    | cons numeral rest ih => exact ih
  rw [Part.segments, names_key, hindices]

theorem names_flatMap (parts : List Part) :
    names (parts.flatMap Part.segments) = parts.map Part.name := by
  induction parts with
  | nil => rfl
  | cons part rest ih =>
    rw [List.flatMap_cons, names_append, names_segments, ih]
    rfl

/-- Without indices the text of parts are the names with points between them. -/
theorem spell_names (names : List String) :
    spell (names.map Part.ofName) = ".".intercalate names := by
  apply String.toList_inj.mp
  rw [spell, String.toList_ofList, String.toList_intercalate, List.map_map]
  congr 1
  apply List.map_congr_left
  intro name _
  simp [Part.text, Part.ofName]

/-! ## Paths of one name -/

theorem readBracket_ne_nil {opened place : Nat} {digits text : List Char} :
    readBracket opened place digits text ≠ .ok [] := by
  intro h
  induction text generalizing place digits with
  | nil => cases h
  | cons c rest ih =>
    rw [readBracket] at h
    split at h
    · split at h
      · cases h
      · simp at h
    · exact ih h

theorem readIndices_ok_nil {place : Nat} {text : List Char} (h : readIndices place text = .ok []) :
    text = [] := by
  cases text with
  | nil => rfl
  | cons c rest =>
    rw [readIndices] at h
    split at h
    · exact absurd h readBracket_ne_nil
    · cases h

/-- A part is a name, of which there is something, or has an index. -/
theorem readPart_ne_nil {first : Bool} {place : Nat} {part : List Char} :
    readPart first place part ≠ .ok [] := by
  intro h
  obtain ⟨name, rest, indices, _, -, -, -, hindices, ⟨-, -, hne, rfl⟩ | ⟨-, heq⟩⟩ :=
    readPart_ok h
  · exact hne (readIndices_ok_nil hindices)
  · cases heq

theorem readPart_ok_key {first : Bool} {place : Nat} {part : List Char} {name : String}
    (h : readPart first place part = .ok [.key name]) : String.ofList part = name := by
  obtain ⟨chars, rest, indices, _, rfl, -, -, hindices, ⟨-, -, -, rfl⟩ | ⟨-, heq⟩⟩ :=
    readPart_ok h
  · have hnone := names_of_readIndices hindices
    cases hnone
  · cases heq
    rw [readIndices_ok_nil hindices, List.append_nil]

/-- The text of a path of one name is that name. -/
theorem eq_of_parse_key {input name : String} (h : parse input = .ok [.key name]) :
    input = name := by
  rw [parse] at h
  split at h
  · cases h
  have hwhole : ['.'].intercalate (input.toList.splitOn '.') = input.toList :=
    List.intercalate_splitOn '.'
  rw [← splitPoints_eq_splitOn] at hwhole
  cases hparts : splitPoints input.toList with
  | nil =>
    rw [hparts] at h
    cases h
  | cons part rest =>
    rw [hparts] at h hwhole
    simp only [readParts, bind_ok_iff, pure_ok_iff] at h
    obtain ⟨segments, hsegments, others, hothers, h⟩ := h
    -- no part reads as nothing, so there is one part only
    obtain ⟨segment, more, rfl⟩ : ∃ segment more, segments = segment :: more := by
      apply List.exists_cons_of_ne_nil
      rintro rfl
      exact readPart_ne_nil hsegments
    rw [List.cons_append, List.cons.injEq, List.append_eq_nil_iff] at h
    obtain ⟨rfl, rfl, rfl⟩ := h
    cases rest with
    | nil =>
      have htext : part = input.toList := by simpa using hwhole
      rw [← readPart_ok_key hsegments, htext, String.ofList_toList]
    | cons second parts =>
      simp only [readParts, bind_ok_iff, pure_ok_iff] at hothers
      obtain ⟨segments, hsegments, others, -, h⟩ := hothers
      rw [List.append_eq_nil_iff] at h
      exact absurd (h.1 ▸ hsegments) readPart_ne_nil

end EntityModel.Path
