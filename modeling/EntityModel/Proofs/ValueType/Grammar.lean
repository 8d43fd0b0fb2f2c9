import EntityModel.Proofs.Order
import EntityModel.Proofs.ValueType.Words

/-!
# The grammar of type expressions

`Derives` says which texts are which types, one rule for each form of a type, with any blanks before
every word and mark. The fields of an object stand in any order and are collected by name, so that
none of them may be named twice.

* `readType_ok_iff`, `readFields_ok_iff`: what one level of reading does.
* `derives_of_readType`, `Derives.readType_ok`: the reader takes exactly what the grammar derives.
* `readType_and_readFields_fuel`: no text nests deeper than it is long.
* `parse_iff_expression`: `parse` accepts exactly the type expressions.
-/

namespace EntityModel.ValueType

/-! ## The grammar -/

/-- The words that are types. -/
inductive ScalarWord : String → ValueType → Prop where
  | string : ScalarWord "string" .string
  | int64 : ScalarWord "int64" .int64
  | float64 : ScalarWord "float64" .float64
  | bool : ScalarWord "bool" .bool

/-- The words before an element type, and the types that they make of it. -/
inductive CollectionWord : String → ValueType → ValueType → Prop where
  | list {element : ValueType} : CollectionWord "list" element (.list element)
  | set {element : ValueType} : CollectionWord "set" element (.set element)
  | map {element : ValueType} : CollectionWord "map" element (.map element)

mutual
/-- A text is a type, with blanks before it but none behind it. -/
inductive Derives : List Char → ValueType → Prop where
  | scalar {blanks : List Char} {word : String} {type : ValueType} (hblanks : Blanks blanks)
      (hword : ScalarWord word type) : Derives (blanks ++ word.toList) type
  | collection {blanks opening text closing : List Char} {word : String}
      {element type : ValueType} (hblanks : Blanks blanks)
      (hword : CollectionWord word element type) (hopening : Blanks opening)
      (helement : Derives text element) (hclosing : Blanks closing) :
      Derives (blanks ++ word.toList ++ opening ++ '<' :: text ++ closing ++ ['>']) type
  | noFields {blanks opening closing : List Char} (hblanks : Blanks blanks)
      (hopening : Blanks opening) (hclosing : Blanks closing) :
      Derives (blanks ++ "object".toList ++ opening ++ '\x7b' :: closing ++ ['\x7d']) (.object [])
  /-- The fields are those of the text, in ascending order, hence no two of one name. -/
  | object {blanks opening text closing : List Char} {listed fields : List (String × ValueType)}
      (hblanks : Blanks blanks) (hopening : Blanks opening) (hlisted : FieldsDerive text listed)
      (hclosing : Blanks closing) (hascending : Assoc.Ascending fields)
      (hcollected : fields.Perm listed) :
      Derives (blanks ++ "object".toList ++ opening ++ '\x7b' :: text ++ closing ++ ['\x7d'])
        (.object fields)

/-- A text is a field: a name, a colon and a type. -/
inductive FieldDerives : List Char → String × ValueType → Prop where
  | field {blanks colon text : List Char} {name : String} {type : ValueType}
      (hblanks : Blanks blanks) (hname : IsFieldName name) (hcolon : Blanks colon)
      (htype : Derives text type) :
      FieldDerives (blanks ++ name.toList ++ colon ++ ':' :: text) (name, type)

/-- A text is a list of fields with commas between them. -/
inductive FieldsDerive : List Char → List (String × ValueType) → Prop where
  | one {text : List Char} {field : String × ValueType} (hfield : FieldDerives text field) :
      FieldsDerive text [field]
  | more {text comma rest : List Char} {field : String × ValueType}
      {fields : List (String × ValueType)} (hfield : FieldDerives text field)
      (hcomma : Blanks comma) (hrest : FieldsDerive rest fields) :
      FieldsDerive (text ++ comma ++ ',' :: rest) (field :: fields)
end

/-- A text is a type expression: a type, and nothing but blanks behind it. -/
def Expression (input : String) (type : ValueType) : Prop :=
  ∃ text blanks, input.toList = text ++ blanks ∧ Derives text type ∧ Blanks blanks

/-! ## One level of reading -/

theorem scalar?_eq_some_iff {word : String} {type : ValueType} :
    scalar? word = some type ↔ ScalarWord word type := by
  constructor
  · intro h
    unfold scalar? at h
    split at h <;> cases h <;> constructor
  · rintro ⟨⟩ <;> rfl

theorem collectionWord_iff {word : String} {element type : ValueType} :
    CollectionWord word element type ↔
      ∃ wrap, collection? word = some wrap ∧ wrap element = type := by
  constructor
  · rintro ⟨⟩ <;> exact ⟨_, rfl, rfl⟩
  · rintro ⟨wrap, hwrap, rfl⟩
    unfold collection? at hwrap
    split at hwrap <;> cases hwrap <;> constructor

theorem ScalarWord.not_other {word : String} {type : ValueType} (h : ScalarWord word type) :
    collection? word = none ∧ word ≠ "object" := by
  cases h <;> exact ⟨rfl, by decide⟩

variable {input : String} {fuel : Nat} {text rest : List Char} {type : ValueType}
  {done fields : Assoc ValueType}

/-- Behind the name of a field stand a colon and its type, and then a comma with more fields or the
closing brace. -/
theorem readFields_ok_iff : readFields input (fuel + 1) done text = .ok (fields, rest) ↔
    ∃ name after, Word name text after ∧ ∃ inner type behind, Mark ':' after inner ∧
      readType input fuel inner = .ok (type, behind) ∧ name ∉ Assoc.keys done ∧
      ((∃ more, Mark ',' behind more ∧
        readFields input fuel (Assoc.insert name type done) more = .ok (fields, rest)) ∨
      Mark '\x7d' behind rest ∧ Assoc.insert name type done = fields) := by
  rw [readFields]
  rcases spanName_skipBlanks text with ⟨name, after, hspan, hword⟩ | ⟨after, hspan, hnone⟩
  · rw [hspan, hword.exists_iff]
    have hempty : name ≠ "" := hword.1.1
    simp only [String.ofList_toList, List.isEmpty_iff, String.toList_eq_nil_iff, hempty, if_false,
      bind_ok_iff, expect_ok_iff (show ':' ∈ marks by decide), Prod.exists]
    refine exists_congr fun inner => ?_
    simp only [exists_and_left]
    refine and_congr_right fun _ => exists₂_congr fun type behind => and_congr_right fun _ => ?_
    rw [← Assoc.has_iff, Bool.not_eq_true]
    split
    · next hhas => simp [hhas]
    · next hhas =>
      simp only [← skipBlanks_eq_cons_iff (show ',' ∈ marks by decide),
        ← skipBlanks_eq_cons_iff (show '\x7d' ∈ marks by decide), hhas, true_and]
      split
      · next more heq => simp [heq]
      · next more heq => simp [heq, and_comm]
      · next c more hcomma hclosing heq =>
        have hcomma' : c ≠ ',' := hcomma
        have hclosing' : c ≠ '\x7d' := hclosing
        simp [heq, hcomma', hclosing']
      · next heq => simp [heq]
  · refine iff_of_false (by simp [hspan]) ?_
    rintro ⟨name, after, hword, -⟩
    exact hnone name after hword

/-- Where a brace closes the fields there is no field to read. -/
theorem readFields_ne_ok {after : List Char} (hclosing : Mark '\x7d' text after) :
    readFields input fuel done text ≠ .ok (fields, rest) := by
  intro h
  cases fuel with
  | zero => cases h
  | succ fuel =>
    obtain ⟨name, behind, hname, -⟩ := readFields_ok_iff.mp h
    exact hname.not_mark (by decide) hclosing

theorem readFields_skipBlanks :
    readFields input fuel done (skipBlanks text) = .ok (fields, rest) ↔
      readFields input fuel done text = .ok (fields, rest) := by
  cases fuel with
  | zero => simp [readFields]
  | succ fuel => simp only [readFields_ok_iff, word_skipBlanks_iff]

/-- Behind the word a scalar type is complete; a collection goes on with its element type, and an
object with its fields. -/
theorem readType_ok_iff : readType input (fuel + 1) text = .ok (type, rest) ↔
    ∃ word after, Word word text after ∧
      (ScalarWord word type ∧ after = rest ∨
      (∃ inner, Mark '<' after inner ∧ ∃ element behind,
        readType input fuel inner = .ok (element, behind) ∧ Mark '>' behind rest ∧
          CollectionWord word element type) ∨
      word = "object" ∧ ∃ inner, Mark '\x7b' after inner ∧
        (Mark '\x7d' inner rest ∧ .object [] = type ∨
          ∃ fields, readFields input fuel [] inner = .ok (fields, rest) ∧
            .object fields = type)) := by
  rw [readType]
  rcases spanName_skipBlanks text with ⟨word, after, hspan, hword⟩ | ⟨after, hspan, hnone⟩
  · rw [hspan, hword.exists_iff]
    have hempty : word ≠ "" := hword.1.1
    simp only [String.ofList_toList, List.isEmpty_iff, String.toList_eq_nil_iff, hempty, if_false]
    simp only [← scalar?_eq_some_iff, collectionWord_iff]
    cases hscalar : scalar? word with
    | some scalar =>
      obtain ⟨hcollection, hobject⟩ := (scalar?_eq_some_iff.mp hscalar).not_other
      simp [hcollection, hobject]
    | none =>
      cases hcollection : collection? word with
      | some wrap =>
        have hobject : word ≠ "object" := by
          rintro rfl
          cases hcollection
        simp [hobject, expect_ok_iff (show '<' ∈ marks by decide),
          expect_ok_iff (show '>' ∈ marks by decide)]
      | none =>
        by_cases hobject : word = "object"
        · simp only [hobject, if_true, true_and, bind_ok_iff, reduceCtorEq, false_and, and_false,
            exists_false, false_or, expect_ok_iff (show '\x7b' ∈ marks by decide)]
          refine exists_congr fun inner => and_congr_right fun _ => ?_
          rw [← skipBlanks_eq_cons_iff (show '\x7d' ∈ marks by decide)]
          split
          · next behind heq =>
            have hclosing := (skipBlanks_eq_cons_iff (by decide)).mp heq
            simp [heq, readFields_ne_ok hclosing, and_comm]
          · next hother =>
            have hopen : skipBlanks inner ≠ '\x7d' :: rest := hother rest
            simp [hopen, readFields_skipBlanks]
        · simp [hobject]
  · refine iff_of_false (by simp [hspan]) ?_
    rintro ⟨word, after, hword, -⟩
    exact hnone word after hword

/-! ## What is read is derived -/

theorem derives_of_readType_and_readFields (input : String) (fuel : Nat) :
    (∀ {text rest : List Char} {type : ValueType}, readType input fuel text = .ok (type, rest) →
      ∃ used, text = used ++ rest ∧ Derives used type) ∧
    ∀ {text rest : List Char} {done fields : Assoc ValueType}, Assoc.Ascending done →
      readFields input fuel done text = .ok (fields, rest) →
      ∃ used behind listed, text = used ++ behind ∧ FieldsDerive used listed ∧
        Mark '\x7d' behind rest ∧ Assoc.Ascending fields ∧ fields.Perm (done ++ listed) := by
  induction fuel with
  | zero => exact ⟨nofun, nofun⟩
  | succ fuel ih =>
    obtain ⟨ihType, ihFields⟩ := ih
    constructor
    · intro text rest type h
      rw [readType_ok_iff] at h
      obtain ⟨word, after, ⟨-, -, blanks, hblanks, rfl⟩, h⟩ := h
      rcases h with ⟨hscalar, rfl⟩ |
        ⟨inner, ⟨opening, hopening, rfl⟩, element, behind, helement,
          ⟨closing, hclosing, rfl⟩, hcollection⟩ |
        ⟨rfl, inner, ⟨opening, hopening, rfl⟩, h⟩
      · exact ⟨_, by simp, .scalar hblanks hscalar⟩
      · obtain ⟨used, rfl, hused⟩ := ihType helement
        exact ⟨_, by simp, .collection hblanks hcollection hopening hused hclosing⟩
      · rcases h with ⟨⟨closing, hclosing, rfl⟩, rfl⟩ | ⟨fields, hfields, rfl⟩
        · exact ⟨_, by simp, .noFields hblanks hopening hclosing⟩
        · obtain ⟨used, behind, listed, rfl, hused, ⟨closing, hclosing, rfl⟩, hasc,
            hperm⟩ := ihFields List.Pairwise.nil hfields
          exact ⟨_, by simp, .object hblanks hopening hused hclosing hasc hperm⟩
    · intro text rest done fields hdone h
      rw [readFields_ok_iff] at h
      obtain ⟨name, after, ⟨hname, -, blanks, hblanks, rfl⟩, inner, type, behind,
        ⟨colon, hcolon, rfl⟩, htype, hnew, h⟩ := h
      obtain ⟨used, rfl, hused⟩ := ihType htype
      have hfield := FieldDerives.field hblanks hname hcolon hused
      have hinsert : (Assoc.insert name type done).Perm _ := Assoc.insert_perm hnew
      rcases h with ⟨more, ⟨comma, hcomma, rfl⟩, hmore⟩ | ⟨hclosing, rfl⟩
      · obtain ⟨usedFields, rest', listed, rfl, hlisted, hclosing, hasc, hperm⟩ :=
          ihFields (Assoc.ascending_insert hdone) hmore
        refine ⟨_, rest', (name, type) :: listed, by simp, .more hfield hcomma hlisted, hclosing,
          hasc, hperm.trans ?_⟩
        exact (hinsert.append_right listed).trans List.perm_middle.symm
      · refine ⟨_, behind, [(name, type)], by simp, .one hfield, hclosing,
          Assoc.ascending_insert hdone, hinsert.trans ?_⟩
        exact (List.perm_append_comm : ([(name, type)] ++ done).Perm _)

theorem derives_of_readType (h : readType input fuel text = .ok (type, rest)) :
    ∃ used, text = used ++ rest ∧ Derives used type :=
  (derives_of_readType_and_readFields input fuel).1 h

theorem length_le_of_readType (h : readType input fuel text = .ok (type, rest)) :
    rest.length ≤ text.length := by
  obtain ⟨used, rfl, -⟩ := derives_of_readType h
  simp

/-! ## What is derived is read -/

theorem ScalarWord.isFieldName {word : String} (h : ScalarWord word type) : IsFieldName word := by
  cases h <;> decide +kernel

theorem CollectionWord.isFieldName {word : String} {element : ValueType}
    (h : CollectionWord word element type) : IsFieldName word := by
  cases h <;> decide +kernel

theorem isFieldName_object : IsFieldName "object" := by
  decide +kernel

/-- Of the fields that are collected no two have one name. -/
theorem not_mem_keys_of_perm {name : String} {listed : List (String × ValueType)}
    (hascending : Assoc.Ascending fields) (hperm : fields.Perm (done ++ (name, type) :: listed)) :
    name ∉ Assoc.keys done := by
  have hnodup : (Assoc.keys (done ++ (name, type) :: listed)).Nodup := by
    have hkeys : (Assoc.keys fields).Nodup :=
      (Assoc.ascending_iff.mp hascending).imp fun hlt => String.ne_of_lt hlt
    exact (hperm.map Prod.fst).nodup_iff.mp hkeys
  simp only [Assoc.keys, List.map_append, List.map_cons] at hnodup
  intro hmem
  exact (List.nodup_append.mp hnodup).2.2 name hmem name List.mem_cons_self rfl

mutual
/-- The reader takes a type from the beginning of a text and leaves what is behind it, where the
last word of the type must not go on. -/
theorem Derives.readType_ok (input : String) : ∀ {text : List Char} {type : ValueType},
    Derives text type → ∀ (fuel : Nat) {rest : List Char}, text.length < fuel →
      NameEnds rest →
    readType input fuel (text ++ rest) = .ok (type, rest)
  | _, _, .scalar hblanks hscalar, fuel + 1, rest, _, hrest => by
    have hword : Word _ _ rest := ⟨hscalar.isFieldName, hrest, _, hblanks, List.append_assoc ..⟩
    exact readType_ok_iff.mpr ⟨_, _, hword, .inl ⟨hscalar, rfl⟩⟩
  | _, _, .collection hblanks hcollection hopening helement hclosing, fuel + 1, rest, hfuel, _ => by
    simp only [List.length_append, List.length_cons] at hfuel
    have hend : Mark '>' _ rest := ⟨_, hclosing, rfl⟩
    have hinner := helement.readType_ok input fuel (by omega) (hend.nameEnds (by decide))
    refine readType_ok_iff.mpr ⟨_, _, ?_, .inr (.inl
      ⟨_, ⟨_, hopening, rfl⟩, _, _, hinner, hend, hcollection⟩)⟩
    exact hcollection.isFieldName.word hblanks hopening (by decide) (by simp)
  | _, _, .noFields hblanks hopening hclosing, fuel + 1, rest, _, _ => by
    refine readType_ok_iff.mpr ⟨_, _, ?_, .inr (.inr
      ⟨rfl, _, ⟨_, hopening, rfl⟩, .inl ⟨⟨_, hclosing, rfl⟩, rfl⟩⟩)⟩
    exact isFieldName_object.word hblanks hopening (by decide) (by simp)
  | _, _, .object hblanks hopening hlisted hclosing hascending hcollected, fuel + 1, rest, hfuel,
      _ => by
    simp only [List.length_append, List.length_cons] at hfuel
    have hend : Mark '\x7d' _ rest := ⟨_, hclosing, rfl⟩
    have hinner := hlisted.readFields_ok input fuel (by omega) hend List.Pairwise.nil hascending
      hcollected
    refine readType_ok_iff.mpr ⟨_, _, ?_, .inr (.inr
      ⟨rfl, _, ⟨_, hopening, rfl⟩, .inr ⟨_, hinner, rfl⟩⟩)⟩
    exact isFieldName_object.word hblanks hopening (by decide) (by simp)

/-- The reader collects the fields at the beginning of a text under those that it has already, and
takes the closing brace. -/
theorem FieldsDerive.readFields_ok (input : String) : ∀ {text : List Char}
    {listed : List (String × ValueType)}, FieldsDerive text listed →
    ∀ (fuel : Nat) {behind rest : List Char}
      {done fields : Assoc ValueType}, text.length < fuel →
    Mark '\x7d' behind rest → Assoc.Ascending done → Assoc.Ascending fields →
    fields.Perm (done ++ listed) →
      readFields input fuel done (text ++ behind) = .ok (fields, rest)
  | _, _, .one (.field hblanks hname hcolon htype), fuel + 1, behind, rest, done, fields, hfuel,
      hend, hdone, hascending, hperm => by
    simp only [List.length_append, List.length_cons] at hfuel
    have hinner := htype.readType_ok input fuel (by omega) (hend.nameEnds (by decide))
    have hnew := not_mem_keys_of_perm hascending hperm
    have hcollected := Assoc.insert_eq_of_perm hnew hdone hascending
      (hperm.trans List.perm_append_comm)
    refine readFields_ok_iff.mpr ⟨_, _, ?_, _, _, _, ⟨_, hcolon, rfl⟩, hinner, hnew,
      .inr ⟨hend, hcollected⟩⟩
    exact hname.word hblanks hcolon (by decide) (by simp)
  | _, _, @FieldsDerive.more _ _ others _ _ (.field hblanks hname hcolon htype) hcomma hrest,
      fuel + 1, behind, rest, done, fields, hfuel, hend, hdone, hascending, hperm => by
    simp only [List.length_append, List.length_cons] at hfuel
    have hnew := not_mem_keys_of_perm hascending hperm
    have hothers := hrest.readFields_ok input fuel (by omega) hend (Assoc.ascending_insert hdone)
      hascending (hperm.trans (List.perm_middle.trans
        ((Assoc.insert_perm hnew).symm.append_right _)))
    have hseparator : Mark ',' _ (others ++ behind) := ⟨_, hcomma, rfl⟩
    have hinner := htype.readType_ok input fuel (by omega) (hseparator.nameEnds (by decide))
    refine readFields_ok_iff.mpr ⟨_, _, ?_, _, _, _, ⟨_, hcolon, rfl⟩, hinner, hnew,
      .inl ⟨_, hseparator, hothers⟩⟩
    exact hname.word hblanks hcolon (by decide) (by simp)
end

/-! ## Depth -/

/-- A text does not nest deeper than it is long, so any two depths beyond its length do. -/
theorem readType_and_readFields_fuel (input : String) (fuel : Nat) : ∀ other : Nat,
    (∀ text : List Char, text.length < fuel → text.length < other →
      readType input fuel text = readType input other text) ∧
    ∀ (done : Assoc ValueType) (text : List Char), text.length < fuel → text.length < other →
      readFields input fuel done text = readFields input other done text := by
  induction fuel with
  | zero => exact fun other => ⟨nofun, nofun⟩
  | succ fuel ih =>
    rintro (_ | other)
    · exact ⟨nofun, nofun⟩
    obtain ⟨ihType, ihFields⟩ := ih other
    constructor
    · intro text hfuel hother
      rw [readType, readType]
      rcases spanName_skipBlanks text with ⟨word, after, hspan, hword⟩ | ⟨after, hspan, -⟩
      · have hafter := hword.length_lt
        simp only [hspan]
        split
        · rfl
        split
        · rfl
        split
        · refine bind_congr_of_ok fun inner hinner => ?_
          have hlength := length_lt_of_expect (by decide) hinner
          rw [ihType inner (by omega) (by omega)]
        split
        · refine bind_congr_of_ok fun inner hinner => ?_
          have hlength := length_lt_of_expect (by decide) hinner
          have hskip := length_skipBlanks_le inner
          split
          · rfl
          · rw [ihFields [] _ (by omega) (by omega)]
        · rfl
      · simp [hspan]
    · intro done text hfuel hother
      rw [readFields, readFields]
      rcases spanName_skipBlanks text with ⟨name, after, hspan, hword⟩ | ⟨after, hspan, -⟩
      · have hafter := hword.length_lt
        simp only [hspan]
        split
        · rfl
        refine bind_congr_of_ok fun inner hinner => ?_
        have hlength := length_lt_of_expect (by decide) hinner
        rw [ihType inner (by omega) (by omega)]
        refine bind_congr_of_ok fun ⟨type, behind⟩ htype => ?_
        have hbehind := length_le_of_readType htype
        dsimp only
        split
        · rfl
        split
        · next more heq =>
          have hmore := ((skipBlanks_eq_cons_iff (by decide)).mp heq).length_lt
          exact ihFields _ more (by omega) (by omega)
        · rfl
        · rfl
        · rfl
      · simp [hspan]

/-! ## Whole texts -/

theorem parse_ok_iff : parse input = .ok type ↔
    ∃ rest, readType input (input.toList.length + 1) input.toList = .ok (type, rest) ∧
      Blanks rest := by
  simp only [parse, bind_ok_iff, Prod.exists]
  have hempty : ∀ rest, (skipBlanks rest).isEmpty = true ↔ Blanks rest := fun rest => by
    rw [List.isEmpty_iff, skipBlanks_eq_nil_iff]
  constructor
  · rintro ⟨other, rest, hread, h⟩
    split at h
    · next hblanks =>
      cases h
      exact ⟨rest, hread, (hempty rest).mp hblanks⟩
    · cases h
  · rintro ⟨rest, hread, hblanks⟩
    exact ⟨type, rest, hread, by rw [if_pos ((hempty rest).mpr hblanks), pure_ok_iff]⟩

theorem expression_of_parse (h : parse input = .ok type) : Expression input type := by
  obtain ⟨rest, hread, hblanks⟩ := parse_ok_iff.mp h
  obtain ⟨text, htext, hderives⟩ := derives_of_readType hread
  exact ⟨text, rest, htext, hderives, hblanks⟩

theorem Expression.parse_ok (h : Expression input type) : parse input = .ok type := by
  obtain ⟨text, blanks, htext, hderives, hblanks⟩ := h
  have hends : NameEnds blanks := by simpa using nameEnds_append hblanks nameEnds_nil
  have hlength : text.length < input.toList.length + 1 := by
    rw [htext, List.length_append]
    omega
  have hread := hderives.readType_ok input _ hlength hends
  rw [← htext] at hread
  exact parse_ok_iff.mpr ⟨blanks, hread, hblanks⟩

/-- Exactly the type expressions are read, each as the type that it is, and every other text is
refused. Reading comes to an end by itself: it does not use up the depth that it is given, since
with more depth it gives the same answer. Blanks, characters of names and marks are told apart by
their classes alone. -/
theorem parse_iff_expression (input : String) :
    (∀ type, parse input = .ok type ↔ Expression input type) ∧
    ((∃ e, parse input = .error e) ↔ ¬ ∃ type, Expression input type) ∧
    (∀ more, readType input (input.toList.length + 1 + more) input.toList =
      readType input (input.toList.length + 1) input.toList) ∧
    (∀ c, ¬ (Text.isBlank c = true ∧ isNameChar c = true)) ∧
    ∀ mark ∈ marks, Text.isBlank mark = false ∧ isNameChar mark = false := by
  have haccepts : ∀ type, parse input = .ok type ↔ Expression input type :=
    fun type => ⟨expression_of_parse, Expression.parse_ok⟩
  refine ⟨haccepts, ?_, fun more => ?_, fun c => ?_, fun mark hmark => ?_⟩
  · simp only [← haccepts]
    cases parse input <;> simp
  · exact (readType_and_readFields_fuel input _ _).1 _ (by omega) (by omega)
  · rintro ⟨hblank, hname⟩
    rw [not_isNameChar_of_isBlank hblank] at hname
    cases hname
  · exact ⟨not_isBlank_of_mem_marks mark hmark, not_isNameChar_of_mem_marks mark hmark⟩

end EntityModel.ValueType
