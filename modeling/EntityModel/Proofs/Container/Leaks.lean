import EntityModel.Proofs.Container.Redaction

/-!
# What dumps give away

An entity that is not shielded has containers that agree and yet have different dumps: a list, set
or map is shown as one text, with the sensitive values inside it.

* `tells_of_not_quiet`: the text of a value tells its sensitive parts.
* `shows_of_not_hides`: so does its dump.
* `dump_eq_iff_shielded`: dumps reveal nothing sensitive just if the entity is shielded.
-/

namespace EntityModel

/-- A known value of a type. -/
structure Value.Known (type : ValueType) (v : Value) : Prop where
  type : v.type = type
  wellTyped : v.WellTyped
  ordered : v.Ordered
  known : v.isKnown = true

/-- The text of a value in a dump. -/
def Value.text (v : Value) : List Char := (lower v).toJson.compactText

/-! ## Objects with one attribute that is not null -/

/-- Attributes of which all but one are null. -/
def oneAttribute (before : List (String × ValueType)) (name : String) (v : Value)
    (after : List (String × ValueType)) : ValueTable :=
  Assoc.mapValues Value.null before ++ (name, v) :: Assoc.mapValues Value.null after

section

variable {before after : List (String × ValueType)} {name : String} {v w : Value}

theorem attributesTyped_nulls (fields : List (String × ValueType)) :
    Value.AttributesTyped fields (Assoc.mapValues Value.null fields) := by
  induction fields with
  | nil => trivial
  | cons field rest ih => exact ⟨rfl, rfl, trivial, ih⟩

theorem attributesTyped_oneAttribute (hv : v.WellTyped) :
    Value.AttributesTyped (before ++ (name, v.type) :: after)
      (oneAttribute before name v after) := by
  induction before with
  | nil => exact ⟨rfl, rfl, hv, attributesTyped_nulls after⟩
  | cons field rest ih => exact ⟨rfl, rfl, trivial, ih⟩

theorem oneAttribute_ordered (h : ∀ field ∈ before ++ (name, v.type) :: after, field.2.Ordered)
    (hv : v.Ordered) : ∀ entry ∈ oneAttribute before name v after, entry.2.Ordered := by
  have hnulls : ∀ {fields : List (String × ValueType)},
      (∀ field ∈ fields, field.2.Ordered) →
        ∀ entry ∈ Assoc.mapValues Value.null fields, entry.2.Ordered := by
    intro fields hfields entry hentry
    obtain ⟨field, hfield, rfl⟩ := List.mem_map.mp hentry
    exact hfields field hfield
  rw [List.forall_mem_append, List.forall_mem_cons] at h
  rw [oneAttribute, List.forall_mem_append, List.forall_mem_cons]
  exact ⟨hnulls h.1, hv, hnulls h.2.2⟩

theorem Value.Known.object {type : ValueType} (hv : v.Known type)
    (before : List (String × ValueType)) (name : String) (after : List (String × ValueType))
    (h : (ValueType.object (before ++ (name, type) :: after)).Ordered) :
    (Value.object (before ++ (name, type) :: after) (oneAttribute before name v after)).Known
      (.object (before ++ (name, type) :: after)) := by
  obtain ⟨rfl, hwell, hordered, -⟩ := hv
  have htyped : Value.AttributesTyped (before ++ (name, v.type) :: after)
      (oneAttribute before name v after) := attributesTyped_oneAttribute hwell
  refine ⟨rfl, htyped,
    ⟨h, h.1.of_keys htyped.keys_eq, Value.entriesOrdered_iff.mpr ?_⟩, rfl⟩
  exact oneAttribute_ordered (ValueType.fieldsOrdered_iff.mp h.2) hordered

theorem agreeEntries_same {entity : Entity} (path : String → String) (entries : ValueTable) :
    AgreeEntries entity path entries entries := by
  induction entries with
  | nil => exact .nil
  | cons entry rest ih => exact .cons (.same _) ih

theorem agreeEntries_oneAttribute {entity : Entity} {path : String → String}
    (h : Agree entity (path name) v w) :
    AgreeEntries entity path (oneAttribute before name v after)
      (oneAttribute before name w after) := by
  induction before with
  | nil => exact .cons h (agreeEntries_same path _)
  | cons field rest ih => exact .cons (.same _) ih

/-! ## Texts around a part -/

theorem compactEntries_cons_of_ne {key : String} {value : Json} {rest : List (String × Json)}
    (h : rest ≠ []) :
    Json.compactEntries ((key, value) :: rest) =
      Json.stringText key ++ ':' :: value.compactText ++ ',' :: Json.compactEntries rest := by
  obtain ⟨entry, others, rfl⟩ := List.exists_cons_of_ne_nil h
  rw [Json.compactEntries]
  simp

theorem compactEntries_around (before after : List (String × Json)) (name : String) :
    ∃ front back, ∀ value : Json, Json.compactEntries (before ++ (name, value) :: after) =
      front ++ value.compactText ++ back := by
  induction before with
  | nil =>
    by_cases hafter : after = []
    · refine ⟨Json.stringText name ++ [':'], [], fun value => ?_⟩
      simp [hafter, Json.compactEntries]
    · refine ⟨Json.stringText name ++ [':'], ',' :: Json.compactEntries after, fun value => ?_⟩
      simp [compactEntries_cons_of_ne hafter]
  | cons entry rest ih =>
    obtain ⟨front, back, htext⟩ := ih
    obtain ⟨key, first⟩ := entry
    refine ⟨Json.stringText key ++ ':' :: first.compactText ++ ',' :: front, back,
      fun value => ?_⟩
    rw [List.cons_append, compactEntries_cons_of_ne (by simp), htext]
    simp

theorem lowerTable_append (entries others : ValueTable) :
    Raw.recordToJson (lowerTable (entries ++ others)) =
      Raw.recordToJson (lowerTable entries) ++ Raw.recordToJson (lowerTable others) := by
  induction entries with
  | nil => rfl
  | cons entry rest ih =>
    obtain ⟨key, value⟩ := entry
    simp only [List.cons_append, lowerTable, Raw.recordToJson, ih]

/-- The text of an object is that of one attribute with fixed texts around it. -/
theorem text_object_around (fields before : List (String × ValueType)) (name : String)
    (after : List (String × ValueType)) :
    ∃ front back, ∀ v : Value,
      (Value.object fields (oneAttribute before name v after)).text = front ++ v.text ++ back := by
  obtain ⟨front, back, htext⟩ := compactEntries_around
    (Raw.recordToJson (lowerTable (Assoc.mapValues Value.null before)))
    (Raw.recordToJson (lowerTable (Assoc.mapValues Value.null after))) name
  refine ⟨'\x7b' :: front, back ++ ['\x7d'], fun v => ?_⟩
  rw [Value.text, lower, Raw.toJson, Json.compactText, oneAttribute, lowerTable_append, lowerTable,
    Raw.recordToJson, htext]
  simp [Value.text]

theorem text_list_single (element : ValueType) (hv : v.isKnown = true) :
    (Value.list element [v]).text = '[' :: v.text ++ [']'] := by
  simp [Value.text, lower, lowerKnown, hv, Raw.toJson, Raw.listToJson, Json.compactText,
    Json.compactItems]

theorem text_map_single (element : ValueType) (v : Value) :
    (Value.map element [("", v)]).text = "\x7b\"\":".toList ++ v.text ++ ['\x7d'] := by
  simp [Value.text, lower, lowerTable, Raw.toJson, Raw.recordToJson, Json.compactText,
    Json.compactEntries, Json.stringText]

end

/-! ## Known values of every type -/

/-- A known value of a type. -/
def Value.sample : ValueType → Value
  | .string => .string ""
  | .int64 => .int64 0
  | .float64 => .float64 ⟨0⟩
  | .bool => .bool false
  | .list element => .list element []
  | .set element => .set element []
  | .map element => .map element []
  | .object fields => .object fields (Assoc.mapValues Value.null fields)

theorem Value.sample_known {type : ValueType} (h : type.Ordered) : (sample type).Known type := by
  cases type with
  | object fields =>
    have htyped := attributesTyped_nulls fields
    refine ⟨rfl, htyped,
      ⟨h, h.1.of_keys htyped.keys_eq, Value.entriesOrdered_iff.mpr ?_⟩, rfl⟩
    intro entry hentry
    obtain ⟨field, hfield, rfl⟩ := List.mem_map.mp hentry
    exact ValueType.fieldsOrdered_iff.mp h.2 field hfield
  | map element => exact ⟨rfl, trivial, ⟨h, List.Pairwise.nil, trivial⟩, rfl⟩
  | list element | set element => exact ⟨rfl, trivial, ⟨h, trivial⟩, rfl⟩
  | _ => exact ⟨rfl, by simp [sample, WellTyped], by simp [sample, Ordered], rfl⟩

theorem Value.text_sample_ne_null (type : ValueType) : (sample type).text ≠ "null".toList := by
  cases type with
  | string | int64 | float64 | bool => decide +kernel
  | _ => simp [text, sample, lower, Raw.toJson, Json.compactText]

/-- An item and twice the same item have different texts. -/
theorem Value.text_list_ne {v : Value} (element : ValueType) (hv : v.isKnown = true) :
    (Value.list element [v]).text ≠ (Value.list element [v, v]).text := by
  intro h
  have hlength := congrArg List.length h
  simp [text, lower, lowerKnown, hv, Raw.toJson, Raw.listToJson, Json.compactText,
    Json.compactItems] at hlength

theorem Value.Known.items {element : ValueType} {v : Value} (hv : v.Known element) (count : Nat) :
    (Value.list element (List.replicate count v)).Known (.list element) ∧
      (Value.set element (List.replicate count v)).Known (.set element) := by
  have hwell : ItemsTyped element (List.replicate count v) :=
    itemsTyped_iff.mpr fun item hitem =>
      (List.mem_replicate.mp hitem).2 ▸ ⟨hv.type, hv.wellTyped⟩
  have hordered : element.Ordered ∧ ItemsOrdered (List.replicate count v) :=
    ⟨hv.type ▸ hv.ordered.type_ordered,
      itemsOrdered_iff.mpr fun item hitem => (List.mem_replicate.mp hitem).2 ▸ hv.ordered⟩
  exact ⟨⟨rfl, hwell, hordered, rfl⟩, ⟨rfl, hwell, hordered, rfl⟩⟩

theorem Value.Known.entry {element : ValueType} {v : Value} (htype : v.type = element)
    (hwell : v.WellTyped) (hordered : v.Ordered) :
    (Value.map element [("", v)]).Known (.map element) := by
  have helement : element.Ordered := htype ▸ hordered.type_ordered
  exact ⟨rfl, ⟨htype, hwell, trivial⟩,
    ⟨helement, Assoc.ascending_singleton _, ⟨hordered, trivial⟩⟩, rfl⟩

theorem Value.Known.scalar {type : ValueType} {v : Value} (h : type.isPrimitive = true)
    (htype : v.type = type) (hv : v.isKnown = true) : v.Known type := by
  subst htype
  cases v with
  | null | unknown => cases hv
  | list | set | map | object => cases h
  | _ => exact ⟨rfl, by simp [WellTyped], by simp [Ordered], rfl⟩

/-- Every type but that of objects without fields has known values with different texts. -/
theorem Value.exists_text_ne : ∀ {type : ValueType}, type.Ordered → type ≠ .object [] →
    ∃ v w : Value, v.Known type ∧ w.Known type ∧ v.text ≠ w.text
  | .string, _, _ =>
    ⟨.string "", .string "a", .scalar rfl rfl rfl, .scalar rfl rfl rfl, by decide +kernel⟩
  | .int64, _, _ =>
    ⟨.int64 0, .int64 1, .scalar rfl rfl rfl, .scalar rfl rfl rfl, by decide +kernel⟩
  | .float64, _, _ =>
    ⟨.float64 (.ofInt 0), .float64 (.ofInt 1), .scalar rfl rfl rfl, .scalar rfl rfl rfl,
      by decide +kernel⟩
  | .bool, _, _ =>
    ⟨.bool false, .bool true, .scalar rfl rfl rfl, .scalar rfl rfl rfl, by decide +kernel⟩
  | .list element, h, _ => by
    have hsample := sample_known (show element.Ordered from h)
    exact ⟨_, _, (hsample.items 1).1, (hsample.items 2).1, text_list_ne element hsample.known⟩
  | .set element, h, _ => by
    have hsample := sample_known (show element.Ordered from h)
    exact ⟨_, _, (hsample.items 1).2, (hsample.items 2).2, text_list_ne element hsample.known⟩
  | .map element, h, _ => by
    have hentry : (Value.map element [("", .null element)]).Known (.map element) :=
      .entry rfl (by simp [WellTyped]) h
    refine ⟨_, _, sample_known h, hentry, ?_⟩
    rw [text_map_single]
    simp [text, sample, lower, lowerTable, Raw.toJson, Raw.recordToJson, Json.compactText,
      Json.compactEntries]
  | .object [], _, hne => absurd rfl hne
  | .object ((name, type) :: rest), h, _ => by
    have hsample := sample_known h.2.1
    refine ⟨_, _, sample_known h, hsample.object [] name rest h, fun heq => ?_⟩
    obtain ⟨front, back, htext⟩ := text_object_around ((name, type) :: rest) [] name rest
    have hnull := (htext (.null type)).symm.trans (heq.trans (htext (sample type)))
    simp only [List.append_cancel_right_eq, List.append_cancel_left_eq] at hnull
    exact text_sample_ne_null type hnull.symm

/-! ## Values that are told apart -/

variable {entity : Entity} {path : String} {type element : ValueType}
  {fields : List (String × ValueType)}

/-- Known values of a type that agree have different texts. -/
def Tells (entity : Entity) (path : String) (type : ValueType) : Prop :=
  ∃ v w, v.Known type ∧ w.Known type ∧ Agree entity path v w ∧ v.text ≠ w.text

theorem tells_list (h : Tells entity path element) :
    Tells entity path (.list element) ∧ Tells entity path (.set element) := by
  obtain ⟨v, w, hv, hw, hagree, hne⟩ := h
  have hitems : AgreeItems entity path [v] [w] := .cons hagree .nil
  have htext : (Value.list element [v]).text ≠ (Value.list element [w]).text := by
    rw [text_list_single element hv.known, text_list_single element hw.known]
    simpa using hne
  exact ⟨⟨_, _, (hv.items 1).1, (hw.items 1).1, .list hitems, htext⟩,
    ⟨_, _, (hv.items 1).2, (hw.items 1).2, .set hitems, htext⟩⟩

theorem tells_map (h : Tells entity path element) : Tells entity path (.map element) := by
  obtain ⟨v, w, hv, hw, hagree, hne⟩ := h
  refine ⟨_, _, .entry hv.type hv.wellTyped hv.ordered, .entry hw.type hw.wellTyped hw.ordered,
    .map (.cons hagree .nil), ?_⟩
  rw [text_map_single, text_map_single]
  simpa using hne

theorem tells_object {field : String × ValueType} (hordered : (ValueType.object fields).Ordered)
    (hmem : field ∈ fields) (h : Tells entity (path ++ "." ++ field.1) field.2) :
    Tells entity path (.object fields) := by
  obtain ⟨v, w, hv, hw, hagree, hne⟩ := h
  obtain ⟨before, after, rfl⟩ := List.append_of_mem hmem
  refine ⟨_, _, hv.object before field.1 after hordered, hw.object before field.1 after hordered,
    .object (agreeEntries_oneAttribute hagree), ?_⟩
  obtain ⟨front, back, htext⟩ :=
    text_object_around (before ++ field :: after) before field.1 after
  rw [htext, htext]
  simpa using hne

mutual
/-- The text of a value tells its sensitive parts. -/
theorem tells_of_not_quiet : ∀ {type : ValueType} {path : String}, type.Ordered →
    ¬ entity.Quiet path type → Tells entity path type
  | .list element, path, hordered, h => by
    have helement : element.Ordered := hordered
    have hquiet : ¬ entity.Quiet path element := h
    exact (tells_list (tells_of_not_quiet helement hquiet)).1
  | .set element, path, hordered, h => by
    have helement : element.Ordered := hordered
    have hquiet : ¬ entity.Quiet path element := h
    exact (tells_list (tells_of_not_quiet helement hquiet)).2
  | .map element, path, hordered, h => by
    have helement : element.Ordered := hordered
    have hquiet : ¬ entity.Quiet path element := h
    exact tells_map (tells_of_not_quiet helement hquiet)
  | .object _, _, hordered, h => by
    obtain ⟨field, hmem, htells⟩ := exists_tells_of_not_quiet hordered.2 h
    exact tells_object hordered hmem htells
  | .string, _, _, h | .int64, _, _, h | .float64, _, _, h | .bool, _, _, h => absurd trivial h

theorem exists_tells_of_not_quiet : ∀ {fields : List (String × ValueType)} {path : String},
    ValueType.FieldsOrdered fields → ¬ entity.QuietFields path fields →
    ∃ field ∈ fields, Tells entity (path ++ "." ++ field.1) field.2
  | [], _, _, h => absurd trivial h
  | (name, type) :: rest, path, hordered, h => by
    -- the last field that is not clear, sensitive itself or with a sensitive part
    by_cases hrest : entity.QuietFields path rest
    · refine ⟨(name, type), List.mem_cons_self, ?_⟩
      by_cases hquiet : entity.Quiet (path ++ "." ++ name) type
      · have hsensitive :
            entity.isSensitive (path ++ "." ++ name) = true ∧ type ≠ .object [] := by
          by_contra hnot
          exact h ⟨fun hpath => by_contra fun hne => hnot ⟨hpath, hne⟩, hquiet, hrest⟩
        obtain ⟨v, w, hv, hw, hne⟩ := Value.exists_text_ne hordered.1 hsensitive.2
        exact ⟨v, w, hv, hw,
          .hidden hsensitive.1 (hw.type.trans hv.type.symm) hv.known hw.known, hne⟩
      · exact tells_of_not_quiet hordered.1 hquiet
    · obtain ⟨field, hmem, htells⟩ := exists_tells_of_not_quiet hordered.2 hrest
      exact ⟨field, List.mem_cons_of_mem _ hmem, htells⟩
end

namespace Container

/-- Known values of a type that agree have different dumps. -/
def Shows (entity : Entity) (path : String) (type : ValueType) : Prop :=
  ∃ v w, v.Known type ∧ w.Known type ∧ Agree entity path v w ∧
    ∀ depth name, dumpValue entity depth name path v ≠ dumpValue entity depth name path w

/-- What is shown on one line shows what its text tells. -/
theorem shows_of_tells (hpath : entity.isSensitive path ≠ true)
    (htype : type.element? = some element) (h : Tells entity path type) :
    Shows entity path type := by
  obtain ⟨v, w, hv, hw, hagree, hne⟩ := h
  have hline : ∀ {u : Value}, u.Known type →
      ∀ depth name, dumpValue entity depth name path u =
      indentation depth ++ name ++ ": " ++ type.kind.name ++
        flagNote (entity.classificationOf? path) ++ " = " ++ String.ofList u.text ++ "\n" := by
    intro u hu depth name
    obtain ⟨rfl, -, -, hknown⟩ := hu
    rw [Entity.isSensitive] at hpath
    simp only [Value.isKnown, Bool.and_eq_true, Bool.not_eq_true'] at hknown
    cases u with
    | object fields attributes => cases htype
    | _ =>
      simp [dumpValue, dumpLine, dumpText, hpath, hknown, Value.kind, Value.text, Raw.compact,
        Json.compact]
  refine ⟨v, w, hv, hw, hagree, fun depth name heq => hne ?_⟩
  rw [hline hv, hline hw] at heq
  simp only [String.append_left_inj, String.append_right_inj] at heq
  exact String.ofList_injective heq

theorem dumpTable_append (depth : Nat) (parent : String) (entries others : ValueTable) :
    dumpTable entity depth parent (entries ++ others) =
      dumpTable entity depth parent entries ++ dumpTable entity depth parent others := by
  induction entries with
  | nil => simp [dumpTable]
  | cons entry rest ih =>
    obtain ⟨name, value⟩ := entry
    simp only [List.cons_append, dumpTable, ih, String.append_assoc]

theorem shows_object {field : String × ValueType} (hpath : entity.isSensitive path ≠ true)
    (hordered : (ValueType.object fields).Ordered) (hmem : field ∈ fields)
    (h : Shows entity (path ++ "." ++ field.1) field.2) : Shows entity path (.object fields) := by
  obtain ⟨v, w, hv, hw, hagree, hne⟩ := h
  obtain ⟨before, after, rfl⟩ := List.append_of_mem hmem
  refine ⟨_, _, hv.object before field.1 after hordered, hw.object before field.1 after hordered,
    .object (agreeEntries_oneAttribute hagree), fun depth name heq => hne (depth + 1) field.1 ?_⟩
  rw [dumpValue_object hpath, dumpValue_object hpath] at heq
  simpa [oneAttribute, dumpTable_append, dumpTable] using heq

mutual
/-- The dump of a value shows what is sensitive in it and not reached through objects alone. -/
theorem shows_of_not_hides : ∀ {type : ValueType} {path : String}, type.Ordered →
    ¬ entity.Hides path type → Shows entity path type
  | .list _, _, hordered, h | .set _, _, hordered, h | .map _, _, hordered, h => by
    obtain ⟨hpath, hquiet⟩ := not_or.mp h
    exact shows_of_tells hpath rfl (tells_of_not_quiet hordered hquiet)
  | .object _, _, hordered, h => by
    obtain ⟨hpath, hfields⟩ := not_or.mp h
    obtain ⟨field, hmem, hshows⟩ := exists_shows_of_not_hides hordered.2 hfields
    exact shows_object hpath hordered hmem hshows
  | .string, _, _, h | .int64, _, _, h | .float64, _, _, h | .bool, _, _, h =>
    absurd (.inr trivial) h

theorem exists_shows_of_not_hides : ∀ {fields : List (String × ValueType)} {path : String},
    ValueType.FieldsOrdered fields → ¬ entity.HidesFields path fields →
    ∃ field ∈ fields, Shows entity (path ++ "." ++ field.1) field.2
  | [], _, _, h => absurd trivial h
  | (name, type) :: rest, path, hordered, h => by
    by_cases hrest : entity.HidesFields path rest
    · exact ⟨(name, type), List.mem_cons_self,
        shows_of_not_hides hordered.1 fun hhides => h ⟨hhides, hrest⟩⟩
    · obtain ⟨field, hmem, hshows⟩ := exists_shows_of_not_hides hordered.2 hrest
      exact ⟨field, List.mem_cons_of_mem _ hmem, hshows⟩
end

theorem sound_of_single {name : String} {v : Value} (hbound : entity.Bound)
    (hown : entity.hasAttribute name = true) (htype : entity.typeOf? name = some type)
    (hv : v.Known type) : Container.Sound ⟨[(name, v)], some entity⟩ := by
  refine ⟨fun heq => ?_, fun _ => List.pairwise_singleton _ _, fun heq entry hentry => ?_⟩ <;>
    cases heq
  · exact hbound
  · cases List.mem_singleton.mp hentry
    exact ⟨hown, hv.type ▸ htype, hv.wellTyped, hv.ordered⟩

/-- Dumps reveal nothing about sensitive values but whether they are null, unknown or known just if
no sensitive value of the entity stands inside a list, a set or a map. -/
theorem dump_eq_iff_shielded (h : entity.Bound) :
    (∀ c c' : Container, c.Sound → c'.Sound → c.entity? = some entity →
      c'.entity? = some entity →
      entity.Indistinct c c' → c.dump = c'.dump) ↔ entity.Shielded := by
  constructor
  · intro hdump name type hown htype
    by_contra hhides
    obtain ⟨v, w, hv, hw, hagree, hne⟩ := shows_of_not_hides (h.typeOf?_ordered htype) hhides
    have heq := hdump ⟨[(name, v)], some entity⟩ ⟨[(name, w)], some entity⟩
      (sound_of_single h hown htype hv) (sound_of_single h hown htype hw) rfl rfl
      (.cons hagree .nil)
    obtain ⟨entity', hentity', htable⟩ :=
      dump_ok.mp (heq.trans (dump_ok.mpr ⟨entity, rfl, rfl⟩))
    cases hentity'
    exact hne 0 name (by simpa [dumpTable] using htable)
  · exact fun hshielded c c' hc hc' hentity hentity' hagree =>
      hshielded.dump_eq hc hc' hentity hentity' hagree

/-- The tokens of a vault stand inside a list. -/
theorem vault_dump_eq_iff :
    vault.Bound ∧ ((∀ c c' : Container, c.Sound → c'.Sound → c.entity? = some vault →
      c'.entity? = some vault → vault.Indistinct c c' → c.dump = c'.dump) ↔ vault.Shielded) :=
  ⟨vault_bound, dump_eq_iff_shielded vault_bound⟩

/-- Two vaults that differ in a sensitive token have different dumps. -/
theorem vault_dump_ne :
    (vaultOf "s3").Reachable ∧ (vaultOf "t4").Reachable ∧
      vault.Indistinct (vaultOf "s3") (vaultOf "t4") ∧
        (vaultOf "s3").dump ≠ (vaultOf "t4").dump := by
  refine ⟨vaultOf_reachable "s3", vaultOf_reachable "t4", ?_, ?_⟩
  · refine .cons (.same _) (.cons (.list (.cons (.object (.cons ?_ .nil)) .nil)) .nil)
    exact .hidden rfl rfl rfl rfl
  · intro heq
    have htable := dump_ok.mp (heq.symm.trans (dump_ok.mpr ⟨vault, rfl, rfl⟩))
    obtain ⟨entity, hentity, htable⟩ := htable
    cases hentity
    exact absurd htable (by decide +kernel)

end Container

end EntityModel
