import EntityModel.Proofs.Lowering

/-!
# Raw values that come back

Lifting is lenient: it writes scalars as texts, reads numbers from texts, fills in missing fields
and passes over undeclared ones. All of that shows when the value is lowered again. What comes back
as it was is null, and what lowering could have made of a known value of the type: its lowered form.

* `LoweredForm`: the lowered form of a type.
* `lower_lift_eq_iff`: the raw values that come back are null and those in lowered form.
-/

namespace EntityModel

mutual
/-- A raw value, not null, that has for a type the form in which values are lowered. -/
def LoweredForm : ValueType → Raw → Prop
  | .string, .string _ | .int64, .int _ | .float64, .float _ | .bool, .bool _ => True
  | .list element, .list items | .set element, .list items =>
    ∀ item ∈ items, item ≠ .null ∧ LoweredForm element item
  | .map element, .map entries =>
    ∀ entry ∈ entries, entry.2 = .null ∨ LoweredForm element entry.2
  | .object fields, .map entries =>
    Assoc.keys entries = Assoc.keys fields ∧ FieldsLowered fields entries
  | _, _ => False

/-- Every field is null or in lowered form. -/
def FieldsLowered : List (String × ValueType) → Record → Prop
  | [], _ => True
  | (name, type) :: rest, entries =>
    (Record.at entries name = .null ∨ LoweredForm type (Record.at entries name)) ∧
      FieldsLowered rest entries
end

/-! ## Items and entries -/

theorem length_lowerKnown_le (items : List Value) : (lowerKnown items).length ≤ items.length := by
  induction items with
  | nil => exact Nat.le_refl 0
  | cons item rest ih =>
    rw [lowerKnown, List.length_cons]
    by_cases hknown : item.isKnown = true
    · rw [if_pos hknown, List.length_cons]
      omega
    · rw [if_neg hknown]
      omega

theorem lower_ne_null {value : Value} : lower value ≠ .null ↔ value.isKnown = true := by
  have hnull := lower_isNull value
  constructor
  · intro hne
    by_contra hknown
    rw [Bool.not_eq_true] at hknown
    rw [hknown] at hnull
    cases hlower : lower value with
    | null => exact hne hlower
    | _ => simp [hlower, Raw.isNull] at hnull
  · intro hknown heq
    rw [heq, hknown] at hnull
    cases hnull

section

variable {liftPart : Raw → String → Except ConversionError Value} {fits : Raw → Prop}

theorem length_liftItems {path : String} {position : Nat} {items : List Raw} {values : List Value}
    (h : liftItems liftPart path position items = .ok values) : values.length = items.length := by
  induction items generalizing position values with
  | nil =>
    cases h
    rfl
  | cons item rest ih =>
    simp only [liftItems, bind_ok_iff, pure_ok_iff] at h
    obtain ⟨value, -, others, hothers, rfl⟩ := h
    rw [List.length_cons, List.length_cons, ih hothers]

/-- Items come back if each does. An item that is null would be missing, and nothing can take its
place, as lifting makes one item of each. -/
theorem lowerKnown_liftItems_iff
    (hpart : ∀ raw path, (∃ value, liftPart raw path = .ok value ∧ lower value = raw) ↔
      raw = .null ∨ fits raw) (path : String) (position : Nat) (items : List Raw) :
    (∃ values, liftItems liftPart path position items = .ok values ∧
      lowerKnown values = items) ↔ ∀ item ∈ items, item ≠ .null ∧ fits item := by
  induction items generalizing position with
  | nil => simp [liftItems, lowerKnown]
  | cons item rest ih =>
    rw [List.forall_mem_cons]
    constructor
    · rintro ⟨values, h, hlower⟩
      simp only [liftItems, bind_ok_iff, pure_ok_iff] at h
      obtain ⟨value, hvalue, others, hothers, rfl⟩ := h
      rw [lowerKnown] at hlower
      by_cases hknown : value.isKnown = true
      · rw [if_pos hknown, List.cons.injEq] at hlower
        obtain ⟨hfirst, hrest⟩ := hlower
        have hne : item ≠ .null := hfirst ▸ lower_ne_null.mpr hknown
        have hfits := (hpart item _).mp ⟨value, hvalue, hfirst⟩
        exact ⟨⟨hne, hfits.resolve_left hne⟩,
          (ih (position + 1)).mp ⟨others, hothers, hrest⟩⟩
      · rw [if_neg hknown] at hlower
        have hle := length_lowerKnown_le others
        have hlength := length_liftItems hothers
        rw [hlower, List.length_cons] at hle
        omega
    · rintro ⟨⟨hne, hfits⟩, hrest⟩
      obtain ⟨value, hvalue, hfirst⟩ := (hpart item (itemPath path position)).mpr (.inr hfits)
      obtain ⟨others, hothers, hlower⟩ := (ih (position + 1)).mpr hrest
      have hknown : value.isKnown = true := lower_ne_null.mp (hfirst ▸ hne)
      refine ⟨value :: others, ?_, ?_⟩
      · simp only [liftItems, bind_ok_iff, pure_ok_iff]
        exact ⟨value, hvalue, others, hothers, rfl⟩
      · rw [lowerKnown, if_pos hknown, hfirst, hlower]

theorem lowerTable_liftEntries_iff
    (hpart : ∀ raw path, (∃ value, liftPart raw path = .ok value ∧ lower value = raw) ↔
      raw = .null ∨ fits raw) (path : String) (entries : Record) :
    (∃ values, liftEntries liftPart path entries = .ok values ∧ lowerTable values = entries) ↔
      ∀ entry ∈ entries, entry.2 = .null ∨ fits entry.2 := by
  induction entries with
  | nil => simp [liftEntries, lowerTable]
  | cons entry rest ih =>
    obtain ⟨key, raw⟩ := entry
    rw [List.forall_mem_cons, ← ih, ← hpart raw (entryPath path key)]
    simp only [liftEntries, bind_ok_iff, pure_ok_iff]
    constructor
    · rintro ⟨values, ⟨value, hvalue, others, hothers, rfl⟩, hlower⟩
      rw [lowerTable, List.cons.injEq, Prod.mk.injEq] at hlower
      exact ⟨⟨value, hvalue, hlower.1.2⟩, others, hothers, hlower.2⟩
    · rintro ⟨⟨value, hvalue, hfirst⟩, others, hothers, hrest⟩
      refine ⟨_, ⟨value, hvalue, others, hothers, rfl⟩, ?_⟩
      rw [lowerTable, hfirst, hrest]

end

/-! ## Fields -/

/-- What a record holds for fields, in their order. -/
def Record.over (entries : Record) (fields : List (String × ValueType)) : Record :=
  fields.map fun field => (field.1, entries.at field.1)

/-- A record of exactly the declared keys is what it holds for the fields. -/
theorem Record.over_eq_iff {fields : List (String × ValueType)} {entries : Record}
    (hasc : Assoc.Ascending fields) :
    entries.over fields = entries ↔ Assoc.keys entries = Assoc.keys fields := by
  constructor
  · intro heq
    rw [← heq, Assoc.keys, Record.over, List.map_map]
    rfl
  · intro hkeys
    have hentries := hasc.of_keys hkeys
    have hover : entries.over fields =
        (Assoc.keys fields).map fun name => (name, entries.at name) := by
      rw [Record.over, Assoc.keys, List.map_map]
      rfl
    rw [hover, ← hkeys, Assoc.keys, List.map_map]
    refine (List.map_congr_left fun entry hentry => ?_).trans (List.map_id entries)
    rw [Function.comp_apply, Record.at, hentries.get?_of_mem hentry, Option.getD_some, id_eq]

theorem lowerTable_liftFields_eq {fields : List (String × ValueType)} {entries : Record}
    {path : String} {attributes : ValueTable} (hasc : Assoc.Ascending fields)
    (h : liftFields fields entries path = .ok attributes) :
    lowerTable attributes = entries ↔
      Assoc.keys entries = Assoc.keys fields ∧ lowerTable attributes = entries.over fields := by
  have hkeys : Assoc.keys (lowerTable attributes) = Assoc.keys fields :=
    (keys_lowerTable attributes).trans (liftFields_typed h).keys_eq
  constructor
  · intro heq
    rw [heq] at hkeys
    exact ⟨hkeys, heq.trans ((Record.over_eq_iff hasc).mpr hkeys).symm⟩
  · rintro ⟨hdeclared, heq⟩
    exact heq.trans ((Record.over_eq_iff hasc).mpr hdeclared)

/-! ## Whole raw values -/

/-- Coercions change the constructor of the raw value, so they show after lowering. -/
theorem lower_liftScalar?_iff {type : ValueType} (hscalar : type.isPrimitive = true) {raw : Raw} :
    (∃ value, liftScalar? type raw = some value ∧ lower value = raw) ↔
      LoweredForm type raw := by
  cases type with
  | list _ | set _ | map _ | object _ => cases hscalar
  | string => cases raw <;> simp [liftScalar?, lower, LoweredForm, Raw.text]
  | int64 | float64 | bool =>
    cases raw <;> simp only [liftScalar?, Option.map_eq_some_iff] <;>
      simp [lower, LoweredForm]

theorem lower_liftAt_scalar_iff {type : ValueType} (hscalar : type.isPrimitive = true) (raw : Raw)
    (path : String) :
    (∃ value, liftAt type raw path = .ok value ∧ lower value = raw) ↔
      raw = .null ∨ LoweredForm type raw := by
  rw [← lower_liftScalar?_iff hscalar]
  simp only [liftAt_scalar_ok hscalar]
  constructor
  · rintro ⟨value, ⟨hnull, -⟩ | ⟨-, hvalue⟩, hlower⟩
    · exact .inl hnull
    · exact .inr ⟨value, hvalue, hlower⟩
  · rintro (hnull | ⟨value, hvalue, hlower⟩)
    · exact ⟨.null type, .inl ⟨hnull, rfl⟩, by rw [hnull, lower]⟩
    · by_cases hnull : raw = .null
      · exact ⟨.null type, .inl ⟨hnull, rfl⟩, by rw [hnull, lower]⟩
      · exact ⟨value, .inr ⟨hnull, hvalue⟩, hlower⟩

mutual
theorem lower_liftAt_iff : ∀ {type : ValueType}, type.Ordered → ∀ (raw : Raw) (path : String),
    (∃ value, liftAt type raw path = .ok value ∧ lower value = raw) ↔
      raw = .null ∨ LoweredForm type raw
  | .string, _, raw, path | .int64, _, raw, path | .float64, _, raw, path
  | .bool, _, raw, path => lower_liftAt_scalar_iff rfl raw path
  | .list element, htype, raw, path | .set element, htype, raw, path => by
    have helement : element.Ordered := htype
    cases raw with
    | null => simp [liftAt_null, lower]
    | list items =>
      have hitems := lowerKnown_liftItems_iff (lower_liftAt_iff helement) path 0 items
      rw [LoweredForm, ← hitems]
      simp [liftAt, lower]
    | _ => simp [liftAt, liftScalar?, LoweredForm]
  | .map element, htype, raw, path => by
    have helement : element.Ordered := htype
    cases raw with
    | null => simp [liftAt_null, lower]
    | map entries =>
      have hentries := lowerTable_liftEntries_iff (lower_liftAt_iff helement) path entries
      rw [LoweredForm, ← hentries]
      simp [liftAt, lower]
    | _ => simp [liftAt, liftScalar?, LoweredForm]
  | .object fields, ⟨hasc, hfields⟩, raw, path => by
    cases raw with
    | null => simp [liftAt_null, lower]
    | map entries =>
      have hentries := lowerTable_liftFields_iff hfields entries path
      rw [LoweredForm, ← hentries]
      constructor
      · rintro ⟨value, hlift, hlower⟩
        obtain ⟨attributes, hattributes, rfl⟩ := map_ok_iff.mp hlift
        rw [lower, Raw.map.injEq, lowerTable_liftFields_eq hasc hattributes] at hlower
        exact .inr ⟨hlower.1, attributes, hattributes, hlower.2⟩
      · rintro (hnull | ⟨hkeys, attributes, hattributes, hlower⟩)
        · cases hnull
        · refine ⟨_, map_ok_iff.mpr ⟨attributes, hattributes, rfl⟩, ?_⟩
          rw [lower, (lowerTable_liftFields_eq hasc hattributes).mpr ⟨hkeys, hlower⟩]
    | _ => simp [liftAt, liftScalar?, LoweredForm]

theorem lowerTable_liftFields_iff : ∀ {fields : List (String × ValueType)},
    ValueType.FieldsOrdered fields → ∀ (entries : Record) (path : String),
    (∃ attributes, liftFields fields entries path = .ok attributes ∧
      lowerTable attributes = entries.over fields) ↔ FieldsLowered fields entries
  | [], _, _, _ => by simp [liftFields, lowerTable, Record.over, FieldsLowered]
  | (name, type) :: rest, ⟨htype, hrest⟩, entries, path => by
    have hfirst := lower_liftAt_iff htype (entries.at name) (fieldPath path name)
    have hothers := lowerTable_liftFields_iff hrest entries path
    rw [FieldsLowered, ← hfirst, ← hothers]
    simp only [liftFields_cons_ok]
    constructor
    · rintro ⟨_, ⟨value, hvalue, others, hliftOthers, rfl⟩, hlower⟩
      rw [lowerTable, Record.over, List.map_cons, List.cons.injEq, Prod.mk.injEq] at hlower
      exact ⟨⟨value, hvalue, hlower.1.2⟩, others, hliftOthers, hlower.2⟩
    · rintro ⟨⟨value, hvalue, hlower⟩, others, hliftOthers, hrestLower⟩
      refine ⟨_, ⟨value, hvalue, others, hliftOthers, rfl⟩, ?_⟩
      rw [lowerTable, hlower, hrestLower]
      rfl
end

/-- Exactly null and what is in lowered form comes back. -/
theorem lower_lift_eq_iff {type : ValueType} {raw : Raw} (htype : type.Ordered) :
    (∃ value, lift type raw = .ok value ∧ lower value = raw) ↔
      raw = .null ∨ LoweredForm type raw :=
  lower_liftAt_iff htype raw ""

/-- Limits by name and a list of tags. -/
def quotaType : ValueType := .object [("limits", .map .int64), ("tags", .list .string)]

def quota (tag : Raw) : Raw :=
  .map [("limits", .map [("cpu", .null), ("ram", .int 4)]), ("tags", .list [.string "blue", tag])]

/-- A null entry comes back, a null item does not, and neither does a number read as a text. -/
theorem quota_lower_lift :
    quotaType.Ordered ∧
      (∃ value, lift quotaType (quota (.string "7")) = .ok value ∧
        lower value = quota (.string "7")) ∧
      (¬ ∃ value, lift quotaType (quota .null) = .ok value ∧ lower value = quota .null) ∧
      ¬ ∃ value, lift quotaType (quota (.int 7)) = .ok value ∧
        lower value = quota (.int 7) := by
  have hordered : quotaType.Ordered := by
    simp only [quotaType, ValueType.Ordered, ValueType.FieldsOrdered, and_true]
    decide
  have hform (tag : Raw) : LoweredForm quotaType (quota tag) ↔ ∃ text, tag = .string text := by
    cases tag <;> simp [quotaType, quota, LoweredForm, FieldsLowered, Record.at, Assoc.keys,
      Assoc.get?_cons]
  refine ⟨hordered,
    (lower_lift_eq_iff hordered).mpr (.inr ((hform _).mpr ⟨"7", rfl⟩)), ?_, ?_⟩
  · rw [lower_lift_eq_iff hordered, hform]
    simp [quota]
  · rw [lower_lift_eq_iff hordered, hform]
    simp [quota]

end EntityModel
