import EntityModel.Proofs.Canonical
import EntityModel.Proofs.Lowering

/-!
# Sets read as lists

Two types differ only by lists in place of sets if they become the same once every set in them is
read as a list; so with values and errors. Lifting, lowering and every test that looks at a value
from outside treat sets as lists.

* `ValueType.asLists`, `Value.asLists`, `ConversionError.asLists`: every set as a list.
* `liftAt_asLists`, `liftRecord_asLists`: lifting to lists is lifting to sets, read as lists.
* `lower_asLists`: sets are lowered as lists are.
-/

namespace EntityModel

/-! ## Reading sets as lists -/

namespace ValueType

mutual
/-- The type with a list in place of every set. -/
def asLists : ValueType → ValueType
  | .list element | .set element => .list (asLists element)
  | .map element => .map (asLists element)
  | .object fields => .object (fieldsAsLists fields)
  | type => type

def fieldsAsLists : List (String × ValueType) → List (String × ValueType)
  | [] => []
  | (name, type) :: rest => (name, asLists type) :: fieldsAsLists rest
end

theorem fieldsAsLists_eq_mapValues (fields : Assoc ValueType) :
    fieldsAsLists fields = Assoc.mapValues asLists fields := by
  induction fields with
  | nil => rfl
  | cons field rest ih =>
    obtain ⟨name, type⟩ := field
    rw [fieldsAsLists, ih]
    rfl

@[simp] theorem isPrimitive_asLists (type : ValueType) :
    type.asLists.isPrimitive = type.isPrimitive := by
  cases type <;> rw [asLists] <;> simp [isPrimitive]

end ValueType

open ValueType (fieldsAsLists)

namespace Value

mutual
/-- The value with a list in place of every set, in its type as in its parts. -/
def asLists : Value → Value
  | .null type => .null type.asLists
  | .unknown type => .unknown type.asLists
  | .list element items | .set element items => .list element.asLists (itemsAsLists items)
  | .map element entries => .map element.asLists (tableAsLists entries)
  | .object fields attributes => .object (fieldsAsLists fields) (tableAsLists attributes)
  | value => value

def itemsAsLists : List Value → List Value
  | [] => []
  | item :: rest => asLists item :: itemsAsLists rest

def tableAsLists : List (String × Value) → ValueTable
  | [] => []
  | (name, value) :: rest => (name, asLists value) :: tableAsLists rest
end

theorem tableAsLists_eq_mapValues (table : ValueTable) :
    tableAsLists table = Assoc.mapValues asLists table := by
  induction table with
  | nil => rfl
  | cons entry rest ih =>
    obtain ⟨name, value⟩ := entry
    rw [tableAsLists, ih]
    rfl

@[simp] theorem isKnown_asLists (value : Value) : value.asLists.isKnown = value.isKnown := by
  cases value <;> rw [asLists] <;> simp [isKnown, isNull, isUnknown]

end Value

open Value (itemsAsLists tableAsLists)

/-- The error with lists in place of sets in the type that was expected. -/
def ConversionError.asLists : ConversionError → ConversionError
  | .mismatch path expected actual => .mismatch path expected.asLists actual
  | .notRecord actual => .notRecord actual

@[simp] theorem ConversionError.path_asLists (e : ConversionError) : e.asLists.path = e.path := by
  cases e <;> rfl

@[simp] theorem ConversionError.actual_asLists (e : ConversionError) :
    e.asLists.actual = e.actual := by
  cases e <;> rfl

/-! ## Lowering -/

mutual
theorem lower_asLists : ∀ value : Value, lower value.asLists = lower value
  | .null _ | .unknown _ | .string _ | .int64 _ | .float64 _ | .bool _ => by
    simp [Value.asLists, lower]
  | .list _ items | .set _ items => by simp [Value.asLists, lower, lowerKnown_asLists items]
  | .map _ entries => by simp [Value.asLists, lower, lowerTable_asLists entries]
  | .object _ attributes => by simp [Value.asLists, lower, lowerTable_asLists attributes]

theorem lowerKnown_asLists : ∀ items : List Value,
    lowerKnown (itemsAsLists items) = lowerKnown items
  | [] => rfl
  | item :: rest => by
    simp [itemsAsLists, lowerKnown, lower_asLists item, lowerKnown_asLists rest]

theorem lowerTable_asLists : ∀ table : List (String × Value),
    lowerTable (tableAsLists table) = lowerTable table
  | [] => rfl
  | (_, value) :: rest => by
    simp [tableAsLists, lowerTable, lower_asLists value, lowerTable_asLists rest]
end

/-! ## Lifting -/

section

variable {liftPart liftPart' : Raw → String → Except ConversionError Value}

theorem liftItems_asLists
    (hpart : ∀ raw path, liftPart' raw path = translate .asLists .asLists (liftPart raw path))
    (path : String) (position : Nat) (items : List Raw) :
    liftItems liftPart' path position items =
      translate .asLists itemsAsLists (liftItems liftPart path position items) := by
  induction items generalizing position with
  | nil => rfl
  | cons item rest ih =>
    rw [liftItems, liftItems, hpart, ih]
    exact translate_both fun _ _ => rfl

theorem liftEntries_asLists
    (hpart : ∀ raw path, liftPart' raw path = translate .asLists .asLists (liftPart raw path))
    (path : String) (entries : Record) :
    liftEntries liftPart' path entries =
      translate .asLists tableAsLists (liftEntries liftPart path entries) := by
  induction entries with
  | nil => rfl
  | cons entry rest ih =>
    rw [liftEntries, liftEntries, hpart, ih]
    exact translate_both fun _ _ => rfl

end

theorem asLists_of_isPrimitive {type : ValueType} (h : type.isPrimitive = true) :
    type.asLists = type := by
  cases type with
  | list _ | set _ | map _ | object _ => cases h
  | _ => rw [ValueType.asLists] <;> simp

theorem asLists_of_liftScalar? {type : ValueType} {raw : Raw} {value : Value}
    (h : liftScalar? type raw = some value) : value.asLists = value := by
  unfold liftScalar? at h
  split at h
  case h_1 | h_2 | h_4 | h_5 | h_7 =>
    cases h
    rw [Value.asLists] <;> simp
  case h_3 | h_6 =>
    obtain ⟨number, -, rfl⟩ := Option.map_eq_some_iff.mp h
    rw [Value.asLists] <;> simp
  case h_8 => cases h

theorem liftAt_scalar_asLists {type : ValueType} (hscalar : type.isPrimitive = true) (raw : Raw)
    (path : String) : liftAt type.asLists raw path =
      translate ConversionError.asLists Value.asLists (liftAt type raw path) := by
  have htype := asLists_of_isPrimitive hscalar
  rw [htype]
  by_cases hnull : raw = .null
  · rw [hnull, liftAt_null, translate, Value.asLists, htype]
  · rw [liftAt_scalar hscalar hnull]
    cases hvalue : liftScalar? type raw with
    | some value => simp only [translate, asLists_of_liftScalar? hvalue]
    | none => simp only [translate, ConversionError.asLists, htype]

mutual
theorem liftAt_asLists : ∀ (type : ValueType) (raw : Raw) (path : String),
    liftAt type.asLists raw path =
      translate ConversionError.asLists Value.asLists (liftAt type raw path)
  | .string, raw, path | .int64, raw, path | .float64, raw, path | .bool, raw, path =>
    liftAt_scalar_asLists rfl raw path
  | .list element, raw, path | .set element, raw, path => by
    cases raw with
    | list items =>
      rw [ValueType.asLists, liftAt, liftAt, liftItems_asLists (liftAt_asLists element)]
      exact translate_return fun _ => rfl
    | _ => simp [liftAt, liftScalar?, ValueType.asLists, Value.asLists, ConversionError.asLists,
        translate]
  | .map element, raw, path => by
    cases raw with
    | map entries =>
      rw [ValueType.asLists, liftAt, liftAt, liftEntries_asLists (liftAt_asLists element)]
      exact translate_return fun _ => rfl
    | _ => simp [liftAt, liftScalar?, ValueType.asLists, Value.asLists, ConversionError.asLists,
        translate]
  | .object fields, raw, path => by
    cases raw with
    | map entries =>
      rw [ValueType.asLists, liftAt, liftAt, liftFields_asLists fields]
      exact translate_return fun _ => rfl
    | _ => simp [liftAt, liftScalar?, ValueType.asLists, Value.asLists, ConversionError.asLists,
        translate]

theorem liftFields_asLists : ∀ (fields : List (String × ValueType)) (entries : Record)
    (path : String), liftFields (fieldsAsLists fields) entries path =
      translate ConversionError.asLists tableAsLists (liftFields fields entries path)
  | [], _, _ => rfl
  | (name, type) :: rest, entries, path => by
    rw [fieldsAsLists, liftFields_cons, liftFields_cons, liftAt_asLists type,
      liftFields_asLists rest]
    exact translate_both fun _ _ => rfl
end

theorem liftRecord_asLists (record : Record) (types : List (String × ValueType)) :
    liftRecord record (fieldsAsLists types) =
      translate ConversionError.asLists tableAsLists (liftRecord record types) := by
  induction types with
  | nil => rfl
  | cons field rest ih =>
    obtain ⟨name, type⟩ := field
    rw [fieldsAsLists, liftRecord_cons, liftRecord_cons, liftAt_asLists type, ih]
    exact translate_both fun _ _ => rfl

end EntityModel
