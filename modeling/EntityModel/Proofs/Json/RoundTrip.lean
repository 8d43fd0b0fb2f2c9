import EntityModel.Proofs.Binary64.Value
import EntityModel.Proofs.RawParts

/-!
# Raw values through JSON and back

Raw values and JSON values have the same constructors, and each conversion goes through a value part
by part, so that only numbers can get lost. JSON has no infinities and no NaNs, for which null
stands, and raw values have no integers beyond 64 bits. All else comes back as it was: no integer
turns into a floating-point number or the other way round, not even a whole one or a zero with a
sign.

* `Raw.ofJson_toJson`: a raw value comes back with nulls for the numbers that JSON does not have.
* `Raw.nullNonFinite_eq_self_iff`: these are the only ones that do not come back.
* `Raw.toJson_ofJson_iff`: the JSON values that come back.
* `json_round_trips`: both ways.
-/

namespace EntityModel

/-! ## Numbers that JSON does not have -/

namespace Raw

/-- A floating-point number, or null in place of an infinity or a NaN. -/
def finiteOrNull (x : Binary64) : Raw := if x.isFinite then .float x else .null

mutual
/-- The raw value with null in place of every floating-point number that is not finite. -/
def nullNonFinite : Raw → Raw
  | .float value => finiteOrNull value
  | .list items => .list (nullNonFiniteItems items)
  | .map entries => .map (nullNonFiniteEntries entries)
  | other => other

def nullNonFiniteItems : List Raw → List Raw
  | [] => []
  | item :: rest => nullNonFinite item :: nullNonFiniteItems rest

def nullNonFiniteEntries : Record → Record
  | [] => []
  | (key, value) :: rest => (key, nullNonFinite value) :: nullNonFiniteEntries rest
end

/-- Every floating-point number in the raw value is finite. -/
def AllFinite (raw : Raw) : Prop := raw.Everywhere (IfFloat fun x => x.isFinite = true)

theorem allFinite_list {items : List Raw} :
    (list items).AllFinite ↔ ∀ item ∈ items, item.AllFinite :=
  everywhere_list

theorem allFinite_map {entries : Record} :
    (map entries).AllFinite ↔ ∀ entry ∈ entries, entry.2.AllFinite :=
  everywhere_map

end Raw

namespace Json

mutual
/-- The JSON value has no integer beyond 64 bits and no floating-point number beyond the finite
ones. -/
def Fits : Json → Prop
  | .int value => Binary64.inInt64 value = true
  | .float value => value.isFinite = true
  | .array items => ItemsFit items
  | .object entries => EntriesFit entries
  | _ => True

def ItemsFit : List Json → Prop
  | [] => True
  | item :: rest => Fits item ∧ ItemsFit rest

def EntriesFit : List (String × Json) → Prop
  | [] => True
  | (_, value) :: rest => Fits value ∧ EntriesFit rest
end

end Json

/-! ## Raw values -/

namespace Raw

/-- An integer of 64 bits is read as an integer. -/
theorem ofJson_int (n : Int64) : ofJson (.int n.toInt) = .int n := by
  rw [ofJson, if_pos (Binary64.inInt64_toInt n), Int64.ofInt_toInt]

mutual
theorem ofJson_toJson : ∀ raw : Raw, ofJson raw.toJson = raw.nullNonFinite
  | .null | .bool _ | .string _ => rfl
  | .int value => ofJson_int value
  | .float value => by
    rw [toJson, nullNonFinite, finiteOrNull]
    split <;> rfl
  | .list items => by
    rw [toJson, ofJson, nullNonFinite, listOfJson_listToJson items]
  | .map entries => by
    rw [toJson, ofJson, nullNonFinite, recordOfJson_recordToJson entries]

theorem listOfJson_listToJson :
    ∀ items : List Raw, listOfJson (listToJson items) = nullNonFiniteItems items
  | [] => rfl
  | item :: rest => by
    rw [listToJson, listOfJson, nullNonFiniteItems, ofJson_toJson item, listOfJson_listToJson rest]

theorem recordOfJson_recordToJson :
    ∀ entries : Record, recordOfJson (recordToJson entries) = nullNonFiniteEntries entries
  | [] => rfl
  | (key, value) :: rest => by
    rw [recordToJson, recordOfJson, nullNonFiniteEntries, ofJson_toJson value,
      recordOfJson_recordToJson rest]
end

/-- One as an integer, one as a floating-point number, minus zero and a NaN. -/
example : ofJson (toJson (.list [.int 1, .float ⟨0x3FF0000000000000⟩,
    .float ⟨0x8000000000000000⟩, .float ⟨0x7FF8000000000000⟩])) =
      .list [.int 1, .float ⟨0x3FF0000000000000⟩, .float ⟨0x8000000000000000⟩, .null] := rfl

theorem finiteOrNull_eq_iff {x : Binary64} : finiteOrNull x = .float x ↔ x.isFinite = true := by
  rw [finiteOrNull]
  split <;> simp_all

mutual
theorem nullNonFinite_eq_self_iff : ∀ {raw : Raw}, raw.nullNonFinite = raw ↔ raw.AllFinite
  | .null | .bool _ | .int _ | .string _ => iff_of_true rfl trivial
  | .float value => finiteOrNull_eq_iff
  | .list items => by
    rw [nullNonFinite, list.injEq, allFinite_list, nullNonFiniteItems_eq_self_iff]
  | .map entries => by
    rw [nullNonFinite, map.injEq, allFinite_map, nullNonFiniteEntries_eq_self_iff]

theorem nullNonFiniteItems_eq_self_iff :
    ∀ {items : List Raw}, nullNonFiniteItems items = items ↔ ∀ item ∈ items, item.AllFinite
  | [] => iff_of_true rfl nofun
  | item :: rest => by
    rw [nullNonFiniteItems, List.forall_mem_cons, List.cons.injEq, nullNonFinite_eq_self_iff,
      nullNonFiniteItems_eq_self_iff]

theorem nullNonFiniteEntries_eq_self_iff :
    ∀ {entries : Record},
      nullNonFiniteEntries entries = entries ↔ ∀ entry ∈ entries, entry.2.AllFinite
  | [] => iff_of_true rfl nofun
  | (key, value) :: rest => by
    rw [nullNonFiniteEntries, List.forall_mem_cons, List.cons.injEq, Prod.mk.injEq,
      nullNonFinite_eq_self_iff, nullNonFiniteEntries_eq_self_iff, eq_self, true_and]
end

/-! ## JSON values -/

/-- An integer comes back unless it is rounded to a floating-point number. -/
theorem toJson_ofJson_int_iff {n : Int} :
    (ofJson (.int n)).toJson = .int n ↔ Binary64.inInt64 n = true := by
  rw [ofJson]
  by_cases h : Binary64.inInt64 n = true
  · rw [if_pos h, toJson, Binary64.toInt_ofInt h]
    exact iff_of_true rfl h
  · rw [if_neg h, toJson]
    refine iff_of_false ?_ h
    split <;> nofun

mutual
theorem toJson_ofJson_iff : ∀ {json : Json}, (ofJson json).toJson = json ↔ json.Fits
  | .null | .bool _ | .string _ => iff_of_true rfl trivial
  | .int n => toJson_ofJson_int_iff
  | .float value => by
    rw [ofJson, toJson, Json.Fits]
    split <;> simp_all
  | .array items => by
    rw [ofJson, toJson, Json.array.injEq, Json.Fits, listToJson_listOfJson_iff]
  | .object entries => by
    rw [ofJson, toJson, Json.object.injEq, Json.Fits, recordToJson_recordOfJson_iff]

theorem listToJson_listOfJson_iff :
    ∀ {items : List Json}, listToJson (listOfJson items) = items ↔ Json.ItemsFit items
  | [] => iff_of_true rfl trivial
  | item :: rest => by
    rw [listOfJson, listToJson, Json.ItemsFit, List.cons.injEq, toJson_ofJson_iff,
      listToJson_listOfJson_iff]

theorem recordToJson_recordOfJson_iff :
    ∀ {entries : List (String × Json)},
      recordToJson (recordOfJson entries) = entries ↔ Json.EntriesFit entries
  | [] => iff_of_true rfl trivial
  | (key, value) :: rest => by
    rw [recordOfJson, recordToJson, Json.EntriesFit, List.cons.injEq, Prod.mk.injEq,
      toJson_ofJson_iff, recordToJson_recordOfJson_iff, eq_self, true_and]
end

end Raw

/-! ## Both ways -/

/-- The record that is read from the JSON value of a record. -/
theorem recordOf_toJson (record : Record) :
    recordOf (Raw.map record).toJson = .ok (Raw.nullNonFiniteEntries record) := by
  rw [recordOf, Raw.ofJson_toJson, Raw.nullNonFinite]

/-- A raw value comes back from JSON with null in place of every floating-point number that is not
finite and with nothing else changed, so it comes back as it was just if there are none; the same
holds of records. A JSON value comes back from a raw value just if its integers have at most 64 bits
and its floating-point numbers are finite. -/
theorem json_round_trips :
    (∀ raw : Raw, Raw.ofJson raw.toJson = raw.nullNonFinite ∧
      (Raw.ofJson raw.toJson = raw ↔ raw.AllFinite)) ∧
    (∀ record : Record,
      recordOf (Raw.map record).toJson = .ok (Raw.nullNonFiniteEntries record) ∧
      (recordOf (Raw.map record).toJson = .ok record ↔ (Raw.map record).AllFinite)) ∧
    ∀ json : Json, (Raw.ofJson json).toJson = json ↔ json.Fits := by
  refine ⟨fun raw => ⟨Raw.ofJson_toJson raw, ?_⟩,
    fun record => ⟨recordOf_toJson record, ?_⟩, fun json => Raw.toJson_ofJson_iff⟩
  · rw [Raw.ofJson_toJson, Raw.nullNonFinite_eq_self_iff]
  · rw [recordOf_toJson, Except.ok.injEq, Raw.nullNonFiniteEntries_eq_self_iff, Raw.allFinite_map]

end EntityModel
