import EntityModel.Proofs.Typing
import EntityModel.Proofs.Lifting

/-!
# What lowering keeps

A raw value does not tell unknown from null, and a raw list has no place for absent items. Lowering
loses just that: `Value.settled` is the value with unknown parts turned into null and absent items
of lists and sets left out, and it is what lifting makes of the lowered value.

* `liftAt_lower`: what is lifted from a lowered value, at any path.
* `lower_settled`: the settled value is lowered to the same raw value.
* `Value.settled_settled`: nothing more is lost the second time.
* `lower_ordered`: a lowered value is ordered at every depth.
-/

namespace EntityModel

theorem lower_isNull (value : Value) : (lower value).isNull = !value.isKnown := by
  cases value <;> simp [lower, Raw.isNull, Value.isKnown, Value.isNull, Value.isUnknown]

theorem lowerTable_eq_mapValues (table : ValueTable) :
    lowerTable table = Assoc.mapValues lower table := by
  induction table with
  | nil => rfl
  | cons entry rest ih =>
    obtain ⟨name, value⟩ := entry
    rw [lowerTable, ih]
    rfl

theorem keys_lowerTable (table : ValueTable) :
    Assoc.keys (lowerTable table) = Assoc.keys table := by
  rw [lowerTable_eq_mapValues, Assoc.keys, Assoc.mapValues, List.map_map]
  rfl

theorem get?_lowerTable (table : ValueTable) (name : String) :
    Assoc.get? (lowerTable table) name = (Assoc.get? table name).map lower := by
  rw [lowerTable_eq_mapValues, Assoc.get?_mapValues]

namespace Value

mutual
/-- The value without unknown parts and without absent items of lists and sets. -/
def settled : Value → Value
  | .unknown type => .null type
  | .list element items => .list element (settledKnown items)
  | .set element items => .set element (settledKnown items)
  | .map element entries => .map element (settledTable entries)
  | .object fields attributes => .object fields (settledTable attributes)
  | value => value

/-- The items that are known, settled. -/
def settledKnown : List Value → List Value
  | [] => []
  | item :: rest => if item.isKnown then settled item :: settledKnown rest else settledKnown rest

/-- Named values, settled; all keep their names. -/
def settledTable : List (String × Value) → ValueTable
  | [] => []
  | (name, value) :: rest => (name, settled value) :: settledTable rest
end

@[simp] theorem settled_isKnown (value : Value) : value.settled.isKnown = value.isKnown := by
  cases value <;> simp [settled, isKnown, isNull, isUnknown]

mutual
theorem settled_settled : ∀ value : Value, value.settled.settled = value.settled
  | .null _ | .unknown _ | .string _ | .int64 _ | .float64 _ | .bool _ => by simp [settled]
  | .list _ items | .set _ items => by simp [settled, settledKnown_settledKnown items]
  | .map _ entries => by simp [settled, settledTable_settledTable entries]
  | .object _ attributes => by simp [settled, settledTable_settledTable attributes]

theorem settledKnown_settledKnown : ∀ items : List Value,
    settledKnown (settledKnown items) = settledKnown items
  | [] => rfl
  | item :: rest => by
    by_cases hknown : item.isKnown = true
    · simp [settledKnown, hknown, settled_settled item, settledKnown_settledKnown rest]
    · simp [settledKnown, hknown, settledKnown_settledKnown rest]

theorem settledTable_settledTable : ∀ table : List (String × Value),
    settledTable (settledTable table) = settledTable table
  | [] => rfl
  | (_, value) :: rest => by
    simp [settledTable, settled_settled value, settledTable_settledTable rest]
end

end Value

open Value

mutual
theorem lower_settled : ∀ value : Value, lower value.settled = lower value
  | .null _ | .unknown _ | .string _ | .int64 _ | .float64 _ | .bool _ => by simp [settled, lower]
  | .list _ items | .set _ items => by simp [settled, lower, lowerKnown_settledKnown items]
  | .map _ entries => by simp [settled, lower, lowerTable_settledTable entries]
  | .object _ attributes => by simp [settled, lower, lowerTable_settledTable attributes]

theorem lowerKnown_settledKnown : ∀ items : List Value,
    lowerKnown (settledKnown items) = lowerKnown items
  | [] => rfl
  | item :: rest => by
    by_cases hknown : item.isKnown = true
    · simp [settledKnown, lowerKnown, hknown, lower_settled item, lowerKnown_settledKnown rest]
    · simp [settledKnown, lowerKnown, hknown, lowerKnown_settledKnown rest]

theorem lowerTable_settledTable : ∀ table : List (String × Value),
    lowerTable (settledTable table) = lowerTable table
  | [] => rfl
  | (_, value) :: rest => by
    simp [settledTable, lowerTable, lower_settled value, lowerTable_settledTable rest]
end

/-! ## Lowered values are ordered -/

mutual
theorem lower_ordered : ∀ {value : Value}, value.Ordered → (lower value).Ordered
  | .null _, _ | .unknown _, _ | .string _, _ | .int64 _, _ | .float64 _, _ | .bool _, _ => by
    simp [lower, Raw.Ordered]
  | .list _ items, h | .set _ items, h => by
    rw [lower, Raw.Ordered]
    exact lowerKnown_ordered h.2
  | .map _ entries, h => by
    rw [lower, Raw.Ordered]
    exact ⟨h.2.1.of_keys (keys_lowerTable entries), lowerTable_ordered h.2.2⟩
  | .object _ attributes, h => by
    rw [lower, Raw.Ordered]
    exact ⟨h.2.1.of_keys (keys_lowerTable attributes), lowerTable_ordered h.2.2⟩

theorem lowerKnown_ordered : ∀ {items : List Value}, ItemsOrdered items →
    Raw.ItemsOrdered (lowerKnown items)
  | [], _ => trivial
  | item :: rest, ⟨hitem, hrest⟩ => by
    by_cases hknown : item.isKnown = true
    · rw [lowerKnown, if_pos hknown]
      exact ⟨lower_ordered hitem, lowerKnown_ordered hrest⟩
    · rw [lowerKnown, if_neg hknown]
      exact lowerKnown_ordered hrest

theorem lowerTable_ordered : ∀ {table : List (String × Value)}, EntriesOrdered table →
    Raw.EntriesOrdered (lowerTable table)
  | [], _ => trivial
  | (_, _) :: _, ⟨hvalue, hrest⟩ => ⟨lower_ordered hvalue, lowerTable_ordered hrest⟩
end

/-! ## Lifting what was lowered -/

mutual
/-- Lifting never rejects a lowered value, and gives it back but for what is not settled. -/
theorem liftAt_lower : ∀ {value : Value}, value.WellTyped → value.Ordered → ∀ path : String,
    liftAt value.type (lower value) path = .ok value.settled
  | .null type, _, _, path | .unknown type, _, _, path => by
    simp [Value.type, lower, settled, liftAt_null]
  | .string _, _, _, _ | .int64 _, _, _, _ | .float64 _, _, _, _ | .bool _, _, _, _ => by
    simp [Value.type, lower, settled, liftAt, liftScalar?, Raw.text]
  | .list element items, hwell, hordered, path => by
    have hitems := liftItems_lowerKnown hwell hordered.2 path 0
    rw [lower, settled]
    exact liftAt_list_ok.mpr (.inr ⟨_, rfl, _, hitems, rfl⟩)
  | .set element items, hwell, hordered, path => by
    have hitems := liftItems_lowerKnown hwell hordered.2 path 0
    rw [lower, settled]
    exact liftAt_set_ok.mpr (.inr ⟨_, rfl, _, hitems, rfl⟩)
  | .map element entries, hwell, hordered, path => by
    have hentries := liftEntries_lowerTable hwell hordered.2.2 path
    rw [lower, settled]
    exact liftAt_map_ok.mpr (.inr ⟨_, rfl, _, hentries, rfl⟩)
  | .object fields attributes, hwell, hordered, path => by
    have hat : ∀ entry ∈ attributes,
        Record.at (lowerTable attributes) entry.1 = lower entry.2 := by
      intro entry hentry
      rw [Record.at, get?_lowerTable, hordered.2.1.get?_of_mem hentry]
      rfl
    have hfields := liftFields_of_at hwell hordered.2.2 hat path
    rw [lower, settled]
    exact liftAt_object_ok.mpr (.inr ⟨_, rfl, _, hfields, rfl⟩)

theorem liftItems_lowerKnown : ∀ {element : ValueType} {items : List Value},
    ItemsTyped element items → ItemsOrdered items → ∀ (path : String) (position : Nat),
    liftItems (liftAt element) path position (lowerKnown items) = .ok (settledKnown items)
  | _, [], _, _, _, _ => rfl
  | _, item :: rest, ⟨htype, hwell, htyped⟩, ⟨hitem, hordered⟩, path, position => by
    by_cases hknown : item.isKnown = true
    · have hlift := liftAt_lower hwell hitem (itemPath path position)
      have hrest := liftItems_lowerKnown htyped hordered path (position + 1)
      rw [htype] at hlift
      simp [lowerKnown, settledKnown, hknown, liftItems, hlift, hrest]
    · have hrest := liftItems_lowerKnown htyped hordered path position
      simp [lowerKnown, settledKnown, hknown, hrest]

theorem liftEntries_lowerTable : ∀ {element : ValueType} {entries : List (String × Value)},
    EntriesTyped element entries → EntriesOrdered entries → ∀ path : String,
    liftEntries (liftAt element) path (lowerTable entries) = .ok (settledTable entries)
  | _, [], _, _, _ => rfl
  | _, (name, value) :: rest, ⟨htype, hwell, htyped⟩, ⟨hvalue, hordered⟩, path => by
    have hlift := liftAt_lower hwell hvalue (entryPath path name)
    have hrest := liftEntries_lowerTable htyped hordered path
    rw [htype] at hlift
    simp [lowerTable, settledTable, liftEntries, hlift, hrest]

/-- The fields of an object are lifted from a whole record, so the record stays while the attributes
are gone through. -/
theorem liftFields_of_at : ∀ {fields : List (String × ValueType)}
    {attributes : List (String × Value)} {record : Record}, AttributesTyped fields attributes →
    EntriesOrdered attributes →
    (∀ entry ∈ attributes, Record.at record entry.1 = lower entry.2) → ∀ path : String,
    liftFields fields record path = .ok (settledTable attributes)
  | [], [], _, _, _, _, _ => rfl
  | (name, type) :: fields, (name', value) :: rest, record, ⟨hname, htype, hwell, htyped⟩,
      ⟨hvalue, hordered⟩, hat, path => by
    rw [List.forall_mem_cons] at hat
    have hlift := liftAt_lower hwell hvalue (fieldPath path name)
    have hrest := liftFields_of_at htyped hordered hat.2 path
    rw [← hat.1, hname, htype] at hlift
    refine liftFields_cons_ok.mpr ⟨_, hlift, _, hrest, ?_⟩
    rw [settledTable, hname]
  | [], _ :: _, _, h, _, _, _ => by cases h
  | _ :: _, [], _, h, _, _, _ => by cases h
end

end EntityModel
