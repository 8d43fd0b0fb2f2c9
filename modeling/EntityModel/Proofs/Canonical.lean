import EntityModel.Proofs.Lifting

/-!
# What lifting reads of a raw value

Where a type declares an object, lifting asks a map for the declared keys only, and takes a missing
one for null. `canonical` is the raw value cut down to what is asked for. Lifting makes the same of
both, down to the path and the kinds in the error.

* `liftFields_cons`, `liftRecord_cons`: lifting fields in terms of what a record holds for them.
* `liftAt_canonical`: a raw value and its canonical form are lifted alike.
* `liftRecord_canonical`: the same for records.
-/

namespace EntityModel

variable {type : ValueType} {name : String} {record record' : Record}
  {fields : List (String × ValueType)}

mutual
/-- The raw value with the declared keys of objects, all of them and no others. -/
def canonical : ValueType → Raw → Raw
  | .list element, .list items => .list (items.map (canonical element))
  | .set element, .list items => .list (items.map (canonical element))
  | .map element, .map entries => .map (Assoc.mapValues (canonical element) entries)
  | .object fields, .map entries => .map (canonicalFields fields entries)
  | _, raw => raw

/-- The entries for the declared fields; a missing one is null. -/
def canonicalFields : List (String × ValueType) → Record → Record
  | [], _ => []
  | (name, type) :: rest, record =>
    (name, canonical type (Record.at record name)) :: canonicalFields rest record
end

theorem canonicalFields_eq (fields : List (String × ValueType)) (record : Record) :
    canonicalFields fields record =
      fields.map fun field => (field.1, canonical field.2 (Record.at record field.1)) := by
  induction fields with
  | nil => rfl
  | cons field rest ih =>
    rw [canonicalFields, ih]
    rfl

theorem canonicalFields_congr (h : ∀ field ∈ fields,
    canonical field.2 (Record.at record field.1) = canonical field.2 (Record.at record' field.1)) :
    canonicalFields fields record = canonicalFields fields record' := by
  rw [canonicalFields_eq, canonicalFields_eq]
  exact List.map_congr_left fun field hfield => congrArg (field.1, ·) (h field hfield)

theorem at_canonicalFields (hfields : Assoc.Ascending fields) (hmem : (name, type) ∈ fields)
    (record : Record) :
    Record.at (canonicalFields fields record) name = canonical type (Record.at record name) := by
  have hkeys : Assoc.keys (canonicalFields fields record) = Assoc.keys fields := by
    rw [canonicalFields_eq, Assoc.keys, List.map_map]
    rfl
  have hentry : (name, canonical type (Record.at record name)) ∈
      canonicalFields fields record := by
    rw [canonicalFields_eq]
    exact List.mem_map_of_mem hmem
  rw [Record.at, (hfields.of_keys hkeys).get?_of_mem hentry]
  rfl

/-! ## Lifting parts that are lifted alike -/

theorem liftItems_map {liftPart : Raw → String → Except ConversionError Value} {f : Raw → Raw}
    (h : ∀ raw p, liftPart (f raw) p = liftPart raw p) (path : String) (position : Nat)
    (items : List Raw) :
    liftItems liftPart path position (items.map f) = liftItems liftPart path position items := by
  induction items generalizing position with
  | nil => rfl
  | cons item rest ih => rw [List.map_cons, liftItems, liftItems, h, ih]

theorem liftEntries_mapValues {liftPart : Raw → String → Except ConversionError Value}
    {f : Raw → Raw} (h : ∀ raw p, liftPart (f raw) p = liftPart raw p) (path : String)
    (entries : Record) :
    liftEntries liftPart path (Assoc.mapValues f entries) = liftEntries liftPart path entries := by
  induction entries with
  | nil => rfl
  | cons entry rest ih =>
    obtain ⟨key, raw⟩ := entry
    rw [Assoc.mapValues, List.map_cons, ← Assoc.mapValues, liftEntries, liftEntries, h, ih]

theorem liftFields_cons (name : String) (type : ValueType) (rest : List (String × ValueType))
    (record : Record) (path : String) :
    liftFields ((name, type) :: rest) record path = do
      let value ← liftAt type (Record.at record name) (fieldPath path name)
      return (name, value) :: (← liftFields rest record path) := by
  rw [liftFields, Record.at]
  cases Assoc.get? record name with
  | none => rw [Option.getD_none, liftAt_null]
  | some raw => rfl

theorem liftRecord_cons (record : Record) (name : String) (type : ValueType)
    (rest : List (String × ValueType)) :
    liftRecord record ((name, type) :: rest) = do
      let value ← liftAt type (Record.at record name) name
      return (name, value) :: (← liftRecord record rest) := by
  rw [liftRecord, Record.at]
  cases Assoc.get? record name with
  | none => rw [Option.getD_none, liftAt_null]
  | some raw => rfl

/-! ## Canonical forms are lifted alike -/

mutual
theorem liftAt_canonical : ∀ {type : ValueType}, type.Ordered → ∀ (raw : Raw) (path : String),
    liftAt type (canonical type raw) path = liftAt type raw path
  | .string, _, _, _ | .int64, _, _, _ | .float64, _, _, _ | .bool, _, _, _ => by
    rw [canonical] <;> simp
  | .list element, h, raw, path => by
    cases raw with
    | list items =>
      have helement : element.Ordered := h
      rw [canonical, liftAt, liftAt, liftItems_map (liftAt_canonical helement)]
    | _ => rfl
  | .set element, h, raw, path => by
    cases raw with
    | list items =>
      have helement : element.Ordered := h
      rw [canonical, liftAt, liftAt, liftItems_map (liftAt_canonical helement)]
    | _ => rfl
  | .map element, h, raw, path => by
    cases raw with
    | map entries =>
      have helement : element.Ordered := h
      rw [canonical, liftAt, liftAt, liftEntries_mapValues (liftAt_canonical helement)]
    | _ => rfl
  | .object fields, h, raw, path => by
    cases raw with
    | map record =>
      have hfields := liftFields_canonical h.2
        (fun field hfield => at_canonicalFields h.1 hfield record) path
      rw [canonical, liftAt, liftAt, hfields]
    | _ => rfl

/-- The fields of an object are lifted from a whole record, so the records stay while the fields are
gone through. -/
theorem liftFields_canonical : ∀ {fields : List (String × ValueType)} {record whole : Record},
    ValueType.FieldsOrdered fields →
    (∀ field ∈ fields,
      Record.at record field.1 = canonical field.2 (Record.at whole field.1)) →
    ∀ path : String, liftFields fields record path = liftFields fields whole path
  | [], _, _, _, _, _ => rfl
  | (name, type) :: rest, record, whole, ⟨htype, hrest⟩, hat, path => by
    obtain ⟨hfirst, hothers⟩ := List.forall_mem_cons.mp hat
    rw [liftFields_cons, liftFields_cons, hfirst, liftAt_canonical htype,
      liftFields_canonical hrest hothers]
end

theorem liftRecord_canonical {types : List (String × ValueType)} (hasc : Assoc.Ascending types)
    (htypes : ValueType.FieldsOrdered types) (record : Record) :
    liftRecord (canonicalFields types record) types = liftRecord record types := by
  have general : ∀ rest : List (String × ValueType), (∀ field ∈ rest, field ∈ types) →
      liftRecord (canonicalFields types record) rest = liftRecord record rest := by
    intro rest hsub
    induction rest with
    | nil => rfl
    | cons field rest ih =>
      obtain ⟨name, type⟩ := field
      obtain ⟨hmem, hrest⟩ := List.forall_mem_cons.mp hsub
      have htype : type.Ordered := ValueType.fieldsOrdered_iff.mp htypes _ hmem
      rw [liftRecord_cons, liftRecord_cons, at_canonicalFields hasc hmem, liftAt_canonical htype,
        ih hrest]
  exact general types fun _ h => h

end EntityModel
