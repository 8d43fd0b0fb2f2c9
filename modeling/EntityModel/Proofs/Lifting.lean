import EntityModel.Proofs.Typing

/-!
# What lifting accepts and makes

For each outermost constructor of a type, `liftAt_list_ok` and its siblings say what is accepted
besides null and what becomes of it. From them follows, by recursion on the type:

* `liftAt_typed`: a lifted value has the declared type and is well typed at every depth.
* `liftAt_ordered`: it is ordered at every depth if the type and the raw value are.
* `lift_ok_iff`: the path matters for errors only.
-/

namespace EntityModel

/-! ## Scalars, items and entries -/

theorem liftScalar?_spec {type : ValueType} {raw : Raw} {value : Value}
    (h : liftScalar? type raw = some value) :
    value.type = type ∧ value.WellTyped ∧ value.Ordered := by
  unfold liftScalar? at h
  split at h
  case h_1 | h_2 | h_4 | h_5 | h_7 =>
    cases h
    exact ⟨rfl, by simp [Value.WellTyped], by simp [Value.Ordered]⟩
  case h_3 | h_6 =>
    obtain ⟨number, -, rfl⟩ := Option.map_eq_some_iff.mp h
    exact ⟨rfl, by simp [Value.WellTyped], by simp [Value.Ordered]⟩
  case h_8 => cases h

section

variable {liftPart : Raw → String → Except ConversionError Value} {P : Value → Prop}

theorem liftItems_forall {path : String} {position : Nat} {items : List Raw} {values : List Value}
    (h : liftItems liftPart path position items = .ok values)
    (hpart : ∀ raw ∈ items, ∀ p v, liftPart raw p = .ok v → P v) :
    ∀ v ∈ values, P v := by
  induction items generalizing position values with
  | nil =>
    cases h
    simp
  | cons item rest ih =>
    simp only [liftItems, bind_ok_iff, pure_ok_iff] at h
    obtain ⟨value, hvalue, others, hothers, rfl⟩ := h
    have hrest := ih hothers fun raw hraw => hpart raw (List.mem_cons_of_mem _ hraw)
    exact List.forall_mem_cons.mpr ⟨hpart item List.mem_cons_self _ _ hvalue, hrest⟩

theorem liftEntries_forall {path : String} {entries : Record} {values : ValueTable}
    (h : liftEntries liftPart path entries = .ok values)
    (hpart : ∀ entry ∈ entries, ∀ p v, liftPart entry.2 p = .ok v → P v) :
    Assoc.keys values = Assoc.keys entries ∧ ∀ entry ∈ values, P entry.2 := by
  induction entries generalizing values with
  | nil =>
    cases h
    exact ⟨rfl, by simp⟩
  | cons entry rest ih =>
    simp only [liftEntries, bind_ok_iff, pure_ok_iff] at h
    obtain ⟨value, hvalue, others, hothers, rfl⟩ := h
    obtain ⟨hkeys, hrest⟩ := ih hothers fun e he => hpart e (List.mem_cons_of_mem _ he)
    refine ⟨?_, List.forall_mem_cons.mpr ⟨hpart entry List.mem_cons_self _ _ hvalue, hrest⟩⟩
    simpa [Assoc.keys] using hkeys

end

/-! What a type accepts besides null: one lemma for each outermost constructor. -/

theorem liftAt_null (type : ValueType) (path : String) :
    liftAt type .null path = .ok (.null type) := by
  cases type <;> rw [liftAt]

theorem liftAt_scalar {type : ValueType} (hscalar : type.isPrimitive = true) {raw : Raw}
    (hraw : raw ≠ .null) (path : String) :
    liftAt type raw path = match liftScalar? type raw with
      | some value => .ok value
      | none => .error (.mismatch path type raw.kind) := by
  cases type with
  | list _ | set _ | map _ | object _ => cases hscalar
  | _ => cases raw <;> first | rfl | exact absurd rfl hraw

theorem liftAt_scalar_ok {type : ValueType} (hscalar : type.isPrimitive = true) {raw : Raw}
    {path : String} {value : Value} :
    liftAt type raw path = .ok value ↔
      raw = .null ∧ .null type = value ∨
        raw ≠ .null ∧ liftScalar? type raw = some value := by
  cases type with
  | list _ | set _ | map _ | object _ => cases hscalar
  | string | int64 | float64 | bool =>
    cases raw with
    | null => simp [liftAt]
    | _ =>
      simp only [liftAt]
      split <;> simp_all

variable {element : ValueType} {raw : Raw} {path : String} {value : Value}

theorem liftAt_list_ok :
    liftAt (.list element) raw path = .ok value ↔
      raw = .null ∧ .null (.list element) = value ∨
        ∃ items, raw = .list items ∧
          ∃ values, liftItems (liftAt element) path 0 items = .ok values ∧
            .list element values = value := by
  cases raw with
  | null => simp [liftAt]
  | list items => simp [liftAt]
  | _ => simp [liftAt, liftScalar?]

theorem liftAt_set_ok :
    liftAt (.set element) raw path = .ok value ↔
      raw = .null ∧ .null (.set element) = value ∨
        ∃ items, raw = .list items ∧
          ∃ values, liftItems (liftAt element) path 0 items = .ok values ∧
            .set element values = value := by
  cases raw with
  | null => simp [liftAt]
  | list items => simp [liftAt]
  | _ => simp [liftAt, liftScalar?]

theorem liftAt_map_ok :
    liftAt (.map element) raw path = .ok value ↔
      raw = .null ∧ .null (.map element) = value ∨
        ∃ entries, raw = .map entries ∧
          ∃ values, liftEntries (liftAt element) path entries = .ok values ∧
            .map element values = value := by
  cases raw with
  | null => simp [liftAt]
  | map entries => simp [liftAt]
  | _ => simp [liftAt, liftScalar?]

theorem liftAt_object_ok {fields : List (String × ValueType)} :
    liftAt (.object fields) raw path = .ok value ↔
      raw = .null ∧ .null (.object fields) = value ∨
        ∃ entries, raw = .map entries ∧
          ∃ attributes, liftFields fields entries path = .ok attributes ∧
            .object fields attributes = value := by
  cases raw with
  | null => simp [liftAt]
  | map entries => simp [liftAt]
  | _ => simp [liftAt, liftScalar?]

theorem liftFields_nil {entries : Record} {attributes : ValueTable} :
    liftFields [] entries path = .ok attributes ↔ attributes = [] := by
  simp [liftFields, eq_comm]

/-- The raw value that the field of a name is lifted from; without one it is null. -/
def Record.at (entries : Record) (name : String) : Raw := (Assoc.get? entries name).getD .null

theorem Record.at_ordered {entries : Record} (h : ∀ entry ∈ entries, entry.2.Ordered)
    (name : String) : (Record.at entries name).Ordered := by
  rw [Record.at]
  cases hget : Assoc.get? entries name with
  | none => trivial
  | some raw => exact h _ (Assoc.mem_of_get? hget)

theorem liftFields_cons_ok {name : String} {type : ValueType} {rest : List (String × ValueType)}
    {entries : Record} {attributes : ValueTable} :
    liftFields ((name, type) :: rest) entries path = .ok attributes ↔
      ∃ value, liftAt type (Record.at entries name) (fieldPath path name) = .ok value ∧
        ∃ others, liftFields rest entries path = .ok others ∧
          (name, value) :: others = attributes := by
  rw [liftFields, Record.at]
  cases Assoc.get? entries name with
  | none => simp [liftAt_null]
  | some raw => simp

theorem liftRecord_cons_ok {record : Record} {name : String} {type : ValueType}
    {rest : List (String × ValueType)} {values : ValueTable} :
    liftRecord record ((name, type) :: rest) = .ok values ↔
      ∃ value, liftAt type (Record.at record name) name = .ok value ∧
        ∃ others, liftRecord record rest = .ok others ∧ (name, value) :: others = values := by
  rw [liftRecord, Record.at]
  cases Assoc.get? record name with
  | none => simp [liftAt_null]
  | some raw => simp

/-! ## Lifted values are typed -/

mutual
theorem liftAt_typed : ∀ {type : ValueType} {raw : Raw} {path : String} {value : Value},
    liftAt type raw path = .ok value → value.type = type ∧ value.WellTyped
  | .string, _, _, _, h | .int64, _, _, _, h | .float64, _, _, _, h | .bool, _, _, _, h => by
    rcases (liftAt_scalar_ok rfl).mp h with ⟨-, rfl⟩ | ⟨-, hscalar⟩
    · exact ⟨rfl, by simp [Value.WellTyped]⟩
    · exact ⟨(liftScalar?_spec hscalar).1, (liftScalar?_spec hscalar).2.1⟩
  | .list element, _, _, _, h => by
    rcases liftAt_list_ok.mp h with ⟨-, rfl⟩ | ⟨items, -, values, hvalues, rfl⟩
    · exact ⟨rfl, by simp [Value.WellTyped]⟩
    · refine ⟨rfl, Value.itemsTyped_iff.mpr ?_⟩
      exact liftItems_forall hvalues fun _ _ _ _ hv => liftAt_typed hv
  | .set element, _, _, _, h => by
    rcases liftAt_set_ok.mp h with ⟨-, rfl⟩ | ⟨items, -, values, hvalues, rfl⟩
    · exact ⟨rfl, by simp [Value.WellTyped]⟩
    · refine ⟨rfl, Value.itemsTyped_iff.mpr ?_⟩
      exact liftItems_forall hvalues fun _ _ _ _ hv => liftAt_typed hv
  | .map element, _, _, _, h => by
    rcases liftAt_map_ok.mp h with ⟨-, rfl⟩ | ⟨entries, -, values, hvalues, rfl⟩
    · exact ⟨rfl, by simp [Value.WellTyped]⟩
    · refine ⟨rfl, Value.entriesTyped_iff.mpr ?_⟩
      exact (liftEntries_forall hvalues fun _ _ _ _ hv => liftAt_typed hv).2
  | .object fields, _, _, _, h => by
    rcases liftAt_object_ok.mp h with ⟨-, rfl⟩ | ⟨entries, -, attributes, hattributes, rfl⟩
    · exact ⟨rfl, by simp [Value.WellTyped]⟩
    · exact ⟨rfl, liftFields_typed hattributes⟩

theorem liftFields_typed : ∀ {fields : List (String × ValueType)} {entries : Record}
    {path : String} {attributes : ValueTable}, liftFields fields entries path = .ok attributes →
      Value.AttributesTyped fields attributes
  | [], _, _, _, h => by
    rw [liftFields_nil.mp h]
    trivial
  | (_, _) :: _, _, _, _, h => by
    obtain ⟨value, hvalue, others, hothers, rfl⟩ := liftFields_cons_ok.mp h
    have hfirst := liftAt_typed hvalue
    exact ⟨rfl, hfirst.1, hfirst.2, liftFields_typed hothers⟩
end

mutual
theorem liftAt_ordered : ∀ {type : ValueType} {raw : Raw} {path : String} {value : Value},
    type.Ordered → raw.Ordered → liftAt type raw path = .ok value → value.Ordered
  | .string, _, _, _, htype, _, h | .int64, _, _, _, htype, _, h
  | .float64, _, _, _, htype, _, h | .bool, _, _, _, htype, _, h => by
    rcases (liftAt_scalar_ok rfl).mp h with ⟨-, rfl⟩ | ⟨-, hscalar⟩
    · exact htype
    · exact (liftScalar?_spec hscalar).2.2
  | .list element, _, _, _, htype, hraw, h => by
    rcases liftAt_list_ok.mp h with ⟨-, rfl⟩ | ⟨items, rfl, values, hvalues, rfl⟩
    · exact htype
    · have helement : element.Ordered := htype
      have hitems := Raw.itemsOrdered_iff.mp hraw
      refine ⟨helement, Value.itemsOrdered_iff.mpr ?_⟩
      exact liftItems_forall hvalues
        fun raw hmem _ _ hv => liftAt_ordered helement (hitems raw hmem) hv
  | .set element, _, _, _, htype, hraw, h => by
    rcases liftAt_set_ok.mp h with ⟨-, rfl⟩ | ⟨items, rfl, values, hvalues, rfl⟩
    · exact htype
    · have helement : element.Ordered := htype
      have hitems := Raw.itemsOrdered_iff.mp hraw
      refine ⟨helement, Value.itemsOrdered_iff.mpr ?_⟩
      exact liftItems_forall hvalues
        fun raw hmem _ _ hv => liftAt_ordered helement (hitems raw hmem) hv
  | .map element, _, _, _, htype, hraw, h => by
    rcases liftAt_map_ok.mp h with ⟨-, rfl⟩ | ⟨entries, rfl, values, hvalues, rfl⟩
    · exact htype
    · have helement : element.Ordered := htype
      have hentries := Raw.entriesOrdered_iff.mp hraw.2
      obtain ⟨hkeys, hall⟩ := liftEntries_forall hvalues
        fun entry hmem _ _ hv => liftAt_ordered helement (hentries entry hmem) hv
      exact ⟨helement, hraw.1.of_keys hkeys, Value.entriesOrdered_iff.mpr hall⟩
  | .object fields, _, _, _, htype, hraw, h => by
    rcases liftAt_object_ok.mp h with ⟨-, rfl⟩
      | ⟨entries, rfl, attributes, hattributes, rfl⟩
    · exact htype
    · refine ⟨htype, htype.1.of_keys (liftFields_typed hattributes).keys_eq, ?_⟩
      exact liftFields_ordered htype.2 (Raw.entriesOrdered_iff.mp hraw.2) hattributes

theorem liftFields_ordered : ∀ {fields : List (String × ValueType)} {entries : Record}
    {path : String} {attributes : ValueTable}, ValueType.FieldsOrdered fields →
      (∀ entry ∈ entries, entry.2.Ordered) →
        liftFields fields entries path = .ok attributes →
      Value.EntriesOrdered attributes
  | [], _, _, _, _, _, h => by
    rw [liftFields_nil.mp h]
    trivial
  | (name, _) :: _, _, _, _, hfields, hentries, h => by
    obtain ⟨value, hvalue, others, hothers, rfl⟩ := liftFields_cons_ok.mp h
    have hraw := Record.at_ordered hentries name
    rw [Value.EntriesOrdered]
    exact ⟨liftAt_ordered hfields.1 hraw hvalue, liftFields_ordered hfields.2 hentries hothers⟩
end

/-! ## The path matters for errors only -/

section

variable {liftPart : Raw → String → Except ConversionError Value}

theorem liftItems_path {items : List Raw} {values : List Value} {path other : String}
    {position position' : Nat}
    (hpart : ∀ raw ∈ items, ∀ p q v, liftPart raw p = .ok v → liftPart raw q = .ok v)
    (h : liftItems liftPart path position items = .ok values) :
    liftItems liftPart other position' items = .ok values := by
  induction items generalizing position position' values with
  | nil => exact h
  | cons item rest ih =>
    rw [List.forall_mem_cons] at hpart
    simp only [liftItems, bind_ok_iff, pure_ok_iff] at h ⊢
    obtain ⟨value, hvalue, others, hothers, rfl⟩ := h
    exact ⟨value, hpart.1 _ _ _ hvalue, others, ih hpart.2 hothers, rfl⟩

theorem liftEntries_path {entries : Record} {values : ValueTable} {path other : String}
    (hpart : ∀ entry ∈ entries, ∀ p q v, liftPart entry.2 p = .ok v →
      liftPart entry.2 q = .ok v)
    (h : liftEntries liftPart path entries = .ok values) :
    liftEntries liftPart other entries = .ok values := by
  induction entries generalizing values with
  | nil => exact h
  | cons entry rest ih =>
    rw [List.forall_mem_cons] at hpart
    simp only [liftEntries, bind_ok_iff, pure_ok_iff] at h ⊢
    obtain ⟨value, hvalue, others, hothers, rfl⟩ := h
    exact ⟨value, hpart.1 _ _ _ hvalue, others, ih hpart.2 hothers, rfl⟩

end

mutual
theorem liftAt_path : ∀ {type : ValueType} {raw : Raw} {path : String} (other : String)
    {value : Value}, liftAt type raw path = .ok value → liftAt type raw other = .ok value
  | .string, _, _, _, _, h | .int64, _, _, _, _, h | .float64, _, _, _, _, h
  | .bool, _, _, _, _, h =>
    (liftAt_scalar_ok rfl).mpr ((liftAt_scalar_ok rfl).mp h)
  | .list element, _, _, other, _, h => by
    rcases liftAt_list_ok.mp h with hnull | ⟨items, hraw, values, hvalues, hvalue⟩
    · exact liftAt_list_ok.mpr (.inl hnull)
    · have hother : liftItems (liftAt element) other 0 items = .ok values :=
        liftItems_path (fun _ _ _ q _ hv => liftAt_path q hv) hvalues
      exact liftAt_list_ok.mpr (.inr ⟨items, hraw, values, hother, hvalue⟩)
  | .set element, _, _, other, _, h => by
    rcases liftAt_set_ok.mp h with hnull | ⟨items, hraw, values, hvalues, hvalue⟩
    · exact liftAt_set_ok.mpr (.inl hnull)
    · have hother : liftItems (liftAt element) other 0 items = .ok values :=
        liftItems_path (fun _ _ _ q _ hv => liftAt_path q hv) hvalues
      exact liftAt_set_ok.mpr (.inr ⟨items, hraw, values, hother, hvalue⟩)
  | .map element, _, _, other, _, h => by
    rcases liftAt_map_ok.mp h with hnull | ⟨entries, hraw, values, hvalues, hvalue⟩
    · exact liftAt_map_ok.mpr (.inl hnull)
    · have hother : liftEntries (liftAt element) other entries = .ok values :=
        liftEntries_path (fun _ _ _ q _ hv => liftAt_path q hv) hvalues
      exact liftAt_map_ok.mpr (.inr ⟨entries, hraw, values, hother, hvalue⟩)
  | .object fields, _, _, other, _, h => by
    rcases liftAt_object_ok.mp h with hnull | ⟨entries, hraw, attributes, hattributes, hvalue⟩
    · exact liftAt_object_ok.mpr (.inl hnull)
    · have hother := liftFields_path other hattributes
      exact liftAt_object_ok.mpr (.inr ⟨entries, hraw, attributes, hother, hvalue⟩)

theorem liftFields_path : ∀ {fields : List (String × ValueType)} {entries : Record}
    {path : String} (other : String) {attributes : ValueTable},
    liftFields fields entries path = .ok attributes →
      liftFields fields entries other = .ok attributes
  | [], _, _, _, _, h => liftFields_nil.mpr (liftFields_nil.mp h)
  | (_, _) :: _, _, _, other, _, h => by
    obtain ⟨value, hvalue, others, hothers, rfl⟩ := liftFields_cons_ok.mp h
    exact liftFields_cons_ok.mpr
      ⟨value, liftAt_path _ hvalue, others, liftFields_path other hothers, rfl⟩
end

theorem lift_ok_iff {type : ValueType} {raw : Raw} {path : String} {value : Value} :
    lift type raw = .ok value ↔ liftAt type raw path = .ok value :=
  ⟨liftAt_path path, liftAt_path ""⟩

end EntityModel
