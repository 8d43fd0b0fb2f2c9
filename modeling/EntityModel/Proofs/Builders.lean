import EntityModel.Proofs.Lifting

/-!
# Checked builders

The builders look at one level of their arguments only, yet what they make of well-typed parts is
well typed at every depth.

* `Value.object?_ok`: what an object must hold.
* `Value.Made`: the values that the helpers, the builders and lifting make.
* `Value.Made.wellTyped`, `Value.Made.ordered`: they are well typed and ordered at every depth.
-/

namespace EntityModel

namespace Value

theorem checkTypes_ok {expected : ValueType} {values : List Value} :
    checkTypes expected values = .ok () ↔ ∀ value ∈ values, value.type = expected := by
  induction values with
  | nil => simp [checkTypes]
  | cons value rest ih =>
    rw [checkTypes]
    split
    · next heq => simp [ih, heq]
    · next hne => simp [hne]

theorem checkFields_ok {fields : List (String × ValueType)} {attributes : ValueTable} :
    checkFields attributes fields = .ok () ↔
      ∀ field ∈ fields, ∀ value, Assoc.get? attributes field.1 = some value →
        value.type = field.2 := by
  induction fields with
  | nil => simp [checkFields]
  | cons field rest ih => simp [checkFields, checkTypes_ok, ih]

theorem object?_ok {fields : Assoc ValueType} {attributes : ValueTable} {value : Value} :
    object? fields attributes = .ok value ↔
      (fields.length = attributes.length ∧
        ∀ name ∈ Assoc.keys fields, name ∈ Assoc.keys attributes) ∧
        checkFields attributes fields = .ok () ∧ .object fields attributes = value := by
  rw [object?]
  split
  · next h =>
    simp only [Bool.and_eq_true, decide_eq_true_eq, List.all_eq_true, Assoc.has_iff] at h
    simpa [h.1] using fun _ _ => h.2
  · next h =>
    simp only [Bool.and_eq_true, decide_eq_true_eq, List.all_eq_true, Assoc.has_iff] at h
    simp [h]

/-- Attributes under the very names of the fields, each of its field's type, are typed. -/
theorem attributesTyped_of_keys {fields : Assoc ValueType} {attributes : ValueTable}
    (hkeys : Assoc.keys attributes = Assoc.keys fields) (hasc : Assoc.Ascending attributes)
    (htypes : checkFields attributes fields = .ok ())
    (hparts : ∀ entry ∈ attributes, entry.2.WellTyped) : AttributesTyped fields attributes := by
  induction fields generalizing attributes with
  | nil =>
    cases attributes with
    | nil => trivial
    | cons entry rest => cases hkeys
  | cons field rest ih =>
    cases attributes with
    | nil => cases hkeys
    | cons entry others =>
      obtain ⟨name, type⟩ := field
      obtain ⟨name', value⟩ := entry
      simp only [Assoc.keys, List.map_cons, List.cons.injEq] at hkeys
      obtain ⟨rfl, hkeys⟩ := hkeys
      obtain ⟨hfirst, hasc⟩ := List.pairwise_cons.mp hasc
      rw [checkFields_ok] at htypes
      have htype : value.type = type :=
        htypes (name', type) List.mem_cons_self value (by simp [Assoc.get?_cons])
      -- the checks look attributes up; past the first entry they find the same in the rest
      refine ⟨rfl, htype, hparts _ List.mem_cons_self, ih hkeys hasc ?_ ?_⟩
      · refine checkFields_ok.mpr fun field hfield v hv => ?_
        refine htypes field (List.mem_cons_of_mem _ hfield) v ?_
        have hlt := hfirst _ (Assoc.mem_of_get? hv)
        rw [Assoc.get?_cons, if_neg (String.ne_of_lt hlt).symm]
        exact hv
      · exact fun entry hentry => hparts entry (List.mem_cons_of_mem _ hentry)

/-- The values that the helpers, the checked builders and lifting make, as long as whatever holds
entries under keys holds them in ascending order. -/
inductive Made : Value → Prop where
  | null {type : ValueType} (htype : type.Ordered) : Made (.null type)
  | unknown {type : ValueType} (htype : type.Ordered) : Made (.unknown type)
  | string (text : String) : Made (.string text)
  | int64 (n : Int64) : Made (.int64 n)
  | float64 (x : Binary64) : Made (.float64 x)
  | bool (b : Bool) : Made (.bool b)
  | list {element : ValueType} {items : List Value} {value : Value} (htype : element.Ordered)
      (hitems : ∀ item ∈ items, Made item) (h : list? element items = .ok value) : Made value
  | set {element : ValueType} {items : List Value} {value : Value} (htype : element.Ordered)
      (hitems : ∀ item ∈ items, Made item) (h : set? element items = .ok value) : Made value
  | map {element : ValueType} {entries : ValueTable} {value : Value} (htype : element.Ordered)
      (hasc : Assoc.Ascending entries) (hentries : ∀ entry ∈ entries, Made entry.2)
      (h : map? element entries = .ok value) : Made value
  | object {fields : Assoc ValueType} {attributes : ValueTable} {value : Value}
      (htype : (ValueType.object fields).Ordered) (hasc : Assoc.Ascending attributes)
      (hattributes : ∀ entry ∈ attributes, Made entry.2)
      (h : object? fields attributes = .ok value) : Made value
  | lift {type : ValueType} {raw : Raw} {path : String} {value : Value} (htype : type.Ordered)
      (hraw : raw.Ordered) (h : liftAt type raw path = .ok value) : Made value

theorem Made.wellTyped {value : Value} (h : Made value) : value.WellTyped := by
  induction h with
  | null | unknown | string | int64 | float64 | bool => simp [WellTyped]
  | list _ _ h ih | set _ _ h ih =>
    simp only [list?, set?, bind_ok_iff, exists_unit_iff, pure_ok_iff] at h
    obtain ⟨htypes, rfl⟩ := h
    exact itemsTyped_iff.mpr fun item hitem =>
      ⟨checkTypes_ok.mp htypes item hitem, ih item hitem⟩
  | map _ _ _ h ih =>
    simp only [map?, bind_ok_iff, exists_unit_iff, pure_ok_iff] at h
    obtain ⟨htypes, rfl⟩ := h
    refine entriesTyped_iff.mpr fun entry hentry => ⟨?_, ih entry hentry⟩
    exact checkTypes_ok.mp htypes entry.2 (List.mem_map_of_mem hentry)
  | object htype hasc _ h ih =>
    obtain ⟨⟨hlength, hnames⟩, htypes, rfl⟩ := object?_ok.mp h
    have hkeys : Assoc.keys _ = Assoc.keys _ :=
      Assoc.Ascending.keys_eq htype.1 hasc hnames (Nat.le_of_eq hlength.symm)
    exact attributesTyped_of_keys hkeys.symm hasc htypes ih
  | lift _ _ h => exact (liftAt_typed h).2

theorem Made.ordered {value : Value} (h : Made value) : value.Ordered := by
  induction h with
  | null htype | unknown htype => exact htype
  | string | int64 | float64 | bool => simp [Ordered]
  | list htype _ h ih | set htype _ h ih =>
    simp only [list?, set?, bind_ok_iff, exists_unit_iff, pure_ok_iff] at h
    obtain ⟨-, rfl⟩ := h
    exact ⟨htype, itemsOrdered_iff.mpr ih⟩
  | map htype hasc _ h ih =>
    simp only [map?, bind_ok_iff, exists_unit_iff, pure_ok_iff] at h
    obtain ⟨-, rfl⟩ := h
    exact ⟨htype, hasc, entriesOrdered_iff.mpr ih⟩
  | object htype hasc _ h ih =>
    obtain ⟨-, -, rfl⟩ := object?_ok.mp h
    exact ⟨htype, hasc, entriesOrdered_iff.mpr ih⟩
  | lift htype hraw h => exact liftAt_ordered htype hraw h

end Value

end EntityModel
