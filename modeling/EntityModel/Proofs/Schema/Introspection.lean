import EntityModel.Proofs.Order

/-!
# The two walks of introspection

Introspection walks the declarations twice: once for the type of each attribute, which holds the
types of its children, and once for the table of all attributes. Here is what one step of each walk
does when it succeeds.

* `childTypes_cons_ok`, `attributeType_nested_ok`: the walk for types.
* `fieldsBelow_cons_ok`, `attributeFields_ok`: the walk for the table.
* `get?_childTypes`: the type that a parent's object gives to a child is the child's own type.
* `attributeType_ordered`: types of ordered declarations are ordered, whatever the hints.
-/

namespace EntityModel.Schema

variable {hints : Hints} {parent path name : String}

theorem checkName_ok : checkName path name = .ok () ↔ isName name = true := by
  rw [checkName]
  split <;> simp_all

/-! ## Types -/

theorem childTypes_cons_ok {child : Attribute} {rest : List (String × Attribute)}
    {fields : List (String × ValueType)} :
    childTypes hints parent ((name, child) :: rest) = .ok fields ↔
      isName name = true ∧
        if hints.mentions .excluded (joinPath parent name) then
          childTypes hints parent rest = .ok fields
        else ∃ type, attributeType hints (joinPath parent name) child = .ok type ∧
          ∃ others, childTypes hints parent rest = .ok others ∧
            (name, type) :: others = fields := by
  rw [childTypes]
  split <;> simp [checkName_ok, *]

theorem attributeType_nested_ok {nesting : Nesting} {children : List (String × Attribute)}
    {d : Declaration} {type : ValueType} :
    attributeType hints path (.nested nesting children d) = .ok type ↔
      children ≠ [] ∧ ∃ fields, childTypes hints path children = .ok fields ∧
        nesting.type (hints.mentions .preserveOrder path) (.object fields) = type := by
  rw [attributeType]
  cases children <;> simp

/-- The excluded children are left out, the others stay in their order. -/
theorem keys_childTypes {children : List (String × Attribute)}
    {fields : List (String × ValueType)}
    (h : childTypes hints parent children = .ok fields) :
    (Assoc.keys fields).Sublist (Assoc.keys children) := by
  induction children generalizing fields with
  | nil =>
    cases h
    exact List.Sublist.refl _
  | cons entry rest ih =>
    obtain ⟨-, h⟩ := childTypes_cons_ok.mp h
    split at h
    · exact (ih h).cons _
    · obtain ⟨type, -, others, hothers, rfl⟩ := h
      exact (ih hothers).cons_cons _

/-- The type under a name is the type of the first child of that name. -/
theorem get?_childTypes {children : List (String × Attribute)}
    {fields : List (String × ValueType)}
    {type : ValueType} (h : childTypes hints parent children = .ok fields)
    (hget : Assoc.get? fields name = some type) :
    hints.mentions .excluded (joinPath parent name) = false ∧
      ∃ child, Assoc.get? children name = some child ∧
        attributeType hints (joinPath parent name) child = .ok type := by
  induction children generalizing fields with
  | nil =>
    cases h
    cases hget
  | cons entry rest ih =>
    obtain ⟨first, child⟩ := entry
    obtain ⟨-, h⟩ := childTypes_cons_ok.mp h
    rw [Assoc.get?_cons]
    split at h
    · next hexcluded =>
      obtain ⟨hincluded, hrest⟩ := ih h hget
      have hne : name ≠ first := by
        rintro rfl
        rw [hexcluded] at hincluded
        cases hincluded
      rw [if_neg hne]
      exact ⟨hincluded, hrest⟩
    · next hincluded =>
      obtain ⟨own, hown, others, hothers, rfl⟩ := h
      rw [Assoc.get?_cons] at hget
      split at hget
      · next heq =>
        cases hget
        subst heq
        rw [if_pos rfl]
        exact ⟨Bool.eq_false_iff.mpr hincluded, child, rfl, hown⟩
      · next hne =>
        rw [if_neg hne]
        exact ih hothers hget

theorem plainType_ordered {ordered : Bool} {shape : PlainShape}
    (h : (shape.type false).Ordered) : (shape.type ordered).Ordered := by
  cases shape <;> cases ordered <;> exact h

theorem nestedType_ordered {ordered : Bool} {nesting : Nesting} {object : ValueType}
    (h : object.Ordered) : (nesting.type ordered object).Ordered := by
  cases nesting <;> cases ordered <;> exact h

mutual
theorem attributeType_ordered : ∀ {path : String} {a : Attribute} {type : ValueType},
    a.Ordered → attributeType hints path a = .ok type → type.Ordered
  | _, .plain shape d, type, hordered, h => by
    rw [attributeType] at h
    cases h
    exact plainType_ordered hordered
  | _, .nested nesting children d, type, hordered, h => by
    obtain ⟨-, fields, hfields, rfl⟩ := attributeType_nested_ok.mp h
    have hchildren := childTypes_ordered hordered.2 hfields
    exact nestedType_ordered ⟨hordered.1.of_sublist (keys_childTypes hfields), hchildren⟩

theorem childTypes_ordered : ∀ {parent : String} {children : List (String × Attribute)}
    {fields : List (String × ValueType)}, Attribute.ChildrenOrdered children →
      childTypes hints parent children = .ok fields → ValueType.FieldsOrdered fields
  | _, [], _, _, h => by
    cases h
    trivial
  | _, (_, child) :: rest, fields, hordered, h => by
    obtain ⟨-, h⟩ := childTypes_cons_ok.mp h
    split at h
    · exact childTypes_ordered hordered.2 h
    · obtain ⟨type, htype, others, hothers, rfl⟩ := h
      exact ⟨attributeType_ordered hordered.1 htype, childTypes_ordered hordered.2 hothers⟩
end

/-! ## The table -/

theorem fieldsBelow_cons_ok {a : Attribute} {rest : List (String × Attribute)}
    {fields : List (String × Field)} :
    fieldsBelow hints parent ((name, a) :: rest) = .ok fields ↔
      isName name = true ∧
        if hints.mentions .excluded (joinPath parent name) then
          fieldsBelow hints parent rest = .ok fields
        else ∃ own, attributeFields hints (joinPath parent name) a = .ok own ∧
          ∃ others, fieldsBelow hints parent rest = .ok others ∧ own ++ others = fields := by
  rw [fieldsBelow]
  split <;> simp [checkName_ok, *]

theorem attributeFields_ok {a : Attribute} {fields : List (String × Field)} :
    attributeFields hints path a = .ok fields ↔
      ∃ type, attributeType hints path a = .ok type ∧ ∃ c, classify hints path a = .ok c ∧
        ∃ below, fieldsBelow hints path (a.children?.getD []) = .ok below ∧
          (path, ⟨type, c⟩) :: below = fields := by
  cases a with
  | plain shape d => simp [attributeFields, Attribute.children?, fieldsBelow]
  | nested nesting children d => simp [attributeFields, Attribute.children?]

end EntityModel.Schema
