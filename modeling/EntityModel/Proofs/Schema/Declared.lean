import EntityModel.Proofs.Schema.Introspection
import EntityModel.Schema.Registry

/-!
# Declared attributes and their fields

`Declared` says which attribute names lead to when the excluded ones are left out. The table of a
bound entity holds what introspection finds out about these attributes, under their dotted paths,
and as names hold no points a dotted path leads to one attribute only.

* `dotted_injective`: dotted paths of names.
* `Declared.unique`: names lead to one attribute.
* `records_fieldsBelow`: every field of the table is that of a declared attribute.
* `Entity.Bound.declared_of_typeOf?`: the same for a bound entity.
-/

namespace EntityModel

namespace Schema

/-! ## Dotted paths -/

/-- The dotted path of names below a path. -/
def dotted (parent : String) (names : List String) : String := names.foldl joinPath parent

theorem isName_ne_empty {name : String} (h : isName name = true) : name ≠ "" := by
  rintro rfl
  simp [isName] at h

theorem isName_no_point {name : String} (h : isName name = true) : '.' ∉ name.toList := by
  intro hmem
  simp only [isName, Bool.and_eq_true, List.all_eq_true] at h
  simpa using h.2 '.' hmem

theorem isName_no_bracket {name : String} (h : isName name = true) :
    '[' ∉ name.toList ∧ ']' ∉ name.toList := by
  simp only [isName, Bool.and_eq_true, List.all_eq_true] at h
  constructor <;> intro hmem <;> simpa using h.2 _ hmem

theorem joinPath_of_ne {parent : String} (h : parent ≠ "") (name : String) :
    joinPath parent name = parent ++ "." ++ name := by
  simp [joinPath, h]

theorem dotted_of_ne {parent : String} (h : parent ≠ "") (names : List String) :
    dotted parent names = ".".intercalate (parent :: names) := by
  induction names generalizing parent with
  | nil => simp [dotted]
  | cons name rest ih =>
    have hne : joinPath parent name ≠ "" := by
      rw [joinPath_of_ne h]
      simp
    rw [dotted, List.foldl_cons, ← dotted, ih hne, joinPath_of_ne h]
    cases rest <;> simp [String.append_assoc]

/-- From the entity itself on, a dotted path is the names with points between them. -/
theorem dotted_eq {names : List String} (h : ∀ name ∈ names, isName name = true) :
    dotted "" names = ".".intercalate names := by
  cases names with
  | nil => rfl
  | cons name rest =>
    have hne := isName_ne_empty (h name List.mem_cons_self)
    rw [dotted, List.foldl_cons, ← dotted]
    exact dotted_of_ne hne rest

/-- Cut at its points, a dotted path falls into its names. -/
theorem splitOn_dotted {names : List String} (h : ∀ name ∈ names, isName name = true)
    (hne : names ≠ []) : (dotted "" names).toList.splitOn '.' = names.map String.toList := by
  rw [dotted_eq h, String.toList_intercalate]
  refine List.splitOn_intercalate '.' (fun chars hchars => ?_) (by simpa using hne)
  obtain ⟨name, hname, rfl⟩ := List.mem_map.mp hchars
  exact isName_no_point (h name hname)

theorem dotted_injective {names others : List String}
    (hnames : ∀ name ∈ names, isName name = true)
    (hothers : ∀ name ∈ others, isName name = true)
    (hne : names ≠ []) (hne' : others ≠ []) (h : dotted "" names = dotted "" others) :
    names = others := by
  have hlists : names.map String.toList = others.map String.toList := by
    rw [← splitOn_dotted hnames hne, h, splitOn_dotted hothers hne']
  exact List.map_injective_iff.mpr (fun _ _ hab => String.toList_inj.mp hab) hlists

/-! ## Declared attributes -/

/-- Names lead from attributes below a path to an attribute, none on the way being excluded. -/
inductive Declared (hints : Hints) :
    (parent : String) → List (String × Attribute) → List String → Attribute → Prop where
  | here {parent name : String} {attributes : List (String × Attribute)} {a : Attribute}
      (hmem : (name, a) ∈ attributes)
      (hincluded : hints.mentions .excluded (joinPath parent name) = false) :
      Declared hints parent attributes [name] a
  | inside {parent name : String} {attributes : List (String × Attribute)} {a b : Attribute}
      {names : List String} (hmem : (name, a) ∈ attributes)
      (hincluded : hints.mentions .excluded (joinPath parent name) = false)
      (hbelow : Declared hints (joinPath parent name) (a.children?.getD []) names b) :
      Declared hints parent attributes (name :: names) b

variable {hints : Hints} {parent : String} {attributes rest : List (String × Attribute)}
  {names : List String} {a b : Attribute}

theorem Declared.names_ne_nil (h : Declared hints parent attributes names a) : names ≠ [] := by
  cases h <;> simp

theorem Declared.cons_cases {name : String}
    (h : Declared hints parent attributes (name :: names) b) :
    names = [] ∧ (name, b) ∈ attributes ∨
      ∃ a, (name, a) ∈ attributes ∧
        Declared hints (joinPath parent name) (a.children?.getD []) names b := by
  cases h with
  | here hmem hincluded => exact .inl ⟨rfl, hmem⟩
  | inside hmem hincluded hbelow => exact .inr ⟨_, hmem, hbelow⟩

theorem Declared.mono (h : Declared hints parent rest names a)
    (hsub : ∀ entry ∈ rest, entry ∈ attributes) :
    Declared hints parent attributes names a := by
  cases h with
  | here hmem hincluded => exact .here (hsub _ hmem) hincluded
  | inside hmem hincluded hbelow => exact .inside (hsub _ hmem) hincluded hbelow

theorem childrenOrdered_of_mem {entry : String × Attribute}
    (h : Attribute.ChildrenOrdered attributes) (hmem : entry ∈ attributes) : entry.2.Ordered := by
  induction attributes with
  | nil => cases hmem
  | cons first rest ih =>
    rcases List.mem_cons.mp hmem with rfl | hmem
    · exact h.1
    · exact ih h.2 hmem

/-- The children of an ordered attribute; a plain one has none. -/
theorem children_ordered (h : a.Ordered) :
    Assoc.Ascending (a.children?.getD []) ∧ Attribute.ChildrenOrdered (a.children?.getD []) := by
  cases a with
  | plain shape d => exact ⟨List.Pairwise.nil, trivial⟩
  | nested nesting children d => exact h

/-- In ordered declarations names lead to one attribute. -/
theorem Declared.unique (hasc : Assoc.Ascending attributes)
    (hordered : Attribute.ChildrenOrdered attributes) (h : Declared hints parent attributes names a)
    (h' : Declared hints parent attributes names b) : a = b := by
  induction h with
  | here hmem hincluded =>
    cases h' with
    | here hmem' hincluded' =>
      exact Option.some.inj ((hasc.get?_of_mem hmem).symm.trans (hasc.get?_of_mem hmem'))
    | inside hmem' hincluded' hbelow' => exact absurd rfl hbelow'.names_ne_nil
  | inside hmem hincluded hbelow ih =>
    cases h' with
    | here hmem' hincluded' => exact absurd rfl hbelow.names_ne_nil
    | inside hmem' hincluded' hbelow' =>
      cases Option.some.inj ((hasc.get?_of_mem hmem).symm.trans (hasc.get?_of_mem hmem'))
      obtain ⟨hasc', hordered'⟩ := children_ordered (childrenOrdered_of_mem hordered hmem)
      exact ih hasc' hordered' hbelow'

theorem Declared.ordered (h : Declared hints parent attributes names a)
    (hordered : Attribute.ChildrenOrdered attributes) : a.Ordered := by
  induction h with
  | here hmem _ => exact childrenOrdered_of_mem hordered hmem
  | inside hmem _ _ ih => exact ih (children_ordered (childrenOrdered_of_mem hordered hmem)).2

/-! ## The fields of the table -/

/-- What the table holds of an attribute under a path. -/
structure FieldOf (hints : Hints) (path : String) (a : Attribute) (field : Field) : Prop where
  type : attributeType hints path a = .ok field.type
  classification : classify hints path a = .ok field.classification

/-- A field of the walk below a path belongs to an attribute that names lead to. -/
def Records (hints : Hints) (parent : String) (attributes : List (String × Attribute))
    (entry : String × Field) : Prop :=
  ∃ names a, (∀ name ∈ names, isName name = true) ∧ dotted parent names = entry.1 ∧
    Declared hints parent attributes names a ∧ FieldOf hints entry.1 a entry.2

theorem Records.mono {entry : String × Field} (h : Records hints parent rest entry)
    (hsub : ∀ e ∈ rest, e ∈ attributes) : Records hints parent attributes entry := by
  obtain ⟨names, a, hnames, hpath, hdeclared, hfield⟩ := h
  exact ⟨names, a, hnames, hpath, hdeclared.mono hsub, hfield⟩

/-- An attribute's own field comes first, then those of its children. -/
theorem records_cons {name : String} {field : Field} {below : List (String × Field)}
    (hmem : (name, a) ∈ attributes) (hname : isName name = true)
    (hincluded : hints.mentions .excluded (joinPath parent name) = false)
    (hfield : FieldOf hints (joinPath parent name) a field)
    (hbelow : ∀ entry ∈ below,
      Records hints (joinPath parent name) (a.children?.getD []) entry) :
    ∀ entry ∈ (joinPath parent name, field) :: below,
      Records hints parent attributes entry := by
  intro entry hentry
  rcases List.mem_cons.mp hentry with rfl | hentry
  · exact ⟨[name], a, by simpa using hname, rfl, .here hmem hincluded, hfield⟩
  · obtain ⟨names, b, hnames, hpath, hdeclared, hfield'⟩ := hbelow entry hentry
    exact ⟨name :: names, b, by simpa using ⟨hname, hnames⟩, hpath,
      .inside hmem hincluded hdeclared, hfield'⟩

mutual
theorem records_attributeFields : ∀ {a : Attribute} {parent name : String}
    {fields : List (String × Field)} {attributes : List (String × Attribute)},
    (name, a) ∈ attributes → isName name = true →
    hints.mentions .excluded (joinPath parent name) = false →
    attributeFields hints (joinPath parent name) a = .ok fields →
    ∀ entry ∈ fields, Records hints parent attributes entry
  | .plain shape d, _, _, _, _, hmem, hname, hincluded, h => by
    obtain ⟨type, htype, c, hc, below, hbelow, rfl⟩ := attributeFields_ok.mp h
    cases hbelow
    exact records_cons hmem hname hincluded ⟨htype, hc⟩ (by simp)
  | .nested nesting children d, _, _, _, _, hmem, hname, hincluded, h => by
    obtain ⟨type, htype, c, hc, below, hbelow, rfl⟩ := attributeFields_ok.mp h
    exact records_cons hmem hname hincluded ⟨htype, hc⟩ (records_fieldsBelow hbelow)

theorem records_fieldsBelow : ∀ {attributes : List (String × Attribute)} {parent : String}
    {fields : List (String × Field)}, fieldsBelow hints parent attributes = .ok fields →
    ∀ entry ∈ fields, Records hints parent attributes entry
  | [], _, _, h => by
    cases h
    simp
  | (name, a) :: rest, parent, fields, h => by
    obtain ⟨hname, h⟩ := fieldsBelow_cons_ok.mp h
    split at h
    · intro entry hentry
      exact (records_fieldsBelow h entry hentry).mono fun e he => List.mem_cons_of_mem _ he
    · next hincluded =>
      obtain ⟨own, hown, others, hothers, rfl⟩ := h
      intro entry hentry
      rcases List.mem_append.mp hentry with hentry | hentry
      · exact records_attributeFields List.mem_cons_self hname (Bool.eq_false_iff.mpr hincluded)
          hown entry hentry
      · exact (records_fieldsBelow hothers entry hentry).mono fun e he => List.mem_cons_of_mem _ he
end

end Schema

/-! ## Bound entities -/

namespace Entity

/-- An entity that binding a schema makes. Schemas hold their attributes in ascending order. -/
def Bound (entity : Entity) : Prop :=
  ∃ registration : Registration, registration.schema.Ordered ∧
    Entity.bind registration = .ok entity

theorem bound_iff {entity : Entity} :
    entity.Bound ↔ entity.schema.Ordered ∧ Schema.checkHints entity.hints = .ok () ∧
      ∃ fields, Schema.fieldsBelow entity.hints "" entity.schema.attributes = .ok fields ∧
        entity.introspection = ⟨Assoc.ofList fields⟩ := by
  constructor
  · rintro ⟨registration, hordered, h⟩
    simp only [bind, introspect, bind_ok_iff, exists_unit_iff, pure_ok_iff] at h
    obtain ⟨_, ⟨hhints, fields, hfields, rfl⟩, rfl⟩ := h
    exact ⟨hordered, hhints, fields, hfields, rfl⟩
  · rintro ⟨hordered, hhints, fields, hfields, hintrospection⟩
    refine ⟨⟨entity.schema, entity.hints⟩, hordered, ?_⟩
    simp only [bind, introspect, bind_ok_iff, exists_unit_iff, pure_ok_iff]
    exact ⟨entity.introspection, ⟨hhints, fields, hfields, hintrospection.symm⟩, rfl⟩

variable {entity : Entity} {path name : String} {type : ValueType}

theorem typeOf?_eq_some : entity.typeOf? path = some type ↔
    ∃ field, Assoc.get? entity.introspection.fields path = some field ∧ field.type = type := by
  simp [typeOf?, Introspection.typeOf?, Introspection.field?]

/-- A field of the table is that of an attribute that names lead to, under their dotted path. -/
theorem Bound.records {field : Field} (h : entity.Bound)
    (hget : Assoc.get? entity.introspection.fields path = some field) :
    Schema.Records entity.hints "" entity.schema.attributes (path, field) := by
  obtain ⟨-, -, fields, hfields, hintrospection⟩ := bound_iff.mp h
  rw [hintrospection] at hget
  exact Schema.records_fieldsBelow hfields _ (Assoc.mem_of_mem_ofList (Assoc.mem_of_get? hget))

theorem Bound.declared_of_typeOf? (h : entity.Bound) (htype : entity.typeOf? path = some type) :
    ∃ names a, (∀ n ∈ names, Schema.isName n = true) ∧ Schema.dotted "" names = path ∧
      Schema.Declared entity.hints "" entity.schema.attributes names a ∧
        Schema.attributeType entity.hints path a = .ok type := by
  obtain ⟨field, hget, rfl⟩ := typeOf?_eq_some.mp htype
  obtain ⟨names, a, hnames, hpath, hdeclared, hfield⟩ := h.records hget
  exact ⟨names, a, hnames, hpath, hdeclared, hfield.type⟩

/-- What the table holds for one of the entity's own attributes. -/
theorem Bound.declared_of_own (h : entity.Bound) (hown : entity.hasAttribute name = true)
    (htype : entity.typeOf? name = some type) :
    ∃ a, (name, a) ∈ entity.schema.attributes ∧
      entity.hints.mentions .excluded name = false ∧
      Schema.attributeType entity.hints name a = .ok type := by
  obtain ⟨names, a, hnames, hpath, hdeclared, hattribute⟩ := h.declared_of_typeOf? htype
  cases hdeclared with
  | @here _ first _ _ hmem hincluded =>
    obtain rfl : first = name := hpath
    exact ⟨a, hmem, hincluded, hattribute⟩
  | inside hmem hincluded hbelow =>
    -- two names have a point between them
    obtain ⟨second, others, rfl⟩ := List.exists_cons_of_ne_nil hbelow.names_ne_nil
    have hpoint : '.' ∈ name.toList := by
      rw [← hpath, Schema.dotted_eq hnames]
      simp
    simp [hasAttribute, Introspection.isTopLevel, hpoint] at hown

theorem Bound.typeOf?_ordered (h : entity.Bound) (htype : entity.typeOf? path = some type) :
    type.Ordered := by
  obtain ⟨names, a, -, -, hdeclared, hown⟩ := h.declared_of_typeOf? htype
  obtain ⟨⟨-, hordered⟩, -⟩ := bound_iff.mp h
  exact Schema.attributeType_ordered (hdeclared.ordered hordered) hown

theorem Bound.fields_ascending (h : entity.Bound) :
    Assoc.Ascending entity.introspection.fields := by
  obtain ⟨-, -, fields, -, hintrospection⟩ := bound_iff.mp h
  rw [hintrospection]
  exact Assoc.ascending_ofList fields

theorem Bound.topLevel_ascending (h : entity.Bound) : Assoc.Ascending entity.topLevel := by
  refine h.fields_ascending.of_sublist ?_
  simp only [topLevel, Introspection.topLevel, Assoc.keys, List.map_map]
  exact List.filter_sublist.map Prod.fst

/-- The entity's own attributes are the names of the table without a point. -/
theorem Bound.mem_topLevel (h : entity.Bound) :
    (name, type) ∈ entity.topLevel ↔
      entity.hasAttribute name = true ∧ entity.typeOf? name = some type := by
  have hfield : ∀ field, (name, field) ∈ entity.introspection.fields ↔
      Assoc.get? entity.introspection.fields name = some field := fun field =>
    ⟨h.fields_ascending.get?_of_mem, Assoc.mem_of_get?⟩
  constructor
  · intro hmem
    obtain ⟨⟨key, field⟩, hentry, heq⟩ := List.mem_map.mp hmem
    obtain ⟨hentry, htop⟩ := List.mem_filter.mp hentry
    cases heq
    have htype := typeOf?_eq_some.mpr ⟨field, (hfield field).mp hentry, rfl⟩
    exact ⟨by simp [hasAttribute, htop, htype], htype⟩
  · rintro ⟨hown, htype⟩
    obtain ⟨field, hget, rfl⟩ := typeOf?_eq_some.mp htype
    simp only [hasAttribute, Bool.and_eq_true] at hown
    exact List.mem_map.mpr ⟨(name, field),
      List.mem_filter.mpr ⟨(hfield field).mpr hget, hown.1⟩, rfl⟩

end Entity

/-! ## An entity with a secret -/

/-- The name of a vault is sent on edits only; each of its rules has a token that is sensitive. -/
def vaultRegistration : Registration where
  schema :=
    { name := "vault"
      attributes := [("name", .plain .string { required := true }),
        ("rules", .nested .list [("token", .plain .string { sensitive := true })] {})] }
  hints := Hints.none.put .editOnly ["name"]

def vault : Entity where
  schema := vaultRegistration.schema
  hints := vaultRegistration.hints
  introspection := ⟨[("name", ⟨.string, { required := true, editOnly := true }⟩),
    ("rules", ⟨.list (.object [("token", .string)]), { computed := true }⟩),
    ("rules.token", ⟨.string, { computed := true, sensitive := true }⟩)]⟩

theorem vault_bound : vault.Bound := by
  refine ⟨vaultRegistration, ⟨by decide, ?_⟩, rfl⟩
  simp [vaultRegistration, Attribute.ChildrenOrdered, Attribute.Ordered, PlainShape.type,
    ValueType.Ordered]

end EntityModel
