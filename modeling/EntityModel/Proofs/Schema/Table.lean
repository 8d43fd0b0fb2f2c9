import EntityModel.Proofs.Schema.Declared

/-!
# The table of a schema

What introspection records, said without the walk. `Leads` is about the declarations alone: names
lead to an attribute, whatever the hints. `Included` is about the hints alone: no attribute on the
way is excluded. The table holds a field under a path just if such names make up the path, and the
field is what introspection finds out about their attribute.

* `declared_iff`: being declared is being led to and included.
* `introspect_sideBySide`: the table in two halves, of types and of classifications.
* `field?_eq_some`: what the table holds, and `typeOf?_eq_some_iff`,
  `classificationOf?_eq_some_iff`: the same of each half.
* `Leads.names_eq`: an attribute that is reached shares its path with no other.
-/

namespace EntityModel

namespace Schema

variable {hints : Hints} {parent name path : String} {attributes : List (String × Attribute)}
  {names others : List String} {a b : Attribute}

/-! ## Names that lead to attributes -/

/-- Names lead from attributes to one declared in them, at any depth. -/
inductive Leads : List (String × Attribute) → List String → Attribute → Prop where
  | here {attributes : List (String × Attribute)} {name : String} {a : Attribute}
      (hmem : (name, a) ∈ attributes) : Leads attributes [name] a
  | inside {attributes : List (String × Attribute)} {name : String} {names : List String}
      {a b : Attribute} (hmem : (name, a) ∈ attributes)
      (hbelow : Leads (a.children?.getD []) names b) : Leads attributes (name :: names) b

/-- Nothing that the names lead to or past is excluded. -/
def Included (hints : Hints) (parent : String) (names : List String) : Prop :=
  ∀ front, front ≠ [] → front <+: names →
    hints.mentions .excluded (dotted parent front) = false

theorem Leads.names_ne_nil (h : Leads attributes names a) : names ≠ [] := by
  cases h <;> simp

theorem dotted_cons (parent name : String) (names : List String) :
    dotted parent (name :: names) = dotted (joinPath parent name) names := rfl

theorem dotted_append (parent : String) (names others : List String) :
    dotted parent (names ++ others) = dotted (dotted parent names) others := List.foldl_append

theorem included_cons : Included hints parent (name :: names) ↔
    hints.mentions .excluded (joinPath parent name) = false ∧
      Included hints (joinPath parent name) names := by
  constructor
  · intro h
    refine ⟨h [name] (by simp) (by simp), fun front hne hfront => ?_⟩
    exact h (name :: front) (by simp) (List.cons_prefix_cons.mpr ⟨rfl, hfront⟩)
  · rintro ⟨hname, hnames⟩ front hne hfront
    obtain ⟨first, rest, rfl⟩ := List.exists_cons_of_ne_nil hne
    obtain ⟨rfl, hrest⟩ := List.cons_prefix_cons.mp hfront
    by_cases hnil : rest = []
    · subst hnil
      exact hname
    · exact hnames rest hnil hrest

theorem Included.reached (h : Included hints parent names) :
    Included hints parent names.dropLast := by
  intro front hne hfront
  have hdrop : names.dropLast <+: names := List.dropLast_prefix names
  exact h front hne (hfront.trans hdrop)

theorem included_nil : Included hints parent [] := by
  intro front hne hfront
  exact absurd (List.prefix_nil.mp hfront) hne

theorem included_concat : Included hints parent (names ++ [name]) ↔
    Included hints parent names ∧
      hints.mentions .excluded (joinPath (dotted parent names) name) = false := by
  induction names generalizing parent with
  | nil => simp [included_cons, included_nil, dotted]
  | cons first rest ih =>
    rw [List.cons_append, included_cons, included_cons, ih, and_assoc]
    rfl

theorem declared_iff : Declared hints parent attributes names a ↔
    Leads attributes names a ∧ Included hints parent names := by
  constructor
  · intro h
    induction h with
    | here hmem hincluded => exact ⟨.here hmem, included_cons.mpr ⟨hincluded, included_nil⟩⟩
    | inside hmem hincluded _ ih =>
      exact ⟨.inside hmem ih.1, included_cons.mpr ⟨hincluded, ih.2⟩⟩
  · rintro ⟨hleads, hincluded⟩
    induction hleads generalizing parent with
    | here hmem => exact .here hmem (included_cons.mp hincluded).1
    | inside hmem _ ih =>
      obtain ⟨hfirst, hrest⟩ := included_cons.mp hincluded
      exact .inside hmem hfirst (ih hrest)

theorem Leads.cons_cases (h : Leads attributes (name :: names) b) :
    names = [] ∧ (name, b) ∈ attributes ∨
      ∃ a, (name, a) ∈ attributes ∧ Leads (a.children?.getD []) names b := by
  cases h with
  | here hmem => exact .inl ⟨rfl, hmem⟩
  | inside hmem hbelow => exact .inr ⟨_, hmem, hbelow⟩

/-- The name that a path of names begins with is that of an attribute. -/
theorem Leads.first_mem (h : Leads attributes (name :: names) b) :
    ∃ a, (name, a) ∈ attributes := by
  rcases h.cons_cases with ⟨-, hmem⟩ | ⟨a, hmem, -⟩
  · exact ⟨b, hmem⟩
  · exact ⟨a, hmem⟩

theorem Leads.mono {rest : List (String × Attribute)} (h : Leads rest names a)
    (hsub : rest ⊆ attributes) : Leads attributes names a := by
  cases h with
  | here hmem => exact .here (hsub hmem)
  | inside hmem hbelow => exact .inside (hsub hmem) hbelow

theorem Leads.child (h : Leads attributes names a) (hmem : (name, b) ∈ a.children?.getD []) :
    Leads attributes (names ++ [name]) b := by
  induction h with
  | here hfirst => exact .inside hfirst (.here hmem)
  | inside hfirst _ ih => exact .inside hfirst (ih hmem)

theorem Leads.of_concat (h : Leads attributes (names ++ [name]) b) (hne : names ≠ []) :
    ∃ a, Leads attributes names a ∧ (name, b) ∈ a.children?.getD [] := by
  induction names generalizing attributes with
  | nil => exact absurd rfl hne
  | cons first rest ih =>
    rw [List.cons_append] at h
    obtain ⟨hnil, -⟩ | ⟨a, hfirst, hbelow⟩ := h.cons_cases
    · simp at hnil
    · by_cases hrest : rest = []
      · subst hrest
        obtain ⟨-, hmem⟩ | ⟨_, -, hnone⟩ := hbelow.cons_cases
        · exact ⟨a, .here hfirst, hmem⟩
        · exact absurd rfl hnone.names_ne_nil
      · obtain ⟨b, hleads, hmem⟩ := ih hbelow hrest
        exact ⟨b, .inside hfirst hleads, hmem⟩

/-- In ordered declarations names lead to one attribute. -/
theorem Leads.unique (hasc : Assoc.Ascending attributes)
    (hordered : Attribute.ChildrenOrdered attributes) (h : Leads attributes names a)
    (h' : Leads attributes names b) : a = b := by
  have hincluded : Included Hints.none "" names := fun _ _ _ => rfl
  exact Declared.unique hasc hordered (declared_iff.mpr ⟨h, hincluded⟩)
    (declared_iff.mpr ⟨h', hincluded⟩)

/-! ## What the walk goes through -/

theorem isName_of_mem {fields : List (String × Field)}
    (h : fieldsBelow hints parent attributes = .ok fields) (hmem : (name, a) ∈ attributes) :
    isName name = true := by
  induction attributes generalizing fields with
  | nil => cases hmem
  | cons entry rest ih =>
    obtain ⟨hname, h⟩ := fieldsBelow_cons_ok.mp h
    rcases List.mem_cons.mp hmem with rfl | hmem
    · exact hname
    · split at h
      · exact ih h hmem
      · obtain ⟨own, -, others, hothers, -⟩ := h
        exact ih hothers hmem

/-- The fields of an included attribute are among those of the walk. -/
theorem attributeFields_of_mem {fields : List (String × Field)}
    (h : fieldsBelow hints parent attributes = .ok fields) (hmem : (name, a) ∈ attributes)
    (hincluded : hints.mentions .excluded (joinPath parent name) = false) :
    ∃ own, attributeFields hints (joinPath parent name) a = .ok own ∧ own ⊆ fields := by
  induction attributes generalizing fields with
  | nil => cases hmem
  | cons entry rest ih =>
    obtain ⟨-, h⟩ := fieldsBelow_cons_ok.mp h
    rcases List.mem_cons.mp hmem with rfl | hmem
    · rw [if_neg (by simp [hincluded])] at h
      obtain ⟨own, hown, others, -, rfl⟩ := h
      exact ⟨own, hown, List.subset_append_left _ _⟩
    · split at h
      · exact ih h hmem
      · obtain ⟨_, -, others, hothers, rfl⟩ := h
        obtain ⟨own, hown, hsub⟩ := ih hothers hmem
        exact ⟨own, hown, List.Subset.trans hsub (List.subset_append_right _ _)⟩

/-- The walk records every declared attribute. -/
theorem Declared.recorded {fields : List (String × Field)}
    (hdeclared : Declared hints parent attributes names a)
    (h : fieldsBelow hints parent attributes = .ok fields) :
    ∃ field, (dotted parent names, field) ∈ fields ∧
      FieldOf hints (dotted parent names) a field := by
  induction hdeclared generalizing fields with
  | here hmem hincluded =>
    obtain ⟨own, hown, hsub⟩ := attributeFields_of_mem h hmem hincluded
    obtain ⟨type, htype, c, hc, below, -, rfl⟩ := attributeFields_ok.mp hown
    exact ⟨⟨type, c⟩, hsub List.mem_cons_self, htype, hc⟩
  | inside hmem hincluded _ ih =>
    obtain ⟨own, hown, hsub⟩ := attributeFields_of_mem h hmem hincluded
    obtain ⟨type, -, c, -, below, hbelow, rfl⟩ := attributeFields_ok.mp hown
    obtain ⟨field, hfield, hof⟩ := ih hbelow
    exact ⟨field, hsub (List.mem_cons_of_mem _ hfield), hof⟩

/-- The walk checks the names that it passes, also that of an attribute which it then leaves out:
only what is nested in such an attribute is never looked at. -/
theorem Leads.isName {fields : List (String × Field)} (hleads : Leads attributes names a)
    (hreached : Included hints parent names.dropLast)
    (h : fieldsBelow hints parent attributes = .ok fields) :
    ∀ name ∈ names, isName name = true := by
  induction hleads generalizing parent fields with
  | here hmem => simpa using isName_of_mem h hmem
  | inside hmem hbelow ih =>
    rw [List.dropLast_cons_of_ne_nil hbelow.names_ne_nil] at hreached
    obtain ⟨hincluded, hreached⟩ := included_cons.mp hreached
    obtain ⟨own, hown, -⟩ := attributeFields_of_mem h hmem hincluded
    obtain ⟨_, -, _, -, below, hchildren, -⟩ := attributeFields_ok.mp hown
    exact List.forall_mem_cons.mpr ⟨isName_of_mem h hmem, ih hreached hchildren⟩

/-! ## Paths below paths -/

/-- A dotted path leads further than another. -/
def Below (path above : String) : Prop := ∃ rest, path = above ++ "." ++ rest

theorem below_iff {above : String} :
    Below path above ↔ (above ++ ".").toList <+: path.toList := by
  constructor
  · rintro ⟨rest, rfl⟩
    exact ⟨rest.toList, (String.toList_append ..).symm⟩
  · rintro ⟨rest, hrest⟩
    refine ⟨String.ofList rest, String.toList_inj.mp ?_⟩
    rw [String.toList_append, String.toList_ofList, hrest]

instance (path above : String) : Decidable (Below path above) := decidable_of_iff _ below_iff.symm

theorem dotted_ne_empty (h : parent ≠ "") (names : List String) : dotted parent names ≠ "" := by
  rw [dotted_of_ne h]
  cases names <;> simp [h]

theorem below_dotted (h : parent ≠ "") (hne : names ≠ []) :
    Below (dotted parent names) parent := by
  obtain ⟨name, rest, rfl⟩ := List.exists_cons_of_ne_nil hne
  exact ⟨".".intercalate (name :: rest), by rw [dotted_of_ne h, String.intercalate_cons_cons]⟩

/-- What a path of names is below is a path of the first of these names. -/
theorem exists_append_of_below (hnames : ∀ name ∈ names, Schema.isName name = true)
    (h : Below (dotted "" names) path) :
    ∃ front back, names = front ++ back ∧ front ≠ [] ∧ back ≠ [] ∧
      dotted "" front = path := by
  obtain ⟨rest, h⟩ := h
  have hchars : (dotted "" names).toList = path.toList ++ '.' :: rest.toList := by
    simp [h]
  have hne : names ≠ [] := by
    rintro rfl
    simp [dotted] at hchars
  have hsplit : names.map String.toList =
      path.toList.splitOn '.' ++ rest.toList.splitOn '.' := by
    rw [← splitOn_dotted hnames hne, hchars]
    exact List.splitOnP_append_cons _ _ (by simp)
  obtain ⟨front, back, rfl, hfront, hback⟩ := List.map_eq_append_iff.mp hsplit
  have hfrontNe : front ≠ [] := by
    rintro rfl
    exact List.splitOn_ne_nil _ _ hfront.symm
  have hbackNe : back ≠ [] := by
    rintro rfl
    exact List.splitOn_ne_nil _ _ hback.symm
  refine ⟨front, back, rfl, hfrontNe, hbackNe, ?_⟩
  rw [dotted_eq fun name hname => hnames name (List.mem_append_left _ hname)]
  apply String.toList_inj.mp
  rw [String.toList_intercalate, hfront]
  exact List.intercalate_splitOn '.'

theorem prefix_dropLast_iff {front : List String} (hne : names ≠ []) :
    front <+: names.dropLast ↔ ∃ back, back ≠ [] ∧ names = front ++ back := by
  constructor
  · rintro ⟨rest, hrest⟩
    refine ⟨rest ++ [names.getLast hne], by simp, ?_⟩
    rw [← List.append_assoc, hrest, List.dropLast_append_getLast]
  · rintro ⟨back, hback, rfl⟩
    exact ⟨back.dropLast, (List.dropLast_append_of_ne_nil hback).symm⟩

/-- Only the path of the entity itself is empty. -/
theorem Leads.front_ne_empty {front : List String} {fields : List (String × Field)}
    (h : Leads attributes names a) (hfront : front ≠ []) (hsub : front <+: names)
    (hfields : fieldsBelow hints "" attributes = .ok fields) : dotted "" front ≠ "" := by
  obtain ⟨first, rest, rfl⟩ := List.exists_cons_of_ne_nil hfront
  obtain ⟨back, rfl⟩ := hsub
  obtain ⟨b, hmem⟩ := h.first_mem
  have hname : first ≠ "" := isName_ne_empty (isName_of_mem hfields hmem)
  rw [dotted_cons]
  exact Schema.dotted_ne_empty hname rest

/-- An attribute that the walk comes to, whether it is left out then or not, shares its path with no
other attribute. Nested in attributes that are left out there may be anything, but its path is below
theirs. -/
theorem Leads.names_eq {fields : List (String × Field)} (h : Leads attributes names a)
    (hother : Leads attributes others b) (hreached : Included hints "" names.dropLast)
    (hfields : fieldsBelow hints "" attributes = .ok fields)
    (hpath : dotted "" names = dotted "" others) : names = others := by
  have hnames := h.isName hreached hfields
  by_cases hreached' : Included hints "" others.dropLast
  · exact dotted_injective hnames (hother.isName hreached' hfields) h.names_ne_nil
      hother.names_ne_nil hpath
  · exfalso
    simp only [Included, not_forall] at hreached'
    obtain ⟨front, hfront, hdrop, hexcluded⟩ := hreached'
    obtain ⟨back, hback, rfl⟩ := (prefix_dropLast_iff hother.names_ne_nil).mp hdrop
    have hne : dotted "" front ≠ "" :=
      hother.front_ne_empty hfront (List.prefix_append front back) hfields
    have hbelow : Below (dotted "" names) (dotted "" front) := by
      rw [hpath, dotted_append]
      exact below_dotted hne hback
    -- so the excluded attribute is on the way to both
    obtain ⟨front', back', rfl, hfront', hback', heq⟩ := exists_append_of_below hnames hbelow
    have hdrop' : front' <+: (front' ++ back').dropLast :=
      (prefix_dropLast_iff h.names_ne_nil).mpr ⟨back', hback', rfl⟩
    exact hexcluded (heq ▸ hreached front' hfront' hdrop')

end Schema

/-! ## Look-ups -/

open Schema

variable {schema : EntitySchema} {hints : Hints} {i : Introspection} {path : String}

theorem introspect_ok :
    introspect schema hints = .ok i ↔ checkHints hints = .ok () ∧
      ∃ fields, fieldsBelow hints "" schema.attributes = .ok fields ∧
        ⟨Assoc.ofList fields⟩ = i := by
  simp [introspect]

/-! ## The two halves -/

/-- The table of the types alone. -/
def Introspection.types (i : Introspection) : Assoc ValueType :=
  Assoc.mapValues Field.type i.fields

/-- The table of the classifications alone. -/
def Introspection.classifications (i : Introspection) : Assoc Classification :=
  Assoc.mapValues Field.classification i.fields

theorem get?_types : Assoc.get? i.types path = i.typeOf? path :=
  Assoc.get?_mapValues Field.type i.fields path

theorem get?_classifications : Assoc.get? i.classifications path = i.classificationOf? path :=
  Assoc.get?_mapValues Field.classification i.fields path

theorem keys_types : Assoc.keys i.types = Assoc.keys i.classifications :=
  (Assoc.keys_mapValues _ _).trans (Assoc.keys_mapValues _ _).symm

/-- Two tables that the walk fills side by side are the two halves of the one table. -/
theorem introspect_sideBySide (h : introspect schema hints = .ok i) :
    ∃ fields, fieldsBelow hints "" schema.attributes = .ok fields ∧
      Assoc.ofList (Assoc.mapValues Field.type fields) = i.types ∧
      Assoc.ofList (Assoc.mapValues Field.classification fields) = i.classifications := by
  obtain ⟨-, fields, hfields, rfl⟩ := introspect_ok.mp h
  exact ⟨fields, hfields, (Assoc.mapValues_ofList _ _).symm, (Assoc.mapValues_ofList _ _).symm⟩

/-! ## What the table holds -/

theorem Schema.FieldOf.unique {a : Attribute} {field other : Field} (h : FieldOf hints path a field)
    (hother : FieldOf hints path a other) : field = other := by
  obtain ⟨type, c⟩ := field
  obtain ⟨type', c'⟩ := other
  obtain rfl : type = type' := Except.ok.inj (h.type.symm.trans hother.type)
  obtain rfl : c = c' := Except.ok.inj (h.classification.symm.trans hother.classification)
  rfl

theorem field?_eq_some {field : Field} (hschema : schema.Ordered)
    (h : introspect schema hints = .ok i) :
    i.field? path = some field ↔
      ∃ names a, dotted "" names = path ∧ Leads schema.attributes names a ∧
        Included hints "" names ∧ FieldOf hints path a field := by
  obtain ⟨-, fields, hfields, rfl⟩ := introspect_ok.mp h
  have hsound : ∀ {field}, Introspection.field? ⟨Assoc.ofList fields⟩ path = some field →
      ∃ names a, dotted "" names = path ∧ Leads schema.attributes names a ∧
        Included hints "" names ∧ FieldOf hints path a field := by
    intro field hget
    have hmem := Assoc.mem_of_mem_ofList (Assoc.mem_of_get? hget)
    obtain ⟨names, a, -, hpath, hdeclared, hof⟩ := records_fieldsBelow hfields _ hmem
    obtain ⟨hleads, hincluded⟩ := declared_iff.mp hdeclared
    exact ⟨names, a, hpath, hleads, hincluded, hof⟩
  refine ⟨hsound, ?_⟩
  rintro ⟨names, a, rfl, hleads, hincluded, hof⟩
  obtain ⟨own, hmem, -⟩ := (declared_iff.mpr ⟨hleads, hincluded⟩).recorded hfields
  have hkey : dotted "" names ∈ Assoc.keys (Assoc.ofList fields) :=
    Assoc.mem_keys_ofList.mpr (List.mem_map.mpr ⟨_, hmem, rfl⟩)
  obtain ⟨found, hfound⟩ := Option.isSome_iff_exists.mp (Assoc.mem_keys_iff.mp hkey)
  -- what is found under the path is the field of the same attribute
  obtain ⟨names', a', hpath, hleads', -, hof'⟩ := hsound hfound
  obtain rfl := hleads.names_eq hleads' hincluded.reached hfields hpath.symm
  obtain rfl := hleads.unique hschema.1 hschema.2 hleads'
  rw [hof.unique hof']
  exact hfound

/-- Each half of a field is found by itself, as the walk has found both. -/
theorem exists_fieldOf {names : List String} {a : Attribute} (h : introspect schema hints = .ok i)
    (hleads : Leads schema.attributes names a) (hincluded : Included hints "" names) :
    ∃ field, FieldOf hints (dotted "" names) a field := by
  obtain ⟨-, fields, hfields, -⟩ := introspect_ok.mp h
  obtain ⟨field, -, hof⟩ := (declared_iff.mpr ⟨hleads, hincluded⟩).recorded hfields
  exact ⟨field, hof⟩

/-- What a half of the table holds, given what finds this half of the field of an attribute. -/
theorem half_eq_some_iff {α : Type} {x : α} (half : Field → α)
    (find : String → Attribute → Except SchemaError α)
    (hfind : ∀ {path a field}, FieldOf hints path a field → find path a = .ok (half field))
    (hschema : schema.Ordered) (h : introspect schema hints = .ok i) :
    (i.field? path).map half = some x ↔
      ∃ names a, dotted "" names = path ∧ Leads schema.attributes names a ∧
        Included hints "" names ∧ find path a = .ok x := by
  rw [Option.map_eq_some_iff]
  constructor
  · rintro ⟨field, hfield, rfl⟩
    obtain ⟨names, a, hpath, hleads, hincluded, hof⟩ := (field?_eq_some hschema h).mp hfield
    exact ⟨names, a, hpath, hleads, hincluded, hfind hof⟩
  · rintro ⟨names, a, rfl, hleads, hincluded, hx⟩
    obtain ⟨field, hof⟩ := exists_fieldOf h hleads hincluded
    have hfield := (field?_eq_some hschema h).mpr ⟨names, a, rfl, hleads, hincluded, hof⟩
    exact ⟨field, hfield, Except.ok.inj ((hfind hof).symm.trans hx)⟩

theorem typeOf?_eq_some_iff {type : ValueType} (hschema : schema.Ordered)
    (h : introspect schema hints = .ok i) :
    i.typeOf? path = some type ↔
      ∃ names a, dotted "" names = path ∧ Leads schema.attributes names a ∧
        Included hints "" names ∧ attributeType hints path a = .ok type :=
  half_eq_some_iff Field.type (attributeType hints) (fun hof => hof.type) hschema h

theorem classificationOf?_eq_some_iff {c : Classification} (hschema : schema.Ordered)
    (h : introspect schema hints = .ok i) :
    i.classificationOf? path = some c ↔
      ∃ names a, dotted "" names = path ∧ Leads schema.attributes names a ∧
        Included hints "" names ∧ classify hints path a = .ok c :=
  half_eq_some_iff Field.classification (classify hints) (fun hof => hof.classification) hschema h

theorem isSome_typeOf? : (i.typeOf? path).isSome ↔ (i.classificationOf? path).isSome := by
  rw [← get?_types, ← get?_classifications, ← Assoc.mem_keys_iff, ← Assoc.mem_keys_iff,
    keys_types]

theorem isSome_typeOf?_iff (hschema : schema.Ordered) (h : introspect schema hints = .ok i) :
    (i.typeOf? path).isSome ↔ ∃ names a, dotted "" names = path ∧
      Leads schema.attributes names a ∧ Included hints "" names := by
  rw [Option.isSome_iff_exists]
  constructor
  · rintro ⟨type, htype⟩
    obtain ⟨names, a, hpath, hleads, hincluded, -⟩ := (typeOf?_eq_some_iff hschema h).mp htype
    exact ⟨names, a, hpath, hleads, hincluded⟩
  · rintro ⟨names, a, rfl, hleads, hincluded⟩
    obtain ⟨field, hof⟩ := exists_fieldOf h hleads hincluded
    exact ⟨field.type, (typeOf?_eq_some_iff hschema h).mpr
      ⟨names, a, rfl, hleads, hincluded, hof.type⟩⟩

/-! ## A schema with an exclusion -/

/-- The pools of a cluster are a set of objects, in which it is asked for order; the token of a pool
is left out. -/
def cluster : EntitySchema where
  name := "cluster"
  attributes := [("spec", .nested .single
    [("pools", .nested .set [("name", .plain .string {}), ("token", .plain .string {})] {}),
      ("zone", .plain .string {})] {})]

def clusterHints : Hints :=
  (Hints.none.add .excluded ["spec.pools.token"]).add .preserveOrder ["spec.pools"]

def clusterTable : Introspection where
  fields := [
    ("spec", ⟨.object [("pools", .list (.object [("name", .string)])), ("zone", .string)],
      { computed := true }⟩),
    ("spec.pools", ⟨.list (.object [("name", .string)]), { computed := true }⟩),
    ("spec.pools.name", ⟨.string, { computed := true }⟩),
    ("spec.zone", ⟨.string, { computed := true }⟩)]

theorem cluster_ordered : cluster.Ordered := by
  refine ⟨by decide, ?_⟩
  simp only [cluster, Attribute.ChildrenOrdered, Attribute.Ordered, PlainShape.type,
    ValueType.Ordered, and_true]
  decide

theorem introspect_cluster : introspect cluster clusterHints = .ok clusterTable := rfl

end EntityModel
