import EntityModel.Proofs.Container.Session
import EntityModel.Proofs.Path.Names

/-!
# Declared types along paths

Two things tell the type of what stands at a path: the value that the path leads to, and the table
of the entity, which is asked for the path without its indices. They come from the two walks of
introspection, one for the types of parents and one for the table, and never disagree.

* `Value.follow_declared`: a path into a value goes along with the declarations.
* `Container.type_of_get_eq_typeOf`: the type of the value is the declared type.
-/

namespace EntityModel

open Schema

/-- The fields of an object are children below a path, each of its type. -/
def FieldsFrom (hints : Hints) (parent : String) (children : List (String × Attribute))
    (fields : List (String × ValueType)) : Prop :=
  ∀ {name type}, Assoc.get? fields name = some type →
    ∃ child, Assoc.get? children name = some child ∧
      attributeType hints (joinPath parent name) child = .ok type

/-- A type of objects with some fields, or of a collection of such objects. -/
def HoldsObjects (fields : List (String × ValueType)) (type : ValueType) : Prop :=
  type = .object fields ∨ type.element? = some (.object fields)

theorem HoldsObjects.item {fields : List (String × ValueType)} {type item : ValueType}
    (h : HoldsObjects fields type) (htype : type = .list item ∨ type = .set item) :
    HoldsObjects fields item := by
  rcases h with heq | heq <;> rcases htype with rfl | rfl <;> cases heq
  · exact .inl rfl
  · exact .inl rfl

variable {hints : Hints} {parent path : String} {children : List (String × Attribute)}
  {fields : List (String × ValueType)} {type : ValueType} {a b : Attribute} {names : List String}

/-- An attribute that names lead into is nested, and its type is made of its children's. -/
theorem fieldsFrom_of_declared (htype : attributeType hints path a = .ok type)
    (h : Declared hints path (a.children?.getD []) names b) :
    ∃ fields, FieldsFrom hints path (a.children?.getD []) fields ∧
      HoldsObjects fields type := by
  cases a with
  | plain shape d => cases h <;> contradiction
  | nested nesting children d =>
    obtain ⟨-, fields, hfields, rfl⟩ := attributeType_nested_ok.mp htype
    refine ⟨fields, fun hget => (get?_childTypes hfields hget).2, ?_⟩
    cases nesting with
    | single => exact .inl rfl
    | list | map => exact .inr rfl
    | set =>
      rw [HoldsObjects, Nesting.type]
      split <;> exact .inr rfl

/-- From a value with objects, a path goes along with the declarations below them, past indices. -/
theorem Value.follow_declared {walked : Path} {segments : List Segment} {name : String}
    {value part : Value} (hvalue : value.WellTyped)
    (hfields : FieldsFrom hints parent children fields)
    (hobjects : HoldsObjects fields value.type) (hasc : Assoc.Ascending children)
    (hordered : Attribute.ChildrenOrdered children) (hlast : segments.getLast? = some (.key name))
    (hdeclared : Declared hints parent children (Path.names segments) b)
    (h : value.follow walked segments = .ok part) :
    attributeType hints (dotted parent (Path.names segments)) b = .ok part.type := by
  induction segments generalizing walked value parent children fields with
  | nil => cases hlast
  | cons segment rest ih =>
    obtain ⟨next, hnext, h⟩ := follow_cons_ok.mp h
    cases segment with
    | index position =>
      -- an index only leads from a collection to one of its objects
      obtain ⟨htype, hwell⟩ := child_index_typed hvalue hnext
      have hne : rest ≠ [] := by
        rintro rfl
        cases hlast
      exact ih hwell hfields (hobjects.item htype) hasc hordered (Path.getLast?_tail hne hlast)
        hdeclared h
    | key key =>
      obtain ⟨own, htype, hget, hwell⟩ := child_key_typed hvalue hnext
      have heq : own = fields := by
        rcases hobjects with heq | heq <;> rw [htype] at heq <;> cases heq
        rfl
      subst heq
      obtain ⟨child, hchild, hchildType⟩ := hfields hget
      have hunique : ∀ {other}, (key, other) ∈ children → other = child := fun hmem =>
        Option.some.inj ((hasc.get?_of_mem hmem).symm.trans hchild)
      have hchildOrdered := childrenOrdered_of_mem hordered (Assoc.mem_of_get? hchild)
      rw [Path.names_key] at hdeclared ⊢
      -- the declarations go on just if the path does, as its last segment is a name
      rcases hdeclared.cons_cases with ⟨hnil, hmem⟩ | ⟨other, hmem, hbelow⟩
      · cases hunique hmem
        have hrest : rest = [] := by
          by_contra hne
          exact Path.names_ne_nil (Path.getLast?_tail hne hlast) hnil
        subst hrest
        cases h
        exact hchildType
      · cases hunique hmem
        obtain ⟨below, hbelowFields, hbelowObjects⟩ := fieldsFrom_of_declared hchildType hbelow
        obtain ⟨hasc', hordered'⟩ := children_ordered hchildOrdered
        have hne : rest ≠ [] := by
          rintro rfl
          exact hbelow.names_ne_nil rfl
        exact ih hwell hbelowFields hbelowObjects hasc' hordered' (Path.getLast?_tail hne hlast)
          hbelow h

/-! ## Paths into containers -/

namespace Container

variable {c : Container} {entity : Entity} {value : Value}

/-- The values of a container, taken for the attributes of one object. -/
def root (c : Container) : Value := .object (Assoc.mapValues Value.type c.values) c.values

theorem follow_root {steps : Path} (h : resolve c.values steps = .ok value) :
    c.root.follow [] steps = .ok value := by
  obtain ⟨name, first, rest, rfl, hget, h⟩ := resolve_ok.mp h
  exact Value.follow_cons_ok.mpr ⟨first, Value.child_key_ok.mpr ⟨_, _, rfl, hget⟩, h⟩

theorem root_wellTyped (h : ∀ entry ∈ c.values, entry.2.WellTyped) : c.root.WellTyped := by
  have general : ∀ entries : ValueTable, (∀ entry ∈ entries, entry.2.WellTyped) →
      Value.AttributesTyped (Assoc.mapValues Value.type entries) entries := by
    intro entries
    induction entries with
    | nil => exact fun _ => trivial
    | cons entry rest ih =>
      intro hentries
      rw [List.forall_mem_cons] at hentries
      exact ⟨rfl, rfl, hentries.1, ih hentries.2⟩
  exact general c.values h

/-- The values of a sound container are those of the entity's own attributes. -/
theorem Sound.fieldsFrom (hc : c.Sound) (hentity : c.entity? = some entity) :
    FieldsFrom entity.hints "" entity.schema.attributes
      (Assoc.mapValues Value.type c.values) := by
  intro name type hget
  rw [Assoc.get?_mapValues, Option.map_eq_some_iff] at hget
  obtain ⟨value, hget, rfl⟩ := hget
  have hfits := hc.fits hentity _ (Assoc.mem_of_get? hget)
  obtain ⟨a, hmem, -, htype⟩ := (hc.bound hentity).declared_of_own hfits.own hfits.type
  obtain ⟨⟨hasc, -⟩, -⟩ := Entity.bound_iff.mp (hc.bound hentity)
  exact ⟨a, hasc.get?_of_mem hmem, htype⟩

theorem get_ok {path : String} :
    c.get path = .ok value ↔ ∃ entity, c.entity? = some entity ∧
      ∃ steps, Path.parse path = .ok steps ∧ resolve c.values steps = .ok value := by
  simp [get, entity_ok, parsePath_ok]

theorem typeOf_ok {path : String} {type : ValueType} :
    c.typeOf path = .ok type ↔ ∃ steps, Path.parse path = .ok steps ∧
      ∃ entity, c.entity? = some entity ∧ entity.typeOf? steps.schemaKey = some type := by
  simp only [typeOf, bind_ok_iff, entity_ok, parsePath_ok]
  refine exists_congr fun steps => and_congr_right fun _ => exists_congr fun entity =>
    and_congr_right fun _ => ?_
  cases entity.typeOf? steps.schemaKey <;> simp

/-- Wherever a path ends in a name, the value it leads to is of the type that the table of the
entity holds for the path without its indices. -/
theorem type_of_get_eq_typeOf {path : String} {steps : Path} {name : String} {value : Value}
    {type : ValueType} (hc : c.Reachable) (hsteps : Path.parse path = .ok steps)
    (hlast : steps.getLast? = some (.key name)) (hget : c.get path = .ok value)
    (htype : c.typeOf path = .ok type) : value.type = type := by
  obtain ⟨entity, hentity, steps', hsteps', hresolve⟩ := get_ok.mp hget
  cases hsteps.symm.trans hsteps'
  obtain ⟨steps'', hsteps'', entity', hentity', htable⟩ := typeOf_ok.mp htype
  cases hsteps.symm.trans hsteps''
  cases hentity.symm.trans hentity'
  have hsound := hc.sound
  have hbound := hsound.bound hentity
  obtain ⟨⟨hasc, hordered⟩, -⟩ := Entity.bound_iff.mp hbound
  obtain ⟨names, b, hnames, hkey, hdeclared, hown⟩ := hbound.declared_of_typeOf? htable
  rw [Path.schemaKey_of_parse hsteps] at hkey hown
  have heq : names = steps.names :=
    dotted_injective hnames (Path.names_of_parse hsteps) hdeclared.names_ne_nil
      (Path.names_ne_nil hlast) hkey
  subst heq
  have hfollow := Value.follow_declared
    (root_wellTyped fun entry hentry => (hsound.fits hentity entry hentry).wellTyped)
    (hsound.fieldsFrom hentity) (.inl rfl) hasc hordered hlast hdeclared (follow_root hresolve)
  exact Except.ok.inj (hfollow.symm.trans hown)

/-- The table knows the token of a rule as `rules.token`. -/
theorem type_of_token :
    (vaultOf "s3").get "rules[0].token" = .ok (.string "s3") ∧
      (vaultOf "s3").typeOf "rules[0].token" = .ok .string ∧
        (Value.string "s3").type = .string := by
  have hsteps : Path.parse "rules[0].token" = .ok [.key "rules", .index 0, .key "token"] := by
    decide +kernel
  have hget : (vaultOf "s3").get "rules[0].token" = .ok (.string "s3") :=
    get_ok.mpr ⟨vault, rfl, _, hsteps, rfl⟩
  have htype : (vaultOf "s3").typeOf "rules[0].token" = .ok .string :=
    typeOf_ok.mpr ⟨_, hsteps, vault, rfl, rfl⟩
  exact ⟨hget, htype, type_of_get_eq_typeOf (vaultOf_reachable "s3") hsteps rfl hget htype⟩

end Container

end EntityModel
