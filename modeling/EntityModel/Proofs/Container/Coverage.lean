import EntityModel.Proofs.Container.PathTypes
import EntityModel.Proofs.Path.Spelling
import EntityModel.Proofs.Schema.Table

/-!
# Every declared attribute is found

The table holds the declared attributes that are not left out, each under a path of its own, and
this path, as a text, leads a container back to it, with indices or without.

* `topLevel_names`: the entity's own attributes.
* `Container.typeOf_spell`, `Container.classification_spell`: a path with indices is answered for
  the names in it.
* `introspect_covers`: the attributes, their paths and their look-ups.
* `shadowed_paths`: nested in an attribute that is left out, names are not checked, and paths may
  coincide.
-/

namespace EntityModel

open Schema

variable {schema : EntitySchema} {hints : Hints} {i : Introspection} {names others : List String}
  {a b : Attribute}

theorem bound_of_introspect (hschema : schema.Ordered) (h : introspect schema hints = .ok i) :
    Entity.Bound ⟨schema, hints, i⟩ := by
  obtain ⟨hhints, fields, hfields, rfl⟩ := introspect_ok.mp h
  exact Entity.bound_iff.mpr ⟨hschema, hhints, fields, hfields, rfl⟩

theorem names_of_included (h : introspect schema hints = .ok i)
    (hleads : Leads schema.attributes names a) (hincluded : Included hints "" names) :
    ∀ name ∈ names, isName name = true := by
  obtain ⟨-, fields, hfields, -⟩ := introspect_ok.mp h
  exact hleads.isName hincluded.reached hfields

/-- Which of the entity's own names the table holds. -/
theorem isSome_typeOf?_own {name : String} (hschema : schema.Ordered)
    (h : introspect schema hints = .ok i) :
    Introspection.isTopLevel name = true ∧ (i.typeOf? name).isSome ↔
      name ∈ Assoc.keys schema.attributes ∧ hints.mentions .excluded name = false := by
  rw [isSome_typeOf?_iff hschema h]
  constructor
  · rintro ⟨htop, names, a, hpath, hleads, hincluded⟩
    have hnames := names_of_included h hleads hincluded
    obtain ⟨first, rest, rfl⟩ := List.exists_cons_of_ne_nil hleads.names_ne_nil
    rcases hleads.cons_cases with ⟨rfl, hmem⟩ | ⟨b, -, hbelow⟩
    · obtain rfl : first = name := hpath
      exact ⟨List.mem_map_of_mem hmem, (included_cons.mp hincluded).1⟩
    · -- two names have a point between them
      obtain ⟨second, others, rfl⟩ := List.exists_cons_of_ne_nil hbelow.names_ne_nil
      have hpoint : '.' ∈ name.toList := by
        rw [← hpath, dotted_eq hnames]
        simp
      simp [Introspection.isTopLevel, hpoint] at htop
  · rintro ⟨hkey, hincluded⟩
    obtain ⟨⟨_, a⟩, hmem, rfl⟩ := List.mem_map.mp hkey
    obtain ⟨-, fields, hfields, -⟩ := introspect_ok.mp h
    have hpoint := isName_no_point (isName_of_mem hfields hmem)
    exact ⟨by simp [Introspection.isTopLevel, hpoint], [_], a, rfl, .here hmem,
      included_cons.mpr ⟨hincluded, included_nil⟩⟩

theorem topLevel_names (hschema : schema.Ordered) (h : introspect schema hints = .ok i) :
    i.topLevel.map Prod.fst =
      (Assoc.keys schema.attributes).filter fun name => !hints.mentions .excluded name := by
  have hbound := bound_of_introspect hschema h
  have hkept :
      Assoc.keys (schema.attributes.filter fun entry => !hints.mentions .excluded entry.1) =
        (Assoc.keys schema.attributes).filter fun name => !hints.mentions .excluded name := by
    rw [Assoc.keys, Assoc.keys, List.filter_map]
    rfl
  have hasc : Assoc.Ascending
      (schema.attributes.filter fun entry => !hints.mentions .excluded entry.1) :=
    hschema.1.of_sublist (List.filter_sublist.map Prod.fst)
  rw [← hkept]
  refine hbound.topLevel_ascending.keys_ext hasc fun name => ?_
  have hmem : name ∈ Assoc.keys i.topLevel ↔
      Introspection.isTopLevel name = true ∧ (i.typeOf? name).isSome := by
    constructor
    · intro hkey
      obtain ⟨⟨_, type⟩, hentry, rfl⟩ := List.mem_map.mp hkey
      obtain ⟨hown, htype⟩ := hbound.mem_topLevel.mp hentry
      exact Bool.and_eq_true_iff.mp hown
    · intro hown
      obtain ⟨type, htype⟩ := Option.isSome_iff_exists.mp hown.2
      have hentry : (name, type) ∈ i.topLevel :=
        hbound.mem_topLevel.mpr ⟨Bool.and_eq_true_iff.mpr hown, htype⟩
      exact List.mem_map_of_mem hentry
  rw [hkept, List.mem_filter, Bool.not_eq_true']
  exact hmem.trans (isSome_typeOf?_own hschema h)

/-! ## Look-ups of a container -/

namespace Container

variable {c : Container} {entity : Entity} {parts : List Path.Part}

theorem classification_ok {path : String} {found : Classification} :
    c.classification path = .ok found ↔ ∃ steps, Path.parse path = .ok steps ∧
      ∃ entity, c.entity? = some entity ∧
        entity.classificationOf? steps.schemaKey = some found := by
  simp only [classification, bind_ok_iff, entity_ok, parsePath_ok]
  refine exists_congr fun steps => and_congr_right fun _ => exists_congr fun entity =>
    and_congr_right fun _ => ?_
  cases entity.classificationOf? steps.schemaKey <;> simp

theorem schemaKey_spell (hne : parts ≠ [])
    (hnames : ∀ name ∈ parts.map Path.Part.name, isName name = true) :
    ∃ steps, Path.parse (Path.spell parts) = .ok steps ∧
      steps.schemaKey = dotted "" (parts.map Path.Part.name) := by
  have hparse := Path.parse_spell hne fun part hpart => hnames _ (List.mem_map_of_mem hpart)
  exact ⟨_, hparse, by rw [Path.schemaKey_of_parse hparse, Path.names_flatMap]⟩

theorem typeOf_spell {type : ValueType} (hentity : c.entity? = some entity) (hne : parts ≠ [])
    (hnames : ∀ name ∈ parts.map Path.Part.name, isName name = true)
    (htype : entity.typeOf? (dotted "" (parts.map Path.Part.name)) = some type) :
    c.typeOf (Path.spell parts) = .ok type := by
  obtain ⟨steps, hparse, hkey⟩ := schemaKey_spell hne hnames
  exact typeOf_ok.mpr ⟨steps, hparse, entity, hentity, hkey ▸ htype⟩

theorem classification_spell {found : Classification} (hentity : c.entity? = some entity)
    (hne : parts ≠ []) (hnames : ∀ name ∈ parts.map Path.Part.name, isName name = true)
    (hfound : entity.classificationOf? (dotted "" (parts.map Path.Part.name)) = some found) :
    c.classification (Path.spell parts) = .ok found := by
  obtain ⟨steps, hparse, hkey⟩ := schemaKey_spell hne hnames
  exact classification_ok.mpr ⟨steps, hparse, entity, hentity, hkey ▸ hfound⟩

end Container

theorem dotted_eq_spell (hnames : ∀ name ∈ names, isName name = true) :
    dotted "" names = Path.spell (names.map Path.Part.ofName) := by
  rw [Path.spell_names, dotted_eq hnames]

theorem parse_dotted (hne : names ≠ []) (hnames : ∀ name ∈ names, isName name = true) :
    Path.parse (dotted "" names) = .ok (names.map Segment.key) := by
  have hparts : ∀ part ∈ names.map Path.Part.ofName, isName part.name = true := by
    intro part hpart
    obtain ⟨name, hname, rfl⟩ := List.mem_map.mp hpart
    exact hnames name hname
  rw [dotted_eq_spell hnames, Path.parse_spell (by simpa using hne) hparts, List.flatMap_map]
  exact congrArg Except.ok List.map_eq_flatMap.symm

/-- The types and the classifications that the walk enters side by side are the two halves of the
table, so that both stand under the same paths. These are the paths of the declared attributes that
are not left out themselves or with an attribute around them. The path of an attribute that is not
nested in one that is left out is that of no other. As a text it is read as the names on the way to
the attribute, and a container of the entity answers it, and every text that puts indices behind
some of the names, with what the table holds of the attribute. -/
theorem introspect_covers (hschema : schema.Ordered) (h : introspect schema hints = .ok i) :
    (∃ fields, fieldsBelow hints "" schema.attributes = .ok fields ∧
      Assoc.ofList (Assoc.mapValues Field.type fields) = i.types ∧
      Assoc.ofList (Assoc.mapValues Field.classification fields) = i.classifications) ∧
    (∀ path, (i.typeOf? path).isSome ↔ (i.classificationOf? path).isSome) ∧
    (∀ path, (i.typeOf? path).isSome ↔ ∃ names a, dotted "" names = path ∧
      Leads schema.attributes names a ∧ Included hints "" names) ∧
    (∀ names others a b, Leads schema.attributes names a → Leads schema.attributes others b →
      Included hints "" names.dropLast → dotted "" names = dotted "" others →
        names = others ∧ a = b) ∧
    i.topLevel.map Prod.fst =
      (Assoc.keys schema.attributes).filter (fun name => !hints.mentions .excluded name) ∧
    ∀ names a, Leads schema.attributes names a → Included hints "" names →
      ∃ field, FieldOf hints (dotted "" names) a field ∧
        i.field? (dotted "" names) = some field ∧
        Path.parse (dotted "" names) = .ok (names.map Segment.key) ∧
        ∀ c : Container, c.entity? = some ⟨schema, hints, i⟩ →
          (c.typeOf (dotted "" names) = .ok field.type ∧
            c.classification (dotted "" names) = .ok field.classification) ∧
          ∀ parts, parts.map Path.Part.name = names →
            c.typeOf (Path.spell parts) = .ok field.type ∧
              c.classification (Path.spell parts) = .ok field.classification := by
  refine ⟨introspect_sideBySide h, fun _ => isSome_typeOf?, fun _ => isSome_typeOf?_iff hschema h,
    ?_, topLevel_names hschema h, ?_⟩
  · intro names others a b hleads hother hreached hpath
    obtain ⟨-, fields, hfields, -⟩ := introspect_ok.mp h
    obtain rfl := hleads.names_eq hother hreached hfields hpath
    exact ⟨rfl, hleads.unique hschema.1 hschema.2 hother⟩
  · intro names a hleads hincluded
    have hnames := names_of_included h hleads hincluded
    obtain ⟨field, hof⟩ := exists_fieldOf h hleads hincluded
    have hfield : i.field? (dotted "" names) = some field :=
      (field?_eq_some hschema h).mpr ⟨names, a, rfl, hleads, hincluded, hof⟩
    refine ⟨field, hof, hfield, parse_dotted hleads.names_ne_nil hnames, fun c hentity => ?_⟩
    have hspell : ∀ parts, parts.map Path.Part.name = names →
        c.typeOf (Path.spell parts) = .ok field.type ∧
          c.classification (Path.spell parts) = .ok field.classification := by
      rintro parts rfl
      have hne : parts ≠ [] := by simpa using hleads.names_ne_nil
      have htype : i.typeOf? (dotted "" (parts.map Path.Part.name)) = some field.type := by
        rw [Introspection.typeOf?, hfield, Option.map_some]
      have hfound : i.classificationOf? (dotted "" (parts.map Path.Part.name)) =
          some field.classification := by
        rw [Introspection.classificationOf?, hfield, Option.map_some]
      exact ⟨Container.typeOf_spell hentity hne hnames htype,
        Container.classification_spell hentity hne hnames hfound⟩
    have hplain : (names.map Path.Part.ofName).map Path.Part.name = names := by
      rw [List.map_map]
      exact List.map_id names
    exact ⟨dotted_eq_spell hnames ▸ hspell _ hplain, hspell⟩

/-- A container without values that is bound to the cluster. -/
def clusterContainer : Container where
  entity? := some ⟨cluster, clusterHints, clusterTable⟩
  values := []

/-- The name of a pool is known under its path and for whichever pool is meant. -/
theorem cluster_pool_name :
    cluster.Ordered ∧ introspect cluster clusterHints = .ok clusterTable ∧
      clusterTable.topLevel.map Prod.fst = ["spec"] ∧
      clusterContainer.typeOf "spec.pools.name" = .ok .string ∧
      clusterContainer.typeOf "spec.pools[3].name" = .ok .string ∧
      clusterContainer.classification "spec.pools[3].name" = .ok { computed := true } := by
  obtain ⟨-, -, -, -, htop, hfound⟩ := introspect_covers cluster_ordered introspect_cluster
  have hleads : Leads cluster.attributes ["spec", "pools", "name"] (.plain .string {}) :=
    .inside List.mem_cons_self (.inside List.mem_cons_self (.here List.mem_cons_self))
  have hincluded : Included clusterHints "" ["spec", "pools", "name"] := by
    simp only [included_cons]
    exact ⟨rfl, rfl, rfl, included_nil⟩
  obtain ⟨field, -, hfield, -, hanswers⟩ := hfound _ _ hleads hincluded
  cases hfield
  obtain ⟨⟨hplain, -⟩, hindexed⟩ := hanswers clusterContainer rfl
  have htext : Path.spell [.ofName "spec", ⟨"pools", [.ofPosition 3]⟩, .ofName "name"] =
      "spec.pools[3].name" := by
    decide +kernel
  obtain ⟨htype, hc⟩ :=
    hindexed [.ofName "spec", ⟨"pools", [.ofPosition 3]⟩, .ofName "name"] rfl
  exact ⟨cluster_ordered, introspect_cluster, htop, hplain, htext ▸ htype, htext ▸ hc⟩

/-! ## Below what is left out -/

/-- Two attributes in `a` have the path `a.b.c`: one is nested in `b`, the other has a point in its
name, which is never checked when `a` is left out. -/
def shadowed : EntitySchema where
  name := "shadowed"
  attributes := [("a", .nested .single
    [("b", .nested .single [("c", .plain .string {})] {}), ("b.c", .plain .string {})] {})]

/-- Leaving out an attribute leaves out all that is nested in it unseen, so not every two declared
attributes have different paths. -/
theorem shadowed_paths :
    shadowed.Ordered ∧ introspect shadowed (Hints.none.add .excluded ["a"]) = .ok ⟨[]⟩ ∧
      Leads shadowed.attributes ["a", "b", "c"] (.plain .string {}) ∧
      Leads shadowed.attributes ["a", "b.c"] (.plain .string {}) ∧
      ["a", "b", "c"] ≠ ["a", "b.c"] ∧ dotted "" ["a", "b", "c"] = dotted "" ["a", "b.c"] := by
  have hordered : shadowed.Ordered := by
    refine ⟨by decide, ?_⟩
    simp only [shadowed, Attribute.ChildrenOrdered, Attribute.Ordered, PlainShape.type,
      ValueType.Ordered, and_true]
    decide
  refine ⟨hordered, rfl, ?_, ?_, by decide, rfl⟩
  · exact .inside List.mem_cons_self (.inside List.mem_cons_self (.here List.mem_cons_self))
  · exact .inside List.mem_cons_self (.here (List.mem_cons_of_mem _ List.mem_cons_self))

end EntityModel
