import EntityModel.Proofs.ValueType.Printing
import EntityModel.Schema.Config

/-!
# Reading schemas that were written

A schema is written as a tree in which the shape of an attribute stands among its flags and the
types of elements are texts. What comes back when such a tree is read is stated as an equivalence:
nothing but the order of the attributes and the names in element types can go wrong.

* `plainEntries_read`, `nestedEntries_read`, `decodeHints_tree`: flags, descriptions and hints
  always come back.
* `decodeAttribute_tree_iff`: the attributes that come back.
* `decodeEntity_tree_iff`: the registrations that come back.
* `decode_tree_round_trip`: all of this for entities and for configurations.
-/

namespace EntityModel

/-! ## What can be written -/

namespace Attribute

mutual
/-- The element types of an attribute and of all attributes in it can be written as expressions. -/
def Expressible : Attribute → Prop
  | .plain shape _ => (shape.type false).Expressible
  | .nested _ children _ => ChildrenExpressible children

def ChildrenExpressible : List (String × Attribute) → Prop
  | [] => True
  | (_, child) :: rest => Expressible child ∧ ChildrenExpressible rest
end

end Attribute

/-- The element types of all attributes of a schema can be written as expressions. -/
def EntitySchema.Expressible (schema : EntitySchema) : Prop :=
  Attribute.ChildrenExpressible schema.attributes

namespace Schema

/-! ## The entries of an attribute -/

section

variable (kind : Json) (d : Declaration)

/-- What is read from the entries of an attribute without children. -/
theorem plainEntries_read (element : Option String) :
    let entries := Assoc.ofList
      (("kind", kind) :: optionalEntry "element" element ++ declarationEntries d)
    decodeDeclaration entries = .ok d ∧ required entries "kind" = .ok kind ∧
      ∀ text ∈ element, required entries "element" = .ok (.string text) := by
  obtain ⟨_, _, _, _, _, description⟩ := d
  cases description <;> cases element <;>
    exact ⟨by cbv, by cbv, fun _ h => by cases h <;> cbv⟩

/-- What is read from the entries of an attribute with children. -/
theorem nestedEntries_read (liberties : Liberties) (children : List (String × Json)) :
    let entries := Assoc.ofList
      (("kind", kind) :: ("attributes", .object children) :: declarationEntries d)
    decodeDeclaration entries = .ok d ∧ required entries "kind" = .ok kind ∧
      decodeChildren liberties entries = decodeNamed liberties children := by
  obtain ⟨_, _, _, _, _, description⟩ := d
  cases description <;> exact ⟨by cbv, by cbv, by cbv⟩

end

/-! ## Attributes -/

variable {liberties : Liberties}

theorem decodeType_render_iff {type : ValueType} :
    decodeType (.string type.render) = .ok type ↔ type.Ordered ∧ type.Expressible := by
  have hparse : decodeType (.string type.render) =
      (ValueType.parse type.render).mapError DecodeError.badType := rfl
  rw [hparse, renamed_ok_iff]
  exact ⟨ValueType.ordered_and_expressible_of_parse, fun h => ValueType.parse_render h.1 h.2⟩

/-- The names of attributes come back in any case. -/
theorem keys_decodeNamed {attributes named : List (String × Attribute)}
    (h : decodeNamed liberties (attributeTrees attributes) = .ok named) :
    Assoc.keys named = Assoc.keys attributes := by
  induction attributes generalizing named with
  | nil =>
    cases h
    rfl
  | cons entry rest ih =>
    obtain ⟨name, a⟩ := entry
    simp only [attributeTrees, decodeNamed, bind_ok_iff, pure_ok_iff] at h
    obtain ⟨a', -, others, hothers, rfl⟩ := h
    simpa [Assoc.keys] using ih hothers

/-- Attributes come back under their names if each of them does, and if they are in order. -/
theorem collected_iff {attributes : List (String × Attribute)} :
    (∃ named, decodeNamed liberties (attributeTrees attributes) = .ok named ∧
      Assoc.ofList named = attributes) ↔
    Assoc.Ascending attributes ∧
      decodeNamed liberties (attributeTrees attributes) = .ok attributes := by
  constructor
  · rintro ⟨named, hnamed, hcollected⟩
    have hasc : Assoc.Ascending attributes := hcollected ▸ Assoc.ascending_ofList named
    have hasc' : Assoc.Ascending named := hasc.of_keys (keys_decodeNamed hnamed)
    rw [hasc'.ofList_eq] at hcollected
    exact ⟨hasc, hcollected ▸ hnamed⟩
  · rintro ⟨hasc, hnamed⟩
    exact ⟨attributes, hnamed, hasc.ofList_eq⟩

theorem decodeAttribute_scalar {shape : PlainShape} (d : Declaration)
    (hkind : decodeKind liberties (.string shape.kindName) = .ok (.scalar shape)) :
    decodeAttribute liberties (attributeTree (.plain shape d)) = .ok (.plain shape d) := by
  obtain ⟨hd, hrequired, -⟩ :=
    plainEntries_read (.string shape.kindName) d (shape.element?.map ValueType.render)
  rw [attributeTree, decodeAttribute, hd, ok_bind, hrequired, ok_bind, hkind]
  rfl

/-- The three kinds of collections differ in nothing but their kind. -/
theorem decodeAttribute_collection_iff {collection : ValueType → PlainShape} {element : ValueType}
    {d : Declaration} (hinjective : Function.Injective collection)
    (hkind : decodeKind liberties (.string (collection element).kindName) =
      .ok (.collection collection))
    (helement : (collection element).element? = some element) :
    decodeAttribute liberties (attributeTree (.plain (collection element) d)) =
        .ok (.plain (collection element) d) ↔
      element.Ordered ∧ element.Expressible := by
  obtain ⟨hd, hrequired, htext⟩ :=
    plainEntries_read (.string (collection element).kindName) d (some element.render)
  rw [attributeTree, helement, Option.map_some, decodeAttribute, hd, ok_bind, hrequired, ok_bind,
    hkind, ok_bind]
  simp only [htext _ rfl, ok_bind, bind_ok_iff, pure_ok_iff, Attribute.plain.injEq, and_true,
    hinjective.eq_iff, exists_eq_right, decodeType_render_iff]

theorem decodeAttribute_plain_iff {shape : PlainShape} {d : Declaration} :
    decodeAttribute liberties (attributeTree (.plain shape d)) = .ok (.plain shape d) ↔
      (shape.type false).Ordered ∧ (shape.type false).Expressible := by
  cases shape with
  | string | int64 | float64 | bool =>
    exact iff_of_true (decodeAttribute_scalar d rfl) ⟨trivial, trivial⟩
  | list element =>
    exact decodeAttribute_collection_iff (fun _ _ => PlainShape.list.inj) rfl rfl
  | set element => exact decodeAttribute_collection_iff (fun _ _ => PlainShape.set.inj) rfl rfl
  | map element => exact decodeAttribute_collection_iff (fun _ _ => PlainShape.map.inj) rfl rfl

theorem decodeAttribute_nested_iff {nesting : Nesting} {children : List (String × Attribute)}
    {d : Declaration} :
    decodeAttribute liberties (attributeTree (.nested nesting children d)) =
        .ok (.nested nesting children d) ↔
      Assoc.Ascending children ∧
        decodeNamed liberties (attributeTrees children) = .ok children := by
  obtain ⟨hd, hkind, hchildren⟩ :=
    nestedEntries_read (.string nesting.kindName) d liberties (attributeTrees children)
  have hnesting : decodeKind liberties (.string nesting.kindName) = .ok (.nested nesting) := by
    cases nesting <;> rfl
  rw [attributeTree, decodeAttribute, hd, ok_bind, hkind, ok_bind, hnesting, ok_bind,
    ← collected_iff]
  simp [hchildren]

mutual
/-- Exactly the attributes come back that are in order and can be written, at every depth. -/
theorem decodeAttribute_tree_iff : ∀ {a : Attribute},
    decodeAttribute liberties (attributeTree a) = .ok a ↔ a.Ordered ∧ a.Expressible
  | .plain shape d => decodeAttribute_plain_iff
  | .nested nesting children d => by
    rw [decodeAttribute_nested_iff, decodeNamed_trees_iff, Attribute.Ordered, Attribute.Expressible,
      and_assoc]

theorem decodeNamed_trees_iff : ∀ {attributes : List (String × Attribute)},
    decodeNamed liberties (attributeTrees attributes) = .ok attributes ↔
      Attribute.ChildrenOrdered attributes ∧ Attribute.ChildrenExpressible attributes
  | [] => iff_of_true rfl ⟨trivial, trivial⟩
  | (name, a) :: rest => by
    have hparts : decodeNamed liberties (attributeTrees ((name, a) :: rest)) =
        .ok ((name, a) :: rest) ↔ decodeAttribute liberties (attributeTree a) = .ok a ∧
          decodeNamed liberties (attributeTrees rest) = .ok rest := by
      simp [attributeTrees, decodeNamed]
    rw [hparts, decodeAttribute_tree_iff, decodeNamed_trees_iff, Attribute.ChildrenOrdered,
      Attribute.ChildrenExpressible, and_and_and_comm]
end

/-! ## Hints -/

theorem ofKey?_key (list : HintList) : HintList.ofKey? list.key = some list := by
  cases list <;> rfl

/-- The entry of one list of hints. -/
def hintEntry (hints : Hints) (list : HintList) : String × Json :=
  (list.key, .array ((hints.paths list).map .string))

theorem decodeHintEntry_hintEntry (done hints : Hints) (list : HintList) :
    decodeHintEntry done (hintEntry hints list).1 (hintEntry hints list).2 =
      .ok (done.put list (hints.paths list)) := by
  have hpaths : decodeStrings (.array ((hints.paths list).map .string)) = .ok (hints.paths list) :=
    mapM_map_ok_iff.mpr fun _ _ => rfl
  rw [decodeHintEntry, hintEntry, ofKey?_key, hpaths]
  rfl

theorem key_injective : Function.Injective HintList.key := fun list other h => by
  simpa [ofKey?_key] using congrArg HintList.ofKey? h

/-- Each list is read from its entry, in whatever order the entries stand. -/
theorem decodeHintEntries {hints : Hints} {entries : List (String × Json)}
    (h : ∀ entry ∈ entries, ∃ list, hintEntry hints list = entry) (done : Hints) :
    entries.foldlM (fun hints entry => decodeHintEntry hints entry.1 entry.2) done =
      .ok ⟨fun list => if list.key ∈ Assoc.keys entries then hints.paths list else
        done.paths list⟩ := by
  induction entries generalizing done with
  | nil => simp [Assoc.keys, pure, Except.pure]
  | cons entry rest ih =>
    obtain ⟨⟨list, rfl⟩, hrest⟩ := List.forall_mem_cons.mp h
    rw [List.foldlM_cons, decodeHintEntry_hintEntry, ok_bind, ih hrest]
    congr 2
    funext other
    have hkeys : other.key ∈ Assoc.keys (hintEntry hints list :: rest) ↔
        other = list ∨ other.key ∈ Assoc.keys rest := by
      simp [Assoc.keys, hintEntry, key_injective.eq_iff]
    by_cases heq : other = list
    · subst heq
      simp [hkeys]
    · simp [hkeys, heq, Hints.paths_put_of_ne heq]

theorem decodeHints_object (entries : List (String × Json)) :
    decodeHints liberties (.object entries) =
      entries.foldlM (fun hints entry => decodeHintEntry hints entry.1 entry.2) .none := by
  rw [decodeHints, entriesOf, ok_bind]
  exact bind_pure _

theorem decodeHints_tree (hints : Hints) : decodeHints liberties (hintsTree hints) = .ok hints := by
  have hwritten : ∀ entry ∈ Assoc.ofList (HintList.all.map (hintEntry hints)),
      ∃ list, hintEntry hints list = entry := fun entry hentry => by
    obtain ⟨list, -, hlist⟩ := List.mem_map.mp (Assoc.mem_of_mem_ofList hentry)
    exact ⟨list, hlist⟩
  have hkeys : ∀ list : HintList,
      list.key ∈ Assoc.keys (Assoc.ofList (HintList.all.map (hintEntry hints))) := fun list =>
    Assoc.mem_keys_ofList.mpr (List.mem_map.mpr
      ⟨hintEntry hints list, List.mem_map_of_mem list.mem_all, rfl⟩)
  have hread := decodeHintEntries hwritten .none
  simp only [hkeys, if_true] at hread
  exact (decodeHints_object _).trans hread

/-! ## Registrations -/

/-- Only the attributes of a registration can be read as something else. -/
theorem decodeEntity_tree (schema : EntitySchema) (hints : Hints) :
    decodeEntity liberties (Registration.tree ⟨schema, hints⟩) =
      decodeNamed liberties (attributeTrees schema.attributes) >>= fun named =>
        .ok ⟨{ schema with attributes := Assoc.ofList named }, hints⟩ := by
  obtain ⟨name, description, attributes⟩ := schema
  have hentries : Assoc.ofList
      (("hints", hintsTree hints) :: schemaEntries ⟨name, description, attributes⟩) =
        ("attributes", .object (attributeTrees attributes)) ::
          (optionalEntry "description" description ++
            [("hints", hintsTree hints), ("name", .string name)]) := by
    cases description <;> cbv
  rw [Registration.tree, hentries, decodeEntity, entriesOf, ok_bind]
  cases hnamed : decodeNamed liberties (attributeTrees attributes) <;> cases description <;>
    simp [hnamed, optionalEntry, decodeEntityEntry, decodeString, decodeOptional, decodeHints_tree,
      decodeAttributes, checkLength, ok_bind, error_bind]

/-- A registration comes back just if its schema is in order and can be written. -/
theorem decodeEntity_tree_iff {r : Registration} :
    decodeEntity liberties r.tree = .ok r ↔ r.schema.Ordered ∧ r.schema.Expressible := by
  obtain ⟨⟨name, description, attributes⟩, hints⟩ := r
  have hparts :
      decodeEntity liberties (Registration.tree ⟨⟨name, description, attributes⟩, hints⟩) =
        .ok ⟨⟨name, description, attributes⟩, hints⟩ ↔
      ∃ named, decodeNamed liberties (attributeTrees attributes) = .ok named ∧
        Assoc.ofList named = attributes := by
    simp [decodeEntity_tree]
  rw [hparts, collected_iff, decodeNamed_trees_iff, EntitySchema.Ordered, EntitySchema.Expressible,
    and_assoc]

end Schema

/-! ## Configurations -/

theorem Config.decode_tree_iff {config : Config} :
    (∃ entries, config.tree = .object entries ∧ Config.decode entries = .ok config) ↔
      ∀ r ∈ config.registrations, r.schema.Ordered ∧ r.schema.Expressible := by
  obtain ⟨registrations⟩ := config
  have hread : Config.decode [("entity", .array (registrations.map Registration.tree))] =
      .ok ⟨registrations⟩ ↔
        (registrations.map Registration.tree).mapM (Schema.decodeEntity .toml) =
          .ok registrations := by
    simp [Config.decode, Assoc.get?]
  simp only [Config.tree, Json.object.injEq, exists_eq_left', hread, mapM_map_ok_iff,
    Schema.decodeEntity_tree_iff]

/-- What is written comes back unchanged, whichever of the two formats of trees it is taken for:
exactly the registrations and configurations do whose attributes stand in ascending order, as they
do by definition, and whose element types have names of fields that can be written in type
expressions. -/
theorem decode_tree_round_trip :
    (∀ (liberties : Schema.Liberties) (r : Registration),
      Schema.decodeEntity liberties r.tree = .ok r ↔
        r.schema.Ordered ∧ r.schema.Expressible) ∧
    ∀ config : Config, (∃ entries, config.tree = .object entries ∧
      Config.decode entries = .ok config) ↔
        ∀ r ∈ config.registrations, r.schema.Ordered ∧ r.schema.Expressible :=
  ⟨fun _ _ => Schema.decodeEntity_tree_iff, fun _ => Config.decode_tree_iff⟩

end EntityModel
