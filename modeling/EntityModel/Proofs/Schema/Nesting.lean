import EntityModel.Proofs.Schema.Table

/-!
# Types inside types

The type of a nested attribute holds the types of its children, and the table holds each of these
once more, under the child's own path. The two come from different walks, each with its own check of
names and exclusions.

* `get?_childTypes_iff`: the object of a parent holds the children that are not left out.
* `typeOf?_nested`: the object of a nested attribute is what the table holds right below its path.
-/

namespace EntityModel

namespace Schema

variable {hints : Hints} {parent name : String} {children : List (String × Attribute)}
  {child : Attribute}

theorem get?_childTypes_of_mem {fields : List (String × ValueType)}
    (hasc : Assoc.Ascending children) (h : childTypes hints parent children = .ok fields)
    (hmem : (name, child) ∈ children)
    (hincluded : hints.mentions .excluded (joinPath parent name) = false) :
    ∃ type, attributeType hints (joinPath parent name) child = .ok type ∧
      Assoc.get? fields name = some type := by
  induction children generalizing fields with
  | nil => cases hmem
  | cons entry rest ih =>
    obtain ⟨first, a⟩ := entry
    obtain ⟨hfirst, hrest⟩ := List.pairwise_cons.mp hasc
    obtain ⟨-, h⟩ := childTypes_cons_ok.mp h
    rcases List.mem_cons.mp hmem with heq | hmem
    · cases heq
      rw [if_neg (by simp [hincluded])] at h
      obtain ⟨type, htype, others, -, rfl⟩ := h
      exact ⟨type, htype, by simp [Assoc.get?_cons]⟩
    · have hne : name ≠ first := (String.ne_of_lt (hfirst _ hmem)).symm
      split at h
      · exact ih hrest h hmem
      · obtain ⟨_, -, others, hothers, rfl⟩ := h
        obtain ⟨type, htype, hget⟩ := ih hrest hothers hmem
        exact ⟨type, htype, by rw [Assoc.get?_cons, if_neg hne, hget]⟩

/-- The object of a parent holds the children that are not left out, each with its own type. -/
theorem get?_childTypes_iff {fields : List (String × ValueType)} {type : ValueType}
    (hasc : Assoc.Ascending children) (h : childTypes hints parent children = .ok fields) :
    Assoc.get? fields name = some type ↔ ∃ child, (name, child) ∈ children ∧
      hints.mentions .excluded (joinPath parent name) = false ∧
        attributeType hints (joinPath parent name) child = .ok type := by
  constructor
  · intro hget
    obtain ⟨hincluded, child, hchild, htype⟩ := get?_childTypes h hget
    exact ⟨child, Assoc.mem_of_get? hchild, hincluded, htype⟩
  · rintro ⟨child, hmem, hincluded, htype⟩
    obtain ⟨found, hfound, hget⟩ := get?_childTypes_of_mem hasc h hmem hincluded
    rw [hget]
    exact congrArg some (Except.ok.inj (hfound.symm.trans htype))

end Schema

open Schema

variable {schema : EntitySchema} {hints : Hints} {i : Introspection} {path : String}
  {names : List String} {nesting : Nesting} {children : List (String × Attribute)}
  {d : Declaration} {type : ValueType}

/-- What the table holds right below the path of an attribute are the types of its children. -/
theorem typeOf?_child {a : Attribute} {name : String} {own : ValueType} (hschema : schema.Ordered)
    (h : introspect schema hints = .ok i) (hleads : Leads schema.attributes names a)
    (hincluded : Included hints "" names) (hname : isName name = true) :
    i.typeOf? (joinPath (dotted "" names) name) = some own ↔
      ∃ child, (name, child) ∈ a.children?.getD [] ∧
        hints.mentions .excluded (joinPath (dotted "" names) name) = false ∧
        attributeType hints (joinPath (dotted "" names) name) child = .ok own := by
  have hpath : dotted "" (names ++ [name]) = joinPath (dotted "" names) name := dotted_append _ _ _
  obtain ⟨-, fields, hfields, -⟩ := introspect_ok.mp h
  rw [typeOf?_eq_some_iff hschema h]
  constructor
  · rintro ⟨others, child, heq, hothers, hincluded', hown⟩
    have hnames : ∀ n ∈ names ++ [name], isName n = true := by
      have hvalid := hleads.isName hincluded.reached hfields
      simpa [or_imp, forall_and] using ⟨hvalid, hname⟩
    have hvalid := hothers.isName hincluded'.reached hfields
    obtain rfl : others = names ++ [name] :=
      dotted_injective hvalid hnames hothers.names_ne_nil (by simp) (heq.trans hpath.symm)
    obtain ⟨b, hb, hmem⟩ := hothers.of_concat hleads.names_ne_nil
    obtain rfl := hleads.unique hschema.1 hschema.2 hb
    exact ⟨child, hmem, (included_concat.mp hincluded').2, hown⟩
  · rintro ⟨child, hmem, hincluded', hown⟩
    exact ⟨names ++ [name], child, hpath, hleads.child hmem,
      included_concat.mpr ⟨hincluded, hincluded'⟩, hown⟩

/-- The type of a nested attribute in the table is an object or a collection of objects, as its
shape says. The fields of the object are the names that stand in the table right below the path of
the attribute, each of the type that stands there. -/
theorem typeOf?_nested (hschema : schema.Ordered) (h : introspect schema hints = .ok i)
    (hleads : Leads schema.attributes names (.nested nesting children d))
    (hpath : dotted "" names = path) (htype : i.typeOf? path = some type) :
    ∃ fields : Assoc ValueType, Assoc.Ascending fields ∧
      (match nesting with
        | .single => type = .object fields
        | .list => type = .list (.object fields)
        | .set => type =
          if hints.mentions .preserveOrder path then .list (.object fields)
          else .set (.object fields)
        | .map => type = .map (.object fields)) ∧
      ∀ name own, Assoc.get? fields name = some own ↔
        isName name = true ∧ i.typeOf? (path ++ "." ++ name) = some own := by
  subst hpath
  obtain ⟨-, table, htable, -⟩ := introspect_ok.mp h
  -- the path has a single attribute, so it is this one that the table is about
  obtain ⟨others, a, hothers, hleads', hincluded, hown⟩ :=
    (typeOf?_eq_some_iff hschema h).mp htype
  obtain rfl := hleads'.names_eq hleads hincluded.reached htable hothers
  obtain rfl := hleads'.unique hschema.1 hschema.2 hleads
  obtain ⟨-, fields, hfields, hshape⟩ := attributeType_nested_ok.mp hown
  have hne : dotted "" others ≠ "" :=
    hleads.front_ne_empty hleads.names_ne_nil List.prefix_rfl htable
  have hordered : (Attribute.nested nesting children d).Ordered :=
    (declared_iff.mpr ⟨hleads, hincluded⟩).ordered hschema.2
  refine ⟨fields, hordered.1.of_sublist (keys_childTypes hfields), ?_, fun name own => ?_⟩
  · cases nesting <;> exact hshape.symm
  · rw [← joinPath_of_ne hne, get?_childTypes_iff hordered.1 hfields]
    constructor
    · rintro ⟨child, hmem, hkept, hchildType⟩
      have hchild := hleads.child hmem
      have hname : isName name = true := by
        refine hchild.isName ?_ htable name (by simp)
        simpa using hincluded
      exact ⟨hname, (typeOf?_child hschema h hleads hincluded hname).mpr
        ⟨child, hmem, hkept, hchildType⟩⟩
    · rintro ⟨hname, hown'⟩
      exact (typeOf?_child hschema h hleads hincluded hname).mp hown'

/-- The pools of the cluster, which are a list as order is asked for, and whose token is left
out. -/
theorem cluster_pools_nested :
    cluster.Ordered ∧ introspect cluster clusterHints = .ok clusterTable ∧
      Leads cluster.attributes ["spec", "pools"]
        (.nested .set [("name", .plain .string {}), ("token", .plain .string {})] {}) ∧
      clusterTable.typeOf? "spec.pools" = some (.list (.object [("name", .string)])) ∧
      ∃ fields : Assoc ValueType, Assoc.Ascending fields ∧
        ValueType.list (.object [("name", .string)]) =
          (if clusterHints.mentions .preserveOrder "spec.pools" then .list (.object fields)
            else .set (.object fields)) ∧
        ∀ name own, Assoc.get? fields name = some own ↔
          isName name = true ∧ clusterTable.typeOf? ("spec.pools" ++ "." ++ name) = some own := by
  have hleads : Leads cluster.attributes ["spec", "pools"]
      (.nested .set [("name", .plain .string {}), ("token", .plain .string {})] {}) :=
    .inside List.mem_cons_self (.here List.mem_cons_self)
  have htype : clusterTable.typeOf? "spec.pools" = some (.list (.object [("name", .string)])) := rfl
  exact ⟨cluster_ordered, introspect_cluster, hleads, htype,
    typeOf?_nested cluster_ordered introspect_cluster hleads rfl htype⟩

end EntityModel
