import EntityModel.Proofs.Canonical
import EntityModel.Proofs.Container.Coverage
import EntityModel.Proofs.Schema.Nesting

/-!
# Undeclared data

A remote service may send anything. What it sends under a name that is not declared, or whose
attribute is left out, has no influence on the container that is made of it, at whatever depth the
name stands, and none on the error if no container can be made of it.

* `Schema.declaredEntries`: the part of a record that is declared and not left out, by the schema.
* `Schema.canonical_declaredPart`: the types of a schema do not ask for anything else.
* `Container.ofRecord_declared`: containers are made of the declared part of a record.
-/

namespace EntityModel

/-- Induction on attributes, with a hypothesis for every child. -/
@[elab_as_elim]
theorem Attribute.induction {motive : Attribute → Prop}
    (plain : ∀ shape d, motive (.plain shape d))
    (nested : ∀ nesting (children : List (String × Attribute)) d,
      (∀ child ∈ children, motive child.2) → motive (.nested nesting children d))
    (a : Attribute) : motive a := by
  cases a with
  | plain shape d => exact plain shape d
  | nested nesting children d =>
    refine nested nesting children d fun child hmem => ?_
    have := Assoc.sizeOf_lt_of_mem hmem
    exact induction plain nested child.2

/-! ## Objects in raw values -/

/-- Changes a raw value that is a record. -/
def Raw.onRecord (f : Record → Record) : Raw → Raw
  | .map entries => .map (f entries)
  | raw => raw

/-- Changes the records that are the objects of a nested attribute. -/
def Nesting.onRecords (f : Record → Record) : Nesting → Raw → Raw
  | .single, raw => raw.onRecord f
  | .list, .list items | .set, .list items => .list (items.map (Raw.onRecord f))
  | .map, .map entries => .map (Assoc.mapValues (Raw.onRecord f) entries)
  | _, raw => raw

/-- If a change of records does not show in the canonical form of any object, then it does not show
in that of a collection of objects either. -/
theorem canonical_onRecords {fields : List (String × ValueType)} {f : Record → Record}
    (h : ∀ record, canonicalFields fields (f record) = canonicalFields fields record)
    (nesting : Nesting) (ordered : Bool) (raw : Raw) :
    canonical (nesting.type ordered (.object fields)) (nesting.onRecords f raw) =
      canonical (nesting.type ordered (.object fields)) raw := by
  have hobject : ∀ raw : Raw, canonical (.object fields) (raw.onRecord f) =
      canonical (.object fields) raw := by
    intro raw
    cases raw with
    | map entries => rw [Raw.onRecord, canonical, canonical, h]
    | _ => rfl
  have hitems : ∀ items : List Raw,
      (items.map (Raw.onRecord f)).map (canonical (.object fields)) =
        items.map (canonical (.object fields)) := by
    intro items
    rw [List.map_map]
    exact List.map_congr_left fun raw _ => hobject raw
  have hentries : ∀ entries : Record,
      Assoc.mapValues (canonical (.object fields)) (Assoc.mapValues (Raw.onRecord f) entries) =
        Assoc.mapValues (canonical (.object fields)) entries := by
    intro entries
    rw [Assoc.mapValues, Assoc.mapValues, List.map_map]
    exact List.map_congr_left fun entry _ => congrArg (entry.1, ·) (hobject entry.2)
  cases nesting with
  | single => exact hobject raw
  | list =>
    cases raw with
    | list items => exact congrArg Raw.list (hitems items)
    | _ => rfl
  | set =>
    cases raw with
    | list items => cases ordered <;> exact congrArg Raw.list (hitems items)
    | _ => rfl
  | map =>
    cases raw with
    | map entries => exact congrArg Raw.map (hentries entries)
    | _ => rfl

namespace Schema

/-! ## The declared part of raw data -/

mutual
/-- The part of an attribute's raw value that is declared and not left out. -/
def declaredPart (hints : Hints) (path : String) : Attribute → Raw → Raw
  | .plain _ _, raw => raw
  | .nested nesting children _, raw => nesting.onRecords (declaredEntries hints path children) raw

/-- The entries of a record for the attributes that are not left out, with their declared parts. -/
def declaredEntries (hints : Hints) (parent : String) :
    List (String × Attribute) → Record → Record
  | [], _ => []
  | (name, child) :: rest, record =>
    let path := joinPath parent name
    if hints.mentions .excluded path then declaredEntries hints parent rest record
    else
      match Assoc.get? record name with
      | some raw =>
        (name, declaredPart hints path child raw) :: declaredEntries hints parent rest record
      | none => declaredEntries hints parent rest record
end

variable {hints : Hints} {parent path name : String} {children : List (String × Attribute)}
  {child : Attribute} {record : Record} {raw : Raw}

theorem declaredPart_null (hints : Hints) (path : String) (a : Attribute) :
    declaredPart hints path a .null = .null := by
  cases a with
  | plain shape d => rfl
  | nested nesting children d => cases nesting <;> rfl

theorem declaredEntries_eq (hints : Hints) (parent : String)
    (children : List (String × Attribute)) (record : Record) :
    declaredEntries hints parent children record = children.filterMap fun entry =>
      if hints.mentions .excluded (joinPath parent entry.1) then none
      else (Assoc.get? record entry.1).map fun raw =>
        (entry.1, declaredPart hints (joinPath parent entry.1) entry.2 raw) := by
  induction children with
  | nil => rfl
  | cons entry rest ih =>
    obtain ⟨name, child⟩ := entry
    rw [declaredEntries, List.filterMap_cons, ih]
    split
    · rfl
    · cases Assoc.get? record name <;> rfl

theorem mem_declaredEntries :
    (name, raw) ∈ declaredEntries hints parent children record ↔
      ∃ child whole, (name, child) ∈ children ∧
        hints.mentions .excluded (joinPath parent name) = false ∧
        Assoc.get? record name = some whole ∧
        declaredPart hints (joinPath parent name) child whole = raw := by
  rw [declaredEntries_eq, List.mem_filterMap]
  constructor
  · rintro ⟨⟨first, child⟩, hmem, hentry⟩
    obtain ⟨hincluded, hentry⟩ := Option.ite_none_left_eq_some.mp hentry
    obtain ⟨whole, hget, heq⟩ := Option.map_eq_some_iff.mp hentry
    cases heq
    exact ⟨child, whole, hmem, Bool.eq_false_iff.mpr hincluded, hget, rfl⟩
  · rintro ⟨child, whole, hmem, hincluded, hget, rfl⟩
    exact ⟨(name, child), hmem, by simp [hincluded, hget]⟩

theorem declaredEntries_ascending (hasc : Assoc.Ascending children) (hints : Hints)
    (parent : String) (record : Record) :
    Assoc.Ascending (declaredEntries hints parent children record) := by
  rw [declaredEntries_eq, Assoc.Ascending, List.pairwise_filterMap]
  refine hasc.imp fun {first second} hlt entry hentry entry' hentry' => ?_
  obtain ⟨-, hentry⟩ := Option.ite_none_left_eq_some.mp hentry
  obtain ⟨-, hentry'⟩ := Option.ite_none_left_eq_some.mp hentry'
  obtain ⟨raw, -, rfl⟩ := Option.map_eq_some_iff.mp hentry
  obtain ⟨raw', -, rfl⟩ := Option.map_eq_some_iff.mp hentry'
  exact hlt

/-- For an attribute that is not left out, the declared part of a record holds the declared part of
what the record holds. -/
theorem at_declaredEntries (hasc : Assoc.Ascending children) (hmem : (name, child) ∈ children)
    (hincluded : hints.mentions .excluded (joinPath parent name) = false) (record : Record) :
    Record.at (declaredEntries hints parent children record) name =
      declaredPart hints (joinPath parent name) child (Record.at record name) := by
  have hdeclared := declaredEntries_ascending hasc hints parent record
  rw [Record.at, Record.at]
  cases hget : Assoc.get? record name with
  | some whole =>
    have hentry := mem_declaredEntries.mpr ⟨child, whole, hmem, hincluded, hget, rfl⟩
    rw [hdeclared.get?_of_mem hentry]
    rfl
  | none =>
    have hnone : Assoc.get? (declaredEntries hints parent children record) name = none := by
      rw [Option.eq_none_iff_forall_ne_some]
      intro raw hraw
      obtain ⟨-, whole, -, -, hget', -⟩ := mem_declaredEntries.mp (Assoc.mem_of_get? hraw)
      cases hget.symm.trans hget'
    rw [hnone, Option.getD_none, declaredPart_null]

/-! ## Types ask for nothing else -/

/-- The type of an attribute does not ask for more than the declared part of its raw value. -/
theorem canonical_declaredPart {a : Attribute} {type : ValueType} (ha : a.Ordered)
    (h : attributeType hints path a = .ok type) (raw : Raw) :
    canonical type (declaredPart hints path a raw) = canonical type raw := by
  induction a using Attribute.induction generalizing path type raw with
  | plain shape d => rfl
  | nested nesting children d ih =>
    obtain ⟨-, fields, hfields, rfl⟩ := attributeType_nested_ok.mp h
    have hasc : Assoc.Ascending fields := ha.1.of_sublist (keys_childTypes hfields)
    refine canonical_onRecords (fun record => canonicalFields_congr fun field hfield => ?_) _ _ _
    obtain ⟨child, hmem, hincluded, htype⟩ :=
      (get?_childTypes_iff ha.1 hfields).mp (hasc.get?_of_mem hfield)
    rw [at_declaredEntries ha.1 hmem hincluded]
    exact ih (field.1, child) hmem (childrenOrdered_of_mem ha.2 hmem) htype _

end Schema

/-! ## Containers -/

namespace Entity

/-- The part of a record that the schema of an entity declares and its hints do not leave out. -/
def declaredEntries (entity : Entity) (record : Record) : Record :=
  Schema.declaredEntries entity.hints "" entity.schema.attributes record

theorem Bound.canonical_declaredEntries {entity : Entity} (h : entity.Bound) (record : Record) :
    canonicalFields entity.topLevel (entity.declaredEntries record) =
      canonicalFields entity.topLevel record := by
  obtain ⟨hschema, -⟩ := bound_iff.mp h
  refine canonicalFields_congr fun field hfield => ?_
  obtain ⟨hown, htype⟩ := h.mem_topLevel.mp hfield
  obtain ⟨a, hmem, hincluded, htype⟩ := h.declared_of_own hown htype
  have hname : Schema.joinPath "" field.1 = field.1 := rfl
  rw [declaredEntries, Schema.at_declaredEntries hschema.1 hmem hincluded, hname]
  exact Schema.canonical_declaredPart (Schema.childrenOrdered_of_mem hschema.2 hmem) htype _

end Entity

namespace Container

variable {entity : Entity} {record record' : Record}

theorem ofRecord_canonicalFields (h : entity.Bound) (record : Record) :
    ofRecord entity (canonicalFields entity.topLevel record) = ofRecord entity record := by
  have htypes : ValueType.FieldsOrdered entity.topLevel := by
    rw [ValueType.fieldsOrdered_iff]
    intro field hfield
    exact h.typeOf?_ordered (h.mem_topLevel.mp hfield).2
  rw [ofRecord, ofRecord, liftRecord_canonical h.topLevel_ascending htypes]

theorem ofRecord_declaredEntries (h : entity.Bound) (record : Record) :
    ofRecord entity (entity.declaredEntries record) = ofRecord entity record := by
  rw [← ofRecord_canonicalFields h (entity.declaredEntries record), h.canonical_declaredEntries,
    ofRecord_canonicalFields h]

/-- Lifting makes the same of a raw value and of its canonical form, be it a value or an error. So
what is made of a record, a container or an error, depends on the canonical form of the record under
the entity's own types only, and on the part of it only that the schema declares and the hints do
not leave out. -/
theorem ofRecord_reads_declared :
    (∀ (type : ValueType) (raw : Raw) (path : String), type.Ordered →
      liftAt type (canonical type raw) path = liftAt type raw path) ∧
    ∀ entity : Entity, entity.Bound → ∀ record record' : Record,
      (canonicalFields entity.topLevel record = canonicalFields entity.topLevel record' →
        ofRecord entity record = ofRecord entity record') ∧
      (entity.declaredEntries record = entity.declaredEntries record' →
        ofRecord entity record = ofRecord entity record') := by
  refine ⟨fun type raw path htype => liftAt_canonical htype raw path,
    fun entity hbound record record' => ⟨fun h => ?_, fun h => ?_⟩⟩
  · rw [← ofRecord_canonicalFields hbound record, h, ofRecord_canonicalFields hbound]
  · rw [← ofRecord_declaredEntries hbound record, h, ofRecord_declaredEntries hbound]

def clusterEntity : Entity := ⟨cluster, clusterHints, clusterTable⟩

theorem clusterEntity_bound : clusterEntity.Bound :=
  bound_of_introspect cluster_ordered introspect_cluster

/-- A cluster with one pool, and something that no one has declared. -/
def clusterRecord (pool : Raw) (extra : String) : Record :=
  [("extra", .string extra),
    ("spec", .map [("extra", .string extra), ("pools", .list [pool]), ("zone", .string "z1")])]

/-- The token of a pool is left out, so that it may be of any kind and may change without notice. A
pool that is no object is refused with the same error. -/
theorem cluster_reads_declared :
    clusterEntity.Bound ∧ (ValueType.object [("name", .string)]).Ordered ∧
      liftAt (.object [("name", .string)])
          (canonical (.object [("name", .string)]) (.map [("token", .bool true)])) "pool" =
        liftAt (.object [("name", .string)]) (.map [("token", .bool true)]) "pool" ∧
      ofRecord clusterEntity
          (clusterRecord (.map [("name", .string "a"), ("token", .string "s3")]) "x") =
        ofRecord clusterEntity
          (clusterRecord (.map [("name", .string "a"), ("token", .list [])]) "y") ∧
      (∃ c, ofRecord clusterEntity
        (clusterRecord (.map [("name", .string "a"), ("token", .list [])]) "y") = .ok c) ∧
      ofRecord clusterEntity (clusterRecord (.int 7) "x") =
        ofRecord clusterEntity (clusterRecord (.int 7) "y") ∧
      ∃ e, ofRecord clusterEntity (clusterRecord (.int 7) "y") = .error e := by
  have htype : (ValueType.object [("name", .string)]).Ordered :=
    ⟨Assoc.ascending_singleton _, trivial, trivial⟩
  obtain ⟨hlift, hdeclared⟩ := ofRecord_reads_declared
  refine ⟨clusterEntity_bound, htype, hlift _ _ _ htype, ?_, ⟨_, rfl⟩, ?_, ⟨_, rfl⟩⟩
  · exact (hdeclared _ clusterEntity_bound _ _).2 rfl
  · exact (hdeclared _ clusterEntity_bound _ _).1 rfl

end Container

end EntityModel
