import EntityModel.Container.Request
import EntityModel.Proofs.Container.Operations
import EntityModel.Proofs.Schema.PreservedOrder

/-!
# Order matters for comparisons only

Whether a set keeps its order is a matter of its type, and its type is a matter of comparisons. Two
sets of hints that agree but for order accept the same schemas and the same records, and what the
two containers of a record show of it or send of it is the same.

* `ofRecord_asLists`: the containers of a record, read with lists in place of sets.
* `SameButOrder.filtered_eq` and its siblings: such containers show and send the same.
* `order_hints_unseen`: the whole statement.
-/

namespace EntityModel

open Value (tableAsLists)

/-! ## Values that are the same as lists -/

namespace Value

variable {value other : Value}

theorem isKnown_of_asLists (h : value.asLists = other.asLists) : value.isKnown = other.isKnown := by
  rw [← isKnown_asLists value, h, isKnown_asLists]

theorem lower_of_asLists (h : value.asLists = other.asLists) : lower value = lower other := by
  rw [← lower_asLists value, h, lower_asLists]

end Value

/-! ## Runs with one result -/

section

variable {ε α β : Type}

/-- Both runs succeed, with one result. -/
def Concur (run other : Except ε α) : Prop := ∃ a, run = .ok a ∧ other = .ok a

theorem Concur.ok (a : α) : Concur (.ok a : Except ε α) (.ok a) := ⟨a, rfl, rfl⟩

theorem Concur.bind {run other : Except ε α} {next nextOther : α → Except ε β}
    (h : Concur run other) (hnext : ∀ a, Concur (next a) (nextOther a)) :
    Concur (run >>= next) (other >>= nextOther) := by
  obtain ⟨a, rfl, rfl⟩ := h
  exact hnext a

theorem Concur.ite {p : Bool} {run run' other other' : Except ε α} (h : Concur run other)
    (h' : Concur run' other') : Concur (if p then run else run') (if p then other else other') := by
  cases p
  · exact h'
  · exact h

end

namespace Container

variable {c c' : Container} {entity entity' : Entity}

/-- Bound containers whose hints, tables and values are the same but for order. -/
structure SameButOrder (c c' : Container) (entity entity' : Entity) : Prop where
  bound : c.entity? = some entity
  bound' : c'.entity? = some entity'
  hints : entity.hints.SameButOrder entity'.hints
  table : entity.introspection.asLists = entity'.introspection.asLists
  values : tableAsLists c.values = tableAsLists c'.values

namespace SameButOrder

variable {combination : Combination} {set : Option FieldSet} {filters : List FieldFilter}

theorem editOrDeleteOnly (h : c.SameButOrder c' entity entity') :
    entity.hints.editOrDeleteOnly = entity'.hints.editOrDeleteOnly := by
  rw [Hints.editOrDeleteOnly, Hints.editOrDeleteOnly, h.hints .editOnly (by decide),
    h.hints .deleteOnly (by decide)]

/-- Runs that begin with the bound entities. -/
theorem bind_entity {next next' : Entity → Except ContainerError Record}
    (h : c.SameButOrder c' entity entity') (hnext : Concur (next entity) (next' entity')) :
    Concur (c.entity >>= next) (c'.entity >>= next') := by
  rwa [entity_ok.mpr h.bound, entity_ok.mpr h.bound', ok_bind, ok_bind]

theorem allValues (h : c.SameButOrder c' entity entity') : Concur c.allValues c'.allValues := by
  refine h.bind_entity ?_
  rw [← lowerTable_asLists c.values, h.values, lowerTable_asLists]
  exact .ok _

/-- A field is selected by its name, its classification and by whether its type is scalar. -/
theorem selects_asLists (schema : EntitySchema) (hints : Hints) (i : Introspection)
    (name : String) :
    selects ⟨schema, hints, i.asLists⟩ combination set filters name =
      selects ⟨schema, hints, i⟩ combination set filters name := by
  simp only [selects, Entity.typeOf?, Entity.classificationOf?,
    Introspection.classificationOf?_asLists, Introspection.typeOf?_asLists]
  cases i.typeOf? name <;> cases i.classificationOf? name <;> simp

theorem selects_eq (h : c.SameButOrder c' entity entity') (name : String) :
    selects entity combination set filters name =
      selects entity' combination set filters name := by
  obtain ⟨schema, hints, i⟩ := entity
  obtain ⟨schema', hints', j⟩ := entity'
  have htable : i.asLists = j.asLists := h.table
  rw [← selects_asLists schema hints i, htable]
  exact selects_asLists schema' hints' j name

theorem project?_asLists (includeEmpty : Bool) (name : String) (value : Value) :
    project? includeEmpty name value.asLists = project? includeEmpty name value := by
  rw [project?, project?, value.isKnown_asLists, lower_asLists]

theorem filterMap_project?_asLists (includeEmpty : Bool) (p : String → Bool)
    (table : ValueTable) :
    (tableAsLists table).filterMap (fun entry =>
        if p entry.1 then project? includeEmpty entry.1 entry.2 else none) =
      table.filterMap fun entry =>
        if p entry.1 then project? includeEmpty entry.1 entry.2 else none := by
  rw [Value.tableAsLists_eq_mapValues, Assoc.mapValues, List.filterMap_map]
  simp only [Function.comp_def, project?_asLists]

theorem filtered (h : c.SameButOrder c' entity entity') (combination : Combination)
    (set : Option FieldSet) (filters : List FieldFilter) :
    Concur (c.filtered combination set filters) (c'.filtered combination set filters) := by
  refine h.bind_entity ?_
  simp only [h.selects_eq]
  rw [← filterMap_project?_asLists _ _ c.values, h.values, filterMap_project?_asLists]
  exact .ok _

theorem addKnown_eq (h : c.SameButOrder c' entity entity') (names : List String)
    (record : Record) : c.addKnown names record = c'.addKnown names record := by
  have hget : ∀ name, (Assoc.get? c.values name).map Value.asLists =
      (Assoc.get? c'.values name).map Value.asLists := by
    intro name
    rw [← Assoc.get?_mapValues, ← Assoc.get?_mapValues, ← Value.tableAsLists_eq_mapValues,
      ← Value.tableAsLists_eq_mapValues, h.values]
  refine List.foldl_ext _ _ _ fun done name _ => ?_
  have heq := hget name
  cases hvalue : Assoc.get? c.values name with
  | none =>
    rw [hvalue, Option.map_none, eq_comm, Option.map_eq_none_iff] at heq
    rw [heq]
  | some value =>
    rw [hvalue, Option.map_some, eq_comm, Option.map_eq_some_iff] at heq
    obtain ⟨other, hother, hlists⟩ := heq
    simp only [hother, Value.isKnown_of_asLists hlists, Value.lower_of_asLists hlists]

theorem searchParams (h : c.SameButOrder c' entity entity') :
    Concur c.searchParams c'.searchParams := by
  refine h.bind_entity ?_
  rw [h.editOrDeleteOnly]
  have hend : ∀ base, Concur
      (do
        let params := (c.addKnown identifiers base).merge (← c.readOnlySearchParams) false
        if params.isEmpty then c.filtered .any none [.carries .optional, .primitivesOnly]
        else return params)
      (do
        let params := (c'.addKnown identifiers base).merge (← c'.readOnlySearchParams) false
        if params.isEmpty then c'.filtered .any none [.carries .optional, .primitivesOnly]
        else return params) := by
    intro base
    rw [h.addKnown_eq]
    exact .bind (h.filtered _ _ _) fun _ => .ite (h.filtered _ _ _) (.ok _)
  refine .bind (h.filtered _ _ _) fun common => ?_
  exact .ite (.bind (h.filtered _ _ _) hend) (hend common)

theorem createParams (h : c.SameButOrder c' entity entity') :
    Concur c.createParams c'.createParams := by
  refine h.bind_entity ?_
  rw [h.editOrDeleteOnly]
  exact .bind (h.filtered _ _ _) fun _ => .ok _

theorem optionalAmong (h : c.SameButOrder c' entity entity') (names : List String) :
    Concur (c.optionalAmong names) (c'.optionalAmong names) :=
  .ite (.ok _) (h.filtered _ _ _)

theorem editOnlyParams (h : c.SameButOrder c' entity entity') :
    Concur c.editOnlyParams c'.editOnlyParams := by
  refine h.bind_entity ?_
  rw [h.hints .editOnly (by decide)]
  exact h.optionalAmong _

theorem deleteOnlyParams (h : c.SameButOrder c' entity entity') :
    Concur c.deleteOnlyParams c'.deleteOnlyParams := by
  refine h.bind_entity ?_
  rw [h.hints .deleteOnly (by decide)]
  exact h.optionalAmong _

end SameButOrder

/-- Containers that show the same, whatever is asked for, and send the same. -/
structure ShownAlike (c c' : Container) : Prop where
  allValues : Concur c.allValues c'.allValues
  filtered : ∀ combination set filters,
    Concur (c.filtered combination set filters) (c'.filtered combination set filters)
  searchParams : Concur c.searchParams c'.searchParams
  createParams : Concur c.createParams c'.createParams
  editOnlyParams : Concur c.editOnlyParams c'.editOnlyParams
  deleteOnlyParams : Concur c.deleteOnlyParams c'.deleteOnlyParams

theorem SameButOrder.shownAlike (h : c.SameButOrder c' entity entity') : c.ShownAlike c' where
  allValues := h.allValues
  filtered := h.filtered
  searchParams := h.searchParams
  createParams := h.createParams
  editOnlyParams := h.editOnlyParams
  deleteOnlyParams := h.deleteOnlyParams

/-! ## Containers of one record -/

/-- Both entities refuse a record for one place and one raw value there, or both take it. -/
theorem ofRecord_sameButOrder (hhints : entity.hints.SameButOrder entity'.hints)
    (htable : entity.introspection.asLists = entity'.introspection.asLists) (record : Record) :
    (∃ e e', ofRecord entity record = .error (.conversion e) ∧
        ofRecord entity' record = .error (.conversion e') ∧ e.path = e'.path ∧
        e.actual = e'.actual) ∨
      ∃ c c', ofRecord entity record = .ok c ∧ ofRecord entity' record = .ok c' ∧
        c.SameButOrder c' entity entity' := by
  have hlift : translate ConversionError.asLists tableAsLists (liftRecord record entity.topLevel) =
      translate ConversionError.asLists tableAsLists (liftRecord record entity'.topLevel) := by
    rw [← liftRecord_asLists, ← liftRecord_asLists, Entity.topLevel, Entity.topLevel,
      ← Introspection.topLevel_asLists, htable, Introspection.topLevel_asLists]
  rcases translate_eq_iff.mp hlift with ⟨e, e', he, he', heq⟩
    | ⟨values, others, hok, hok', heq⟩
  · refine .inl ⟨e, e', ?_, ?_, ?_, ?_⟩
    · rw [ofRecord, he]
      rfl
    · rw [ofRecord, he']
      rfl
    · rw [← e.path_asLists, heq, e'.path_asLists]
    · rw [← e.actual_asLists, heq, e'.actual_asLists]
  · exact .inr ⟨_, _, ofRecord_ok.mpr ⟨values, hok, rfl⟩,
      ofRecord_ok.mpr ⟨others, hok', rfl⟩, rfl, rfl, hhints, htable, heq⟩

/-- Hints that agree but for order bind the same schemas, with tables that differ only by lists in
place of sets. Under both the same records are taken, and the containers made of them show and send
the same. -/
theorem order_hints_unseen {hints other : Hints} (schema : EntitySchema)
    (h : hints.SameButOrder other) :
    (∃ e, introspect schema hints = .error e ∧ introspect schema other = .error e) ∨
      ∃ i j, introspect schema hints = .ok i ∧ introspect schema other = .ok j ∧
        Assoc.keys i.fields = Assoc.keys j.fields ∧
        (∀ path, i.classificationOf? path = j.classificationOf? path) ∧
        (∀ path, (i.typeOf? path).map ValueType.asLists =
          (j.typeOf? path).map ValueType.asLists) ∧
        ∀ record,
          (∃ e e', ofRecord ⟨schema, hints, i⟩ record = .error (.conversion e) ∧
            ofRecord ⟨schema, other, j⟩ record = .error (.conversion e') ∧
            e.path = e'.path ∧ e.actual = e'.actual) ∨
          ∃ c c', ofRecord ⟨schema, hints, i⟩ record = .ok c ∧
            ofRecord ⟨schema, other, j⟩ record = .ok c' ∧ c.ShownAlike c' := by
  rcases translate_eq_iff.mp (introspect_asLists h schema) with
    ⟨e, e', he, he', heq⟩ | ⟨i, j, hi, hj, heq⟩
  · obtain rfl : e = e' := heq
    exact .inl ⟨e, he, he'⟩
  · refine .inr ⟨i, j, hi, hj, ?_, fun path => ?_, fun path => ?_, fun record => ?_⟩
    · rw [← i.keys_asLists, heq, j.keys_asLists]
    · rw [← i.classificationOf?_asLists, heq, j.classificationOf?_asLists]
    · rw [← i.typeOf?_asLists, heq, j.typeOf?_asLists]
    · refine (ofRecord_sameButOrder h heq record).imp_right ?_
      rintro ⟨c, c', hc, hc', hsame⟩
      exact ⟨c, c', hc, hc', hsame.shownAlike⟩

/-- The hints of the cluster without the one about order. -/
def clusterSetHints : Hints := Hints.none.add .excluded ["spec.pools.token"]

/-- A cluster of two pools; the order of the pools is a matter of the hints. -/
def clusterPools : Record :=
  [("spec", .map [("pools", .list [.map [("name", .string "b")], .map [("name", .string "a")]]),
    ("zone", .int 3)])]

/-- The pools are a list under the one and a set under the other hints, and the containers show and
send the same. -/
theorem cluster_order_unseen :
    clusterHints.SameButOrder clusterSetHints ∧
      ∃ i j, introspect cluster clusterHints = .ok i ∧
        introspect cluster clusterSetHints = .ok j ∧
        i.typeOf? "spec.pools" = some (.list (.object [("name", .string)])) ∧
        j.typeOf? "spec.pools" = some (.set (.object [("name", .string)])) ∧
        i.classificationOf? "spec.pools" = j.classificationOf? "spec.pools" ∧
        ∃ c c', ofRecord ⟨cluster, clusterHints, i⟩ clusterPools = .ok c ∧
          ofRecord ⟨cluster, clusterSetHints, j⟩ clusterPools = .ok c' ∧ c.ShownAlike c' := by
  have hhints : clusterHints.SameButOrder clusterSetHints := by
    intro list hlist
    cases list <;> first | rfl | exact absurd rfl hlist
  refine ⟨hhints, ?_⟩
  rcases order_hints_unseen cluster hhints with
    ⟨e, he, -⟩ | ⟨i, j, hi, hj, -, hclass, -, hrecord⟩
  · cases introspect_cluster.symm.trans he
  · obtain rfl := Except.ok.inj (introspect_cluster.symm.trans hi)
    cases hj
    refine ⟨_, _, hi, rfl, rfl, rfl, hclass _, ?_⟩
    rcases hrecord clusterPools with ⟨e, -, he, -⟩ | hsame
    · cases he
    · exact hsame

end Container

end EntityModel
