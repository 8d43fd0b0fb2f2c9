import EntityModel.Container.Projection
import EntityModel.Proofs.Container.Session
import EntityModel.Proofs.Lowering

/-!
# Reloading containers

All values of a container make up a record, and such a record can be loaded again. No value is
rejected on the way: the container that is loaded holds the settled values, and nulls of the own
attributes that had no value. From then on reloading changes nothing.

* `ofRecord_allValues`: the container that is loaded.
* `lift_lower_and_reload`: what is kept of single values and of containers.
-/

namespace EntityModel

namespace Container

variable {c : Container} {entity : Entity} {name : String} {types : List (String × ValueType)}
  {values : ValueTable}

/-- What becomes of a table of values when its record is loaded for a list of types. -/
def reloadedValues (values : ValueTable) (types : List (String × ValueType)) : ValueTable :=
  types.map fun field =>
    (field.1, ((Assoc.get? values field.1).map Value.settled).getD (.null field.2))

/-- The container that is loaded from the record of a container. -/
def reloaded (c : Container) (entity : Entity) : Container :=
  ⟨reloadedValues c.values entity.topLevel, some entity⟩

theorem keys_reloadedValues (values : ValueTable) (types : List (String × ValueType)) :
    Assoc.keys (reloadedValues values types) = Assoc.keys types := by
  rw [Assoc.keys, reloadedValues, List.map_map]
  rfl

theorem get?_reloadedValues (values : ValueTable) (types : List (String × ValueType))
    (name : String) :
    Assoc.get? (reloadedValues values types) name = (Assoc.get? types name).map fun type =>
      ((Assoc.get? values name).map Value.settled).getD (.null type) := by
  induction types with
  | nil => rfl
  | cons field rest ih =>
    obtain ⟨first, type⟩ := field
    rw [reloadedValues, List.map_cons, ← reloadedValues, Assoc.get?_cons, Assoc.get?_cons, ih]
    by_cases heq : name = first
    · subst heq
      rw [if_pos rfl, if_pos rfl, Option.map_some]
    · rw [if_neg heq, if_neg heq]

/-- The settled value of a settled value is the value itself, and so is that of a null. -/
theorem reloadedValues_reloadedValues (hasc : Assoc.Ascending types) :
    reloadedValues (reloadedValues values types) types = reloadedValues values types := by
  have hfield : ∀ field ∈ types,
      ((Assoc.get? (reloadedValues values types) field.1).map Value.settled).getD (.null field.2) =
        ((Assoc.get? values field.1).map Value.settled).getD (.null field.2) := by
    intro field hmem
    rw [get?_reloadedValues, hasc.get?_of_mem hmem, Option.map_some, Option.map_some,
      Option.getD_some]
    cases Assoc.get? values field.1 with
    | none => simp [Value.settled]
    | some value => exact Value.settled_settled value
  rw [reloadedValues]
  refine List.map_congr_left fun field hmem => ?_
  rw [hfield field hmem]

theorem liftRecord_lowerTable
    (hvalues : ∀ field ∈ types, ∀ value, Assoc.get? values field.1 = some value →
      value.type = field.2 ∧ value.WellTyped ∧ value.Ordered) :
    liftRecord (lowerTable values) types = .ok (reloadedValues values types) := by
  induction types with
  | nil => rfl
  | cons field rest ih =>
    obtain ⟨name, type⟩ := field
    rw [List.forall_mem_cons] at hvalues
    have hrest := ih hvalues.2
    have hfirst : liftAt type (Record.at (lowerTable values) name) name =
        .ok (((Assoc.get? values name).map Value.settled).getD (.null type)) := by
      rw [Record.at, get?_lowerTable]
      cases hget : Assoc.get? values name with
      | none => exact liftAt_null type name
      | some value =>
        obtain ⟨rfl, hwell, hordered⟩ := hvalues.1 value hget
        exact liftAt_lower hwell hordered name
    exact liftRecord_cons_ok.mpr ⟨_, hfirst, _, hrest, rfl⟩

theorem allValues_ok {record : Record} :
    c.allValues = .ok record ↔
      ∃ entity, c.entity? = some entity ∧ lowerTable c.values = record := by
  simp only [allValues, bind_ok_iff, entity_ok, pure_ok_iff]

/-- The type that the list of own attributes holds for the value of a sound container. -/
theorem Sound.mem_topLevel (hc : c.Sound) (hentity : c.entity? = some entity) {value : Value}
    (hget : Assoc.get? c.values name = some value) : (name, value.type) ∈ entity.topLevel := by
  have hfits := hc.fits hentity _ (Assoc.mem_of_get? hget)
  exact (hc.bound hentity).mem_topLevel.mpr ⟨hfits.own, hfits.type⟩

theorem ofRecord_allValues (hc : c.Sound) (hentity : c.entity? = some entity) :
    ofRecord entity (lowerTable c.values) = .ok (c.reloaded entity) := by
  have hasc := (hc.bound hentity).topLevel_ascending
  have hvalues : ∀ field ∈ entity.topLevel, ∀ value,
      Assoc.get? c.values field.1 = some value →
      value.type = field.2 ∧ value.WellTyped ∧ value.Ordered := by
    intro field hfield value hget
    have hfits := hc.fits hentity _ (Assoc.mem_of_get? hget)
    have htype := hasc.get?_of_mem (hc.mem_topLevel hentity hget)
    exact ⟨Option.some.inj (htype.symm.trans (hasc.get?_of_mem hfield)), hfits.wellTyped,
      hfits.ordered⟩
  exact ofRecord_ok.mpr ⟨_, liftRecord_lowerTable hvalues, rfl⟩

theorem reloaded_sound (hc : c.Sound) (hentity : c.entity? = some entity) :
    (c.reloaded entity).Sound := by
  have hasc := hc.ascending hentity
  have hordered : Value.EntriesOrdered c.values :=
    Value.entriesOrdered_iff.mpr fun entry hentry => (hc.fits hentity entry hentry).ordered
  have hrecord : Record.Ordered (lowerTable c.values) :=
    ⟨hasc.of_keys (keys_lowerTable c.values), lowerTable_ordered hordered⟩
  exact ofRecord_sound (hc.bound hentity) hrecord (ofRecord_allValues hc hentity)

theorem reloaded_reloaded (hbound : entity.Bound) :
    (c.reloaded entity).reloaded entity = c.reloaded entity := by
  rw [reloaded, reloaded, reloadedValues_reloadedValues hbound.topLevel_ascending]

/-- A key of the container keeps its raw value. -/
theorem get?_reloaded_of_mem (hc : c.Sound) (hentity : c.entity? = some entity)
    (hname : name ∈ Assoc.keys c.values) :
    Assoc.get? (lowerTable (c.reloaded entity).values) name =
      Assoc.get? (lowerTable c.values) name := by
  obtain ⟨value, hget⟩ := Option.isSome_iff_exists.mp (Assoc.mem_keys_iff.mp hname)
  have htype := (hc.bound hentity).topLevel_ascending.get?_of_mem (hc.mem_topLevel hentity hget)
  rw [get?_lowerTable, get?_lowerTable, reloaded, get?_reloadedValues, htype, hget]
  simp [lower_settled]

/-- The other own attributes become null. -/
theorem get?_reloaded_of_not_mem (hbound : entity.Bound) (hown : entity.hasAttribute name = true)
    (hname : name ∉ Assoc.keys c.values) :
    Assoc.get? (lowerTable (c.reloaded entity).values) name = some .null := by
  have hnone : Assoc.get? c.values name = none := by
    rw [Assoc.mem_keys_iff, Bool.not_eq_true, Option.isSome_eq_false_iff,
      Option.isNone_iff_eq_none] at hname
    exact hname
  have htyped : (entity.typeOf? name).isSome = true := by
    rw [Entity.hasAttribute, Bool.and_eq_true] at hown
    exact hown.2
  obtain ⟨type, htype⟩ := Option.isSome_iff_exists.mp htyped
  have hget := hbound.topLevel_ascending.get?_of_mem (hbound.mem_topLevel.mpr ⟨hown, htype⟩)
  rw [get?_lowerTable, reloaded, get?_reloadedValues, hget, hnone]
  simp [lower]

/-- Every value can be lifted from its raw value, which settles it and keeps the raw value. So the
record of a container can always be loaded: its keys keep their raw values, the other own attributes
are null, and loading the record of what was loaded changes nothing. -/
theorem lift_lower_and_reload :
    (∀ value : Value, value.WellTyped → value.Ordered →
      lift value.type (lower value) = .ok value.settled ∧ lower value.settled = lower value) ∧
    ∀ (c : Container) (entity : Entity), c.Reachable → c.entity? = some entity →
      ∃ record c' record', c.allValues = .ok record ∧
        Assoc.keys record = Assoc.keys c.values ∧
        ofRecord entity record = .ok c' ∧ c'.allValues = .ok record' ∧
        (∀ name ∈ Assoc.keys record', entity.hasAttribute name = true) ∧
        (∀ name ∈ Assoc.keys record, Assoc.get? record' name = Assoc.get? record name) ∧
        (∀ name, entity.hasAttribute name = true → name ∉ Assoc.keys record →
          Assoc.get? record' name = some .null) ∧
        ofRecord entity record' = .ok c' := by
  refine ⟨fun value hwell hordered =>
    ⟨liftAt_lower hwell hordered "", lower_settled value⟩, ?_⟩
  intro c entity hreachable hentity
  have hc := hreachable.sound
  have hbound := hc.bound hentity
  have hreloaded := reloaded_sound hc hentity
  have hkeys : Assoc.keys (lowerTable c.values) = Assoc.keys c.values := keys_lowerTable c.values
  refine ⟨lowerTable c.values, c.reloaded entity, lowerTable (c.reloaded entity).values,
    allValues_ok.mpr ⟨entity, hentity, rfl⟩, hkeys, ofRecord_allValues hc hentity,
    allValues_ok.mpr ⟨entity, rfl, rfl⟩, ?_, ?_, ?_, ?_⟩
  · intro name hname
    rw [keys_lowerTable, reloaded, keys_reloadedValues] at hname
    obtain ⟨⟨key, type⟩, hfield, rfl⟩ := List.mem_map.mp hname
    exact (hbound.mem_topLevel.mp hfield).1
  · intro name hname
    exact get?_reloaded_of_mem hc hentity (hkeys ▸ hname)
  · intro name hown hname
    exact get?_reloaded_of_not_mem hbound hown (hkeys ▸ hname)
  · have hagain : ofRecord entity (lowerTable (c.reloaded entity).values) =
        .ok ((c.reloaded entity).reloaded entity) := ofRecord_allValues hreloaded rfl
    rwa [reloaded_reloaded hbound] at hagain

/-- Rules of a vault of which one is null and another has no token yet. -/
def draftRules : Value :=
  .list (.object [("token", .string)]) [.null (.object [("token", .string)]),
    .object [("token", .string)] [("token", .unknown .string)]]

theorem draftRules_made : draftRules.Made := by
  have hobject : (ValueType.object [("token", .string)]).Ordered := by
    simp [ValueType.Ordered, ValueType.FieldsOrdered]
  have hunknown : (Value.unknown .string).Made := .unknown trivial
  have hattributes : ∀ entry ∈ [("token", Value.unknown .string)], entry.2.Made := by
    simpa using hunknown
  have htoken : (Value.object [("token", .string)] [("token", .unknown .string)]).Made :=
    .object hobject (Assoc.ascending_singleton _) hattributes rfl
  have hitems : ∀ item ∈ [Value.null (.object [("token", .string)]),
      .object [("token", .string)] [("token", .unknown .string)]], item.Made := by
    simpa using And.intro (Value.Made.null hobject) htoken
  exact .list hobject hitems rfl

/-- A vault that has such rules and no name. -/
def vaultDraft : Container := ⟨[("rules", draftRules)], some vault⟩

theorem vaultDraft_reachable : vaultDraft.Reachable := by
  refine ⟨[.create vault [("rules", draftRules)]], ?_, List.mem_singleton.mpr rfl⟩
  simp only [List.mem_singleton, forall_eq, Operation.Admissible]
  exact ⟨vault_bound, Assoc.ascending_singleton _, draftRules_made⟩

theorem vaultDraft_reload :
    (draftRules.WellTyped ∧ draftRules.Ordered ∧
      lift draftRules.type (lower draftRules) = .ok draftRules.settled ∧
        lower draftRules.settled = lower draftRules) ∧
    vaultDraft.Reachable ∧ vaultDraft.entity? = some vault ∧
      ∃ record c' record', vaultDraft.allValues = .ok record ∧
        Assoc.keys record = Assoc.keys vaultDraft.values ∧
        ofRecord vault record = .ok c' ∧ c'.allValues = .ok record' ∧
        (∀ name ∈ Assoc.keys record', vault.hasAttribute name = true) ∧
        (∀ name ∈ Assoc.keys record, Assoc.get? record' name = Assoc.get? record name) ∧
        (∀ name, vault.hasAttribute name = true → name ∉ Assoc.keys record →
          Assoc.get? record' name = some .null) ∧
        ofRecord vault record' = .ok c' :=
  ⟨⟨draftRules_made.wellTyped, draftRules_made.ordered,
      lift_lower_and_reload.1 draftRules draftRules_made.wellTyped draftRules_made.ordered⟩,
    vaultDraft_reachable, rfl, lift_lower_and_reload.2 vaultDraft vault vaultDraft_reachable rfl⟩

/-- The null is gone, the token is null, and so is the name. -/
example : (vaultDraft.reloaded vault).values =
    [("name", .null .string), ("rules", .list (.object [("token", .string)])
      [.object [("token", .string)] [("token", .null .string)]])] := rfl

end Container

end EntityModel
