import EntityModel.Container.Projection
import EntityModel.Proofs.Container.Session
import EntityModel.Proofs.Difference.Pruning
import EntityModel.Proofs.Lowering

/-!
# What a projection shows

Unless absent fields are to be shown, a projection shows the selected fields whose values are known,
each as its raw value without nulls.

* `selects_iff`: the selected fields in terms of the table of the entity.
* `filtered_entries`: the entries of a projection.
-/

namespace EntityModel

namespace Container

variable {c : Container} {entity : Entity} {combination : Combination} {set : Option FieldSet}
  {filters : List FieldFilter} {name : String} {raw : Raw}

/-- The container has a known value of a name. -/
def Knows (c : Container) (name : String) : Prop :=
  ∃ value, Assoc.get? c.values name = some value ∧ value.isKnown = true

/-- The known value of a name. -/
def known? (c : Container) (name : String) : Option Value :=
  (Assoc.get? c.values name).filter Value.isKnown

theorem known?_eq_some {value : Value} :
    c.known? name = some value ↔ Assoc.get? c.values name = some value ∧ value.isKnown = true :=
  Option.filter_eq_some_iff

theorem knows_iff : c.Knows name ↔ ∃ value, c.known? name = some value := by
  simp only [known?_eq_some, Knows]

theorem not_knows_iff : ¬ c.Knows name ↔ c.known? name = none := by
  rw [knows_iff, Option.eq_none_iff_forall_ne_some, not_exists]

theorem selects_iff :
    selects entity combination set filters name = true ↔
      set.all (·.admits name) = true ∧
        ∃ field, entity.introspection.field? name = some field ∧
        (field.type.isPrimitive = true ∨ filters.contains .primitivesOnly = false) ∧
          FieldFilter.matches? field.classification combination filters = true := by
  rw [selects, Entity.typeOf?, Entity.classificationOf?, Introspection.typeOf?,
    Introspection.classificationOf?]
  cases entity.introspection.field? name <;> simp

theorem filtered_ok {record : Record} :
    c.filtered combination set filters = .ok record ↔
      ∃ entity, c.entity? = some entity ∧
        pruneUnless (filters.contains .includeEmpty) (c.values.filterMap fun entry =>
          if selects entity combination set filters entry.1 then
            project? (filters.contains .includeEmpty) entry.1 entry.2
          else none) = record := by
  simp [filtered, entity_ok]

/-! ## What is shown of a value -/

/-- The raw form of a value in a projection. -/
def shown (includeEmpty : Bool) (value : Value) : Raw :=
  if includeEmpty then lower value else (lower value).prune

theorem project?_eq_some {includeEmpty : Bool} {entry : String × Raw} {value : Value} :
    project? includeEmpty name value = some entry ↔
      (value.isKnown = true ∨ includeEmpty = true) ∧ (name, lower value) = entry := by
  have hnull := lower_isNull value
  rw [project?]
  cases hknown : value.isKnown with
  | true => simp
  | false =>
    rw [hknown, Bool.not_false, Raw.isNull_iff] at hnull
    cases includeEmpty <;> simp [hnull]

/-- Entries that are raw forms of values stay when nulls are left out, as far as there are none for
absent values. -/
theorem mem_pruneUnless {includeEmpty : Bool} {record : Record} {p : Value → Prop}
    (hknown : ∀ {value}, p value → value.isKnown = true ∨ includeEmpty = true)
    (hrecord : ∀ whole, (name, whole) ∈ record ↔ ∃ value, p value ∧ lower value = whole) :
    (name, raw) ∈ pruneUnless includeEmpty record ↔
      ∃ value, p value ∧ shown includeEmpty value = raw := by
  cases includeEmpty with
  | true => simpa [pruneUnless, shown] using hrecord raw
  | false =>
    rw [pruneUnless, if_neg Bool.false_ne_true, Record.mem_prune]
    constructor
    · rintro ⟨whole, hmem, -, rfl⟩
      obtain ⟨value, hvalue, rfl⟩ := (hrecord whole).mp hmem
      exact ⟨value, hvalue, rfl⟩
    · rintro ⟨value, hvalue, rfl⟩
      have hvalueKnown : value.isKnown = true := by simpa using hknown hvalue
      have hnull : (lower value).isNull = false := by rw [lower_isNull, hvalueKnown, Bool.not_true]
      exact ⟨lower value, (hrecord _).mpr ⟨value, hvalue, rfl⟩, hnull, rfl⟩

theorem ascending_pruneUnless {includeEmpty : Bool} {record : Record}
    (h : Assoc.Ascending record) : Assoc.Ascending (pruneUnless includeEmpty record) := by
  rw [pruneUnless]
  split
  · exact h
  · exact Record.ascending_prune h

/-! ## Selected fields -/

/-- The entries of a projection: the selected fields with a known value, or with any value if absent
fields are to be shown. -/
theorem filtered_entries (hc : c.Sound) (hentity : c.entity? = some entity)
    (combination : Combination) (set : Option FieldSet) (filters : List FieldFilter) :
    ∃ record, c.filtered combination set filters = .ok record ∧ Assoc.Ascending record ∧
      ∀ name raw, (name, raw) ∈ record ↔
        ∃ value, (selects entity combination set filters name = true ∧
            Assoc.get? c.values name = some value ∧
              (value.isKnown = true ∨ filters.contains .includeEmpty = true)) ∧
          shown (filters.contains .includeEmpty) value = raw := by
  refine ⟨_, filtered_ok.mpr ⟨entity, hentity, rfl⟩, ascending_pruneUnless ?_,
    fun name raw => ?_⟩
  · refine (hc.ascending hentity).filterMap fun hentry => ?_
    obtain ⟨-, hprojected⟩ := Option.ite_none_right_eq_some.mp hentry
    obtain ⟨-, rfl⟩ := project?_eq_some.mp hprojected
    rfl
  · refine mem_pruneUnless (fun hvalue => hvalue.2.2) fun whole => ?_
    rw [List.mem_filterMap]
    constructor
    · rintro ⟨⟨key, value⟩, hentry, hprojected⟩
      obtain ⟨hselects, hprojected⟩ := Option.ite_none_right_eq_some.mp hprojected
      obtain ⟨hshown, heq⟩ := project?_eq_some.mp hprojected
      cases heq
      exact ⟨value, ⟨hselects, (hc.ascending hentity).get?_of_mem hentry, hshown⟩, rfl⟩
    · rintro ⟨value, ⟨hselects, hget, hshown⟩, rfl⟩
      refine ⟨(name, value), Assoc.mem_of_get? hget, ?_⟩
      exact Option.ite_none_right_eq_some.mpr ⟨hselects, project?_eq_some.mpr ⟨hshown, rfl⟩⟩

end Container

end EntityModel
