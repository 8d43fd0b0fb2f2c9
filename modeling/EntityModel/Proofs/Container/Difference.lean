import EntityModel.Proofs.Container.Projection

/-!
# What the difference of two containers reports

Unless absent fields are to be shown, the difference reports the candidates whose value is known
here and is lacking, absent or different there, each as its raw value without nulls.

* `difference_of_candidates`, `difference_eq`: a difference is what is reported of its candidates.
* `mem_differences`, `mem_reported`: the entries of a report.
* `differsIn_eq_false_iff`: when a value is not reported.
-/

namespace EntityModel.Container

variable {c other : Container} {entity entity' : Entity} {combination : Combination}
  {fields : Option (List String)} {filters : List FieldFilter} {names : List String} {name : String}
  {raw : Raw} {value : Value}

/-! ## Candidates -/

/-- There are candidates unless a given name is not one of the entity's own attributes. -/
theorem exists_candidates (c : Container)
    (hfields : ∀ names ∈ fields, ∀ name ∈ names, entity.hasAttribute name = true)
    (combination : Combination) (filters : List FieldFilter) :
    ∃ names, c.candidates entity combination fields filters = .ok names := by
  cases fields with
  | none => exact ⟨_, rfl⟩
  | some names =>
    have hnone : names.find? (fun name => !entity.hasAttribute name) = none := by
      rw [List.find?_eq_none]
      intro name hname
      rw [hfields names rfl name hname]
      exact Bool.false_ne_true
    exact ⟨names, by simp only [candidates, hnone]⟩

/-! ## Reports -/

/-- A known value is reported if it differs, and an absent one if absent fields are to be shown. -/
def Reports (other : Container) (includeEmpty : Bool) (name : String) (value : Value) : Prop :=
  value.isKnown = true ∧ differsIn other name value = true ∨
    value.isKnown = false ∧ includeEmpty = true

/-- The entries of the difference for given candidates. -/
def differences (c other : Container) (includeEmpty : Bool) (names : List String) : Record :=
  pruneUnless includeEmpty (Assoc.ofList (names.filterMap (c.differing? other includeEmpty)))

/-- The same without absent fields. -/
def reported (c other : Container) (names : List String) : Record :=
  Record.prune (Assoc.ofList (names.filterMap (c.differing? other false)))

theorem difference_of_candidates (hentity : c.entity? = some entity)
    (hother : other.entity? = some entity')
    (hnames : c.candidates entity combination fields filters = .ok names) :
    c.difference other combination fields filters =
      .ok (c.differences other (filters.contains .includeEmpty) names) := by
  rw [difference, entity_ok.mpr hentity, entity_ok.mpr hother, ok_bind, ok_bind, hnames, ok_bind]
  rfl

theorem difference_eq (hentity : c.entity? = some entity) (hother : other.entity? = some entity')
    (hfilters : filters.contains .includeEmpty = false)
    (hnames : c.candidates entity combination fields filters = .ok names) :
    c.difference other combination fields filters = .ok (c.reported other names) := by
  rw [difference_of_candidates hentity hother hnames, hfilters]
  rfl

theorem differing?_eq_some {includeEmpty : Bool} {entry : String × Raw} :
    c.differing? other includeEmpty name = some entry ↔
      ∃ value, (Assoc.get? c.values name = some value ∧
        Reports other includeEmpty name value) ∧ (name, lower value) = entry := by
  rw [differing?]
  cases Assoc.get? c.values name with
  | none => simp
  | some value =>
    cases hknown : value.isKnown <;> cases hdiffers : differsIn other name value <;>
      simp [project?_eq_some, Reports, hknown, hdiffers]

theorem mem_differences {includeEmpty : Bool} :
    (name, raw) ∈ c.differences other includeEmpty names ↔
      ∃ value, (name ∈ names ∧ Assoc.get? c.values name = some value ∧
          Reports other includeEmpty name value) ∧ shown includeEmpty value = raw := by
  refine mem_pruneUnless (fun hvalue => ?_) fun whole => ?_
  · rcases hvalue.2.2 with ⟨hknown, -⟩ | ⟨-, hshown⟩
    · exact .inl hknown
    · exact .inr hshown
  · have hkey : ∀ {key e}, c.differing? other includeEmpty key = some e → e.1 = key := by
      intro key e he
      obtain ⟨value, -, rfl⟩ := differing?_eq_some.mp he
      rfl
    rw [Assoc.mem_ofList_filterMap hkey, differing?_eq_some]
    simp [and_assoc]

theorem differences_ascending (c other : Container) (includeEmpty : Bool) (names : List String) :
    Assoc.Ascending (c.differences other includeEmpty names) :=
  ascending_pruneUnless (Assoc.ascending_ofList _)

theorem mem_reported :
    (name, raw) ∈ c.reported other names ↔
      name ∈ names ∧ ∃ value, Assoc.get? c.values name = some value ∧
        value.isKnown = true ∧
        differsIn other name value = true ∧ raw = (lower value).prune := by
  have hsame : c.reported other names = c.differences other false names := rfl
  rw [hsame, mem_differences]
  simp [Reports, shown, and_assoc, @eq_comm _ raw]

theorem reported_ascending (c other : Container) (names : List String) :
    Assoc.Ascending (c.reported other names) :=
  Record.ascending_prune (Assoc.ascending_ofList _)

/-- A value is not reported if the other container has a known value that equals it. -/
theorem differsIn_eq_false_iff :
    differsIn other name value = false ↔
      ∃ theirs, Assoc.get? other.values name = some theirs ∧ theirs.isKnown = true ∧
        theirs.equals value = true := by
  rw [differsIn]
  cases Assoc.get? other.values name <;> simp

/-! ## A fleet -/

def fleetRegistration : Registration where
  schema :=
    { name := "fleet"
      attributes := [("groups", .plain (.set (.set .string)) { optional := true }),
        ("labels", .plain (.map .string) { optional := true })] }
  hints := Hints.none

def fleet : Entity where
  schema := fleetRegistration.schema
  hints := fleetRegistration.hints
  introspection := ⟨[("groups", ⟨.set (.set .string), { optional := true }⟩),
    ("labels", ⟨.map .string, { optional := true }⟩)]⟩

theorem fleet_bound : fleet.Bound := by
  refine ⟨fleetRegistration, ⟨by decide, ?_⟩, rfl⟩
  simp [fleetRegistration, Attribute.ChildrenOrdered, Attribute.Ordered, PlainShape.type,
    ValueType.Ordered]

/-- A fleet as a record: its groups of hosts, and the zone that it is labelled with. -/
def fleetRecord (groups : List (List Raw)) (zone : String) : Record :=
  [("groups", .list (groups.map Raw.list)), ("labels", .map [("zone", .string zone)])]

end EntityModel.Container
