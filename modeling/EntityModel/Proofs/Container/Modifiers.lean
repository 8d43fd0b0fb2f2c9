import EntityModel.Proofs.Container.Difference

/-!
# Modifiers of projections

The selected fields and the difference to another container are both found by filters. Two of the
filters are modifiers, which decide about no field whether it meets the conditions. Both projections
take `includeEmpty` alike, and all it does is to add nulls. But only the selection takes
`primitivesOnly`; the difference reports fields of all types.

* `FieldFilter.matches?_congr`: modifiers take no part in matching.
* `includeEmpty_adds_nulls`: what both projections show beyond known fields.
* `difference_blank`: what differs from a container without values.
* `difference_within_filtered_iff`: when the difference shows selected fields only.
-/

namespace EntityModel

namespace FieldFilter

/-- Filters with the same conditions in the same order match the same fields. -/
theorem matches?_congr {filters others : List FieldFilter}
    (h : filters.filter (!·.isModifier) = others.filter (!·.isModifier)) (c : Classification)
    (combination : Combination) :
    matches? c combination filters = matches? c combination others := by
  have hconditions : ∀ filters : List FieldFilter,
      filters.filterMap (test? c) = (filters.filter (!·.isModifier)).filterMap (test? c) := by
    intro filters
    rw [List.filterMap_filter]
    refine List.filterMap_congr fun filter _ => ?_
    cases filter <;> rfl
  rw [matches?, matches?, hconditions filters, hconditions others, h]

/-- The filters without the restriction to scalars. -/
def unrestricted (filters : List FieldFilter) : List FieldFilter :=
  filters.filter (· ≠ .primitivesOnly)

theorem unrestricted_contains_includeEmpty (filters : List FieldFilter) :
    (unrestricted filters).contains .includeEmpty = filters.contains .includeEmpty := by
  rw [Bool.eq_iff_iff]
  simp [unrestricted]

theorem unrestricted_contains_primitivesOnly (filters : List FieldFilter) :
    (unrestricted filters).contains .primitivesOnly = false := by
  simp [unrestricted]

theorem conditions_unrestricted (filters : List FieldFilter) :
    (unrestricted filters).filter (!·.isModifier) = filters.filter (!·.isModifier) := by
  rw [unrestricted, List.filter_filter]
  refine List.filter_congr fun filter _ => ?_
  cases filter <;> rfl

end FieldFilter

namespace Container

variable {c other : Container} {entity entity' : Entity} {combination : Combination}
  {set : Option FieldSet} {fields : Option (List String)} {filters before after : List FieldFilter}
  {name : String}

/-! ## Absent fields as nulls -/

/-- What one projection shows beyond another are nulls for fields without a known value. -/
structure AddsNulls (c : Container) (less more : Except ContainerError Record) : Prop where
  pruned : less = Record.prune <$> more
  known : ∀ {part whole}, less = .ok part → more = .ok whole → ∀ name,
    name ∈ Assoc.keys part ↔ name ∈ Assoc.keys whole ∧ c.Knows name
  null : ∀ {part whole}, less = .ok part → more = .ok whole → ∀ entry ∈ whole,
    entry.1 ∉ Assoc.keys part → entry.2 = .null

theorem addsNulls_error (c : Container) (e : ContainerError) :
    AddsNulls c (.error e) (.error e) :=
  ⟨rfl, nofun, nofun⟩

/-- After the same run it is enough to compare what follows a success. -/
theorem addsNulls_bind {α : Type} {run : Except ContainerError α}
    {next others : α → Except ContainerError Record}
    (h : ∀ a, run = .ok a → AddsNulls c (next a) (others a)) :
    AddsNulls c (run >>= next) (run >>= others) := by
  cases run with
  | error e => exact addsNulls_error c e
  | ok a => exact h a rfl

/-- Of two records of values the one leaves out what is absent. -/
theorem addsNulls_of_entries {part whole : Record} {p : String → Value → Prop}
    (hp : ∀ {name value}, p name value → Assoc.get? c.values name = some value)
    (hpartAscending : Assoc.Ascending part) (hwholeAscending : Assoc.Ascending whole)
    (hpart : ∀ name raw, (name, raw) ∈ part ↔
      ∃ value, (p name value ∧ value.isKnown = true) ∧ (lower value).prune = raw)
    (hwhole : ∀ name raw, (name, raw) ∈ whole ↔
      ∃ value, p name value ∧ lower value = raw) :
    AddsNulls c (.ok part) (.ok whole) := by
  have hkey : ∀ name, name ∈ Assoc.keys part ↔
      ∃ value, p name value ∧ value.isKnown = true := by
    intro name
    constructor
    · intro hname
      obtain ⟨⟨key, raw⟩, hentry, rfl⟩ := List.mem_map.mp hname
      obtain ⟨value, hvalue, -⟩ := (hpart key raw).mp hentry
      exact ⟨value, hvalue⟩
    · rintro ⟨value, hvalue⟩
      exact List.mem_map.mpr ⟨_, (hpart name _).mpr ⟨value, hvalue, rfl⟩, rfl⟩
  refine ⟨congrArg Except.ok ?_, ?_, ?_⟩
  · refine hpartAscending.eq_of_mem_iff (Record.ascending_prune hwholeAscending) ?_
    rintro ⟨name, raw⟩
    rw [hpart, Record.mem_prune]
    constructor
    · rintro ⟨value, ⟨hvalue, hknown⟩, rfl⟩
      exact ⟨_, (hwhole name _).mpr ⟨value, hvalue, rfl⟩,
        by simp [lower_isNull, hknown], rfl⟩
    · rintro ⟨raw, hraw, hnull, rfl⟩
      obtain ⟨value, hvalue, rfl⟩ := (hwhole name raw).mp hraw
      exact ⟨value, ⟨hvalue, by simpa [lower_isNull] using hnull⟩, rfl⟩
  · rintro _ _ ⟨⟩ ⟨⟩ name
    rw [hkey]
    constructor
    · rintro ⟨value, hvalue, hknown⟩
      have hentry := (hwhole name _).mpr ⟨value, hvalue, rfl⟩
      exact ⟨List.mem_map_of_mem hentry, value, hp hvalue, hknown⟩
    · rintro ⟨hname, value, hget, hknown⟩
      obtain ⟨⟨key, raw⟩, hentry, rfl⟩ := List.mem_map.mp hname
      obtain ⟨held, hheld, -⟩ := (hwhole key raw).mp hentry
      cases hget.symm.trans (hp hheld)
      exact ⟨value, hheld, hknown⟩
  · rintro _ _ ⟨⟩ ⟨⟩ ⟨name, raw⟩ hentry hname
    obtain ⟨value, hvalue, rfl⟩ := (hwhole name raw).mp hentry
    rw [hkey] at hname
    have hknown : value.isKnown = false := by
      rw [← Bool.not_eq_true]
      exact fun hknown => hname ⟨value, hvalue, hknown⟩
    rw [← Raw.isNull_iff, lower_isNull, hknown, Bool.not_false]

/-! Wherever `includeEmpty` stands among other filters, it changes nothing in what they select. -/

theorem conditions_includeEmpty (before after : List FieldFilter) :
    (before ++ .includeEmpty :: after).filter (!·.isModifier) =
      (before ++ after).filter (!·.isModifier) := by
  simp [FieldFilter.isModifier]

theorem selects_includeEmpty :
    selects entity combination set (before ++ .includeEmpty :: after) name =
      selects entity combination set (before ++ after) name := by
  simp only [selects, FieldFilter.matches?_congr (conditions_includeEmpty before after)]
  simp

theorem candidates_includeEmpty :
    c.candidates entity combination fields (before ++ .includeEmpty :: after) =
      c.candidates entity combination fields (before ++ after) := by
  simp only [candidates, FieldFilter.matches?_congr (conditions_includeEmpty before after)]

/-- Known values are reported alike, and absent ones only if they are to be shown. -/
theorem reports_false_iff {value : Value} :
    Reports other false name value ↔ Reports other true name value ∧ value.isKnown = true := by
  cases hknown : value.isKnown <;> simp [Reports, hknown]

theorem filtered_addsNulls (hc : c.Sound) (combination : Combination) (set : Option FieldSet)
    (hwithout : (before ++ after).contains .includeEmpty = false) :
    AddsNulls c (c.filtered combination set (before ++ after))
      (c.filtered combination set (before ++ .includeEmpty :: after)) := by
  have hwith : (before ++ .includeEmpty :: after).contains .includeEmpty = true := by simp
  cases hentity : c.entity with
  | error e =>
    rw [filtered, filtered, hentity, error_bind, error_bind]
    exact addsNulls_error c e
  | ok entity =>
    obtain ⟨part, hpart, hpartAscending, hmemPart⟩ :=
      filtered_entries hc (entity_ok.mp hentity) combination set (before ++ after)
    obtain ⟨whole, hwhole, hwholeAscending, hmemWhole⟩ :=
      filtered_entries hc (entity_ok.mp hentity) combination set (before ++ .includeEmpty :: after)
    rw [hpart, hwhole]
    refine addsNulls_of_entries (p := fun name value =>
      selects entity combination set (before ++ after) name = true ∧
        Assoc.get? c.values name = some value)
      (fun hvalue => hvalue.2) hpartAscending hwholeAscending (fun name raw => ?_)
      fun name raw => ?_
    · rw [hmemPart, hwithout]
      simp [shown, and_assoc]
    · rw [hmemWhole, hwith, selects_includeEmpty]
      simp [shown]

theorem differences_addsNulls (c other : Container) (names : List String) :
    AddsNulls c (.ok (c.differences other false names)) (.ok (c.differences other true names)) := by
  refine addsNulls_of_entries (p := fun name value =>
    name ∈ names ∧ Assoc.get? c.values name = some value ∧ Reports other true name value)
    (fun hvalue => hvalue.2.1) (differences_ascending ..) (differences_ascending ..)
    (fun name raw => ?_) fun name raw => mem_differences
  rw [mem_differences]
  simp [reports_false_iff, shown, and_assoc]

theorem difference_addsNulls (c other : Container) (combination : Combination)
    (fields : Option (List String))
    (hwithout : (before ++ after).contains .includeEmpty = false) :
    AddsNulls c (c.difference other combination fields (before ++ after))
      (c.difference other combination fields (before ++ .includeEmpty :: after)) := by
  have hwith : (before ++ .includeEmpty :: after).contains .includeEmpty = true := by simp
  rw [difference, difference]
  refine addsNulls_bind fun entity _ => addsNulls_bind fun _ _ => ?_
  rw [candidates_includeEmpty]
  refine addsNulls_bind fun names _ => ?_
  rw [hwithout, hwith]
  exact differences_addsNulls c other names

/-- Wherever `includeEmpty` stands among the filters, it only adds nulls: without them there is left
what the other filters show alone, and they stand for fields of which no value is known. This holds
for the selected fields and for the difference to any container, be the fields given or not, and
both fail alike with and without it. -/
theorem includeEmpty_adds_nulls (hc : c.Reachable) (other : Container) (combination : Combination)
    (set : Option FieldSet) (fields : Option (List String))
    (hbefore : .includeEmpty ∉ before) (hafter : .includeEmpty ∉ after) :
    AddsNulls c (c.filtered combination set (before ++ after))
        (c.filtered combination set (before ++ .includeEmpty :: after)) ∧
      AddsNulls c (c.difference other combination fields (before ++ after))
        (c.difference other combination fields (before ++ .includeEmpty :: after)) := by
  have hwithout : (before ++ after).contains .includeEmpty = false := by simp [hbefore, hafter]
  exact ⟨filtered_addsNulls hc.sound combination set hwithout,
    difference_addsNulls c other combination fields hwithout⟩

/-- A vault that has a name and nothing else. -/
def vaultNamed : Container :=
  ⟨[("name", .string "main"), ("rules", .null (.list (.object [("token", .string)])))],
    some vault⟩

theorem vaultNamed_reachable : vaultNamed.Reachable := by
  refine ⟨[.ofRecord vault [("name", .string "main")]], ?_, List.mem_singleton.mpr rfl⟩
  simp only [List.mem_singleton, forall_eq, Operation.Admissible]
  refine ⟨vault_bound, Assoc.ascending_singleton _, ?_⟩
  simp [Raw.EntriesOrdered, Raw.Ordered]

/-- The null for its rules is added. -/
theorem vaultNamed_includeEmpty :
    vaultNamed.Reachable ∧ .includeEmpty ∉ [FieldFilter.lacks .sensitive] ∧
      vaultNamed.filtered .all none [.lacks .sensitive, .includeEmpty] =
        .ok [("name", .string "main"), ("rules", .null)] ∧
      AddsNulls vaultNamed (vaultNamed.filtered .all none [.lacks .sensitive])
        (vaultNamed.filtered .all none [.lacks .sensitive, .includeEmpty]) ∧
      AddsNulls vaultNamed (vaultNamed.difference (vaultOf "s3") .all none [.lacks .sensitive])
        (vaultNamed.difference (vaultOf "s3") .all none [.lacks .sensitive, .includeEmpty]) :=
  ⟨vaultNamed_reachable, by decide, by cbv,
    @includeEmpty_adds_nulls _ [.lacks .sensitive] [] vaultNamed_reachable (vaultOf "s3") .all none
      none (by decide) (by decide)⟩

/-! ## Fields of all types -/

theorem selects_unrestricted_iff :
    selects entity combination none (FieldFilter.unrestricted filters) name = true ↔
      ∃ field, entity.introspection.field? name = some field ∧
        FieldFilter.matches? field.classification combination filters = true := by
  rw [selects_iff, FieldFilter.unrestricted_contains_primitivesOnly]
  simp [FieldFilter.matches?_congr (FieldFilter.conditions_unrestricted filters)]

/-- Without given fields, candidates are of all types, whether or not only scalars are to be
shown. -/
theorem mem_candidates {names : List String}
    (h : c.candidates entity combination none filters = .ok names) :
    name ∈ names ↔ name ∈ Assoc.keys c.values ∧
      selects entity combination none (FieldFilter.unrestricted filters) name = true := by
  cases h
  rw [List.mem_filter, selects_unrestricted_iff, Entity.classificationOf?,
    Introspection.classificationOf?]
  cases entity.introspection.field? name <;> simp

/-- The entries of the difference when no fields are given. -/
theorem difference_entries (hentity : c.entity? = some entity)
    (hother : other.entity? = some entity') (combination : Combination)
    (filters : List FieldFilter) :
    ∃ diff, c.difference other combination none filters = .ok diff ∧ Assoc.Ascending diff ∧
      ∀ name raw, (name, raw) ∈ diff ↔
        ∃ value,
          (selects entity combination none (FieldFilter.unrestricted filters) name = true ∧
            Assoc.get? c.values name = some value ∧
              Reports other (filters.contains .includeEmpty) name value) ∧
          shown (filters.contains .includeEmpty) value = raw := by
  obtain ⟨names, hnames⟩ :
      ∃ names, c.candidates entity combination none filters = .ok names :=
    ⟨_, rfl⟩
  refine ⟨_, difference_of_candidates hentity hother hnames, differences_ascending .., ?_⟩
  intro name raw
  rw [mem_differences]
  constructor
  · rintro ⟨value, ⟨hname, hget, hreports⟩, hshown⟩
    exact ⟨value, ⟨((mem_candidates hnames).mp hname).2, hget, hreports⟩, hshown⟩
  · rintro ⟨value, ⟨hselects, hget, hreports⟩, hshown⟩
    have hkey := List.mem_map_of_mem (f := Prod.fst) (Assoc.mem_of_get? hget)
    exact ⟨value,
      ⟨(mem_candidates hnames).mpr ⟨hkey, hselects⟩, hget, hreports⟩, hshown⟩

theorem differsIn_of_not_knows {value : Value} (h : ¬ other.Knows name) :
    differsIn other name value = true := by
  rw [differsIn]
  cases hget : Assoc.get? other.values name with
  | none => rfl
  | some theirs =>
    have hknown : theirs.isKnown = false := by
      rw [← Bool.not_eq_true]
      exact fun hknown => h ⟨theirs, hget, hknown⟩
    simp [hknown]

/-- From a container without known values, all values that can be shown differ. -/
theorem difference_blank {blank : Container} (hc : c.Sound) (hentity : c.entity? = some entity)
    (hblank : blank.entity? = some entity') (hnone : ∀ name, ¬ blank.Knows name) :
    c.difference blank combination none filters =
      c.filtered combination none (FieldFilter.unrestricted filters) := by
  obtain ⟨diff, hdiff, hdiffAscending, hmemDiff⟩ :=
    difference_entries hentity hblank combination filters
  obtain ⟨all, hall, hallAscending, hmemAll⟩ :=
    filtered_entries hc hentity combination none (FieldFilter.unrestricted filters)
  rw [hdiff, hall]
  refine congrArg Except.ok (hdiffAscending.eq_of_mem_iff hallAscending ?_)
  rintro ⟨name, raw⟩
  rw [hmemDiff, hmemAll, FieldFilter.unrestricted_contains_includeEmpty]
  have hreports : ∀ value, Reports blank (filters.contains .includeEmpty) name value ↔
      (value.isKnown = true ∨ filters.contains .includeEmpty = true) := by
    intro value
    cases hknown : value.isKnown <;> simp [Reports, hknown, differsIn_of_not_knows (hnone name)]
  simp only [hreports]

/-- A difference shows no more than the selection of fields of all types. -/
theorem difference_subset (hc : c.Sound) (hentity : c.entity? = some entity)
    (hother : other.entity? = some entity') :
    ∃ diff all, c.difference other combination none filters = .ok diff ∧
      c.filtered combination none (FieldFilter.unrestricted filters) = .ok all ∧
        diff ⊆ all := by
  obtain ⟨diff, hdiff, -, hmemDiff⟩ := difference_entries hentity hother combination filters
  obtain ⟨all, hall, -, hmemAll⟩ :=
    filtered_entries hc hentity combination none (FieldFilter.unrestricted filters)
  refine ⟨diff, all, hdiff, hall, ?_⟩
  rintro ⟨name, raw⟩ hentry
  rw [hmemAll, FieldFilter.unrestricted_contains_includeEmpty]
  obtain ⟨value, ⟨hselects, hget, hreports⟩, hshown⟩ := (hmemDiff name raw).mp hentry
  refine ⟨value, ⟨hselects, hget, ?_⟩, hshown⟩
  rcases hreports with ⟨hknown, -⟩ | ⟨-, hincluded⟩
  · exact .inl hknown
  · exact .inr hincluded

/-- Among the fields that meet the conditions, those with something to show are scalars. -/
def ShowsScalars (c : Container) (entity : Entity) (combination : Combination)
    (filters : List FieldFilter) : Prop :=
  ∀ name value field, Assoc.get? c.values name = some value →
    (value.isKnown = true ∨ filters.contains .includeEmpty = true) →
    entity.introspection.field? name = some field →
    FieldFilter.matches? field.classification combination filters = true →
    field.type.isPrimitive = true

/-- The restriction to scalars takes nothing from a selection if there are only scalars to show. -/
theorem filtered_unrestricted_iff (hc : c.Sound) (hentity : c.entity? = some entity) :
    c.filtered combination none (FieldFilter.unrestricted filters) =
        c.filtered combination none filters ↔
      (.primitivesOnly ∈ filters → c.ShowsScalars entity combination filters) := by
  obtain ⟨all, hall, hallAscending, hmemAll⟩ :=
    filtered_entries hc hentity combination none (FieldFilter.unrestricted filters)
  obtain ⟨part, hpart, hpartAscending, hmemPart⟩ :=
    filtered_entries hc hentity combination none filters
  rw [hall, hpart]
  simp only [FieldFilter.unrestricted_contains_includeEmpty, selects_unrestricted_iff] at hmemAll
  constructor
  · intro hsame hrestricted name value field hget hshown hfield hmatches
    cases hsame
    have hentry :=
      (hmemAll name _).mpr ⟨value, ⟨⟨field, hfield, hmatches⟩, hget, hshown⟩, rfl⟩
    obtain ⟨-, ⟨hselects, -⟩, -⟩ := (hmemPart name _).mp hentry
    obtain ⟨-, field', hfield', hprimitive, -⟩ := selects_iff.mp hselects
    cases hfield.symm.trans hfield'
    simpa [hrestricted] using hprimitive
  · intro hscalars
    refine congrArg Except.ok (hallAscending.eq_of_mem_iff hpartAscending ?_)
    rintro ⟨name, raw⟩
    rw [hmemAll, hmemPart]
    constructor
    · rintro ⟨value, ⟨⟨field, hfield, hmatches⟩, hget, hshown⟩, rfl⟩
      refine ⟨value,
        ⟨selects_iff.mpr ⟨rfl, field, hfield, ?_, hmatches⟩, hget, hshown⟩, rfl⟩
      by_cases hrestricted : .primitivesOnly ∈ filters
      · exact .inl (hscalars hrestricted name value field hget hshown hfield hmatches)
      · exact .inr (by simpa using hrestricted)
    · rintro ⟨value, ⟨hselects, hget, hshown⟩, rfl⟩
      obtain ⟨-, field, hfield, -, hmatches⟩ := selects_iff.mp hselects
      exact ⟨value, ⟨⟨field, hfield, hmatches⟩, hget, hshown⟩, rfl⟩

/-- The difference does not heed `primitivesOnly`. So what it shows lies within the selection, and
against a container without known values is all of it, exactly if that modifier is not among the
filters or there are only scalars to show. -/
theorem difference_within_filtered_iff (hc : c.Reachable) (hentity : c.entity? = some entity)
    (combination : Combination) (filters : List FieldFilter) :
    ((∀ blank : Container, blank.entity? = some entity → (∀ name, ¬ blank.Knows name) →
        c.difference blank combination none filters = c.filtered combination none filters) ∧
      ∀ other : Container, other.isEnabled = true →
        ∃ diff all, c.difference other combination none filters = .ok diff ∧
          c.filtered combination none filters = .ok all ∧ diff ⊆ all) ↔
      (.primitivesOnly ∈ filters → c.ShowsScalars entity combination filters) := by
  rw [← filtered_unrestricted_iff hc.sound hentity]
  constructor
  · rintro ⟨hblank, -⟩
    have hnone : ∀ name, ¬ (Container.mk [] (some entity)).Knows name := by
      rintro name ⟨value, hget, -⟩
      cases hget
    rw [← hblank ⟨[], some entity⟩ rfl hnone]
    exact (difference_blank hc.sound hentity rfl hnone).symm
  · intro hsame
    rw [← hsame]
    constructor
    · exact fun blank hblank hnone => difference_blank hc.sound hentity hblank hnone
    · intro other hother
      obtain ⟨entity', hentity'⟩ := Option.isSome_iff_exists.mp hother
      exact difference_subset hc.sound hentity hentity'

/-- Of a vault only the name is required, and it is a scalar. -/
theorem vaultOf_showsScalars (token : String) :
    (vaultOf token).ShowsScalars vault .any [.carries .required, .primitivesOnly] := by
  intro name value field _ _ hfield hmatches
  have hmem := Assoc.mem_of_get? hfield
  simp only [vault, List.mem_cons, List.not_mem_nil, or_false, Prod.mk.injEq] at hmem
  rcases hmem with ⟨-, rfl⟩ | ⟨-, rfl⟩ | ⟨-, rfl⟩
  · rfl
  · cases hmatches
  · cases hmatches

theorem vault_difference_within_filtered :
    (vaultOf "s3").Reachable ∧ (vaultOf "s3").entity? = some vault ∧
      (∀ blank : Container, blank.entity? = some vault → (∀ name, ¬ blank.Knows name) →
        (vaultOf "s3").difference blank .any none [.carries .required, .primitivesOnly] =
          (vaultOf "s3").filtered .any none [.carries .required, .primitivesOnly]) ∧
      ∀ other : Container, other.isEnabled = true →
        ∃ diff all,
          (vaultOf "s3").difference other .any none [.carries .required, .primitivesOnly] =
            .ok diff ∧
          (vaultOf "s3").filtered .any none [.carries .required, .primitivesOnly] = .ok all ∧
            diff ⊆ all :=
  ⟨vaultOf_reachable "s3", rfl,
    (difference_within_filtered_iff (vaultOf_reachable "s3") rfl .any _).mpr
      fun _ => vaultOf_showsScalars "s3"⟩

/-- A vault without any values. -/
def vaultBlank : Container := ⟨[], some vault⟩

theorem vaultBlank_reachable : vaultBlank.Reachable := by
  refine ⟨[.create vault []], ?_, List.mem_singleton.mpr rfl⟩
  simp only [List.mem_singleton, forall_eq, Operation.Admissible]
  exact ⟨vault_bound, List.Pairwise.nil, List.forall_mem_nil _⟩

/-- When nothing is required, the rules are no scalars and differ all the same. -/
theorem vault_difference_ne_filtered :
    (vaultOf "s3").Reachable ∧ vaultBlank.Reachable ∧
      vaultBlank.entity? = (vaultOf "s3").entity? ∧ vaultBlank.values = [] ∧
      (vaultOf "s3").filtered .any none [.primitivesOnly] = .ok [("name", .string "main")] ∧
      (vaultOf "s3").difference vaultBlank .any none [.primitivesOnly] =
        .ok (Session.vaultRecord "s3") ∧
      (vaultOf "s3").difference vaultBlank .any none [.primitivesOnly] ≠
        (vaultOf "s3").filtered .any none [.primitivesOnly] := by
  have hfiltered : (vaultOf "s3").filtered .any none [.primitivesOnly] =
      .ok [("name", .string "main")] := by
    cbv
  have hdifference : (vaultOf "s3").difference vaultBlank .any none [.primitivesOnly] =
      .ok (Session.vaultRecord "s3") := by
    cbv
  refine ⟨vaultOf_reachable "s3", vaultBlank_reachable, rfl, rfl, hfiltered, hdifference, ?_⟩
  rw [hdifference, hfiltered]
  simp [Session.vaultRecord]

end Container

end EntityModel
