import EntityModel.Proofs.Container.Sending

/-!
# What a container is looked up by

A look-up is made of what four steps select, and of what a last step selects if that is nothing. All
steps select by names and classifications among the known fields, so the keys of a look-up can be
told without making it.

* `searchParams_sends`: the entries of a look-up.
* `mem_keys_searchParams`: its keys.
* `editOrDeleteOnly_mem_searchParams`: which fields join a look-up although they are sent on edits
  or deletions only.
-/

namespace EntityModel

namespace Container

variable {c : Container} {entity : Entity} {name : String} {field : Field} {record : Record}

/-! ## What the steps select -/

/-- A known field, as the entity declares it. -/
structure KnownField (c : Container) (entity : Entity) (name : String) (field : Field) : Prop where
  known : c.Knows name
  declared : entity.introspection.field? name = some field

/-- Known common fields that are required, optional or searchable. -/
def ByCommon (c : Container) (entity : Entity) (name : String) : Prop :=
  name ∈ commonSearchable ∧ ∃ field, c.KnownField entity name field ∧
    (field.classification.required = true ∨ field.classification.optional = true ∨
      field.classification.searchable = true)

/-- Known required or searchable fields, without those sent on edits or deletions only. -/
def ByRequired (c : Container) (entity : Entity) (name : String) : Prop :=
  name ∉ entity.hints.editOrDeleteOnly ∧ ∃ field, c.KnownField entity name field ∧
    (field.classification.required = true ∨ field.classification.searchable = true)

/-- Known identifiers. -/
def ByIdentifier (c : Container) (name : String) : Prop := name ∈ identifiers ∧ c.Knows name

/-- Known read-only fields. -/
def ByReadOnly (c : Container) (entity : Entity) (name : String) : Prop :=
  ∃ field, c.KnownField entity name field ∧ field.classification.readOnly = true

/-- Known optional scalars. -/
def ByOptional (c : Container) (entity : Entity) (name : String) : Prop :=
  ∃ field, c.KnownField entity name field ∧ field.classification.optional = true ∧
    field.type.isPrimitive = true

/-- What a look-up is made of unless it is nothing. -/
def ByPreference (c : Container) (entity : Entity) (name : String) : Prop :=
  (c.ByCommon entity name ∨
      (∀ other, ¬ c.ByCommon entity other) ∧ c.ByRequired entity name) ∨
    c.ByIdentifier name ∨ c.ByReadOnly entity name

/-- What a look-up is made of. -/
def LookedUpBy (c : Container) (entity : Entity) (name : String) : Prop :=
  c.ByPreference entity name ∨
    (∀ other, ¬ c.ByPreference entity other) ∧ c.ByOptional entity name

theorem knows_and_selects {set : Option FieldSet} {filters : List FieldFilter} :
    c.Knows name ∧ selects entity .any set filters name = true ↔
      set.all (·.admits name) = true ∧ ∃ field, c.KnownField entity name field ∧
        (field.type.isPrimitive = true ∨ filters.contains .primitivesOnly = false) ∧
          FieldFilter.matches? field.classification .any filters = true := by
  rw [selects_iff]
  constructor
  · rintro ⟨hknown, hset, field, hfield, hrest⟩
    exact ⟨hset, field, ⟨hknown, hfield⟩, hrest⟩
  · rintro ⟨hset, field, ⟨hknown, hfield⟩, hrest⟩
    exact ⟨hknown, hset, field, hfield, hrest⟩

theorem byCommon_iff :
    c.ByCommon entity name ↔ c.Knows name ∧ selects entity .any
      (some { includes := commonSearchable })
      [.carries .required, .carries .optional, .carries .searchable] name = true := by
  rw [knows_and_selects]
  simp [ByCommon, FieldSet.admits, commonSearchable, FieldFilter.matches?, FieldFilter.test?,
    Classification.has]

theorem byRequired_iff :
    c.ByRequired entity name ↔ c.Knows name ∧ selects entity .any
      (some { excludes := entity.hints.editOrDeleteOnly })
      [.carries .required, .carries .searchable] name = true := by
  rw [knows_and_selects]
  simp [ByRequired, FieldSet.admits, FieldFilter.matches?, FieldFilter.test?, Classification.has]

theorem byReadOnly_iff :
    c.ByReadOnly entity name ↔ c.Knows name ∧ selects entity .any none
      [.carries .readOnly] name = true := by
  rw [knows_and_selects]
  simp [ByReadOnly, FieldFilter.matches?, FieldFilter.test?, Classification.has]

theorem byOptional_iff :
    c.ByOptional entity name ↔ c.Knows name ∧ selects entity .any none
      [.carries .optional, .primitivesOnly] name = true := by
  rw [knows_and_selects]
  simp [ByOptional, FieldFilter.matches?, FieldFilter.test?, Classification.has, and_comm]

/-! ## The entries of a look-up -/

/-- A look-up made of what its steps select. -/
theorem searchParams_ok {common required readOnly optional : Record}
    (hentity : c.entity? = some entity)
    (hcommon : c.filtered .any (some { includes := commonSearchable })
      [.carries .required, .carries .optional, .carries .searchable] = .ok common)
    (hrequired : c.filtered .any (some { excludes := entity.hints.editOrDeleteOnly })
      [.carries .required, .carries .searchable] = .ok required)
    (hreadOnly : c.filtered .any none [.carries .readOnly] = .ok readOnly)
    (hoptional : c.filtered .any none [.carries .optional, .primitivesOnly] = .ok optional) :
    c.searchParams = .ok (orElse
      ((c.addKnown identifiers (orElse common required)).merge readOnly false) optional) := by
  have hlast : ∀ params : Record,
      (if params.isEmpty then c.filtered .any none [.carries .optional, .primitivesOnly]
        else pure params) = .ok (orElse params optional) := by
    intro params
    rw [orElse]
    split
    · exact hoptional
    · rfl
  simp only [searchParams, readOnlySearchParams, bind_ok_iff, entity_ok]
  refine ⟨entity, hentity, common, hcommon, ?_⟩
  split
  · next hempty =>
    have hbase : orElse common required = required := if_pos hempty
    refine bind_ok_iff.mpr ⟨required, hrequired, bind_ok_iff.mpr ⟨readOnly, hreadOnly, ?_⟩⟩
    rw [hbase]
    exact hlast _
  · next hsome =>
    have hbase : orElse common required = common := if_neg hsome
    refine bind_ok_iff.mpr ⟨common, rfl, bind_ok_iff.mpr ⟨readOnly, hreadOnly, ?_⟩⟩
    rw [hbase]
    exact hlast _

theorem ByPreference.knows (h : c.ByPreference entity name) : c.Knows name := by
  rcases h with (⟨-, _, hfield, -⟩ | ⟨-, -, _, hfield, -⟩) | ⟨-, hknows⟩
    | ⟨_, hfield, -⟩
  · exact hfield.known
  · exact hfield.known
  · exact hknows
  · exact hfield.known

/-- Identifiers join a look-up as they are, other fields without nulls. -/
def lookupForm (name : String) (value : Value) : Raw :=
  if name ∈ identifiers then lower value else (lower value).prune

theorem lookupForm_of_not_mem {value : Value} (h : name ∉ identifiers) :
    lookupForm name value = (lower value).prune := if_neg h

/-- The entries of a look-up, step by step. -/
theorem searchParams_sends (hc : c.Sound) (hentity : c.entity? = some entity) :
    ∃ params, c.searchParams = .ok params ∧
      c.Sends lookupForm (c.LookedUpBy entity) params := by
  obtain ⟨common, hcommonOk, hcommon⟩ := filtered_sends hc hentity .any
    (some { includes := commonSearchable })
    [.carries .required, .carries .optional, .carries .searchable] rfl
  obtain ⟨required, hrequiredOk, hrequired⟩ := filtered_sends hc hentity .any
    (some { excludes := entity.hints.editOrDeleteOnly })
    [.carries .required, .carries .searchable] rfl
  obtain ⟨readOnly, hreadOnlyOk, hreadOnly⟩ :=
    filtered_sends hc hentity .any none [.carries .readOnly] rfl
  obtain ⟨optional, hoptionalOk, hoptional⟩ :=
    filtered_sends hc hentity .any none [.carries .optional, .primitivesOnly] rfl
  replace hcommon := hcommon.of_knows_and fun name => byCommon_iff (c := c)
  replace hrequired := hrequired.of_knows_and fun name => byRequired_iff (c := c)
  replace hreadOnly := hreadOnly.of_knows_and fun name => byReadOnly_iff (c := c)
  replace hoptional := hoptional.of_knows_and fun name => byOptional_iff (c := c)
  refine ⟨_, searchParams_ok hentity hcommonOk hrequiredOk hreadOnlyOk hoptionalOk, ?_⟩
  have hbase := hcommon.orElse (fun _ h => ByPreference.knows (.inl (.inl h))) fun _ => hrequired
  -- all identifiers were added before, so what is merged in is none of them
  have hmerged : c.Sends lookupForm _ _ := (hbase.addKnown identifiers).merge hreadOnly
    fun name value hnot _ => (lookupForm_of_not_mem fun hmem => hnot (.inr hmem)).symm
  have hpreferred : c.Sends lookupForm (c.ByPreference entity) _ :=
    hmerged.congr (fun name hknows => by simp [ByPreference, ByIdentifier, hknows, or_assoc])
      fun _ _ _ _ => rfl
  refine hpreferred.orElse (fun _ h => h.knows) fun hnone => ?_
  refine hoptional.congr (fun _ _ => .rfl) fun name value _ hvalue => ?_
  refine (lookupForm_of_not_mem fun hmem => hnone name (.inr (.inl ⟨hmem, ?_⟩))).symm
  exact knows_iff.mpr ⟨value, hvalue⟩

theorem mem_keys_searchParams (hc : c.Sound) (hentity : c.entity? = some entity) :
    ∃ params, c.searchParams = .ok params ∧
      ∀ name, name ∈ Assoc.keys params ↔ c.LookedUpBy entity name := by
  obtain ⟨params, hparams, hsends⟩ := searchParams_sends hc hentity
  refine ⟨params, hparams, fun name => hsends.mem_keys.trans (and_iff_left_of_imp ?_)⟩
  rintro (h | ⟨-, _, hfield, -⟩)
  · exact h.knows
  · exact hfield.known

/-- A field that is sent on edits or deletions only joins a look-up all the same if it is a common
or a read-only one, or if the look-up falls back on optional scalars. Only the step for required
fields leaves it out. -/
theorem editOrDeleteOnly_mem_searchParams (hc : c.Reachable) (hentity : c.entity? = some entity) :
    ∃ params, c.searchParams = .ok params ∧
      ∀ name ∈ entity.hints.editOrDeleteOnly, name ∉ identifiers →
        (name ∈ Assoc.keys params ↔ c.ByCommon entity name ∨ c.ByReadOnly entity name ∨
          (∀ other, ¬ c.ByPreference entity other) ∧ c.ByOptional entity name) := by
  obtain ⟨params, hparams, hkeys⟩ := mem_keys_searchParams hc.sound hentity
  refine ⟨params, hparams, fun name hlisted hidentifier => ?_⟩
  have hrequired : ¬ c.ByRequired entity name := fun h => h.1 hlisted
  have hidentified : ¬ c.ByIdentifier name := fun h => hidentifier h.1
  rw [hkeys, LookedUpBy, ByPreference]
  simp [hrequired, hidentified, or_assoc]

/-- A vault's name is sent on edits only. -/
theorem vault_editOnly_mem_searchParams :
    (vaultOf "s3").Reachable ∧ (vaultOf "s3").entity? = some vault ∧
      ∃ params, (vaultOf "s3").searchParams = .ok params ∧
        ∀ name ∈ vault.hints.editOrDeleteOnly, name ∉ identifiers →
          (name ∈ Assoc.keys params ↔
            (vaultOf "s3").ByCommon vault name ∨ (vaultOf "s3").ByReadOnly vault name ∨
              (∀ other, ¬ (vaultOf "s3").ByPreference vault other) ∧
                (vaultOf "s3").ByOptional vault name) :=
  ⟨vaultOf_reachable "s3", rfl, editOrDeleteOnly_mem_searchParams (vaultOf_reachable "s3") rfl⟩

/-- Yet vaults are looked up by their names. -/
theorem vault_searchParams :
    (vaultOf "s3").Reachable ∧ "name" ∈ vault.hints.editOrDeleteOnly ∧
      "name" ∉ identifiers ∧ (vaultOf "s3").searchParams = .ok [("name", .string "main")] := by
  refine ⟨vaultOf_reachable "s3", ?_, by decide, rfl⟩
  exact List.mem_singleton.mpr rfl

end Container

end EntityModel
