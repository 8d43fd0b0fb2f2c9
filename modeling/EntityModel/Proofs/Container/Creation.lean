import EntityModel.Container.Request
import EntityModel.Proofs.Container.Lookup
import EntityModel.Proofs.Schema.Flags

/-!
# What an entity is created with

A create request is made of the known required and optional fields. Fields that are sent on edits or
deletions only are kept out by their names, which is the same as by their flags, and so is the
identifier. Fields that are sent on look-ups only are not kept out.

* `createParams_sends`: the entries of a create request.
* `mem_keys_createParams`: its keys, in terms of the flags.
* `createParams_readOnly_iff`: when no field of a create request is one for look-ups only.
-/

namespace EntityModel

namespace Container

variable {c : Container} {entity : Entity} {name : String}

/-- Known required or optional fields that are not sent on edits or deletions only. -/
def ByCreation (c : Container) (entity : Entity) (name : String) : Prop :=
  name ≠ "id" ∧ ∃ field, c.KnownField entity name field ∧
    (field.classification.required = true ∨ field.classification.optional = true) ∧
      field.classification.editOnly = false ∧ field.classification.deleteOnly = false

theorem createParams_ok {params : Record} :
    c.createParams = .ok params ↔
      ∃ entity, c.entity? = some entity ∧ ∃ record,
        c.filtered .any (some { excludes := entity.hints.editOrDeleteOnly })
          [.carries .required, .carries .optional] = .ok record ∧
        Assoc.erase "id" record = params := by
  simp only [createParams, bind_ok_iff, entity_ok, pure_ok_iff]

/-- What is kept out by the lists of hints is kept out by the flags. -/
theorem byCreation_iff (hbound : entity.Bound) :
    c.ByCreation entity name ↔ name ≠ "id" ∧ c.Knows name ∧ selects entity .any
      (some { excludes := entity.hints.editOrDeleteOnly })
      [.carries .required, .carries .optional] name = true := by
  rw [ByCreation, knows_and_selects]
  refine and_congr_right fun _ => ?_
  constructor
  · rintro ⟨field, hfield, hflags, hedit, hdelete⟩
    have hlisted : name ∉ entity.hints.editOrDeleteOnly := by
      intro hmem
      have hflag := (hbound.mem_editOrDeleteOnly hfield.declared).mp hmem
      simp [hedit, hdelete] at hflag
    refine ⟨by simpa [FieldSet.admits] using hlisted, field, hfield, .inr rfl, ?_⟩
    simpa [FieldFilter.matches?, FieldFilter.test?, Classification.has] using hflags
  · rintro ⟨hset, field, hfield, -, hflags⟩
    have hlisted : name ∉ entity.hints.editOrDeleteOnly := by
      simpa [FieldSet.admits] using hset
    rw [hbound.mem_editOrDeleteOnly hfield.declared, not_or, Bool.not_eq_true,
      Bool.not_eq_true] at hlisted
    refine ⟨field, hfield, ?_, hlisted⟩
    simpa [FieldFilter.matches?, FieldFilter.test?, Classification.has] using hflags

/-- Each field of a create request is sent with its whole value, attributes below it included. -/
theorem createParams_sends (hc : c.Sound) (hentity : c.entity? = some entity) :
    ∃ params, c.createParams = .ok params ∧ c.SendsPruned (c.ByCreation entity) params := by
  obtain ⟨record, hrecord, hsends⟩ := filtered_sends hc hentity .any
    (some { excludes := entity.hints.editOrDeleteOnly })
    [.carries .required, .carries .optional] rfl
  refine ⟨_, createParams_ok.mpr ⟨entity, hentity, record, hrecord, rfl⟩, ?_⟩
  refine (hsends.erase "id").of_knows_and fun name => ?_
  rw [byCreation_iff (hc.bound hentity), and_left_comm]

theorem mem_keys_createParams (hc : c.Sound) (hentity : c.entity? = some entity) :
    ∃ params, c.createParams = .ok params ∧
      ∀ name, name ∈ Assoc.keys params ↔ c.ByCreation entity name := by
  obtain ⟨params, hparams, hsends⟩ := createParams_sends hc hentity
  refine ⟨params, hparams, fun name => hsends.mem_keys.trans (and_iff_left_of_imp ?_)⟩
  rintro ⟨-, field, hfield, -⟩
  exact hfield.known

/-- A create request never has the identifier nor a field that is sent on edits or deletions only.
It has no field that is sent on look-ups only just if no such field is known and required or
optional, unless it is kept out for one of those other reasons. -/
theorem createParams_readOnly_iff (hc : c.Reachable) (hentity : c.entity? = some entity) :
    ∃ params, c.createParams = .ok params ∧ "id" ∉ Assoc.keys params ∧
      (∀ name field, entity.introspection.field? name = some field →
        name ∈ Assoc.keys params →
        field.classification.editOnly = false ∧ field.classification.deleteOnly = false) ∧
      ((∀ name field, entity.introspection.field? name = some field →
        name ∈ Assoc.keys params →
          field.classification.readOnly = false) ↔
        ∀ name field, c.KnownField entity name field → field.classification.readOnly = true →
          field.classification.required = true ∨ field.classification.optional = true →
          name = "id" ∨ field.classification.editOnly = true ∨
            field.classification.deleteOnly = true) := by
  obtain ⟨params, hparams, hkeys⟩ := mem_keys_createParams hc.sound hentity
  have hfields : ∀ {name field}, entity.introspection.field? name = some field →
      name ∈ Assoc.keys params → c.KnownField entity name field ∧
        (field.classification.required = true ∨ field.classification.optional = true) ∧
          field.classification.editOnly = false ∧ field.classification.deleteOnly = false := by
    intro name field hfield hkey
    obtain ⟨-, own, hown, hrest⟩ := (hkeys name).mp hkey
    have heq : own = field := Option.some.inj (hown.declared.symm.trans hfield)
    exact heq ▸ ⟨hown, hrest⟩
  refine ⟨params, hparams, fun hid => ((hkeys "id").mp hid).1 rfl,
    fun name field hfield hkey => (hfields hfield hkey).2.2, ?_⟩
  constructor
  · intro hclear name field hknown hreadOnly hflags
    by_contra hkept
    simp only [not_or, Bool.not_eq_true] at hkept
    have hkey := (hkeys name).mpr ⟨hkept.1, field, hknown, hflags, hkept.2⟩
    have hflag := hclear name field hknown.declared hkey
    rw [hreadOnly] at hflag
    cases hflag
  · intro hkept name field hfield hkey
    obtain ⟨hknown, hflags, hedit, hdelete⟩ := hfields hfield hkey
    by_contra hreadOnly
    rw [Bool.not_eq_false] at hreadOnly
    rcases hkept name field hknown hreadOnly hflags with rfl | h | h
    · exact ((hkeys "id").mp hkey).1 rfl
    · rw [hedit] at h
      cases h
    · rw [hdelete] at h
      cases h

/-! ## An entity that is found by its name -/

/-- A volume is found by its name, which is required and sent on look-ups only. -/
def volumeRegistration : Registration where
  schema :=
    { name := "volume"
      attributes := [("name", .plain .string { required := true }),
        ("size", .plain .int64 { optional := true })] }
  hints := Hints.none.put .readOnly ["name"]

def volume : Entity where
  schema := volumeRegistration.schema
  hints := volumeRegistration.hints
  introspection := ⟨[("name", ⟨.string, { required := true, readOnly := true }⟩),
    ("size", ⟨.int64, { optional := true }⟩)]⟩

theorem volume_bound : volume.Bound := by
  refine ⟨volumeRegistration, ⟨by decide, ?_⟩, rfl⟩
  simp [volumeRegistration, Attribute.ChildrenOrdered, Attribute.Ordered, PlainShape.type,
    ValueType.Ordered]

/-- The container of a volume's record. -/
def volumeOf (title : String) (size : Int64) : Container :=
  ⟨[("name", .string title), ("size", .int64 size)], some volume⟩

theorem volumeOf_reachable (title : String) (size : Int64) : (volumeOf title size).Reachable := by
  have hkeys : ["name", "size"].Pairwise (· < ·) := by decide
  refine ⟨[.ofRecord volume [("name", .string title), ("size", .int size)]], ?_,
    List.mem_singleton.mpr rfl⟩
  simp only [List.mem_singleton, forall_eq, Operation.Admissible]
  exact ⟨volume_bound, Assoc.ascending_iff.mpr hkeys, by simp [Raw.EntriesOrdered, Raw.Ordered]⟩

theorem volume_createParams_readOnly_iff :
    (volumeOf "main" 5).Reachable ∧ (volumeOf "main" 5).entity? = some volume ∧
      ∃ params, (volumeOf "main" 5).createParams = .ok params ∧ "id" ∉ Assoc.keys params ∧
        (∀ name field, volume.introspection.field? name = some field →
          name ∈ Assoc.keys params →
          field.classification.editOnly = false ∧ field.classification.deleteOnly = false) ∧
        ((∀ name field, volume.introspection.field? name = some field →
            name ∈ Assoc.keys params → field.classification.readOnly = false) ↔
          ∀ name field, (volumeOf "main" 5).KnownField volume name field →
            field.classification.readOnly = true →
            field.classification.required = true ∨ field.classification.optional = true →
            name = "id" ∨ field.classification.editOnly = true ∨
              field.classification.deleteOnly = true) :=
  ⟨volumeOf_reachable "main" 5, rfl,
    createParams_readOnly_iff (volumeOf_reachable "main" 5) rfl⟩

/-- A volume is created with its name all the same. -/
theorem volume_createParams :
    (volumeOf "main" 5).Reachable ∧
      (∃ field, volume.introspection.field? "name" = some field ∧
        field.classification.readOnly = true) ∧
      (volumeOf "main" 5).createParams = .ok [("name", .string "main"), ("size", .int 5)] :=
  ⟨volumeOf_reachable "main" 5, ⟨_, rfl, rfl⟩, rfl⟩

end Container

end EntityModel
