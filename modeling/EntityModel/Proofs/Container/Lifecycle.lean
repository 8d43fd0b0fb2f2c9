import EntityModel.Proofs.Container.Creation
import EntityModel.Proofs.Container.Precedence

/-!
# Which fields are written when

Required and optional fields are written by three kinds of requests. Two lists of hints name the
fields that are sent on edits only and on deletions only. Whatever a list names is kept out of
create requests, and what is optional among it is sent on its own occasion. A list that is empty
names nothing, although a set of names that lets nothing through in particular lets everything
through.

* `optionalAmong_sends`: what is sent with a list.
* `Divided`: how the three requests share the fields.
* `requests_divided`: that they do.
-/

namespace EntityModel

namespace Container

variable {c : Container} {entity : Entity} {name : String} {params : Record}

/-! ## What is sent with a list -/

/-- Optional fields of a list. -/
def ByListing (entity : Entity) (names : List String) (name : String) : Prop :=
  name ∈ names ∧ ∃ field, entity.introspection.field? name = some field ∧
    field.classification.optional = true

theorem byListing_iff {names : List String} (hnames : names ≠ []) :
    ByListing entity names name ↔
      selects entity .any (some { includes := names }) [.carries .optional] name = true := by
  rw [selects_iff]
  simp [ByListing, FieldSet.admits, hnames, FieldFilter.matches?, FieldFilter.test?,
    Classification.has]

theorem optionalAmong_sends (hc : c.Sound) (hentity : c.entity? = some entity)
    (names : List String) :
    ∃ params, c.optionalAmong names = .ok params ∧
      c.SendsPruned (ByListing entity names) params := by
  rw [optionalAmong]
  by_cases hnames : names = []
  · subst hnames
    exact ⟨[], rfl, .nil, fun name raw => by simp [ByListing]⟩
  · rw [if_neg (by simpa using hnames)]
    obtain ⟨params, hparams, hsends⟩ := filtered_sends hc hentity .any
      (some { includes := names }) [.carries .optional] rfl
    exact ⟨params, hparams, hsends.congr (fun name _ => (byListing_iff hnames).symm)
      fun _ _ _ _ => rfl⟩

theorem editOnlyParams_eq (hentity : c.entity? = some entity) :
    c.editOnlyParams = c.optionalAmong (entity.hints.paths .editOnly) := by
  rw [editOnlyParams, entity_ok.mpr hentity, ok_bind]

theorem deleteOnlyParams_eq (hentity : c.entity? = some entity) :
    c.deleteOnlyParams = c.optionalAmong (entity.hints.paths .deleteOnly) := by
  rw [deleteOnlyParams, entity_ok.mpr hentity, ok_bind]

/-! ## How the requests share the fields -/

/-- A field that is required or optional. -/
def Written (entity : Entity) (name : String) : Prop :=
  ∃ field, entity.introspection.field? name = some field ∧
    (field.classification.required = true ∨ field.classification.optional = true)

theorem ByCreation.written (h : c.ByCreation entity name) : Written entity name := by
  obtain ⟨-, field, hfield, hflags, -⟩ := h
  exact ⟨field, hfield.declared, hflags⟩

theorem ByListing.written {names : List String} (h : ByListing entity names name) :
    Written entity name := by
  obtain ⟨-, field, hfield, hoptional⟩ := h
  exact ⟨field, hfield, .inr hoptional⟩

/-- What is created with is on neither list. -/
theorem ByCreation.not_listed (hbound : entity.Bound) (h : c.ByCreation entity name) :
    name ∉ entity.hints.paths .editOnly ∧ name ∉ entity.hints.paths .deleteOnly := by
  obtain ⟨-, field, hfield, -, hedit, hdelete⟩ := h
  have hlisted : name ∉ entity.hints.editOrDeleteOnly := by
    rw [hbound.mem_editOrDeleteOnly hfield.declared, hedit, hdelete]
    simp
  rwa [Hints.editOrDeleteOnly, List.mem_append, not_or] at hlisted

/-- What is required or optional and on neither list is created with. -/
theorem Sends.mem_keys_created {field : Field} (h : c.SendsPruned (c.ByCreation entity) params)
    (hbound : entity.Bound) (hfield : c.KnownField entity name field) (hid : name ≠ "id")
    (hflags : field.classification.required = true ∨ field.classification.optional = true)
    (hedit : name ∉ entity.hints.paths .editOnly)
    (hdelete : name ∉ entity.hints.paths .deleteOnly) : name ∈ Assoc.keys params := by
  have hlisted : name ∉ entity.hints.editOrDeleteOnly := by
    simp [Hints.editOrDeleteOnly, hedit, hdelete]
  rw [hbound.mem_editOrDeleteOnly hfield.declared, not_or, Bool.not_eq_true,
    Bool.not_eq_true] at hlisted
  exact h.mem_keys.mpr ⟨⟨hid, field, hfield, hflags, hlisted⟩, hfield.known⟩

/-- What is optional is sent with a list just if it is on it. -/
theorem Sends.mem_keys_listed {names : List String} {field : Field}
    (h : c.SendsPruned (ByListing entity names) params) (hfield : c.KnownField entity name field)
    (hoptional : field.classification.optional = true) :
    name ∈ Assoc.keys params ↔ name ∈ names := by
  rw [h.mem_keys]
  constructor
  · exact fun hsent => hsent.1.1
  · exact fun hname => ⟨⟨hname, field, hfield.declared, hoptional⟩, hfield.known⟩

/-- Three records share the known required and optional fields: what is created with, what is sent
on edits only and what is sent on deletions only. -/
structure Divided (c : Container) (entity : Entity) (creation edition deletion : Record) :
    Prop where
  apart : ∀ name ∈ Assoc.keys creation, name ∉ Assoc.keys edition ∧
    name ∉ Assoc.keys deletion
  created : ∀ name field, c.KnownField entity name field → name ≠ "id" →
    field.classification.required = true ∨ field.classification.optional = true →
    name ∉ entity.hints.paths .editOnly → name ∉ entity.hints.paths .deleteOnly →
    name ∈ Assoc.keys creation
  edited : ∀ name field, c.KnownField entity name field →
    field.classification.optional = true →
    (name ∈ Assoc.keys edition ↔ name ∈ entity.hints.paths .editOnly)
  deleted : ∀ name field, c.KnownField entity name field →
    field.classification.optional = true →
    (name ∈ Assoc.keys deletion ↔ name ∈ entity.hints.paths .deleteOnly)
  kept : ∀ name field, c.KnownField entity name field → name ≠ "id" →
    field.classification.optional = true →
    name ∈ Assoc.keys creation ∨ name ∈ Assoc.keys edition ∨ name ∈ Assoc.keys deletion
  written : ∀ params ∈ [creation, edition, deletion], ∀ name ∈ Assoc.keys params,
    Written entity name
  alike : ∀ params ∈ [creation, edition, deletion],
    ∀ others ∈ [creation, edition, deletion],
    ∀ name raw raw', (name, raw) ∈ params → (name, raw') ∈ others → raw = raw'

theorem divided_of_sends {creation edition deletion : Record} (hbound : entity.Bound)
    (hcreate : c.SendsPruned (c.ByCreation entity) creation)
    (hedit : c.SendsPruned (ByListing entity (entity.hints.paths .editOnly)) edition)
    (hdelete : c.SendsPruned (ByListing entity (entity.hints.paths .deleteOnly)) deletion) :
    c.Divided entity creation edition deletion := by
  have hsends : ∀ params ∈ [creation, edition, deletion], ∃ p, c.SendsPruned p params ∧
      ∀ name, p name → Written entity name := by
    simp only [List.forall_mem_cons]
    exact ⟨⟨_, hcreate, fun _ h => h.written⟩, ⟨_, hedit, fun _ h => h.written⟩,
      ⟨_, hdelete, fun _ h => h.written⟩, by simp⟩
  refine ⟨?_, ?_, ?_, ?_, ?_, ?_, ?_⟩
  · intro name hkey
    obtain ⟨hnotEdit, hnotDelete⟩ := (hcreate.mem_keys.mp hkey).1.not_listed hbound
    exact ⟨fun h => hnotEdit (hedit.mem_keys.mp h).1.1,
      fun h => hnotDelete (hdelete.mem_keys.mp h).1.1⟩
  · exact fun name field => hcreate.mem_keys_created hbound
  · exact fun name field => hedit.mem_keys_listed
  · exact fun name field => hdelete.mem_keys_listed
  · intro name field hfield hid hoptional
    rw [hedit.mem_keys_listed hfield hoptional, hdelete.mem_keys_listed hfield hoptional]
    by_cases hnotEdit : name ∈ entity.hints.paths .editOnly
    · exact .inr (.inl hnotEdit)
    · by_cases hnotDelete : name ∈ entity.hints.paths .deleteOnly
      · exact .inr (.inr hnotDelete)
      · exact .inl
          (hcreate.mem_keys_created hbound hfield hid (.inr hoptional) hnotEdit hnotDelete)
  · intro params hparams name hkey
    obtain ⟨p, hp, hwritten⟩ := hsends params hparams
    exact hwritten name (hp.mem_keys.mp hkey).1
  · intro params hparams others hothers name raw raw'
    obtain ⟨p, hp, -⟩ := hsends params hparams
    obtain ⟨q, hq, -⟩ := hsends others hothers
    exact hp.raw_eq hq

/-- The three requests share the required and optional fields among them. A field on neither list is
created with, an optional one on a list is sent by the requests of that list, and by those of both
if it is on both; what is created with is sent by no other request. Fields that are neither required
nor optional are sent by none of them, and what two requests send of a field is the same. -/
theorem requests_divided (hc : c.Reachable) (hentity : c.entity? = some entity) :
    ∃ creation edition deletion, c.createParams = .ok creation ∧
      c.editOnlyParams = .ok edition ∧ c.deleteOnlyParams = .ok deletion ∧
      c.Divided entity creation edition deletion := by
  obtain ⟨creation, hcreation, hcreate⟩ := createParams_sends hc.sound hentity
  obtain ⟨edition, hedition, hedit⟩ :=
    optionalAmong_sends hc.sound hentity (entity.hints.paths .editOnly)
  obtain ⟨deletion, hdeletion, hdelete⟩ :=
    optionalAmong_sends hc.sound hentity (entity.hints.paths .deleteOnly)
  rw [← editOnlyParams_eq hentity] at hedition
  rw [← deleteOnlyParams_eq hentity] at hdeletion
  exact ⟨creation, edition, deletion, hcreation, hedition, hdeletion,
    divided_of_sends (hc.sound.bound hentity) hcreate hedit hdelete⟩

/-- Of an archive, the labels and the size are created with, the owner is sent on edits and on
deletions, and whether it goes by force on deletions. -/
theorem archived_divided :
    archived.Reachable ∧ archived.entity? = some archive ∧
      archived.createParams = .ok [("labels", .map []), ("size", .int 5)] ∧
      archived.editOnlyParams = .ok [("owner", .string "ops")] ∧
      archived.deleteOnlyParams = .ok [("force", .bool true), ("owner", .string "ops")] ∧
      archived.Divided archive [("labels", .map []), ("size", .int 5)] [("owner", .string "ops")]
        [("force", .bool true), ("owner", .string "ops")] := by
  have hcreate : archived.createParams = .ok [("labels", .map []), ("size", .int 5)] := by cbv
  have hedit : archived.editOnlyParams = .ok [("owner", .string "ops")] := by cbv
  have hdelete : archived.deleteOnlyParams =
      .ok [("force", .bool true), ("owner", .string "ops")] := by
    cbv
  obtain ⟨creation, edition, deletion, hcreation, hedition, hdeletion, hdivided⟩ :=
    requests_divided archived_reachable rfl
  cases hcreate.symm.trans hcreation
  cases hedit.symm.trans hedition
  cases hdelete.symm.trans hdeletion
  exact ⟨archived_reachable, rfl, hcreate, hedit, hdelete, hdivided⟩

end Container

end EntityModel
