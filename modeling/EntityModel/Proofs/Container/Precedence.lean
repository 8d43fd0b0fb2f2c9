import EntityModel.Proofs.Container.Lookup

/-!
# Which fields a look-up prefers

A step of a look-up gives way to the next one only if it selects nothing. What a step selects is
stripped of nulls before it is asked whether there is anything, and a known collection can lose all
its parts in that way; but then it stays as an empty one, so a step that selects a known field is
never passed over.

* `forall_not_lookedUpBy_iff`: when no step selects anything.
* `searchParams_by_precedence`: the keys of a look-up, and when it has none.
-/

namespace EntityModel

namespace Container

variable {c : Container} {entity : Entity}

/-- Without anything to look up by, no step selects a field; not even the steps that are tried only
after others. -/
theorem forall_not_lookedUpBy_iff :
    (∀ name, ¬ c.LookedUpBy entity name) ↔ ∀ name,
      ¬ c.ByCommon entity name ∧ ¬ c.ByRequired entity name ∧ ¬ c.ByIdentifier name ∧
        ¬ c.ByReadOnly entity name ∧ ¬ c.ByOptional entity name := by
  constructor
  · intro hnone name
    have hpreference : ∀ other, ¬ c.ByPreference entity other :=
      fun other h => hnone other (.inl h)
    have hcommon : ∀ other, ¬ c.ByCommon entity other := fun other h =>
      hpreference other (.inl (.inl h))
    refine ⟨hcommon name, ?_, ?_, ?_, ?_⟩
    · exact fun hrequired => hpreference name (.inl (.inr ⟨hcommon, hrequired⟩))
    · exact fun hidentifier => hpreference name (.inr (.inl hidentifier))
    · exact fun hreadOnly => hpreference name (.inr (.inr hreadOnly))
    · exact fun hoptional => hnone name (.inr ⟨hpreference, hoptional⟩)
  · intro hnone name hlookedUp
    obtain ⟨hcommon, hrequired, hidentifier, hreadOnly, hoptional⟩ := hnone name
    rcases hlookedUp with ((h | ⟨-, h⟩) | h | h) | ⟨-, h⟩
    · exact hcommon h
    · exact hrequired h
    · exact hidentifier h
    · exact hreadOnly h
    · exact hoptional h

/-- A look-up is made of the known common fields that are required, optional or searchable. If there
are none, it is made of the known required or searchable fields that are not sent on edits or
deletions only. In both cases the known identifiers and the known read-only fields join. If that is
nothing, it is made of the known optional scalars; and if these are none either, it is empty. -/
theorem searchParams_by_precedence (hc : c.Reachable) (hentity : c.entity? = some entity) :
    ∃ params, c.searchParams = .ok params ∧
      (∀ name, name ∈ Assoc.keys params ↔ c.LookedUpBy entity name) ∧
      (params = [] ↔ ∀ name,
        ¬ c.ByCommon entity name ∧ ¬ c.ByRequired entity name ∧ ¬ c.ByIdentifier name ∧
          ¬ c.ByReadOnly entity name ∧ ¬ c.ByOptional entity name) := by
  obtain ⟨params, hparams, hkeys⟩ := mem_keys_searchParams hc.sound hentity
  refine ⟨params, hparams, hkeys, ?_⟩
  rw [Assoc.eq_nil_iff, ← forall_not_lookedUpBy_iff]
  exact forall_congr' fun name => not_congr (hkeys name)

/-! ## An entity with an identifier of several parts -/

/-- An archive is identified by a region and a serial number. Whether it goes by force is sent on
deletions only, and its owner on edits and deletions only; its size is sent on look-ups only. -/
def archiveRegistration : Registration where
  schema :=
    { name := "archive"
      attributes := [("force", .plain .bool { optional := true }),
        ("id", .nested .single [("region", .plain .string {}), ("serial", .plain .string {})] {}),
        ("labels", .plain (.map .string) { required := true }),
        ("owner", .plain .string { optional := true }),
        ("size", .plain .int64 { optional := true })] }
  hints := ((Hints.none.put .editOnly ["owner"]).put .deleteOnly ["force", "owner"]).put .readOnly
    ["size"]

def archive : Entity where
  schema := archiveRegistration.schema
  hints := archiveRegistration.hints
  introspection := ⟨[("force", ⟨.bool, { optional := true, deleteOnly := true }⟩),
    ("id", ⟨.object [("region", .string), ("serial", .string)], { computed := true }⟩),
    ("id.region", ⟨.string, { computed := true }⟩),
    ("id.serial", ⟨.string, { computed := true }⟩),
    ("labels", ⟨.map .string, { required := true }⟩),
    ("owner", ⟨.string, { optional := true, editOnly := true, deleteOnly := true }⟩),
    ("size", ⟨.int64, { optional := true, readOnly := true }⟩)]⟩

theorem archive_bound : archive.Bound := by
  have hattributes : ["force", "id", "labels", "owner", "size"].Pairwise (· < ·) := by decide
  have hnames : ["region", "serial"].Pairwise (· < ·) := by decide
  have hparts : Assoc.Ascending [("region", Attribute.plain .string {}),
      ("serial", .plain .string {})] := Assoc.ascending_iff.mpr hnames
  refine ⟨archiveRegistration, ⟨Assoc.ascending_iff.mpr hattributes, ?_⟩, rfl⟩
  simp [archiveRegistration, Attribute.ChildrenOrdered, Attribute.Ordered, PlainShape.type,
    ValueType.Ordered, hparts]

/-- The record of an archive without a region, the zone of which is not known either. -/
def archiveRecord : Record :=
  [("force", .bool true), ("id", .map [("serial", .string "a7")]),
    ("labels", .map [("zone", .null)]), ("owner", .string "ops"), ("size", .int 5)]

/-- The container of that record. -/
def archived : Container :=
  ⟨[("force", .bool true),
    ("id", .object [("region", .string), ("serial", .string)]
      [("region", .null .string), ("serial", .string "a7")]),
    ("labels", .map .string [("zone", .null .string)]), ("owner", .string "ops"),
    ("size", .int64 5)], some archive⟩

theorem archived_reachable : archived.Reachable := by
  have hkeys : ["force", "id", "labels", "owner", "size"].Pairwise (· < ·) := by decide
  refine ⟨[.ofRecord archive archiveRecord], ?_, List.mem_singleton.mpr rfl⟩
  simp only [List.mem_singleton, forall_eq, Operation.Admissible]
  refine ⟨archive_bound, Assoc.ascending_iff.mpr hkeys, ?_⟩
  simp [archiveRecord, Raw.EntriesOrdered, Raw.Ordered]

/-- What it is looked up by. -/
def archivedLookup : Record :=
  [("id", .map [("region", .null), ("serial", .string "a7")]), ("labels", .map []),
    ("size", .int 5)]

theorem archived_searchParams : archived.searchParams = .ok archivedLookup := by
  cbv

/-- No common field of an archive is known, so its labels are what it is looked up by, although
nothing is left of them without nulls. -/
theorem archived_by_precedence :
    archived.Reachable ∧ archived.entity? = some archive ∧
      ∃ params, archived.searchParams = .ok params ∧
        Assoc.keys params = ["id", "labels", "size"] ∧
        (∀ name, name ∈ Assoc.keys params ↔ archived.LookedUpBy archive name) ∧
        (params = [] ↔ ∀ name,
          ¬ archived.ByCommon archive name ∧ ¬ archived.ByRequired archive name ∧
            ¬ archived.ByIdentifier name ∧ ¬ archived.ByReadOnly archive name ∧
              ¬ archived.ByOptional archive name) := by
  obtain ⟨params, hparams, hkeys, hnil⟩ := searchParams_by_precedence archived_reachable rfl
  cases archived_searchParams.symm.trans hparams
  exact ⟨archived_reachable, rfl, _, hparams, rfl, hkeys, hnil⟩

end Container

end EntityModel
