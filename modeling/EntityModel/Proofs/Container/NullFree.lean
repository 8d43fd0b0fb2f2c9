import EntityModel.Proofs.Container.Lifecycle
import EntityModel.Proofs.Difference.Nulls

/-!
# Nulls in requests

Requests are sent without nulls at any depth, as they come from projections that leave them out. The
one exception are identifiers: they are added to a look-up after the projections, as they are. An
identifier that is made of parts, some of which are absent, brings their nulls into the look-up.

* `SentWithoutNulls`: what a request is sent with.
* `Sends.withoutNulls`: records of pruned values are sent without nulls.
* `requests_nullFree_iff`: when all requests are.
-/

namespace EntityModel

namespace Container

variable {c : Container} {entity : Entity} {params : Record} {p : String → Prop}

/-- A request is sent with known values of own attributes, without nulls at any depth. -/
structure SentWithoutNulls (c : Container) (entity : Entity) (params : Record) : Prop where
  known : ∀ name raw, (name, raw) ∈ params → entity.hasAttribute name = true ∧
    ∃ value, c.known? name = some value ∧ raw = (lower value).prune
  nullFree : (Raw.map params).NullFree

theorem nullFree_prune_lower {value : Value} (h : value.isKnown = true) :
    (lower value).prune.NullFree := by
  refine Raw.nullFree_prune ?_
  rw [lower_isNull, h, Bool.not_true]

theorem Sends.withoutNulls (hc : c.Sound) (hentity : c.entity? = some entity)
    (h : c.SendsPruned p params) : c.SentWithoutNulls entity params := by
  constructor
  · intro name raw hentry
    obtain ⟨-, value, hvalue, rfl⟩ := (h.entries name raw).mp hentry
    have hget := Assoc.mem_of_get? (known?_eq_some.mp hvalue).1
    exact ⟨(hc.fits hentity _ hget).own, value, hvalue, rfl⟩
  · rw [Raw.nullFree_map]
    rintro ⟨name, raw⟩ hentry
    obtain ⟨-, value, hvalue, rfl⟩ := (h.entries name raw).mp hentry
    exact nullFree_prune_lower (known?_eq_some.mp hvalue).2

/-- A look-up is sent without nulls just if there are none in the identifiers. -/
theorem Sends.withoutNulls_iff (hc : c.Sound) (hentity : c.entity? = some entity)
    (h : c.Sends lookupForm (c.LookedUpBy entity) params) :
    c.SentWithoutNulls entity params ↔
      ∀ name ∈ identifiers, ∀ value, c.known? name = some value →
        (lower value).NullFree := by
  constructor
  · intro hsent name hmem value hvalue
    have hidentifier : c.ByIdentifier name := ⟨hmem, knows_iff.mpr ⟨value, hvalue⟩⟩
    have hentry : (name, lower value) ∈ params :=
      (h.entries name _).mpr ⟨.inl (.inr (.inl hidentifier)), value, hvalue, if_pos hmem⟩
    exact Raw.nullFree_map.mp hsent.nullFree _ hentry
  · intro hnullFree
    -- then it makes no difference that identifiers are not pruned
    refine Sends.withoutNulls hc hentity (p := c.LookedUpBy entity) ?_
    refine h.congr (fun _ _ => .rfl) fun name value _ hvalue => ?_
    rw [lookupForm]
    split
    · next hmem => exact (hnullFree name hmem value hvalue).prune_eq.symm
    · rfl

theorem readOnlySearchParams_sends (hc : c.Sound) (hentity : c.entity? = some entity) :
    ∃ params, c.readOnlySearchParams = .ok params ∧
      c.SendsPruned (c.ByReadOnly entity) params := by
  obtain ⟨params, hparams, hsends⟩ :=
    filtered_sends hc hentity .any none [.carries .readOnly] rfl
  exact ⟨params, hparams, hsends.of_knows_and fun name => byReadOnly_iff⟩

/-- Four of the five requests are sent without nulls. The look-up sends known values as well, but
identifiers with all their nulls, so it is sent without nulls just if the identifiers have none. -/
theorem requests_nullFree_iff (hc : c.Reachable) (hentity : c.entity? = some entity) :
    ∃ lookup readOnly creation edition deletion,
      c.searchParams = .ok lookup ∧ c.readOnlySearchParams = .ok readOnly ∧
      c.createParams = .ok creation ∧ c.editOnlyParams = .ok edition ∧
      c.deleteOnlyParams = .ok deletion ∧
      (∀ params ∈ [readOnly, creation, edition, deletion], c.SentWithoutNulls entity params) ∧
      (∀ name raw, (name, raw) ∈ lookup →
        ∃ value, c.known? name = some value ∧ raw = lookupForm name value) ∧
      (c.SentWithoutNulls entity lookup ↔
        ∀ name ∈ identifiers, ∀ value, c.known? name = some value →
          (lower value).NullFree) := by
  obtain ⟨lookup, hlookupOk, hlookup⟩ := searchParams_sends hc.sound hentity
  obtain ⟨readOnly, hreadOnlyOk, hreadOnly⟩ := readOnlySearchParams_sends hc.sound hentity
  obtain ⟨creation, hcreationOk, hcreation⟩ := createParams_sends hc.sound hentity
  obtain ⟨edition, heditionOk, hedition⟩ :=
    optionalAmong_sends hc.sound hentity (entity.hints.paths .editOnly)
  obtain ⟨deletion, hdeletionOk, hdeletion⟩ :=
    optionalAmong_sends hc.sound hentity (entity.hints.paths .deleteOnly)
  rw [← editOnlyParams_eq hentity] at heditionOk
  rw [← deleteOnlyParams_eq hentity] at hdeletionOk
  refine ⟨lookup, readOnly, creation, edition, deletion, hlookupOk, hreadOnlyOk, hcreationOk,
    heditionOk, hdeletionOk, ?_, ?_, hlookup.withoutNulls_iff hc.sound hentity⟩
  · simp only [List.forall_mem_cons]
    exact ⟨hreadOnly.withoutNulls hc.sound hentity, hcreation.withoutNulls hc.sound hentity,
      hedition.withoutNulls hc.sound hentity, hdeletion.withoutNulls hc.sound hentity, by simp⟩
  · intro name raw hentry
    obtain ⟨-, value, hvalue, rfl⟩ := (hlookup.entries name raw).mp hentry
    exact ⟨value, hvalue, rfl⟩

/-- An archive without a region is looked up by an identifier with a null in it. -/
theorem archived_lookup_null :
    archived.Reachable ∧ archived.entity? = some archive ∧
      archived.searchParams = .ok [("id", .map [("region", .null), ("serial", .string "a7")]),
        ("labels", .map []), ("size", .int 5)] ∧
      ¬ archived.SentWithoutNulls archive
        [("id", .map [("region", .null), ("serial", .string "a7")]), ("labels", .map []),
          ("size", .int 5)] := by
  refine ⟨archived_reachable, rfl, archived_searchParams, fun hsent => ?_⟩
  have hnullFree := hsent.nullFree
  simp [Raw.NullFree, Raw.Everywhere, Raw.EntriesEverywhere, Raw.isNull] at hnullFree

/-- Its other requests have none. -/
theorem archived_requests_nullFree :
    archived.Reachable ∧ archived.entity? = some archive ∧
      ∃ lookup readOnly creation edition deletion,
        archived.searchParams = .ok lookup ∧ archived.readOnlySearchParams = .ok readOnly ∧
        archived.createParams = .ok creation ∧ archived.editOnlyParams = .ok edition ∧
        archived.deleteOnlyParams = .ok deletion ∧
        (∀ params ∈ [readOnly, creation, edition, deletion],
          archived.SentWithoutNulls archive params) ∧
        (∀ name raw, (name, raw) ∈ lookup →
          ∃ value, archived.known? name = some value ∧ raw = lookupForm name value) ∧
        (archived.SentWithoutNulls archive lookup ↔
          ∀ name ∈ identifiers, ∀ value, archived.known? name = some value →
            (lower value).NullFree) :=
  ⟨archived_reachable, rfl, requests_nullFree_iff archived_reachable rfl⟩

end Container

end EntityModel
