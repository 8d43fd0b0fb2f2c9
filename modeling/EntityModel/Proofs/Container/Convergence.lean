import EntityModel.Proofs.Container.Difference
import EntityModel.Proofs.Delivery

/-!
# Applying a difference

The difference of a container to another one, entry by entry set on the other one, leaves the two
alike but for values that do not arrive as they were sent: these, and no others, are reported once
more.

* `exists_setAll`: setting the entries of a record in order.
* `difference_converges`: the difference after the difference was applied.
-/

namespace EntityModel.Container

variable {a b c other : Container} {entity : Entity} {combination : Combination}
  {fields : Option (List String)} {filters : List FieldFilter} {names : List String} {name : String}
  {record : Record} {value : Value}

/-- Sets own attributes to the entries of a record, in order; a fault ends the work. -/
def setAll (c : Container) (record : Record) : Except ContainerError Container :=
  record.foldlM (fun done entry => done.setOrAdd entry.1 entry.2) c

/-- If every entry can be lifted for its name, all of them are set, and nothing else changes. -/
theorem exists_setAll (arrived : String → Option Value) (hentity : c.entity? = some entity)
    (hlift : ∀ entry ∈ record, ∃ type value,
      (entity.typeOf? entry.1 = some type ∧ entity.hasAttribute entry.1 = true) ∧
        liftAt type entry.2 entry.1 = .ok value ∧ arrived entry.1 = some value) :
    ∃ c', c.setAll record = .ok c' ∧ c'.entity? = some entity ∧ ∀ name,
      Assoc.get? c'.values name =
        if name ∈ Assoc.keys record then arrived name else Assoc.get? c.values name := by
  induction record generalizing c with
  | nil => exact ⟨c, rfl, hentity, fun name => by simp [Assoc.keys]⟩
  | cons entry rest ih =>
    obtain ⟨⟨type, value, htype, hvalue, harrived⟩, hrest⟩ := List.forall_mem_cons.mp hlift
    have hset : c.setOrAdd entry.1 entry.2 = .ok (c.put entry.1 value) :=
      setOrAdd_ok.mpr ⟨entity, hentity, type, htype, value, hvalue, rfl⟩
    obtain ⟨c', hc', hentity', hget⟩ := ih (c := c.put entry.1 value) hentity hrest
    refine ⟨c', ?_, hentity', fun name => ?_⟩
    · rw [setAll, List.foldlM_cons, hset]
      exact hc'
    · have hkeys : name ∈ Assoc.keys (entry :: rest) ↔
          name = entry.1 ∨ name ∈ Assoc.keys rest :=
        List.mem_cons
      rw [hget, put, withValues, Assoc.get?_insert]
      by_cases hname : name = entry.1
      · subst hname
        rw [if_pos rfl, if_pos (hkeys.mpr (.inl rfl)), harrived, ite_self]
      · simp only [hkeys, hname, false_or, if_false]

/-- What `a` reports to `b` can be set on `b`, and then `b` has what was delivered. -/
theorem exists_setAll_reported (ha : a.Sound) (hae : a.entity? = some entity)
    (hbe : b.entity? = some entity) (names : List String) :
    ∃ b', b.setAll (a.reported b names) = .ok b' ∧ b'.entity? = some entity ∧ ∀ name,
      Assoc.get? b'.values name =
        if name ∈ Assoc.keys (a.reported b names) then
          (Assoc.get? a.values name).map Value.delivered
        else Assoc.get? b.values name := by
  refine exists_setAll (fun name => (Assoc.get? a.values name).map Value.delivered) hbe ?_
  rintro ⟨name, raw⟩ hentry
  obtain ⟨-, value, hget, -, -, rfl⟩ := mem_reported.mp hentry
  have hfits := ha.fits hae _ (Assoc.mem_of_get? hget)
  refine ⟨value.type, value.delivered, ⟨hfits.type, hfits.own⟩, ?_, ?_⟩
  · exact liftAt_prune_lower hfits.wellTyped hfits.ordered name
  · rw [hget]
    rfl

/-- A candidate is reported once more just if it was reported and is not faithful. -/
theorem differsIn_again {b' : Container} (hname : name ∈ names)
    (hget : Assoc.get? a.values name = some value) (hknown : value.isKnown = true)
    (hb' : Assoc.get? b'.values name =
      if name ∈ Assoc.keys (a.reported b names) then
        (Assoc.get? a.values name).map Value.delivered
      else Assoc.get? b.values name) :
    differsIn b' name value = true ↔
      differsIn b name value = true ∧ value.isFaithful = false := by
  by_cases hdiffers : differsIn b name value = true
  · have hentry := mem_reported.mpr ⟨hname, value, hget, hknown, hdiffers, rfl⟩
    have hkey : name ∈ Assoc.keys (a.reported b names) := List.mem_map_of_mem hentry
    rw [if_pos hkey, hget] at hb'
    have hequals := Value.delivered_equals_iff (Value.isUnknown_of_isKnown hknown)
    rw [differsIn, hb', ← Bool.not_eq_true value.isFaithful, ← hequals]
    simp [hdiffers, hknown]
  · have hkey : name ∉ Assoc.keys (a.reported b names) := by
      intro hkey
      obtain ⟨⟨_, raw⟩, hentry, rfl⟩ := List.mem_map.mp hkey
      obtain ⟨-, value', hget', -, hdiffers', -⟩ := mem_reported.mp hentry
      cases hget.symm.trans hget'
      exact hdiffers hdiffers'
    rw [if_neg hkey] at hb'
    have hsame : differsIn b' name value = differsIn b name value := by
      rw [differsIn, differsIn, hb']
    rw [hsame]
    simp [hdiffers]

/-- The difference of one container to another can be set on the other, entry by entry. After that
the same difference consists of exactly those entries again whose value does not arrive as it was
sent, and is empty if every value is faithful. -/
theorem difference_converges (ha : a.Reachable) (hae : a.entity? = some entity)
    (hbe : b.entity? = some entity)
    (hfields : ∀ names ∈ fields, ∀ name ∈ names, entity.hasAttribute name = true)
    (hfilters : filters.contains .includeEmpty = false) :
    ∃ record b', a.difference b combination fields filters = .ok record ∧
      b.setAll record = .ok b' ∧
      a.difference b' combination fields filters =
        .ok (record.filter fun entry =>
          (Assoc.get? a.values entry.1).any fun value => !value.isFaithful) ∧
      ((∀ entry ∈ a.values, entry.2.isFaithful = true) →
        a.difference b' combination fields filters = .ok []) := by
  obtain ⟨names, hnames⟩ := exists_candidates a hfields combination filters
  obtain ⟨b', hset, hb'e, hb'⟩ := exists_setAll_reported ha.sound hae hbe names
  have hagain : a.reported b' names = (a.reported b names).filter fun entry =>
      (Assoc.get? a.values entry.1).any fun value => !value.isFaithful := by
    refine (reported_ascending a b' names).eq_of_mem_iff
      ((reported_ascending a b names).filter _) ?_
    rintro ⟨name, raw⟩
    rw [List.mem_filter, mem_reported, mem_reported]
    constructor
    · rintro ⟨hname, value, hget, hknown, hdiffers, rfl⟩
      obtain ⟨hdiffers, hfaithful⟩ := (differsIn_again hname hget hknown (hb' name)).mp hdiffers
      exact ⟨⟨hname, value, hget, hknown, hdiffers, rfl⟩, by simp [hget, hfaithful]⟩
    · rintro ⟨⟨hname, value, hget, hknown, hdiffers, rfl⟩, hfaithful⟩
      have hfaithful : value.isFaithful = false := by simpa [hget] using hfaithful
      have hdiffers := (differsIn_again hname hget hknown (hb' name)).mpr ⟨hdiffers, hfaithful⟩
      exact ⟨hname, value, hget, hknown, hdiffers, rfl⟩
  have hsecond := difference_eq hae hb'e hfilters hnames
  rw [hagain] at hsecond
  refine ⟨_, b', difference_eq hae hbe hfilters hnames, hset, hsecond, fun hfaithful => ?_⟩
  rw [hsecond, List.filter_eq_nil_iff.mpr]
  rintro ⟨name, raw⟩ hentry
  obtain ⟨-, value, hget, -, -, -⟩ := mem_reported.mp hentry
  simp [hget, hfaithful _ (Assoc.mem_of_get? hget)]

/-- The container of a fleet with two groups, in the first of which there may be a null as well. -/
def fleetOf (hole : List Value) (zone : String) : Container :=
  ⟨[("groups", .set (.set .string)
      [.set .string (.string "n1" :: hole), .set .string [.string "n1"]]),
    ("labels", .map .string [("zone", .string zone)])], some fleet⟩

theorem fleetOf_null_reachable (zone : String) : (fleetOf [.null .string] zone).Reachable := by
  have hkeys : ["groups", "labels"].Pairwise (· < ·) := by decide
  refine ⟨[.ofRecord fleet (fleetRecord [[.string "n1", .null], [.string "n1"]] zone)], ?_,
    List.mem_singleton.mpr rfl⟩
  simp only [List.mem_singleton, forall_eq, Operation.Admissible]
  refine ⟨fleet_bound, Assoc.ascending_iff.mpr hkeys, ?_⟩
  simp [fleetRecord, Raw.EntriesOrdered, Raw.ItemsOrdered, Raw.Ordered]

/-- The null gets lost on the way, and the group that had it looks like the other one from then on.
The groups are reported again nevertheless, and the labels are not. -/
theorem fleet_difference_converges :
    (fleetOf [.null .string] "east").Reachable ∧
      ∃ b', (fleetOf [.null .string] "east").difference (fleetOf [] "west") .all none [] =
          .ok (fleetRecord [[.string "n1"], [.string "n1"]] "east") ∧
        (fleetOf [] "west").setAll (fleetRecord [[.string "n1"], [.string "n1"]] "east") =
          .ok b' ∧
        (fleetOf [.null .string] "east").difference b' .all none [] =
          .ok [("groups", .list [.list [.string "n1"], .list [.string "n1"]])] := by
  have hfirst : (fleetOf [.null .string] "east").difference (fleetOf [] "west") .all none [] =
      .ok (fleetRecord [[.string "n1"], [.string "n1"]] "east") := by
    cbv
  obtain ⟨record, b', hrecord, hset, hagain, -⟩ :=
    @difference_converges _ (fleetOf [] "west") fleet .all none []
      (fleetOf_null_reachable "east") rfl rfl (by simp) rfl
  cases hfirst.symm.trans hrecord
  exact ⟨fleetOf_null_reachable "east", b', hfirst, hset, hagain⟩

end EntityModel.Container
