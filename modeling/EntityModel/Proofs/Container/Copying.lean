import EntityModel.Proofs.Container.Convergence

/-!
# Copying to a container of the same entity

A container copies its known values to another one where the other's entity declares their types for
their names. Between containers of one entity that is so for all of them, since a container holds
values as its entity declares them. No known value differs after that, unless it differs from itself
for a NaN in it.

* `exists_copyTo`: what the other container holds after copying.
* `mem_keys_reported_copied`: what still differs.
* `copyTo_settles`: when nothing does.
-/

namespace EntityModel.Container

variable {a b b' c c' target : Container} {entity : Entity} {name : String} {names : List String}
  {entries : ValueTable} {value : Value}

/-- The target after the known entries were copied whose types its entity declares. -/
def copied (entity : Entity) (entries : ValueTable) (target : Container) : Container :=
  entries.foldl (fun done entry =>
    if entry.2.isKnown && entity.typeOf? entry.1 = some entry.2.type then done.put entry.1 entry.2
    else done) target

theorem copyTo_ok :
    c.copyTo target = .ok c' ↔ ∃ source, c.entity? = some source ∧
      ∃ entity, target.entity? = some entity ∧ copied entity c.values target = c' := by
  simp only [copyTo, bind_ok_iff, entity_ok, pure_ok_iff]
  rfl

/-- Of entries that the entity declares, the known ones are found after copying, and otherwise what
was there before. -/
theorem get?_copied (hascending : Assoc.Ascending entries)
    (hdeclared : ∀ entry ∈ entries, entity.typeOf? entry.1 = some entry.2.type) :
    Assoc.get? (copied entity entries target).values name =
      ((Assoc.get? entries name).filter Value.isKnown).or (Assoc.get? target.values name) := by
  rw [copied]
  induction entries generalizing target with
  | nil => simp
  | cons entry rest ih =>
    obtain ⟨key, first⟩ := entry
    obtain ⟨hfirst, hrest⟩ := List.pairwise_cons.mp hascending
    obtain ⟨htype, hdeclared⟩ := List.forall_mem_cons.mp hdeclared
    rw [List.foldl_cons, ih hrest hdeclared, Assoc.get?_cons]
    by_cases hname : name = key
    · subst hname
      have hnone : Assoc.get? rest name = none := by
        rw [Option.eq_none_iff_forall_ne_some]
        intro value hget
        exact String.lt_irrefl name (hfirst _ (Assoc.mem_of_get? hget))
      cases hknown : first.isKnown <;>
        simp [hnone, hknown, htype, put, withValues, Assoc.get?_insert, Option.filter]
    · rw [if_neg hname]
      split
      · rw [put, withValues, Assoc.get?_insert, if_neg hname]
      · rfl

/-- Between containers of one entity all known values are copied, and nothing else changes. -/
theorem exists_copyTo (ha : a.Sound) (hae : a.entity? = some entity)
    (hbe : b.entity? = some entity) :
    ∃ b', a.copyTo b = .ok b' ∧ b'.entity? = some entity ∧
      ∀ name, Assoc.get? b'.values name = (a.known? name).or (Assoc.get? b.values name) := by
  have hcopy := copyTo_ok.mpr ⟨entity, hae, entity, hbe, rfl⟩
  refine ⟨_, hcopy, (copyTo_extends hcopy).entity.trans hbe, fun name => ?_⟩
  exact get?_copied (ha.ascending hae) fun entry hentry => (ha.fits hae entry hentry).type

/-- Where a known value was copied to, it differs just if it does not equal itself. -/
theorem differsIn_copied_iff (hvalue : a.known? name = some value)
    (hb' : Assoc.get? b'.values name = (a.known? name).or (Assoc.get? b.values name)) :
    differsIn b' name value = true ↔ ¬ value.NaNFree := by
  rw [hvalue, Option.some_or] at hb'
  rw [differsIn, hb', ← Value.equals_self_iff]
  simp [(known?_eq_some.mp hvalue).2]

/-- After copying, those candidates are reported that have a NaN. -/
theorem mem_keys_reported_copied
    (hb' : ∀ name, Assoc.get? b'.values name = (a.known? name).or (Assoc.get? b.values name)) :
    name ∈ Assoc.keys (a.reported b' names) ↔
      name ∈ names ∧ ∃ value, a.known? name = some value ∧ ¬ value.NaNFree := by
  constructor
  · intro hkey
    obtain ⟨⟨key, raw⟩, hentry, rfl⟩ := List.mem_map.mp hkey
    obtain ⟨hname, value, hget, hknown, hdiffers, -⟩ := mem_reported.mp hentry
    have hvalue := known?_eq_some.mpr ⟨hget, hknown⟩
    exact ⟨hname, value, hvalue, (differsIn_copied_iff hvalue (hb' key)).mp hdiffers⟩
  · rintro ⟨hname, value, hvalue, hnan⟩
    obtain ⟨hget, hknown⟩ := known?_eq_some.mp hvalue
    have hdiffers := (differsIn_copied_iff hvalue (hb' name)).mpr hnan
    exact List.mem_map_of_mem (f := Prod.fst)
      (mem_reported.mpr ⟨hname, value, hget, hknown, hdiffers, rfl⟩)

theorem reported_copied_eq_nil_iff
    (hb' : ∀ name, Assoc.get? b'.values name = (a.known? name).or (Assoc.get? b.values name)) :
    a.reported b' names = [] ↔
      ∀ name ∈ names, ∀ value, a.known? name = some value → value.NaNFree := by
  rw [Assoc.eq_nil_iff]
  refine forall_congr' fun name => ?_
  rw [mem_keys_reported_copied hb']
  push Not
  rfl

/-- Copying to a container of the same entity always succeeds. It changes the other container only
where a value is known here, and it leaves no difference, whichever fields are compared, just if no
value here has a NaN. -/
theorem copyTo_settles (ha : a.Reachable) (hae : a.entity? = some entity)
    (hbe : b.entity? = some entity) :
    ∃ b', a.copyTo b = .ok b' ∧ b'.entity? = some entity ∧
      (∀ name, ¬ a.Knows name → Assoc.get? b'.values name = Assoc.get? b.values name) ∧
      ((∀ combination fields filters,
          (∀ names ∈ fields, ∀ name ∈ names, entity.hasAttribute name = true) →
          filters.contains .includeEmpty = false →
          a.difference b' combination fields filters = .ok []) ↔
        ∀ entry ∈ a.values, entry.2.NaNFree) := by
  obtain ⟨b', hcopy, hb'e, hb'⟩ := exists_copyTo ha.sound hae hbe
  refine ⟨b', hcopy, hb'e, fun name hknows => ?_, ?_, ?_⟩
  · rw [hb', not_knows_iff.mp hknows, Option.none_or]
  · rintro hsettled ⟨name, value⟩ hentry
    have hown := (ha.sound.fits hae _ hentry).own
    -- the field alone, as it need not meet any conditions then
    have hcandidates : a.candidates entity .all (some [name]) [] = .ok [name] := by
      simp [candidates, hown]
    have hempty := hsettled .all (some [name]) [] (by simpa using hown) rfl
    rw [difference_eq hae hb'e rfl hcandidates, Except.ok.injEq,
      reported_copied_eq_nil_iff hb'] at hempty
    by_contra hnan
    have hvalue := known?_eq_some.mpr
      ⟨(ha.sound.ascending hae).get?_of_mem hentry, Value.isKnown_of_not_nanFree hnan⟩
    exact hnan (hempty name (List.mem_singleton.mpr rfl) value hvalue)
  · intro hnan combination fields filters hfields hfilters
    obtain ⟨names, hnames⟩ := exists_candidates a hfields combination filters
    have hnone : a.reported b' names = [] := (reported_copied_eq_nil_iff hb').mpr
      fun name _ value hvalue => hnan _ (Assoc.mem_of_get? (known?_eq_some.mp hvalue).1)
    rw [difference_eq hae hb'e hfilters hnames, hnone]

/-- A fleet of two groups, in one of which there is a null, without labels. -/
def fleetUnlabelled : Container :=
  ⟨[("groups", .set (.set .string)
      [.set .string [.string "n1", .null .string], .set .string [.string "n1"]]),
    ("labels", .null (.map .string))], some fleet⟩

theorem fleetUnlabelled_reachable : fleetUnlabelled.Reachable := by
  refine ⟨[.ofRecord fleet [("groups", .list [.list [.string "n1", .null],
    .list [.string "n1"]])]], ?_, List.mem_singleton.mpr rfl⟩
  simp only [List.mem_singleton, forall_eq, Operation.Admissible]
  refine ⟨fleet_bound, Assoc.ascending_singleton _, ?_⟩
  simp [Raw.EntriesOrdered, Raw.ItemsOrdered, Raw.Ordered]

/-- It gives its groups to another fleet, which keeps its labels. -/
theorem fleetUnlabelled_settles :
    fleetUnlabelled.Reachable ∧
      fleetUnlabelled.copyTo (fleetOf [] "west") = .ok (fleetOf [.null .string] "west") ∧
      fleetUnlabelled.difference (fleetOf [] "west") .any none [.carries .optional] =
        .ok [("groups", .list [.list [.string "n1"], .list [.string "n1"]])] ∧
      fleetUnlabelled.difference (fleetOf [.null .string] "west") .any none
        [.carries .optional] = .ok [] := by
  have hcopy : fleetUnlabelled.copyTo (fleetOf [] "west") =
      .ok (fleetOf [.null .string] "west") := by
    cbv
  have hbefore : fleetUnlabelled.difference (fleetOf [] "west") .any none [.carries .optional] =
      .ok [("groups", .list [.list [.string "n1"], .list [.string "n1"]])] := by
    cbv
  have hnan : ∀ entry ∈ fleetUnlabelled.values, entry.2.NaNFree := by
    simp [fleetUnlabelled, Value.NaNFree, Value.ItemsNaNFree]
  obtain ⟨b', hb', -, -, hsettled⟩ :=
    @copyTo_settles _ (fleetOf [] "west") fleet fleetUnlabelled_reachable rfl rfl
  cases hcopy.symm.trans hb'
  exact ⟨fleetUnlabelled_reachable, hcopy, hbefore,
    hsettled.mpr hnan .any none [.carries .optional] (by simp) rfl⟩

end EntityModel.Container
