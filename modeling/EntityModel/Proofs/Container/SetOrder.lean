import EntityModel.Proofs.Container.Difference
import EntityModel.Proofs.Rearrangement

/-!
# Sets in another order

A remote service lists the items of a set in any order. Two records that differ in nothing else make
containers with equal values, and so no difference is reported between them.

* `difference_of_equalTables`: containers with equal values have no difference.
* `ofRecord_rearranged`: containers of records with sets in another order.
-/

namespace EntityModel.Container

open Value

variable {c other : Container} {entity entity' : Entity} {record record' : Record}

/-! ## Equal tables -/

theorem equalTables_symm {as bs : ValueTable} (h : EqualTables as bs) : EqualTables bs as :=
  h.flip.imp fun _ _ hab => ⟨hab.1.symm, equals_symm hab.2⟩

theorem exists_get?_of_equalTables {as bs : ValueTable} (h : EqualTables as bs) {name : String}
    {value : Value} (hget : Assoc.get? as name = some value) :
    ∃ theirs, Assoc.get? bs name = some theirs ∧ value.equals theirs = true := by
  have hkeys : Assoc.keys as = Assoc.keys bs :=
    Assoc.keys_eq_of_forall₂ (R := fun a b : Value => a.equals b = true) h
  have hname : name ∈ Assoc.keys bs := hkeys ▸ List.mem_map_of_mem (Assoc.mem_of_get? hget)
  obtain ⟨theirs, htheirs⟩ := Option.isSome_iff_exists.mp (Assoc.mem_keys_iff.mp hname)
  exact ⟨theirs, htheirs,
    Assoc.get?_of_forall₂ (R := fun a b : Value => a.equals b = true) h hget htheirs⟩

theorem difference_of_equalTables (hentity : c.entity? = some entity)
    (hother : other.entity? = some entity') (h : EqualTables c.values other.values)
    {combination : Combination} {fields : Option (List String)} {filters : List FieldFilter}
    (hfields : ∀ names ∈ fields, ∀ name ∈ names, entity.hasAttribute name = true)
    (hfilters : filters.contains .includeEmpty = false) :
    c.difference other combination fields filters = .ok [] := by
  obtain ⟨names, hnames⟩ := exists_candidates c hfields combination filters
  have hnone : c.reported other names = [] := by
    rw [List.eq_nil_iff_forall_not_mem]
    rintro ⟨name, raw⟩ hmem
    obtain ⟨-, value, hget, hknown, hdiffers, -⟩ := mem_reported.mp hmem
    obtain ⟨theirs, htheirs, hequal⟩ := exists_get?_of_equalTables h hget
    have hsame := differsIn_eq_false_iff.mpr
      ⟨theirs, htheirs, isKnown_congr hequal ▸ hknown, equals_symm hequal⟩
    cases hdiffers.symm.trans hsame
  rw [difference_eq hentity hother hfilters hnames, hnone]

/-! ## Records with sets in another order -/

theorem exists_ofRecord (h : Record.Rearranged entity.topLevel record record')
    (hnan : (Raw.map record).NaNFree) (hc : ofRecord entity record = .ok c) :
    ∃ other, ofRecord entity record' = .ok other ∧ EqualTables c.values other.values := by
  obtain ⟨values, hvalues, rfl⟩ := ofRecord_ok.mp hc
  obtain ⟨others, hothers, hequal⟩ := h.exists_liftRecord hnan hvalues
  exact ⟨⟨others, some entity⟩, ofRecord_ok.mpr ⟨others, hothers, rfl⟩, hequal⟩

/-- Of two records that differ in nothing but the order of the items of sets, both can be read or
none. What is read has equal values, and no difference is reported in either direction. -/
theorem ofRecord_rearranged (entity : Entity)
    (h : Record.Rearranged entity.topLevel record record') (hnan : (Raw.map record).NaNFree)
    (hnan' : (Raw.map record').NaNFree) :
    ((∃ c, ofRecord entity record = .ok c) ↔ ∃ c', ofRecord entity record' = .ok c') ∧
      ∀ c c', ofRecord entity record = .ok c → ofRecord entity record' = .ok c' →
        EqualTables c.values c'.values ∧
          ∀ (combination : Combination) (fields : Option (List String))
            (filters : List FieldFilter),
            (∀ names ∈ fields, ∀ name ∈ names, entity.hasAttribute name = true) →
            filters.contains .includeEmpty = false →
            c.difference c' combination fields filters = .ok [] ∧
              c'.difference c combination fields filters = .ok [] := by
  refine ⟨⟨?_, ?_⟩, fun c c' hc hc' => ?_⟩
  · rintro ⟨c, hc⟩
    obtain ⟨other, hother, -⟩ := exists_ofRecord h hnan hc
    exact ⟨other, hother⟩
  · rintro ⟨c', hc'⟩
    obtain ⟨other, hother, -⟩ := exists_ofRecord h.symm hnan' hc'
    exact ⟨other, hother⟩
  · obtain ⟨other, hother, hequal⟩ := exists_ofRecord h hnan hc
    cases hother.symm.trans hc'
    obtain ⟨values, -, rfl⟩ := ofRecord_ok.mp hc
    obtain ⟨values', -, rfl⟩ := ofRecord_ok.mp hc'
    refine ⟨hequal, fun combination fields filters hfields hfilters => ⟨?_, ?_⟩⟩
    · exact difference_of_equalTables rfl rfl hequal hfields hfilters
    · exact difference_of_equalTables rfl rfl (equalTables_symm hequal) hfields hfilters

/-- Groups of hosts, of which one is named by a number and one is there twice. -/
def groupsSent : List (List Raw) := [[.string "n1", .int 7, .string "n1"], [.string "n1"]]

/-- The groups in another order, one of them with its hosts in another order. -/
def groupsResent : List (List Raw) := [[.string "n1"], [.int 7, .string "n1", .string "n1"]]

theorem fleet_rearranged : Record.Rearranged fleet.topLevel (fleetRecord groupsSent "east")
    (fleetRecord groupsResent "east") := by
  have htypes : fleet.topLevel = [("groups", .set (.set .string)), ("labels", .map .string)] := rfl
  intro field hfield
  rw [htypes, List.mem_pair] at hfield
  rcases hfield with rfl | rfl
  · have hhosts : Raw.Rearranged (.set .string) (.list [.string "n1", .int 7, .string "n1"])
        (.list [.int 7, .string "n1", .string "n1"]) := .of_perm (.swap _ _ _)
    exact ⟨Iff.rfl, .set_of_forall₂ (.cons hhosts (.cons (.same _ _) .nil)) (.swap _ _ _)⟩
  · exact ⟨Iff.rfl, .same _ _⟩

/-- Both are read, and the differences are empty though the records are not the same. -/
theorem fleet_ofRecord_rearranged :
    Record.Rearranged fleet.topLevel (fleetRecord groupsSent "east")
        (fleetRecord groupsResent "east") ∧
      ∃ c c', ofRecord fleet (fleetRecord groupsSent "east") = .ok c ∧
        ofRecord fleet (fleetRecord groupsResent "east") = .ok c' ∧
        EqualTables c.values c'.values ∧ c.difference c' .all (some ["groups"]) [] = .ok [] ∧
        c'.difference c .all none [.carries .optional] = .ok [] := by
  have hsent : (Raw.map (fleetRecord groupsSent "east")).NaNFree := by
    simp [fleetRecord, groupsSent, Raw.NaNFree, Raw.Everywhere, Raw.EntriesEverywhere,
      Raw.ItemsEverywhere, Raw.IfFloat]
  have hresent : (Raw.map (fleetRecord groupsResent "east")).NaNFree := by
    simp [fleetRecord, groupsResent, Raw.NaNFree, Raw.Everywhere, Raw.EntriesEverywhere,
      Raw.ItemsEverywhere, Raw.IfFloat]
  obtain ⟨-, hsame⟩ := ofRecord_rearranged fleet fleet_rearranged hsent hresent
  obtain ⟨hequal, hnone⟩ := hsame _ _ rfl rfl
  refine ⟨fleet_rearranged, _, _, rfl, rfl, hequal, ?_, ?_⟩
  · exact (hnone .all (some ["groups"]) [] (by simp; decide) rfl).1
  · exact (hnone .all none [.carries .optional] (by simp) rfl).2

end EntityModel.Container
