import EntityModel.Proofs.Difference.Pruning

/-!
# Merging a difference

The difference of a record to another one, merged into the other one, makes up for what the two
differ in. It does not make them equal: the difference is pruned, and so is only what it replaces.
Pruned, however, the record has no difference to the merged one any more.

* `Record.mem_difference`: the entries of a difference.
* `Record.get?_merge`, `Record.get?_merge_keeping`: what a merged record holds.
* `Record.merge_difference`: what merging the difference keeps, and what it achieves.
-/

namespace EntityModel.Record

variable {a b target source record : Record} {key : String} {value whole raw : Raw}

/-! ## Differences -/

/-- A record holds a value under a key, up to structural equality. -/
def Agrees (record : Record) (key : String) (value : Raw) : Prop :=
  ∃ other, Assoc.get? record key = some other ∧ structuralEq value other = true

theorem mem_difference :
    (key, raw) ∈ a.difference b ↔ ∃ whole, (key, whole) ∈ a ∧ ¬ b.Agrees key whole ∧
      whole.isNull = false ∧ raw = whole.prune := by
  rw [difference, mem_prune]
  refine exists_congr fun whole => ?_
  rw [List.mem_filter, and_assoc]
  refine and_congr_right fun _ => and_congr_left fun _ => ?_
  rw [Agrees]
  cases Assoc.get? b key <;> simp

theorem ascending_difference (ha : Assoc.Ascending a) : Assoc.Ascending (a.difference b) :=
  ascending_prune (ha.of_sublist (List.filter_sublist.map Prod.fst))

theorem get?_difference (ha : Assoc.Ascending a) :
    Assoc.get? (a.difference b) key = some raw ↔ ∃ whole, Assoc.get? a key = some whole ∧
      ¬ b.Agrees key whole ∧ whole.isNull = false ∧ raw = whole.prune := by
  constructor
  · intro hget
    obtain ⟨whole, hmem, hwhole⟩ := mem_difference.mp (Assoc.mem_of_get? hget)
    exact ⟨whole, ha.get?_of_mem hmem, hwhole⟩
  · rintro ⟨whole, hget, hwhole⟩
    have hmem := mem_difference.mpr ⟨whole, Assoc.mem_of_get? hget, hwhole⟩
    exact (ascending_difference ha).get?_of_mem hmem

/-- A record has no difference to one that agrees with it on everything but nulls. -/
theorem difference_eq_nil (h : ∀ key whole, (key, whole) ∈ a → whole.isNull = false →
    b.Agrees key whole) : a.difference b = [] := by
  rw [List.eq_nil_iff_forall_not_mem]
  rintro ⟨key, raw⟩ hmem
  obtain ⟨whole, hmem, hdiffers, hnull, -⟩ := mem_difference.mp hmem
  exact hdiffers (h key whole hmem hnull)

/-! ## Merging -/

/-- In a merge that overwrites, the source is asked first. -/
theorem get?_merge (hsource : Assoc.Ascending source) :
    Assoc.get? (target.merge source true) key =
      (Assoc.get? source key).or (Assoc.get? target key) := by
  rw [merge]
  induction source generalizing target with
  | nil => rfl
  | cons entry rest ih =>
    obtain ⟨name, first⟩ := entry
    obtain ⟨hfirst, hrest⟩ := List.pairwise_cons.mp hsource
    rw [List.foldl_cons, ih hrest, Bool.true_or, if_pos rfl, Assoc.get?_insert, Assoc.get?_cons]
    by_cases hkey : key = name
    · subst hkey
      have hnone : Assoc.get? rest key = none := by
        rw [Option.eq_none_iff_forall_ne_some]
        intro value hget
        exact String.lt_irrefl key (hfirst _ (Assoc.mem_of_get? hget))
      rw [hnone, if_pos rfl, if_pos rfl]
      rfl
    · rw [if_neg hkey, if_neg hkey]

/-- In a merge that does not overwrite, the target is asked first. -/
theorem get?_merge_keeping :
    Assoc.get? (target.merge source false) key =
      (Assoc.get? target key).or (Assoc.get? source key) := by
  rw [merge]
  induction source generalizing target with
  | nil => simp
  | cons entry rest ih =>
    obtain ⟨name, first⟩ := entry
    rw [List.foldl_cons, ih, Bool.false_or, Assoc.get?_cons, Assoc.has]
    by_cases hkey : key = name
    · subst hkey
      cases hget : Assoc.get? target key <;> simp [Assoc.get?_insert, hget]
    · rw [if_neg hkey]
      split
      · rw [Assoc.get?_insert, if_neg hkey]
      · rfl

theorem ascending_merge {overwrite : Bool} (htarget : Assoc.Ascending target) :
    Assoc.Ascending (target.merge source overwrite) := by
  rw [merge]
  induction source generalizing target with
  | nil => exact htarget
  | cons entry rest ih =>
    rw [List.foldl_cons]
    split
    · exact ih (Assoc.ascending_insert htarget)
    · exact ih htarget

/-! ## Merging a difference -/

/-- What is in the difference is merged, and what is not was agreed on before. -/
theorem exists_merged (ha : Assoc.Ascending a) (hget : Assoc.get? a key = some whole)
    (hnull : whole.isNull = false) (hnan : whole.NaNFree) :
    ∃ held, Assoc.get? (b.merge (a.difference b) true) key = some held ∧ held.isNull = false ∧
      structuralEq held.prune whole.prune = true := by
  have hdifference : Assoc.Ascending (a.difference b) := ascending_difference ha
  rw [get?_merge hdifference]
  by_cases hagrees : b.Agrees key whole
  · have hnone : Assoc.get? (a.difference b) key = none := by
      rw [Option.eq_none_iff_forall_ne_some]
      intro raw hraw
      obtain ⟨whole', hget', hdiffers, -⟩ := (get?_difference ha).mp hraw
      cases hget.symm.trans hget'
      exact hdiffers hagrees
    obtain ⟨other, hother, heq⟩ := hagrees
    rw [hnone, hother]
    refine ⟨other, rfl, ?_, ?_⟩
    · rw [← Raw.isNull_congr heq, hnull]
    · exact Raw.equals_symm (Raw.structuralEq_prune heq)
  · have hraw := (get?_difference ha).mpr ⟨whole, hget, hagrees, hnull, rfl⟩
    rw [hraw]
    refine ⟨whole.prune, rfl, ?_, ?_⟩
    · rw [Raw.isNull_prune, hnull]
    · rw [Raw.prune_prune]
      have hpruned : whole.prune.NaNFree :=
        Raw.everywhere_prune.mpr (hnan.mono fun _ hfree _ => hfree) hnull
      exact Raw.equals_self_iff.mpr (Raw.everywhere_normalize.mpr hpruned)

/-- Merging the difference of a record to another one into that one changes nothing under keys that
are not in the difference. Then all that the record holds, apart from nulls, is held there too, up
to structural equality after pruning, and so the pruned records have no difference. -/
theorem merge_difference (ha : Assoc.Ascending a) (hb : Assoc.Ascending b)
    (hnan : (Raw.map a).NaNFree) :
    (∀ key ∉ Assoc.keys (a.difference b),
      Assoc.get? (b.merge (a.difference b) true) key = Assoc.get? b key) ∧
    (∀ key whole, Assoc.get? a key = some whole → whole ≠ .null →
      ∃ held, Assoc.get? (b.merge (a.difference b) true) key = some held ∧ held ≠ .null ∧
        structuralEq held.prune whole.prune = true) ∧
    Record.difference a.prune (Record.prune (b.merge (a.difference b) true)) = [] := by
  have hdifference : Assoc.Ascending (a.difference b) := ascending_difference ha
  have hmerged : ∀ key whole, Assoc.get? a key = some whole → whole.isNull = false →
      ∃ held, Assoc.get? (b.merge (a.difference b) true) key = some held ∧
        held.isNull = false ∧ structuralEq held.prune whole.prune = true := by
    intro key whole hget hnull
    exact exists_merged ha hget hnull (Raw.nanFree_map.mp hnan _ (Assoc.mem_of_get? hget))
  refine ⟨?_, ?_, ?_⟩
  · intro key hkey
    have hnone : Assoc.get? (a.difference b) key = none := by
      rw [Assoc.mem_keys_iff, Bool.not_eq_true, Option.isSome_eq_false_iff,
        Option.isNone_iff_eq_none] at hkey
      exact hkey
    rw [get?_merge hdifference, hnone, Option.none_or]
  · intro key whole hget hne
    have hnull : whole.isNull = false := by
      rw [Bool.eq_false_iff, Ne, Raw.isNull_iff]
      exact hne
    obtain ⟨held, hheld, hheldNull, heq⟩ := hmerged key whole hget hnull
    refine ⟨held, hheld, ?_, heq⟩
    rintro rfl
    cases hheldNull
  · refine difference_eq_nil fun key raw hmem _ => ?_
    obtain ⟨whole, hwhole, hnull, rfl⟩ := mem_prune.mp hmem
    obtain ⟨held, hheld, hheldNull, heq⟩ := hmerged key whole (ha.get?_of_mem hwhole) hnull
    have hpruned := (get?_prune (ascending_merge hb)).mpr ⟨held, hheld, hheldNull, rfl⟩
    exact ⟨held.prune, hpruned, Raw.equals_symm heq⟩

/-- What a job should be. -/
def wantedJob : Record :=
  [("note", .null), ("owner", .string "ann"),
    ("steps", .list [.string "pull", .null, .string "build"]),
    ("tags", .list [.string "nightly", .string "arm"])]

/-- What a job is. -/
def heldJob : Record :=
  [("host", .string "eve"), ("owner", .string "bob"),
    ("steps", .list [.string "build", .null, .string "pull"]),
    ("tags", .list [.string "arm", .string "nightly"])]

/-- The order of the steps counts as long as there is a null among them, and that of the tags never
does. The null is not merged, and afterwards it makes no difference. -/
theorem heldJob_merged :
    Assoc.Ascending wantedJob ∧ Assoc.Ascending heldJob ∧ (Raw.map wantedJob).NaNFree ∧
      wantedJob.difference heldJob = [("owner", .string "ann"),
        ("steps", .list [.string "pull", .string "build"])] ∧
      Assoc.get? (heldJob.merge (wantedJob.difference heldJob) true) "host" =
        some (.string "eve") ∧
      Record.difference wantedJob.prune
        (Record.prune (heldJob.merge (wantedJob.difference heldJob) true)) = [] := by
  have hwanted : Assoc.Ascending wantedJob := by decide
  have hheld : Assoc.Ascending heldJob := by decide
  have hnan : (Raw.map wantedJob).NaNFree := by
    simp [wantedJob, Raw.NaNFree, Raw.Everywhere, Raw.EntriesEverywhere, Raw.ItemsEverywhere,
      Raw.IfFloat]
  have hdifference : wantedJob.difference heldJob = [("owner", .string "ann"),
      ("steps", .list [.string "pull", .string "build"])] := by cbv
  obtain ⟨hkept, -, hnone⟩ := merge_difference hwanted hheld hnan
  refine ⟨hwanted, hheld, hnan, hdifference, ?_, hnone⟩
  rw [hkept "host" (by rw [hdifference]; decide)]
  rfl

end EntityModel.Record
