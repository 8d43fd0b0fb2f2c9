import EntityModel.Proofs.Difference.Pruning

/-!
# Values without nulls

Pruning leaves no null in a value that is not null itself, and it changes nothing in a value without
nulls. So a value is what pruning makes of it just if no null stands in it.

* `Raw.NullFree`: no scalar in a raw value is null.
* `Raw.nullFree_prune`, `Raw.prune_eq_self_iff`: pruning and values without nulls.
-/

namespace EntityModel.Raw

variable {raw : Raw}

/-- The value is not null, and no null stands in it at any depth. -/
def NullFree (raw : Raw) : Prop := raw.Everywhere fun scalar => scalar.isNull = false

theorem nullFree_list {items : List Raw} :
    (list items).NullFree ↔ ∀ item ∈ items, item.NullFree :=
  everywhere_list

theorem nullFree_map {entries : Record} :
    (map entries).NullFree ↔ ∀ entry ∈ entries, entry.2.NullFree :=
  everywhere_map

theorem NullFree.isNull_eq_false (h : raw.NullFree) : raw.isNull = false := by
  cases raw with
  | null => exact h
  | _ => rfl

theorem nullFree_prune (h : raw.isNull = false) : raw.prune.NullFree :=
  everywhere_prune.mpr (everywhere_of_forall fun _ hnull => hnull) h

theorem NullFree.prune_eq (h : raw.NullFree) : raw.prune = raw := by
  induction raw using Raw.induction with
  | null | bool _ | int _ | float _ | string _ => rfl
  | list items ih =>
    rw [nullFree_list] at h
    have hkept : items.filter (fun item => !item.isNull) = items := by
      rw [List.filter_eq_self]
      exact fun item hitem => by rw [(h item hitem).isNull_eq_false, Bool.not_false]
    rw [prune, pruneItems_eq, hkept,
      List.map_congr_left fun item hitem => ih item hitem (h item hitem), List.map_id']
  | map entries ih =>
    rw [nullFree_map] at h
    have hkept : entries.filter (fun entry => !entry.2.isNull) = entries := by
      rw [List.filter_eq_self]
      exact fun entry hentry => by rw [(h entry hentry).isNull_eq_false, Bool.not_false]
    have hsame : Assoc.mapValues prune entries = entries := by
      refine (List.map_congr_left fun entry hentry => ?_).trans (List.map_id' entries)
      exact congrArg (entry.1, ·) (ih entry hentry (h entry hentry))
    rw [prune, pruneEntries_eq, hkept, hsame]

/-- Pruning changes nothing in a value just if there are no nulls in it. -/
theorem prune_eq_self_iff (h : raw.isNull = false) : raw.prune = raw ↔ raw.NullFree :=
  ⟨fun heq => heq ▸ nullFree_prune h, NullFree.prune_eq⟩

end EntityModel.Raw
