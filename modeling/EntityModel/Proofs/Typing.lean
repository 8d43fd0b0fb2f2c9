import EntityModel.Value.Basic
import EntityModel.Proofs.Order

/-!
# Parts of well-typed values

What `WellTyped` says of a list, a map or an object, in terms of membership and look-ups.

* `AttributesTyped.of_get?`: an attribute is of the type of the field of its name.
* `AttributesTyped.replace`: one of the same type may stand in its place.
-/

namespace EntityModel

namespace Value

theorem itemsTyped_iff {element : ValueType} {items : List Value} :
    ItemsTyped element items ↔ ∀ item ∈ items, item.type = element ∧ item.WellTyped := by
  induction items with
  | nil => simp [ItemsTyped]
  | cons item rest ih => simp [ItemsTyped, ih, and_assoc]

theorem entriesTyped_iff {element : ValueType} {entries : ValueTable} :
    EntriesTyped element entries ↔
      ∀ entry ∈ entries, entry.2.type = element ∧ entry.2.WellTyped := by
  induction entries with
  | nil => simp [EntriesTyped]
  | cons entry rest ih => simp [EntriesTyped, ih, and_assoc]

theorem AttributesTyped.keys_eq {fields : List (String × ValueType)} {attributes : ValueTable}
    (h : AttributesTyped fields attributes) : Assoc.keys attributes = Assoc.keys fields := by
  induction fields generalizing attributes with
  | nil =>
    cases attributes with
    | nil => rfl
    | cons entry rest => cases h
  | cons field rest ih =>
    cases attributes with
    | nil => cases h
    | cons entry others =>
      obtain ⟨hname, -, -, hrest⟩ := h
      have hkeys := ih hrest
      simp only [Assoc.keys, List.map_cons] at hkeys ⊢
      rw [hname, hkeys]

theorem AttributesTyped.of_mem {fields : List (String × ValueType)} {attributes : ValueTable}
    (h : AttributesTyped fields attributes) :
    ∀ entry ∈ attributes, (entry.1, entry.2.type) ∈ fields ∧ entry.2.WellTyped := by
  induction fields generalizing attributes with
  | nil =>
    cases attributes with
    | nil => simp
    | cons entry rest => cases h
  | cons field rest ih =>
    cases attributes with
    | nil => cases h
    | cons entry others =>
      obtain ⟨hname, htype, hvalue, hrest⟩ := h
      refine List.forall_mem_cons.mpr ⟨⟨?_, hvalue⟩, fun e he => ?_⟩
      · rw [hname, htype]
        exact List.mem_cons_self
      · exact ⟨List.mem_cons_of_mem _ (ih hrest e he).1, (ih hrest e he).2⟩

/-- The attribute of a name is of the type of the field of that name. -/
theorem AttributesTyped.of_get? {fields : List (String × ValueType)} {attributes : ValueTable}
    {name : String} {value : Value} (h : AttributesTyped fields attributes)
    (hget : Assoc.get? attributes name = some value) :
    Assoc.get? fields name = some value.type ∧ value.WellTyped := by
  induction fields generalizing attributes with
  | nil =>
    cases attributes with
    | nil => cases hget
    | cons entry rest => cases h
  | cons field rest ih =>
    cases attributes with
    | nil => cases hget
    | cons entry others =>
      obtain ⟨hname, htype, hvalue, hrest⟩ := h
      rw [Assoc.get?_cons] at hget ⊢
      rw [← hname]
      split
      · next heq =>
        rw [if_pos heq] at hget
        cases hget
        exact ⟨htype ▸ rfl, hvalue⟩
      · next hne =>
        rw [if_neg hne] at hget
        exact ih hrest hget

/-- A name keeps its attribute's type if the attribute is replaced by one of that type. -/
theorem AttributesTyped.replace {fields : List (String × ValueType)} {attributes : ValueTable}
    {name : String} {old new : Value} (h : AttributesTyped fields attributes)
    (hold : Assoc.get? attributes name = some old) (htype : new.type = old.type)
    (hnew : new.WellTyped) : AttributesTyped fields (Assoc.replace name new attributes) := by
  induction fields generalizing attributes with
  | nil =>
    cases attributes with
    | nil => cases hold
    | cons entry rest => cases h
  | cons field rest ih =>
    cases attributes with
    | nil => cases hold
    | cons entry others =>
      obtain ⟨hname, hfirst, hvalue, hrest⟩ := h
      rw [Assoc.get?_cons] at hold
      rw [Assoc.replace]
      split
      · next heq =>
        rw [if_pos heq] at hold
        cases hold
        exact ⟨heq.trans hname, htype.trans hfirst, hnew, hrest⟩
      · next hne =>
        rw [if_neg hne] at hold
        exact ⟨hname, hfirst, hvalue, ih hrest hold⟩

end Value

end EntityModel
