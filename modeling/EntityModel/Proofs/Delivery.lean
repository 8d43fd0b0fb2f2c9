import EntityModel.Proofs.Difference.Pruning
import EntityModel.Proofs.Lowering
import EntityModel.Proofs.Value.Equality

/-!
# Values that arrive as they were sent

A difference sends values lowered and without nulls. `Value.delivered` is what lifting makes of them
on the other side: absent items and entries are gone, and attributes are null where they were
absent. A value equals what is delivered of it just if it is faithful, that is, if no part of it is
a NaN, no item or entry is absent and no attribute is unknown.

For sets this is not a matter of comparing items one by one, as an item that lost something may be
taken for another one. What settles it is that equal values are faithful together
(`isFaithful_of_equals`): nothing that is delivered can be taken for an item that is not faithful.

* `liftAt_prune_lower`: what is lifted from a lowered and pruned value, at any path.
* `Value.delivered_equals_iff`: which values arrive as they were.
-/

namespace EntityModel

namespace Value

mutual
/-- The value without absent items and entries, and with nulls for unknown attributes. -/
def delivered : Value → Value
  | .unknown type => .null type
  | .list element items => .list element (deliveredItems items)
  | .set element items => .set element (deliveredItems items)
  | .map element entries => .map element (deliveredEntries entries)
  | .object fields attributes => .object fields (deliveredAttributes attributes)
  | value => value

/-- The items that are known, delivered. -/
def deliveredItems : List Value → List Value
  | [] => []
  | item :: rest =>
    if item.isKnown then delivered item :: deliveredItems rest else deliveredItems rest

/-- The entries that are known, delivered. -/
def deliveredEntries : List (String × Value) → ValueTable
  | [] => []
  | (key, value) :: rest =>
    if value.isKnown then (key, delivered value) :: deliveredEntries rest
    else deliveredEntries rest

/-- All attributes, delivered. -/
def deliveredAttributes : List (String × Value) → ValueTable
  | [] => []
  | (name, value) :: rest => (name, delivered value) :: deliveredAttributes rest
end

theorem deliveredItems_eq (items : List Value) :
    deliveredItems items = (items.filter isKnown).map delivered := by
  induction items with
  | nil => rfl
  | cons item rest ih =>
    rw [deliveredItems, List.filter_cons, ih]
    split <;> rfl

theorem deliveredEntries_eq (entries : ValueTable) :
    deliveredEntries entries =
      Assoc.mapValues delivered (entries.filter fun entry => entry.2.isKnown) := by
  induction entries with
  | nil => rfl
  | cons entry rest ih =>
    obtain ⟨key, value⟩ := entry
    rw [deliveredEntries, List.filter_cons, ih]
    split <;> rfl

theorem deliveredAttributes_eq (attributes : ValueTable) :
    deliveredAttributes attributes = Assoc.mapValues delivered attributes := by
  induction attributes with
  | nil => rfl
  | cons entry rest ih =>
    obtain ⟨name, value⟩ := entry
    rw [deliveredAttributes, ih]
    rfl

@[simp] theorem isKnown_delivered (value : Value) : value.delivered.isKnown = value.isKnown := by
  cases value <;> rfl

@[simp] theorem isUnknown_delivered (value : Value) : value.delivered.isUnknown = false := by
  cases value <;> rfl

end Value

open Value

/-! ## Lifting what was lowered and pruned -/

/-- A null that is dropped from a record is found there all the same, as a missing entry is null. -/
theorem Record.at_prune {record : Record} (h : Assoc.Ascending record) (name : String) :
    Record.at record.prune name = (Record.at record name).prune := by
  rw [Record.at, Record.at]
  cases hpruned : Assoc.get? record.prune name with
  | some raw =>
    obtain ⟨whole, hget, -, rfl⟩ := (get?_prune h).mp hpruned
    rw [hget]
    rfl
  | none =>
    cases hget : Assoc.get? record name with
    | none => rfl
    | some whole =>
      cases hnull : whole.isNull with
      | true =>
        rw [Raw.isNull_iff.mp hnull]
        rfl
      | false =>
        cases hpruned.symm.trans ((get?_prune h).mpr ⟨whole, hget, hnull, rfl⟩)

mutual
/-- Lifting never rejects a lowered value for the nulls that it was sent without. -/
theorem liftAt_prune_lower : ∀ {value : Value}, value.WellTyped → value.Ordered →
    ∀ path : String, liftAt value.type (lower value).prune path = .ok value.delivered
  | .null type, _, _, path | .unknown type, _, _, path => by
    simp [Value.type, lower, Raw.prune, delivered, liftAt_null]
  | .string _, _, _, _ | .int64 _, _, _, _ | .float64 _, _, _, _ | .bool _, _, _, _ => by
    simp [Value.type, lower, Raw.prune, delivered, liftAt, liftScalar?, Raw.text]
  | .list element items, hwell, hordered, path => by
    have hitems := liftItems_prune_lower hwell hordered.2 path 0
    rw [lower, Raw.prune, delivered]
    exact liftAt_list_ok.mpr (.inr ⟨_, rfl, _, hitems, rfl⟩)
  | .set element items, hwell, hordered, path => by
    have hitems := liftItems_prune_lower hwell hordered.2 path 0
    rw [lower, Raw.prune, delivered]
    exact liftAt_set_ok.mpr (.inr ⟨_, rfl, _, hitems, rfl⟩)
  | .map element entries, hwell, hordered, path => by
    have hentries := liftEntries_prune_lower hwell hordered.2.2 path
    rw [lower, Raw.prune, delivered]
    exact liftAt_map_ok.mpr (.inr ⟨_, rfl, _, hentries, rfl⟩)
  | .object fields attributes, hwell, hordered, path => by
    have hascending : Assoc.Ascending (lowerTable attributes) :=
      hordered.2.1.of_keys (keys_lowerTable attributes)
    have hat : ∀ entry ∈ attributes,
        Record.at (Record.prune (lowerTable attributes)) entry.1 = (lower entry.2).prune := by
      intro entry hentry
      rw [Record.at_prune hascending, Record.at, get?_lowerTable,
        hordered.2.1.get?_of_mem hentry]
      rfl
    have hfields := liftFields_prune_lower hwell hordered.2.2 hat path
    rw [lower, Raw.prune, delivered]
    exact liftAt_object_ok.mpr (.inr ⟨_, rfl, _, hfields, rfl⟩)

theorem liftItems_prune_lower : ∀ {element : ValueType} {items : List Value},
    ItemsTyped element items → ItemsOrdered items → ∀ (path : String) (position : Nat),
    liftItems (liftAt element) path position (Raw.pruneItems (lowerKnown items)) =
      .ok (deliveredItems items)
  | _, [], _, _, _, _ => rfl
  | _, item :: rest, ⟨htype, hwell, htyped⟩, ⟨hitem, hordered⟩, path, position => by
    by_cases hknown : item.isKnown = true
    · have hlift := liftAt_prune_lower hwell hitem (itemPath path position)
      have hrest := liftItems_prune_lower htyped hordered path (position + 1)
      rw [htype] at hlift
      simp [lowerKnown, deliveredItems, Raw.pruneItems, lower_isNull, hknown, liftItems, hlift,
        hrest]
    · have hrest := liftItems_prune_lower htyped hordered path position
      simp [lowerKnown, deliveredItems, hknown, hrest]

theorem liftEntries_prune_lower : ∀ {element : ValueType} {entries : List (String × Value)},
    EntriesTyped element entries → EntriesOrdered entries → ∀ path : String,
    liftEntries (liftAt element) path (Raw.pruneEntries (lowerTable entries)) =
      .ok (deliveredEntries entries)
  | _, [], _, _, _ => rfl
  | _, (key, value) :: rest, ⟨htype, hwell, htyped⟩, ⟨hvalue, hordered⟩, path => by
    have hrest := liftEntries_prune_lower htyped hordered path
    by_cases hknown : value.isKnown = true
    · have hlift := liftAt_prune_lower hwell hvalue (entryPath path key)
      rw [htype] at hlift
      simp [lowerTable, deliveredEntries, Raw.pruneEntries, lower_isNull, hknown, liftEntries,
        hlift, hrest]
    · simp [lowerTable, deliveredEntries, Raw.pruneEntries, lower_isNull, hknown, hrest]

theorem liftFields_prune_lower : ∀ {fields : List (String × ValueType)}
    {attributes : List (String × Value)} {record : Record}, AttributesTyped fields attributes →
    EntriesOrdered attributes →
    (∀ entry ∈ attributes, Record.at record entry.1 = (lower entry.2).prune) →
      ∀ path : String,
    liftFields fields record path = .ok (deliveredAttributes attributes)
  | [], [], _, _, _, _, _ => rfl
  | (name, type) :: fields, (name', value) :: rest, record, ⟨hname, htype, hwell, htyped⟩,
      ⟨hvalue, hordered⟩, hat, path => by
    rw [List.forall_mem_cons] at hat
    have hlift := liftAt_prune_lower hwell hvalue (fieldPath path name)
    have hrest := liftFields_prune_lower htyped hordered hat.2 path
    rw [← hat.1, hname, htype] at hlift
    refine liftFields_cons_ok.mpr ⟨_, hlift, _, hrest, ?_⟩
    rw [deliveredAttributes, hname]
  | [], _ :: _, _, h, _, _, _ => by cases h
  | _ :: _, [], _, h, _, _, _ => by cases h
end

namespace Value

/-! ## Faithful values -/

mutual
/-- No number inside the value is a NaN, and at no depth an item or an entry is absent or an
attribute is unknown. -/
def isFaithful : Value → Bool
  | .float64 x => !x.isNaN
  | .list _ items | .set _ items => itemsFaithful items
  | .map _ entries => entriesFaithful entries
  | .object _ attributes => attributesFaithful attributes
  | _ => true

def itemsFaithful : List Value → Bool
  | [] => true
  | item :: rest => item.isKnown && isFaithful item && itemsFaithful rest

def entriesFaithful : List (String × Value) → Bool
  | [] => true
  | (_, value) :: rest => value.isKnown && isFaithful value && entriesFaithful rest

def attributesFaithful : List (String × Value) → Bool
  | [] => true
  | (_, value) :: rest => !value.isUnknown && isFaithful value && attributesFaithful rest
end

theorem itemsFaithful_iff {items : List Value} :
    itemsFaithful items = true ↔
      ∀ item ∈ items, item.isKnown = true ∧ item.isFaithful = true := by
  induction items with
  | nil => simp [itemsFaithful]
  | cons item rest ih => simp [itemsFaithful, ih]

theorem entriesFaithful_iff {entries : ValueTable} :
    entriesFaithful entries = true ↔
      ∀ entry ∈ entries, entry.2.isKnown = true ∧ entry.2.isFaithful = true := by
  induction entries with
  | nil => simp [entriesFaithful]
  | cons entry rest ih => simp [entriesFaithful, ih]

theorem attributesFaithful_iff {attributes : ValueTable} :
    attributesFaithful attributes = true ↔
      ∀ entry ∈ attributes, entry.2.isUnknown = false ∧ entry.2.isFaithful = true := by
  induction attributes with
  | nil => simp [attributesFaithful]
  | cons entry rest ih => simp [attributesFaithful, ih]

theorem isUnknown_of_isKnown {value : Value} (h : value.isKnown = true) :
    value.isUnknown = false := by
  rw [isKnown, Bool.and_eq_true, Bool.not_eq_true', Bool.not_eq_true'] at h
  exact h.2

theorem nanFree_of_isFaithful {value : Value} (h : value.isFaithful = true) : value.NaNFree := by
  induction value using Value.induction with
  | null _ | unknown _ | string _ | int64 _ | bool _ => simp [NaNFree]
  | float64 x => simpa [isFaithful, NaNFree] using h
  | list element items ih | set element items ih =>
    rw [isFaithful, itemsFaithful_iff] at h
    rw [NaNFree, itemsNaNFree_iff]
    exact fun item hitem => ih item hitem (h item hitem).2
  | map element entries ih =>
    rw [isFaithful, entriesFaithful_iff] at h
    rw [NaNFree, entriesNaNFree_iff]
    exact fun entry hentry => ih entry hentry (h entry hentry).2
  | object fields attributes ih =>
    rw [isFaithful, attributesFaithful_iff] at h
    rw [NaNFree, entriesNaNFree_iff]
    exact fun entry hentry => ih entry hentry (h entry hentry).2

/-- Apart from NaNs, what is delivered is faithful. -/
theorem delivered_isFaithful {value : Value} (h : value.NaNFree) :
    value.delivered.isFaithful = true := by
  induction value using Value.induction with
  | null _ | unknown _ | string _ | int64 _ | bool _ => simp [delivered, isFaithful]
  | float64 x => simpa [delivered, isFaithful, NaNFree] using h
  | list element items ih | set element items ih =>
    rw [NaNFree, itemsNaNFree_iff] at h
    rw [delivered, isFaithful, itemsFaithful_iff, deliveredItems_eq, List.forall_mem_map]
    intro item hitem
    obtain ⟨hmem, hknown⟩ := List.mem_filter.mp hitem
    exact ⟨(isKnown_delivered item).trans hknown, ih item hmem (h item hmem)⟩
  | map element entries ih =>
    rw [NaNFree, entriesNaNFree_iff] at h
    rw [delivered, isFaithful, entriesFaithful_iff, deliveredEntries_eq, Assoc.mapValues,
      List.forall_mem_map]
    intro entry hentry
    obtain ⟨hmem, hknown⟩ := List.mem_filter.mp hentry
    exact ⟨(isKnown_delivered entry.2).trans hknown, ih entry hmem (h entry hmem)⟩
  | object fields attributes ih =>
    rw [NaNFree, entriesNaNFree_iff] at h
    rw [delivered, isFaithful, attributesFaithful_iff, deliveredAttributes_eq, Assoc.mapValues,
      List.forall_mem_map]
    intro entry hentry
    exact ⟨isUnknown_delivered entry.2, ih entry hentry (h entry hentry)⟩

theorem delivered_of_isFaithful {value : Value} (hunknown : value.isUnknown = false)
    (h : value.isFaithful = true) : value.delivered = value := by
  induction value using Value.induction with
  | null _ | string _ | int64 _ | float64 _ | bool _ => rfl
  | unknown _ => cases hunknown
  | list element items ih | set element items ih =>
    rw [isFaithful, itemsFaithful_iff] at h
    have hsame : items.map delivered = items := by
      refine (List.map_congr_left fun item hitem => ?_).trans (List.map_id items)
      obtain ⟨hknown, hfaithful⟩ := h item hitem
      exact ih item hitem (isUnknown_of_isKnown hknown) hfaithful
    rw [delivered, deliveredItems_eq, List.filter_eq_self.mpr fun item hitem => (h item hitem).1,
      hsame]
  | map element entries ih =>
    rw [isFaithful, entriesFaithful_iff] at h
    have hsame : Assoc.mapValues delivered entries = entries := by
      refine (List.map_congr_left fun entry hentry => ?_).trans (List.map_id entries)
      obtain ⟨hknown, hfaithful⟩ := h entry hentry
      exact congrArg (entry.1, ·) (ih entry hentry (isUnknown_of_isKnown hknown) hfaithful)
    rw [delivered, deliveredEntries_eq,
      List.filter_eq_self.mpr fun entry hentry => (h entry hentry).1, hsame]
  | object fields attributes ih =>
    rw [isFaithful, attributesFaithful_iff] at h
    have hsame : Assoc.mapValues delivered attributes = attributes := by
      refine (List.map_congr_left fun entry hentry => ?_).trans (List.map_id attributes)
      obtain ⟨hunknown, hfaithful⟩ := h entry hentry
      exact congrArg (entry.1, ·) (ih entry hentry hunknown hfaithful)
    rw [delivered, deliveredAttributes_eq, hsame]

/-! ## Equal values are faithful together -/

/-- What holds of everything that an item of the first list is related to holds of all items of the
second. -/
theorem forall_of_forall₂ {α β : Type} {R : α → β → Prop} {P : β → Prop} {as : List α}
    {bs : List β} (h : List.Forall₂ R as bs) (hP : ∀ a ∈ as, ∀ {b}, R a b → P b) :
    ∀ b ∈ bs, P b := by
  induction h with
  | nil => simp
  | cons hfirst _ ih =>
    obtain ⟨ha, has⟩ := List.forall_mem_cons.mp hP
    exact List.forall_mem_cons.mpr ⟨ha hfirst, ih has⟩

theorem isFaithful_of_equals {a : Value} : ∀ {b : Value}, a.equals b = true →
    a.isFaithful = true → b.isFaithful = true := by
  induction a using Value.induction with
  | null _ | unknown _ | string _ | int64 _ | bool _ =>
    intro b h _
    cases b <;> first | rfl | simp [equals] at h
  | float64 x =>
    intro b h _
    obtain ⟨y, rfl, -⟩ := equals_float64_iff.mp h
    have hself := equals_self_iff.mp (equals_trans (equals_symm h) h)
    rw [isFaithful, Bool.not_eq_true']
    exact hself
  | list element items ih =>
    intro b h hfaithful
    obtain ⟨others, rfl, hitems⟩ := equals_list_iff.mp h
    rw [isFaithful, itemsFaithful_iff] at hfaithful ⊢
    refine forall_of_forall₂ hitems fun item hitem other heq => ?_
    obtain ⟨hknown, hitem'⟩ := hfaithful item hitem
    exact ⟨isKnown_congr heq ▸ hknown, ih item hitem heq hitem'⟩
  | set element items ih =>
    intro b h hfaithful
    obtain ⟨others, rfl, arranged, hitems, hperm⟩ :=
      (equals_set_iff fun item _ => lawful item).mp h
    rw [isFaithful, itemsFaithful_iff] at hfaithful ⊢
    have harranged : ∀ other ∈ arranged, other.isKnown = true ∧ other.isFaithful = true := by
      refine forall_of_forall₂ hitems fun item hitem other heq => ?_
      obtain ⟨hknown, hitem'⟩ := hfaithful item hitem
      exact ⟨isKnown_congr heq ▸ hknown, ih item hitem heq hitem'⟩
    exact fun other hother => harranged other (hperm.mem_iff.mpr hother)
  | map element entries ih =>
    intro b h hfaithful
    obtain ⟨others, rfl, hentries⟩ := equals_map_iff.mp h
    rw [isFaithful, entriesFaithful_iff] at hfaithful ⊢
    refine forall_of_forall₂ hentries fun entry hentry other heq => ?_
    obtain ⟨hknown, hentry'⟩ := hfaithful entry hentry
    exact ⟨isKnown_congr heq.2 ▸ hknown, ih entry hentry heq.2 hentry'⟩
  | object fields attributes ih =>
    intro b h hfaithful
    obtain ⟨others, rfl, hattributes⟩ := equals_object_iff.mp h
    rw [isFaithful, attributesFaithful_iff] at hfaithful ⊢
    refine forall_of_forall₂ hattributes fun entry hentry other heq => ?_
    obtain ⟨hunknown, hentry'⟩ := hfaithful entry hentry
    exact ⟨isUnknown_congr heq.2 ▸ hunknown, ih entry hentry heq.2 hentry'⟩

/-- What is delivered of a value equals it just if the value is faithful. -/
theorem delivered_equals_iff {value : Value} (hunknown : value.isUnknown = false) :
    value.delivered.equals value = true ↔ value.isFaithful = true := by
  constructor
  · intro h
    have hnan : value.NaNFree := equals_self_iff.mp (equals_trans (equals_symm h) h)
    exact isFaithful_of_equals h (delivered_isFaithful hnan)
  · intro h
    rw [delivered_of_isFaithful hunknown h]
    exact equals_self_iff.mpr (nanFree_of_isFaithful h)

end Value

end EntityModel
