import EntityModel.Proofs.Order

/-!
# The parts of raw values

Lists and maps have parts, and these may have parts again; all else is a scalar, null included.
Whether a value is free of nulls, of NaNs or of infinities depends on the scalars in it alone, so
each of these is one predicate with another property of scalars.

* `Raw.induction`: induction on raw values, with a hypothesis for every item and every entry.
* `Raw.Everywhere`: every scalar in a raw value has a property.
* `Raw.everywhere_list`, `Raw.everywhere_map`: the same in terms of items and of entries.
-/

namespace EntityModel.Raw

/-! ## Induction -/

section

variable {motive : Raw → Prop} (null : motive .null) (bool : ∀ value, motive (.bool value))
  (int : ∀ value, motive (.int value)) (float : ∀ value, motive (.float value))
  (string : ∀ value, motive (.string value))
  (list : ∀ items, (∀ item ∈ items, motive item) → motive (.list items))
  (map : ∀ entries : List (String × Raw), (∀ entry ∈ entries, motive entry.2) →
    motive (.map entries))

include null bool int float string list map

@[elab_as_elim]
theorem induction : ∀ raw, motive raw
  | .null => null
  | .bool value => bool value
  | .int value => int value
  | .float value => float value
  | .string value => string value
  | .list items => list items fun item _ => induction item
  | .map entries => map entries fun entry hmem =>
    have := Assoc.sizeOf_lt_of_mem hmem
    induction entry.2

end

/-! ## All scalars -/

mutual
/-- Every scalar in the value has the property. -/
def Everywhere (p : Raw → Prop) : Raw → Prop
  | .list items => ItemsEverywhere p items
  | .map entries => EntriesEverywhere p entries
  | scalar => p scalar

def ItemsEverywhere (p : Raw → Prop) : List Raw → Prop
  | [] => True
  | item :: rest => Everywhere p item ∧ ItemsEverywhere p rest

def EntriesEverywhere (p : Raw → Prop) : List (String × Raw) → Prop
  | [] => True
  | (_, value) :: rest => Everywhere p value ∧ EntriesEverywhere p rest
end

/-- A property of floating-point numbers as one of scalars: all others have it. -/
def IfFloat (p : Binary64 → Prop) : Raw → Prop
  | .float value => p value
  | _ => True

variable {p q : Raw → Prop} {raw : Raw}

theorem everywhere_list {items : List Raw} :
    (list items).Everywhere p ↔ ∀ item ∈ items, item.Everywhere p := by
  rw [Everywhere]
  induction items with
  | nil => simp [ItemsEverywhere]
  | cons item rest ih => simp [ItemsEverywhere, ih]

theorem everywhere_map {entries : Record} :
    (map entries).Everywhere p ↔ ∀ entry ∈ entries, entry.2.Everywhere p := by
  rw [Everywhere]
  induction entries with
  | nil => simp [EntriesEverywhere]
  | cons entry rest ih => simp [EntriesEverywhere, ih]

theorem everywhere_of_forall (h : ∀ scalar, p scalar) : raw.Everywhere p := by
  induction raw using Raw.induction with
  | null | bool _ | int _ | float _ | string _ => exact h _
  | list items ih => exact everywhere_list.mpr ih
  | map entries ih => exact everywhere_map.mpr ih

theorem Everywhere.mono (h : raw.Everywhere p) (hpq : ∀ scalar, p scalar → q scalar) :
    raw.Everywhere q := by
  induction raw using Raw.induction with
  | null | bool _ | int _ | float _ | string _ => exact hpq _ h
  | list items ih =>
    rw [everywhere_list] at *
    exact fun item hitem => ih item hitem (h item hitem)
  | map entries ih =>
    rw [everywhere_map] at *
    exact fun entry hentry => ih entry hentry (h entry hentry)

end EntityModel.Raw
