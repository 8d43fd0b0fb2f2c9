import EntityModel.Proofs.LiftedParts

/-!
# The order of sets in raw values

A raw value lists the items of a set in some order. `Raw.Rearranged` relates two raw values that are
the same but for this order: at every place that a type declares to be a set the items may be
arranged in another way, also within the items of a set. Nothing else may differ, not even in what
is not declared.

* `Raw.Rearranged.symm`: the relation is symmetric.
* `Raw.Rearranged.liftsAlike`: if one of the two can be lifted then so can the other, to an equal
  value.
-/

namespace EntityModel

/-! ## Raw values that are lifted alike -/

/-- Whatever the first is lifted to, the second is lifted to an equal value. -/
def LiftsAlike (type : ValueType) (a b : Raw) : Prop :=
  ∀ value, lift type a = .ok value →
    ∃ other, lift type b = .ok other ∧ value.equals other = true

variable {element : ValueType}

/-- Where two lists are related, and so are their items to whatever the items of the first are
related to, there is a list for the second to be related to. -/
theorem exists_forall₂ {α β γ δ : Type} {R : α → β → Prop} {S : γ → δ → Prop}
    {E : β → δ → Prop}
    {as : List α} {bs : List β} {cs : List γ}
    (h : List.Forall₂ (fun a c => ∀ b, R a b → ∃ d, S c d ∧ E b d) as cs)
    (hR : List.Forall₂ R as bs) : ∃ ds, List.Forall₂ S cs ds ∧ List.Forall₂ E bs ds := by
  induction h generalizing bs with
  | nil =>
    cases hR
    exact ⟨[], .nil, .nil⟩
  | cons hfirst _ ih =>
    cases hR with
    | cons hb hbs =>
      obtain ⟨d, hd, hbd⟩ := hfirst _ hb
      obtain ⟨ds, hds, hbds⟩ := ih hbs
      exact ⟨d :: ds, .cons hd hds, .cons hbd hbds⟩

theorem exists_liftedItems {as bs : List Raw} {values : List Value}
    (h : List.Forall₂ (LiftsAlike element) as bs) (hvalues : LiftedItems element as values) :
    ∃ others, LiftedItems element bs others ∧ Value.EqualItems values others :=
  exists_forall₂ h hvalues

theorem exists_liftedEntries {as bs : Record} {values : ValueTable}
    (h : List.Forall₂ (fun a b => a.1 = b.1 ∧ LiftsAlike element a.2 b.2) as bs)
    (hvalues : LiftedEntries element as values) :
    ∃ others, LiftedEntries element bs others ∧ Value.EqualTables values others := by
  refine exists_forall₂ (h.imp fun a b hab value hvalue => ?_) hvalues
  obtain ⟨other, hother, hequal⟩ := hab.2 value.2 hvalue.2
  exact ⟨(b.1, other), ⟨rfl, hother⟩, hvalue.1.symm.trans hab.1, hequal⟩

theorem exists_liftedFields {record record' : Record} {fields : List (String × ValueType)}
    {values : ValueTable}
    (h : ∀ field ∈ fields,
      LiftsAlike field.2 (Record.at record field.1) (Record.at record' field.1))
    (hvalues : LiftedFields record fields values) :
    ∃ others, LiftedFields record' fields others ∧ Value.EqualTables values others := by
  refine exists_forall₂ (List.forall₂_same.mpr fun field hfield value hvalue => ?_) hvalues
  obtain ⟨other, hother, hequal⟩ := h field hfield value.2 hvalue.2
  exact ⟨(field.1, other), ⟨rfl, hother⟩, hvalue.1.symm, hequal⟩

/-! ## Pairs -/

theorem forall₂_of_zip {α β : Type} {R : α → β → Prop} {as : List α} {bs : List β}
    (hlength : as.length = bs.length) (h : ∀ pair ∈ as.zip bs, R pair.1 pair.2) :
    List.Forall₂ R as bs :=
  List.forall₂_iff_zip.mpr ⟨hlength, fun hmem => h _ hmem⟩

theorem Assoc.forall₂_of_zip {α β : Type} {R : α → β → Prop} {as : Assoc α}
    {bs : Assoc β}
    (hkeys : keys as = keys bs) (h : ∀ pair ∈ as.zip bs, R pair.1.2 pair.2.2) :
    List.Forall₂ (fun a b => a.1 = b.1 ∧ R a.2 b.2) as bs := by
  have hpairs : List.Forall₂ (fun (a : String × α) (b : String × β) => a.1 = b.1) as bs := by
    have hsame : List.Forall₂ Eq (keys as) (keys bs) := List.forall₂_eq_eq_eq ▸ hkeys
    rwa [keys, keys, List.forall₂_map_left_iff, List.forall₂_map_right_iff] at hsame
  obtain ⟨hlength, hfirst⟩ := List.forall₂_iff_zip.mp hpairs
  exact EntityModel.forall₂_of_zip hlength fun pair hpair => ⟨hfirst hpair, h pair hpair⟩

namespace Raw

/-! ## Rearranged values -/

/-- The same raw value but for the order of the items of sets. -/
inductive Rearranged : ValueType → Raw → Raw → Prop
  | same (type : ValueType) (raw : Raw) : Rearranged type raw raw
  | list {element : ValueType} {as bs : List Raw} (hlength : as.length = bs.length)
      (hitems : ∀ pair ∈ as.zip bs, Rearranged element pair.1 pair.2) :
      Rearranged (.list element) (.list as) (.list bs)
  | set {element : ValueType} {as arranged bs : List Raw} (hlength : as.length = arranged.length)
      (hitems : ∀ pair ∈ as.zip arranged, Rearranged element pair.1 pair.2)
      (hperm : arranged.Perm bs) : Rearranged (.set element) (.list as) (.list bs)
  | map {element : ValueType} {as bs : Record} (hkeys : Assoc.keys as = Assoc.keys bs)
      (hentries : ∀ pair ∈ as.zip bs, Rearranged element pair.1.2 pair.2.2) :
      Rearranged (.map element) (.map as) (.map bs)
  | object {fields : List (String × ValueType)} {as bs : Record}
      (hkeys : Assoc.keys as = Assoc.keys bs)
      (hfields : ∀ field ∈ fields,
        Rearranged field.2 (Record.at as field.1) (Record.at bs field.1))
      (hothers : ∀ key ∉ Assoc.keys fields, Assoc.get? as key = Assoc.get? bs key) :
      Rearranged (.object fields) (.map as) (.map bs)

namespace Rearranged

variable {type element : ValueType} {a b : Raw} {as arranged bs : List Raw}

theorem list_of_forall₂ (h : List.Forall₂ (Rearranged element) as bs) :
    Rearranged (.list element) (.list as) (.list bs) :=
  .list h.length_eq fun _ => List.forall₂_zip h

theorem set_of_forall₂ (h : List.Forall₂ (Rearranged element) as arranged)
    (hperm : arranged.Perm bs) : Rearranged (.set element) (.list as) (.list bs) :=
  .set h.length_eq (fun _ => List.forall₂_zip h) hperm

theorem of_perm (h : as.Perm bs) : Rearranged (.set element) (.list as) (.list bs) :=
  set_of_forall₂ (List.forall₂_same.mpr fun raw _ => .same element raw) h

theorem symm (h : Rearranged type a b) : Rearranged type b a := by
  induction h with
  | same type raw => exact .same type raw
  | @list element as bs hlength _ ih =>
    have hitems := (forall₂_of_zip (R := fun a b => Rearranged element b a) hlength ih).flip
    exact list_of_forall₂ hitems
  | @set element as arranged bs hlength _ hperm ih =>
    have hitems := (forall₂_of_zip (R := fun a b => Rearranged element b a) hlength ih).flip
    obtain ⟨arranged', hitems, hperm⟩ := List.perm_comp_forall₂ hperm.symm hitems
    exact set_of_forall₂ hitems hperm
  | @map element as bs hkeys _ ih =>
    have hlength : as.length = bs.length := by
      simpa [Assoc.keys] using congrArg List.length hkeys
    have hentries := (forall₂_of_zip (R := fun a b => Rearranged element b.2 a.2) hlength ih).flip
    exact .map hkeys.symm fun _ => List.forall₂_zip hentries
  | object hkeys _ hothers ih =>
    exact .object hkeys.symm ih fun key hkey => (hothers key hkey).symm

/-- What one of the two is lifted to equals what the other is lifted to. -/
theorem liftsAlike (h : Rearranged type a b) (ha : a.NaNFree) : LiftsAlike type a b := by
  induction h with
  | same type raw =>
    exact fun value hlift => ⟨value, hlift, Value.equals_self_iff.mpr (liftAt_nanFree ha hlift)⟩
  | @list element as bs hlength _ ih =>
    rw [nanFree_list] at ha
    intro value hlift
    obtain ⟨values, hvalues, rfl⟩ := lift_list_ok.mp hlift
    have hpairs : List.Forall₂ (LiftsAlike element) as bs :=
      forall₂_of_zip hlength fun pair hpair => ih pair hpair (ha _ (List.of_mem_zip hpair).1)
    obtain ⟨others, hothers, hequal⟩ := exists_liftedItems hpairs hvalues
    exact ⟨_, lift_list_ok.mpr ⟨others, hothers, rfl⟩,
      Value.equals_list_iff.mpr ⟨others, rfl, hequal⟩⟩
  | @set element as arranged bs hlength _ hperm ih =>
    rw [nanFree_list] at ha
    intro value hlift
    obtain ⟨values, hvalues, rfl⟩ := lift_set_ok.mp hlift
    have hpairs : List.Forall₂ (LiftsAlike element) as arranged :=
      forall₂_of_zip hlength fun pair hpair => ih pair hpair (ha _ (List.of_mem_zip hpair).1)
    obtain ⟨matched, hmatched, hequal⟩ := exists_liftedItems hpairs hvalues
    -- the lifted items are arranged just as the raw ones are
    obtain ⟨others, hothers, hperm⟩ := List.perm_comp_forall₂ hperm.symm hmatched
    refine ⟨_, lift_set_ok.mpr ⟨others, hothers, rfl⟩, ?_⟩
    rw [Value.equals_set_iff fun value _ => Value.lawful value]
    exact ⟨others, rfl, matched, hequal, hperm.symm⟩
  | @map element as bs hkeys _ ih =>
    rw [nanFree_map] at ha
    intro value hlift
    obtain ⟨values, hvalues, rfl⟩ := lift_map_ok.mp hlift
    have hpairs : List.Forall₂ (fun a b => a.1 = b.1 ∧ LiftsAlike element a.2 b.2) as bs :=
      Assoc.forall₂_of_zip hkeys fun pair hpair => ih pair hpair (ha _ (List.of_mem_zip hpair).1)
    obtain ⟨others, hothers, hequal⟩ := exists_liftedEntries hpairs hvalues
    exact ⟨_, lift_map_ok.mpr ⟨others, hothers, rfl⟩,
      Value.equals_map_iff.mpr ⟨others, rfl, hequal⟩⟩
  | object _ _ _ ih =>
    intro value hlift
    obtain ⟨values, hvalues, rfl⟩ := lift_object_ok.mp hlift
    obtain ⟨others, hothers, hequal⟩ := exists_liftedFields
      (fun field hfield => ih field hfield (Record.at_nanFree ha field.1)) hvalues
    exact ⟨_, lift_object_ok.mpr ⟨others, hothers, rfl⟩,
      Value.equals_object_iff.mpr ⟨others, rfl, hequal⟩⟩

end Rearranged

end Raw

/-! ## Records -/

namespace Record

variable {types : List (String × ValueType)} {record record' : Record} {values : ValueTable}

/-- Two records hold the same of the declared keys, with the same values but for the order of the
items of sets. Under other keys they may hold anything. -/
def Rearranged (types : List (String × ValueType)) (record record' : Record) : Prop :=
  ∀ field ∈ types, (field.1 ∈ Assoc.keys record ↔ field.1 ∈ Assoc.keys record') ∧
    Raw.Rearranged field.2 (Record.at record field.1) (Record.at record' field.1)

theorem Rearranged.symm (h : Rearranged types record record') :
    Rearranged types record' record :=
  fun field hfield => ⟨(h field hfield).1.symm, (h field hfield).2.symm⟩

theorem Rearranged.exists_liftRecord (h : Rearranged types record record')
    (hnan : (Raw.map record).NaNFree) (hvalues : liftRecord record types = .ok values) :
    ∃ others, liftRecord record' types = .ok others ∧ Value.EqualTables values others := by
  obtain ⟨others, hothers, hequal⟩ := exists_liftedFields
    (fun field hfield => (h field hfield).2.liftsAlike (Record.at_nanFree hnan field.1))
    (liftRecord_ok_iff.mp hvalues)
  exact ⟨others, liftRecord_ok_iff.mpr hothers, hequal⟩

end Record

end EntityModel
