import EntityModel.Difference.Structural
import EntityModel.Proofs.RawParts
import Mathlib.Data.List.Forall2

/-!
# Equality part by part

`Raw.equals` compares two raw values constructor by constructor. It is a partial equivalence: a
value that contains a NaN differs from itself.

* `Raw.equals_list_iff`, `Raw.equals_map_iff`: lists and maps are compared pair by pair.
* `Raw.equals_symm`, `Raw.equals_trans`, `Raw.equals_self_iff`: the laws of equality.
-/

namespace EntityModel

theorem Binary64.equals_trans {x y z : Binary64} (hxy : x.equals y = true)
    (hyz : y.equals z = true) : x.equals z = true := by
  simp only [equals, Bool.and_eq_true, Bool.or_eq_true, Bool.not_eq_true', beq_iff_eq] at *
  obtain ⟨⟨hx, -⟩, hxy⟩ := hxy
  obtain ⟨⟨-, hz⟩, hyz⟩ := hyz
  have hcongr {v w : Binary64} (h : v.bits = w.bits) : v = w := congrArg Binary64.mk h
  refine ⟨⟨hx, hz⟩, ?_⟩
  rcases hxy with hbits | ⟨hxzero, hyzero⟩
  · rwa [hcongr hbits]
  · rcases hyz with hbits | ⟨-, hzzero⟩
    · exact .inr ⟨hxzero, hcongr hbits ▸ hyzero⟩
    · exact .inr ⟨hxzero, hzzero⟩

namespace Raw

/-! ## What equals a value of each constructor

On two scalars `equals` is found by computing, without its equations for all pairs of
constructors. -/

section

variable {b : Raw}

theorem equals_null_iff : equals .null b = true ↔ b = .null := by
  cases b with
  | null => exact iff_of_true rfl rfl
  | _ => exact iff_of_false Bool.false_ne_true Raw.noConfusion

theorem equals_bool_iff {value : Bool} : equals (.bool value) b = true ↔ b = .bool value := by
  cases b with
  | bool other =>
    rw [bool.injEq, @eq_comm _ other]
    exact beq_iff_eq
  | _ => exact iff_of_false Bool.false_ne_true Raw.noConfusion

theorem equals_int_iff {value : Int64} : equals (.int value) b = true ↔ b = .int value := by
  cases b with
  | int other =>
    rw [int.injEq, @eq_comm _ other]
    exact beq_iff_eq
  | _ => exact iff_of_false Bool.false_ne_true Raw.noConfusion

theorem equals_string_iff {text : String} :
    equals (.string text) b = true ↔ b = .string text := by
  cases b with
  | string other =>
    rw [string.injEq, @eq_comm _ other]
    exact beq_iff_eq
  | _ => exact iff_of_false Bool.false_ne_true Raw.noConfusion

theorem equals_float_iff {x : Binary64} :
    equals (.float x) b = true ↔ ∃ y, b = .float y ∧ x.equals y = true := by
  cases b with
  | float y =>
    constructor
    · exact fun h => ⟨y, rfl, h⟩
    · rintro ⟨_, ⟨⟩, h⟩
      exact h
  | _ =>
    refine iff_of_false Bool.false_ne_true ?_
    rintro ⟨_, ⟨⟩, _⟩

/-- Items are compared in order. -/
def EqualItems (as bs : List Raw) : Prop := List.Forall₂ (fun a b => a.equals b = true) as bs

/-- Entries are compared in order, with their keys. -/
def EqualEntries (as bs : Record) : Prop :=
  List.Forall₂ (fun a b => a.1 = b.1 ∧ a.2.equals b.2 = true) as bs

theorem equalItems_iff {as bs : List Raw} : equalItems as bs = true ↔ EqualItems as bs := by
  rw [EqualItems]
  induction as generalizing bs with
  | nil => cases bs <;> simp [equalItems]
  | cons a as ih => cases bs <;> simp [equalItems, ih]

theorem equalEntries_iff {as bs : Record} : equalEntries as bs = true ↔ EqualEntries as bs := by
  rw [EqualEntries]
  induction as generalizing bs with
  | nil => cases bs <;> simp [equalEntries]
  | cons a as ih => cases bs <;> simp [equalEntries, ih]

theorem equals_list_iff {as : List Raw} :
    equals (.list as) b = true ↔ ∃ bs, b = .list bs ∧ EqualItems as bs := by
  cases b <;> simp [equals, equalItems_iff]

theorem equals_map_iff {as : Record} :
    equals (.map as) b = true ↔ ∃ bs, b = .map bs ∧ EqualEntries as bs := by
  cases b <;> simp [equals, equalEntries_iff]

end

/-! ## Symmetry and transitivity -/

theorem equals_symm {a : Raw} : ∀ {b : Raw}, a.equals b = true → b.equals a = true := by
  induction a using Raw.induction with
  | null =>
    intro b h
    rw [equals_null_iff.mp h, equals]
  | bool value =>
    intro b h
    rw [equals_bool_iff.mp h, equals_bool_iff]
  | int value =>
    intro b h
    rw [equals_int_iff.mp h, equals_int_iff]
  | string text =>
    intro b h
    rw [equals_string_iff.mp h, equals_string_iff]
  | float x =>
    intro b h
    obtain ⟨y, rfl, hxy⟩ := equals_float_iff.mp h
    rwa [equals, Binary64.equals_comm]
  | list items ih =>
    intro b h
    obtain ⟨bs, rfl, hitems⟩ := equals_list_iff.mp h
    have hboth := (List.forall₂_and_left _ _).mpr ⟨ih, hitems⟩
    exact equals_list_iff.mpr ⟨items, rfl, (hboth.imp fun a b hab => hab.1 hab.2).flip⟩
  | map entries ih =>
    intro b h
    obtain ⟨bs, rfl, hentries⟩ := equals_map_iff.mp h
    have hboth := (List.forall₂_and_left _ _).mpr ⟨ih, hentries⟩
    refine equals_map_iff.mpr ⟨entries, rfl, (hboth.imp fun a b hab => ?_).flip⟩
    exact ⟨hab.2.1.symm, hab.1 hab.2.2⟩

theorem forall₂_comp {α : Type} {R S T : α → α → Prop} {as bs cs : List α}
    (hcomp : ∀ a b c, R a b → S b c → T a c) (hab : List.Forall₂ R as bs)
    (hbc : List.Forall₂ S bs cs) : List.Forall₂ T as cs := by
  induction hab generalizing cs with
  | nil =>
    cases hbc
    exact .nil
  | cons hfirst _ ih =>
    cases hbc with
    | cons hsecond hrest => exact .cons (hcomp _ _ _ hfirst hsecond) (ih hrest)

theorem equals_trans {a : Raw} : ∀ {b c : Raw}, a.equals b = true → b.equals c = true →
    a.equals c = true := by
  induction a using Raw.induction with
  | null =>
    intro b c hab hbc
    rwa [equals_null_iff.mp hab] at hbc
  | bool value =>
    intro b c hab hbc
    rwa [equals_bool_iff.mp hab] at hbc
  | int value =>
    intro b c hab hbc
    rwa [equals_int_iff.mp hab] at hbc
  | string text =>
    intro b c hab hbc
    rwa [equals_string_iff.mp hab] at hbc
  | float x =>
    intro b c hab hbc
    obtain ⟨y, rfl, hxy⟩ := equals_float_iff.mp hab
    obtain ⟨z, rfl, hyz⟩ := equals_float_iff.mp hbc
    exact equals_float_iff.mpr ⟨z, rfl, Binary64.equals_trans hxy hyz⟩
  | list items ih =>
    intro b c hab hbc
    obtain ⟨bs, rfl, hitems⟩ := equals_list_iff.mp hab
    obtain ⟨cs, rfl, hothers⟩ := equals_list_iff.mp hbc
    have hboth := (List.forall₂_and_left _ _).mpr ⟨ih, hitems⟩
    refine equals_list_iff.mpr ⟨cs, rfl, forall₂_comp (fun a b c hab hbc => ?_) hboth hothers⟩
    exact hab.1 hab.2 hbc
  | map entries ih =>
    intro b c hab hbc
    obtain ⟨bs, rfl, hentries⟩ := equals_map_iff.mp hab
    obtain ⟨cs, rfl, hothers⟩ := equals_map_iff.mp hbc
    have hboth := (List.forall₂_and_left _ _).mpr ⟨ih, hentries⟩
    refine equals_map_iff.mpr ⟨cs, rfl, forall₂_comp (fun a b c hab hbc => ?_) hboth hothers⟩
    exact ⟨hab.2.1.trans hbc.1, hab.1 hab.2.2 hbc.2⟩

/-! ## Reflexivity -/

/-- No part of the value is a NaN. -/
def NaNFree (raw : Raw) : Prop := raw.Everywhere (IfFloat fun x => x.isNaN = false)

theorem nanFree_list {items : List Raw} :
    (list items).NaNFree ↔ ∀ item ∈ items, item.NaNFree :=
  everywhere_list

theorem nanFree_map {entries : Record} :
    (map entries).NaNFree ↔ ∀ entry ∈ entries, entry.2.NaNFree :=
  everywhere_map

theorem equals_self_iff {a : Raw} : a.equals a = true ↔ a.NaNFree := by
  induction a using Raw.induction with
  | null | bool _ | int _ | string _ => simp [equals, NaNFree, Everywhere, IfFloat]
  | float x => simp [equals, NaNFree, Everywhere, IfFloat, Binary64.equals_self]
  | list items ih =>
    rw [equals, equalItems_iff, EqualItems, List.forall₂_same, nanFree_list]
    exact forall₂_congr ih
  | map entries ih =>
    rw [equals, equalEntries_iff, EqualEntries, List.forall₂_same, nanFree_map]
    exact forall₂_congr fun entry hentry => (and_iff_right rfl).trans (ih entry hentry)

end Raw

end EntityModel
