import EntityModel.Proofs.Value.Equality
import Mathlib.Data.Fintype.EquivFin
import Mathlib.Data.List.FinRange

/-!
# Sets as multisets

Two sets are equal if each item of the one is equal to an item of the other that belongs to it
alone: repetitions count, and the order does not. What the pairing of items looks for is stated here
in two more ways that say nothing of lists, as a bijection of positions and as a count of equals.

* `matched_iff_bijection`: matching is a bijection of positions that pairs equal items.
* `matched_iff_count`: matching is having as many equals of every value, for items that have equals.
* `set_equals_multiset`: what the pairing finds, and when two sets are equal.
-/

namespace EntityModel.Value

variable {as bs : List Value}

/-! ## Bijections -/

/-- A bijection of positions that pairs equal items. -/
def PairedOff (as bs : List Value) : Prop :=
  ∃ σ : Fin as.length ≃ Fin bs.length, ∀ i : Fin as.length, as[i].equals bs[σ i] = true

/-- A list in another order has its members at other positions. -/
theorem exists_equiv_of_perm {α : Type} {xs ys : List α} (h : xs.Perm ys) :
    ∃ σ : Fin xs.length ≃ Fin ys.length, ∀ i : Fin xs.length, xs[i] = ys[σ i] := by
  classical
  refine ⟨⟨h.idxBij, h.symm.idxBij, h.idxBij_symm_leftInverse_idxBij,
    h.idxBij_symm_rightInverse_idxBij⟩, fun i => ?_⟩
  exact (h.getElem_idxBij_eq_getElem i).symm

theorem perm_of_equiv {α : Type} {n : Nat} {ys : List α} (σ : Fin n ≃ Fin ys.length) :
    (List.ofFn fun i => ys[σ i]).Perm ys := by
  have hlength : n = ys.length := Fin.equiv_iff_eq.mp ⟨σ⟩
  subst hlength
  have hperm := Equiv.Perm.ofFn_comp_perm σ ys.get
  rwa [List.ofFn_get] at hperm

theorem matched_iff_bijection : Matched as bs ↔ PairedOff as bs := by
  constructor
  · rintro ⟨cs, hitems, hperm⟩
    obtain ⟨σ, hσ⟩ := exists_equiv_of_perm hperm
    refine ⟨(finCongr hitems.length_eq).trans σ, fun i => ?_⟩
    have hpair : as[i].equals cs[finCongr hitems.length_eq i] = true :=
      hitems.get i.isLt (hitems.length_eq ▸ i.isLt)
    rwa [hσ] at hpair
  · rintro ⟨σ, hσ⟩
    refine ⟨List.ofFn fun i => bs[σ i], ?_, perm_of_equiv σ⟩
    refine List.forall₂_iff_get.mpr ⟨by simp, fun i hi _ => ?_⟩
    simpa using hσ ⟨i, hi⟩

/-! ## Counts -/

/-- Equal values have the same equals. -/
theorem equals_congr_right {a b : Value} (h : a.equals b = true) (v : Value) :
    v.equals a = v.equals b := by
  rw [Bool.eq_iff_iff]
  exact ⟨fun hva => equals_trans hva h, fun hvb => equals_trans hvb (equals_symm h)⟩

theorem EqualItems.countP_eq (h : EqualItems as bs) (v : Value) :
    as.countP v.equals = bs.countP v.equals := by
  induction h with
  | nil => rfl
  | cons hab _ ih => rw [List.countP_cons, List.countP_cons, ih, equals_congr_right hab]

/-- What has an equal equals itself. -/
theorem Matched.nanFree (h : Matched as bs) : ∀ a ∈ as, a.NaNFree := by
  obtain ⟨cs, hitems, -⟩ := h
  have hself := hitems.imp fun a c hac =>
    And.intro (equals_self_iff.mp (equals_trans hac (equals_symm hac))) hac
  exact ((List.forall₂_and_left _ _).mp hself).1

/-- Without a NaN, every item is counted among its own equals, and the other list has to have an
equal of it. -/
theorem matched_of_count (has : ∀ a ∈ as, a.NaNFree) (hbs : ∀ b ∈ bs, b.NaNFree)
    (h : ∀ v : Value, as.countP v.equals = bs.countP v.equals) : Matched as bs := by
  induction as generalizing bs with
  | nil =>
    have hnil : bs = [] := by
      by_contra hne
      obtain ⟨b, rest, rfl⟩ := List.exists_cons_of_ne_nil hne
      have hcount := h b
      rw [List.countP_nil, List.countP_cons_of_pos (equals_self_iff.mpr (hbs b List.mem_cons_self))]
        at hcount
      omega
    rw [hnil]
    exact ⟨[], .nil, .refl _⟩
  | cons a as ih =>
    obtain ⟨ha, has⟩ := List.forall_mem_cons.mp has
    have hpos : 0 < bs.countP a.equals := by
      rw [← h a, List.countP_cons_of_pos (equals_self_iff.mpr ha)]
      omega
    obtain ⟨b, hb, hab⟩ := List.countP_pos_iff.mp hpos
    obtain ⟨before, after, rfl⟩ := List.append_of_mem hb
    have hfront : (before ++ b :: after).Perm (b :: (before ++ after)) := List.perm_middle
    have hrest : Matched as (before ++ after) := by
      refine ih has (fun c hc => hbs c (hfront.symm.subset (List.mem_cons_of_mem _ hc))) fun v => ?_
      have hcount := h v
      rw [hfront.countP_eq, List.countP_cons, List.countP_cons, equals_congr_right hab] at hcount
      omega
    obtain ⟨cs, hitems, hperm⟩ := hrest
    exact ⟨b :: cs, .cons hab hitems, (hperm.cons b).trans hfront.symm⟩

theorem matched_iff_count : Matched as bs ↔
    (∀ a ∈ as, a.NaNFree) ∧ (∀ b ∈ bs, b.NaNFree) ∧
    ∀ v : Value, as.countP v.equals = bs.countP v.equals := by
  constructor
  · intro h
    have hback : Matched bs as := h.symm fun a _ b _ => equals_symm
    refine ⟨h.nanFree, hback.nanFree, fun v => ?_⟩
    obtain ⟨cs, hitems, hperm⟩ := h
    rw [hitems.countP_eq, hperm.countP_eq]
  · rintro ⟨has, hbs, h⟩
    exact matched_of_count has hbs h

/-! ## Sets -/

/-- The greedy pairing finds a bijection whenever there is one. So two sets are equal just if their
element types are and their items are equal as multisets: by a bijection that pairs equal items, or
by having no items that equal nothing and as many equals of every value. -/
theorem set_equals_multiset (as bs : List Value) :
    ((as.length == bs.length && paired as bs) = true ↔ PairedOff as bs) ∧
    ∀ element element' : ValueType,
      ((Value.set element as).equals (.set element' bs) = true ↔
        element = element' ∧ PairedOff as bs) ∧
      ((Value.set element as).equals (.set element' bs) = true ↔
        element = element' ∧ (∀ a ∈ as, a.NaNFree) ∧ (∀ b ∈ bs, b.NaNFree) ∧
          ∀ v : Value, as.countP v.equals = bs.countP v.equals) := by
  have hset : ∀ element element' : ValueType, (Value.set element as).equals (.set element' bs) =
      true ↔ element = element' ∧ Matched as bs := by
    intro element element'
    rw [equals_set_iff fun a _ => lawful a]
    simp [eq_comm]
  refine ⟨?_, fun element element' => ⟨?_, ?_⟩⟩
  · rw [paired_iff_matched (passedOn_of_lawful fun a _ => lawful a), matched_iff_bijection]
  · rw [hset, matched_iff_bijection]
  · rw [hset, matched_iff_count]

end EntityModel.Value
