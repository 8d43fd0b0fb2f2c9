import EntityModel.Proofs.Difference.Equality
import EntityModel.Value.Equality
import Mathlib.Data.List.Perm.Basic

/-!
# Pairing the items of sets

`Value.paired` gives each item of a list the first equal item of another list that is still there,
and never goes back on a choice. `Matched` says without any order of choices what it looks for: the
second list can be arranged so that the two are equal item by item.

* `matched_of_paired`: what the choices lead to.
* `paired_of_matched`: the choices miss nothing, provided that equality can be passed on between
  the items (`PassedOn`).
* `paired_iff_matched`: both together, with the test for equal lengths.
* `Matched.symm`, `Matched.trans`: the laws of equality between the items give those of matching.
-/

namespace EntityModel.Value

variable {as bs : List Value}

/-- Equality item by item. -/
def EqualItems (as bs : List Value) : Prop := List.Forall₂ (fun a b => a.equals b = true) as bs

/-- Equality item by item after arranging the second list. -/
def Matched (as bs : List Value) : Prop := ∃ cs, EqualItems as cs ∧ cs.Perm bs

theorem Matched.length_eq (h : Matched as bs) : as.length = bs.length := by
  obtain ⟨cs, hitems, hperm⟩ := h
  exact hitems.length_eq.trans hperm.length_eq

theorem matched_of_paired (hlength : as.length = bs.length) (h : paired as bs = true) :
    Matched as bs := by
  induction as generalizing bs with
  | nil =>
    have hnil : bs = [] := List.eq_nil_of_length_eq_zero hlength.symm
    subst hnil
    exact ⟨[], .nil, .refl _⟩
  | cons a as ih =>
    rw [paired] at h
    split at h
    · next i hfind =>
      obtain ⟨hi, hequal, -⟩ := List.findIdx?_eq_some_iff_getElem.mp hfind
      have hlength' : as.length = (bs.eraseIdx i).length := by
        rw [List.length_eraseIdx_of_lt hi, ← hlength]
        rfl
      obtain ⟨cs, hitems, hperm⟩ := ih hlength' h
      have hfront : (bs[i] :: bs.eraseIdx i).Perm bs := List.getElem_cons_eraseIdx_perm hi
      exact ⟨bs[i] :: cs, .cons hequal hitems, (hperm.cons _).trans hfront⟩
    · cases h

/-! ## No choice is a mistake -/

/-- Two items of the first list with an equal in common have all equals in common, as far as the
second list goes. -/
def PassedOn (as bs : List Value) : Prop :=
  ∀ a ∈ as, ∀ a' ∈ as, ∀ b ∈ bs, ∀ c ∈ bs, a.equals b = true →
    a'.equals b = true → a.equals c = true → a'.equals c = true

theorem PassedOn.mono {as' bs' : List Value} (h : PassedOn as bs) (has : ∀ a ∈ as', a ∈ as)
    (hbs : ∀ b ∈ bs', b ∈ bs) : PassedOn as' bs' :=
  fun a ha a' ha' b hb c hc => h a (has a ha) a' (has a' ha') b (hbs b hb) c (hbs c hc)

/-- Another item may stand where every item that equals the old one equals it too. -/
theorem EqualItems.exchange {before after : List Value} {b c : Value}
    (h : EqualItems as (before ++ b :: after))
    (hpass : ∀ a ∈ as, a.equals b = true → a.equals c = true) :
    EqualItems as (before ++ c :: after) := by
  induction before generalizing as with
  | nil =>
    cases h with
    | cons hfirst hrest => exact .cons (hpass _ List.mem_cons_self hfirst) hrest
  | cons first before ih =>
    cases h with
    | cons hfirst hrest =>
      exact .cons hfirst (ih hrest fun a ha => hpass a (List.mem_cons_of_mem _ ha))

/-- Whichever equal `b` the first item takes away, the others can still be matched: the one that
was to have `b` takes what the first item was to have. -/
theorem Matched.of_cons {a b : Value} {rest : List Value} (hpass : PassedOn (a :: as) (b :: rest))
    (hab : a.equals b = true) (h : Matched (a :: as) (b :: rest)) : Matched as rest := by
  obtain ⟨cs, hitems, hperm⟩ := h
  cases hitems with
  | @cons _ c _ cs hac hitems =>
    have hb : b ∈ c :: cs := hperm.mem_iff.mpr List.mem_cons_self
    have hc : c ∈ b :: rest := hperm.mem_iff.mp List.mem_cons_self
    rcases List.mem_cons.mp hb with rfl | hb
    · exact ⟨cs, hitems, hperm.cons_inv⟩
    · obtain ⟨before, after, rfl⟩ := List.append_of_mem hb
      have hpass' : ∀ a' ∈ as, a'.equals b = true → a'.equals c = true := fun a' ha' ha'b =>
        hpass a List.mem_cons_self a' (List.mem_cons_of_mem _ ha') b List.mem_cons_self c hc
          hab ha'b hac
      have hswap : (b :: (before ++ c :: after)).Perm (c :: (before ++ b :: after)) := by
        have hfirst : (b :: (before ++ c :: after)).Perm (b :: c :: (before ++ after)) :=
          List.perm_middle.cons b
        have hlast : (c :: (before ++ b :: after)).Perm (c :: b :: (before ++ after)) :=
          List.perm_middle.cons c
        exact (hfirst.trans (.swap c b _)).trans hlast.symm
      exact ⟨before ++ c :: after, EqualItems.exchange hitems hpass',
        (hswap.trans hperm).cons_inv⟩

theorem paired_of_matched (hpass : PassedOn as bs) (h : Matched as bs) : paired as bs = true := by
  induction as generalizing bs with
  | nil => rw [paired]
  | cons a as ih =>
    obtain ⟨cs, hitems, hperm⟩ := h
    rw [paired]
    split
    · next i hfind =>
      obtain ⟨hi, hequal, -⟩ := List.findIdx?_eq_some_iff_getElem.mp hfind
      have hfront : (bs[i] :: bs.eraseIdx i).Perm bs := List.getElem_cons_eraseIdx_perm hi
      have hpass' : PassedOn (a :: as) (bs[i] :: bs.eraseIdx i) :=
        hpass.mono (fun _ h => h) fun _ h => hfront.subset h
      have hrest : Matched as (bs.eraseIdx i) :=
        Matched.of_cons hpass' hequal ⟨cs, hitems, hperm.trans hfront.symm⟩
      exact ih (hpass'.mono (fun _ => List.mem_cons_of_mem _) fun _ => List.mem_cons_of_mem _) hrest
    · next hfind =>
      -- the item that `a` is matched with is there to be found
      cases hitems with
      | @cons _ c _ _ hac _ =>
        have hmem : c ∈ bs := hperm.subset List.mem_cons_self
        have hnot := List.findIdx?_eq_none_iff.mp hfind c hmem
        rw [hac] at hnot
        cases hnot

theorem paired_iff_matched (hpass : PassedOn as bs) :
    (as.length == bs.length && paired as bs) = true ↔ Matched as bs := by
  rw [Bool.and_eq_true, beq_iff_eq]
  constructor
  · rintro ⟨hlength, h⟩
    exact matched_of_paired hlength h
  · intro h
    exact ⟨h.length_eq, paired_of_matched hpass h⟩

/-! ## Matching both ways -/

theorem Matched.symm (hsymm : ∀ a ∈ as, ∀ b ∈ bs, a.equals b = true → b.equals a = true)
    (h : Matched as bs) : Matched bs as := by
  obtain ⟨cs, hitems, hperm⟩ := h
  have hleft := (List.forall₂_and_left _ _).mpr ⟨hsymm, hitems⟩
  have hboth := (List.forall₂_and_left _ _).mpr ⟨fun c hc => hperm.subset hc, hleft.flip⟩
  have hflip : EqualItems cs as := hboth.imp fun c a hca => hca.2.1 c hca.1 hca.2.2
  exact List.perm_comp_forall₂ hperm.symm hflip

theorem Matched.trans {cs : List Value}
    (htrans : ∀ a ∈ as, ∀ b c, a.equals b = true → b.equals c = true → a.equals c = true)
    (hab : Matched as bs) (hbc : Matched bs cs) : Matched as cs := by
  obtain ⟨bs', hitems, hperm⟩ := hab
  obtain ⟨cs', hothers, hperm'⟩ := hbc
  obtain ⟨ds, hothers, hperm⟩ := List.perm_comp_forall₂ hperm hothers
  have hboth := (List.forall₂_and_left _ _).mpr ⟨htrans, hitems⟩
  refine ⟨ds, Raw.forall₂_comp (fun a b c hab hbc => ?_) hboth hothers, hperm.trans hperm'⟩
  exact hab.1 b c hab.2 hbc

end EntityModel.Value
