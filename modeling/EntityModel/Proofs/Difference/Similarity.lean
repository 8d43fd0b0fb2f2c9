import EntityModel.Proofs.Difference.NormalForm

/-!
# Structural equality without normal forms

Structural equality compares normal forms. `Similar` says the same of the values themselves: lists
are alike item by item, and if they hold nothing but texts, or nothing but lists of texts, up to a
permutation.

* `Raw.Similar`: likeness up to the order of lists of texts.
* `similar_of_structuralEq`, `structuralEq_of_similar`: the two directions.
* `structuralEq_iff_similar`: structural equality is likeness, and what follows from that.
-/

namespace EntityModel

/-! ## Tables entry by entry -/

namespace Assoc

variable {α β : Type} {R : α → β → Prop}

theorem keys_eq_of_forall₂ {as : Assoc α} {bs : Assoc β}
    (h : List.Forall₂ (fun a b => a.1 = b.1 ∧ R a.2 b.2) as bs) : keys as = keys bs := by
  induction h with
  | nil => rfl
  | cons hfirst _ ih =>
    rw [keys, List.map_cons, hfirst.1, ← keys, ih]
    rfl

theorem get?_of_forall₂ {as : Assoc α} {bs : Assoc β}
    (h : List.Forall₂ (fun a b => a.1 = b.1 ∧ R a.2 b.2) as bs) {key : String} {a : α} {b : β}
    (ha : get? as key = some a) (hb : get? bs key = some b) : R a b := by
  induction h with
  | nil => cases ha
  | @cons first second _ _ hfirst _ ih =>
    obtain ⟨name, value⟩ := first
    obtain ⟨name', value'⟩ := second
    obtain ⟨rfl, hvalue⟩ : name = name' ∧ R value value' := hfirst
    rw [get?_cons] at ha hb
    by_cases hkey : key = name
    · rw [if_pos hkey, Option.some.injEq] at ha hb
      exact ha ▸ hb ▸ hvalue
    · rw [if_neg hkey] at ha hb
      exact ih ha hb

theorem forall₂_of_get? {as : Assoc α} {bs : Assoc β} (has : Ascending as)
    (hkeys : keys as = keys bs)
    (hvalues : ∀ key a b, get? as key = some a → get? bs key = some b → R a b) :
    List.Forall₂ (fun a b => a.1 = b.1 ∧ R a.2 b.2) as bs := by
  induction as generalizing bs with
  | nil =>
    rw [List.map_eq_nil_iff.mp hkeys.symm]
    exact .nil
  | cons first rest ih =>
    obtain ⟨name, a⟩ := first
    obtain ⟨⟨name', b⟩, others, rfl, hname, hothers⟩ := List.map_eq_cons_iff.mp hkeys.symm
    obtain rfl : name' = name := hname
    obtain ⟨hfirst, hrest⟩ := List.pairwise_cons.mp has
    refine .cons ⟨rfl, hvalues name' a b (if_pos rfl) (if_pos rfl)⟩ ?_
    refine ih hrest hothers.symm fun key value value' hvalue hvalue' => ?_
    -- A key of the rest is not the first one, so the whole tables hold the same under it.
    have hne : key ≠ name' := by
      rintro rfl
      exact String.lt_irrefl key (hfirst _ (mem_of_get? hvalue))
    refine hvalues key value value' ?_ ?_
    · rwa [get?_cons, if_neg hne]
    · rwa [get?_cons, if_neg hne]

end Assoc

namespace Raw

/-- Likeness up to the order of lists of texts and of lists of such lists. -/
inductive Similar : Raw → Raw → Prop
  | null : Similar .null .null
  | bool (value : Bool) : Similar (.bool value) (.bool value)
  | int (value : Int64) : Similar (.int value) (.int value)
  | float {x y : Binary64} (h : x.equals y = true) : Similar (.float x) (.float y)
  | string (text : String) : Similar (.string text) (.string text)
  | map {as bs : List (String × Raw)}
      (hkeys : ∀ key, key ∈ Assoc.keys as ↔ key ∈ Assoc.keys bs)
      (hvalues : ∀ key a b, Assoc.get? as key = some a → Assoc.get? bs key = some b →
        Similar a b) :
      Similar (.map as) (.map bs)
  | list {as bs : List Raw} (hlength : as.length = bs.length)
      (hitems : ∀ pair ∈ as.zip bs, Similar pair.1 pair.2) : Similar (.list as) (.list bs)
  | texts {as bs : List Raw} (has : ∀ a ∈ as, a.IsText) (hbs : ∀ b ∈ bs, b.IsText)
      (hperm : as.Perm bs) : Similar (.list as) (.list bs)
  | textLists {as bs matched : List Raw} (has : ∀ a ∈ as, a.IsTextList)
      (hbs : ∀ b ∈ bs, b.IsTextList) (hperm : matched.Perm bs)
      (hlength : as.length = matched.length)
      (hitems : ∀ pair ∈ as.zip matched, Similar pair.1 pair.2) : Similar (.list as) (.list bs)

theorem Similar.list_of_forall₂ {as bs : List Raw} (h : List.Forall₂ Similar as bs) :
    Similar (.list as) (.list bs) :=
  .list h.length_eq fun _ hpair => List.forall₂_zip h hpair

theorem Similar.textList {as bs : List String} (h : as.Perm bs) :
    Similar (textList as) (textList bs) :=
  .texts (isTextList_textList as) (isTextList_textList bs) (h.map _)

/-! ## The two directions -/

theorem similar_of_structuralEq_list {as bs : List Raw}
    (hitems : ∀ a ∈ as, ∀ {b}, structuralEq a b = true → Similar a b)
    (h : structuralEq (.list as) (.list bs) = true) : Similar (.list as) (.list bs) := by
  rcases structuralEq_list_iff.mp h with hpairs | ⟨texts, others, rfl, rfl, hperm⟩ |
    ⟨lists, others, rfl, rfl, matched, hmatched, hperm⟩
  · have hboth := (List.forall₂_and_left _ _).mpr ⟨hitems, hpairs⟩
    exact .list_of_forall₂ (hboth.imp fun a b hab => hab.1 hab.2)
  · exact .textList hperm
  · have hpairs : List.Forall₂ Similar (lists.map textList) (matched.map textList) := by
      rw [List.forall₂_map_left_iff, List.forall₂_map_right_iff]
      exact hmatched.imp fun _ _ => Similar.textList
    refine .textLists ?_ ?_ (hperm.map _) hpairs.length_eq fun _ => List.forall₂_zip hpairs
    · exact forall_isTextList_iff.mpr ⟨lists, rfl⟩
    · exact forall_isTextList_iff.mpr ⟨others, rfl⟩

theorem similar_of_structuralEq {a : Raw} :
    ∀ {b : Raw}, structuralEq a b = true → Similar a b := by
  induction a using Raw.induction with
  | null | bool _ | int _ | string _ | float _ =>
    intro b h
    cases b <;> simp_all [structuralEq, normalize, equals, Similar.null, Similar.bool, Similar.int,
      Similar.string, Similar.float]
  | list items ih =>
    intro b h
    cases b with
    | list others => exact similar_of_structuralEq_list ih h
    | _ => simp [structuralEq, normalize, equals] at h
  | map entries ih =>
    intro b h
    cases b with
    | map others =>
      have hboth := (List.forall₂_and_left _ _).mpr ⟨ih, structuralEq_map_iff.mp h⟩
      have hsimilar := hboth.imp fun a b hab => And.intro hab.2.1 (hab.1 hab.2.2)
      have hkeys := Assoc.keys_eq_of_forall₂ hsimilar
      refine .map (fun key => by rw [hkeys]) fun key a b ha hb => ?_
      exact Assoc.get?_of_forall₂ hsimilar ha hb
    | _ => simp [structuralEq, normalize, equals] at h

theorem IsTextList.ordered {raw : Raw} (h : raw.IsTextList) : raw.Ordered := by
  obtain ⟨texts, rfl⟩ := h.exists_eq
  rw [textList, Ordered, itemsOrdered_iff, List.forall_mem_map]
  exact fun text _ => trivial

theorem structuralEq_of_similar {a b : Raw} (h : Similar a b) :
    a.Ordered → b.Ordered → structuralEq a b = true := by
  induction h with
  | null | bool _ | int _ | string _ =>
    intro _ _
    simp [structuralEq, normalize, equals]
  | float h =>
    intro _ _
    simpa [structuralEq, normalize, equals] using h
  | map hkeys hvalues ih =>
    rintro ⟨has, hasValues⟩ ⟨hbs, hbsValues⟩
    rw [entriesOrdered_iff] at hasValues hbsValues
    have hsame := has.keys_ext hbs hkeys
    refine structuralEq_map_iff.mpr
      (Assoc.forall₂_of_get? (R := fun a b => structuralEq a b = true) has hsame ?_)
    intro key a b ha hb
    exact ih key a b ha hb (hasValues _ (Assoc.mem_of_get? ha)) (hbsValues _ (Assoc.mem_of_get? hb))
  | list hlength hitems ih =>
    intro has hbs
    rw [Ordered, itemsOrdered_iff] at has hbs
    refine structuralEq_list_iff.mpr
      (.inl (List.forall₂_iff_zip.mpr ⟨hlength, fun hpair => ?_⟩))
    exact ih _ hpair (has _ (List.of_mem_zip hpair).1) (hbs _ (List.of_mem_zip hpair).2)
  | texts has hbs hperm =>
    intro _ _
    obtain ⟨texts, rfl⟩ := forall_isText_iff.mp has
    obtain ⟨others, rfl⟩ := forall_isText_iff.mp hbs
    have hinj : Function.Injective Raw.string := fun _ _ heq => Raw.string.inj heq
    exact structuralEq_textList_iff.mpr ((List.map_perm_map_iff hinj).mp hperm)
  | @textLists as bs matched has hbs hperm hlength hitems ih =>
    intro _ _
    have hmatched : ∀ item ∈ matched, item.IsTextList := fun item hitem =>
      hbs item (hperm.mem_iff.mp hitem)
    obtain ⟨lists, rfl⟩ := forall_isTextList_iff.mp has
    obtain ⟨others, rfl⟩ := forall_isTextList_iff.mp hbs
    obtain ⟨between, rfl⟩ := forall_isTextList_iff.mp hmatched
    have hinj : Function.Injective textList := fun _ _ heq => textList_injective heq
    refine structuralEq_textLists_iff.mpr ⟨between, ?_, (List.map_perm_map_iff hinj).mp hperm⟩
    have hpairs : List.Forall₂ (fun a b => structuralEq a b = true) (lists.map textList)
        (between.map textList) := by
      refine List.forall₂_iff_zip.mpr ⟨hlength, fun hpair => ?_⟩
      obtain ⟨ha, hb⟩ := List.of_mem_zip hpair
      exact ih _ hpair (has _ ha).ordered (hmatched _ hb).ordered
    rw [List.forall₂_map_left_iff, List.forall₂_map_right_iff] at hpairs
    exact hpairs.imp fun _ _ => structuralEq_textList_iff.mp

/-! ## The laws of structural equality -/

/-- The normal form has the same scalars in it, if in another order. -/
theorem everywhere_normalize {p : Raw → Prop} {a : Raw} :
    a.normalize.Everywhere p ↔ a.Everywhere p := by
  induction a using Raw.induction with
  | null | bool _ | int _ | string _ | float _ => rfl
  | list items ih =>
    rw [normalize_list, everywhere_list, everywhere_list]
    exact forall_sortTexts_iff ih
  | map entries ih =>
    rw [normalize_map, everywhere_map, everywhere_map, Assoc.mapValues, List.forall_mem_map]
    exact forall₂_congr ih

end Raw

open Raw

/-- Structural equality is likeness up to the order of lists of texts. It is symmetric and
transitive, and a value is structurally equal to itself just if no part of it is a NaN. -/
theorem structuralEq_iff_similar :
    (∀ a b : Raw, a.Ordered → b.Ordered → (structuralEq a b = true ↔ Similar a b)) ∧
      (∀ a b : Raw, structuralEq a b = true → structuralEq b a = true) ∧
      (∀ a b c : Raw, structuralEq a b = true → structuralEq b c = true →
        structuralEq a c = true) ∧
      ∀ a : Raw, structuralEq a a = true ↔ a.NaNFree := by
  refine ⟨fun a b ha hb => ?_, fun _ _ => equals_symm, fun _ _ _ => equals_trans, fun a => ?_⟩
  · exact ⟨similar_of_structuralEq, fun h => structuralEq_of_similar h ha hb⟩
  · exact equals_self_iff.trans everywhere_normalize

/-- Groups of readers under a key. -/
def readers (groups : List (List String)) : Raw := .map [("readers", .list (groups.map textList))]

/-- Groups in another order, one of them with its readers in another order. -/
theorem readers_structuralEq :
    (readers [["ann", "bob"], ["eve"]]).Ordered ∧ (readers [["eve"], ["bob", "ann"]]).Ordered ∧
      structuralEq (readers [["ann", "bob"], ["eve"]])
        (readers [["eve"], ["bob", "ann"]]) = true ∧
      ¬ structuralEq (.list [.int 1, .int 2]) (.list [.int 2, .int 1]) = true := by
  have hordered (groups : List (List String)) : (readers groups).Ordered := by
    refine ⟨Assoc.ascending_singleton _, ?_, trivial⟩
    rw [Ordered, itemsOrdered_iff, List.forall_mem_map]
    exact fun texts _ => (isTextList_textList texts).ordered
  have hints (m n : Int64) : (Raw.list [.int m, .int n]).Ordered := ⟨trivial, trivial, trivial⟩
  refine ⟨hordered _, hordered _, ?_, ?_⟩
  · refine (structuralEq_iff_similar.1 _ _ (hordered _) (hordered _)).mpr ?_
    refine .map (fun _ => Iff.rfl) fun key a b ha hb => ?_
    have hperm := List.Perm.swap (textList ["eve"]) (textList ["bob", "ann"]) []
    simp only [Assoc.get?_cons, Assoc.get?_nil, Option.ite_none_right_eq_some,
      Option.some.injEq] at ha hb
    rw [← ha.2, ← hb.2]
    refine .textLists ?_ ?_ hperm rfl ?_
    · exact forall_isTextList_iff.mpr ⟨_, rfl⟩
    · exact forall_isTextList_iff.mpr ⟨_, rfl⟩
    · simp only [List.map_cons, List.map_nil, List.zip_cons_cons, List.zip_nil_right,
        List.forall_mem_cons]
      exact ⟨.textList (.swap _ _ _), .textList (.refl _), by simp⟩
  · rw [structuralEq_iff_similar.1 _ _ (hints 1 2) (hints 2 1)]
    intro h
    cases h with
    | list _ hitems =>
      have hfirst := hitems (.int 1, .int 2) (by simp)
      cases hfirst
    | texts has _ _ => exact has (.int 1) (by simp)
    | textLists has _ _ _ _ => exact has (.int 1) (by simp)

end EntityModel
