import EntityModel.Proofs.Difference.Equality
import Mathlib.Data.List.Perm.Basic
import Mathlib.Data.Set.List

/-!
# The normal form of structural equality

Which kind of list a list is, of texts, of lists of texts or of anything else, is neither changed by
normalizing nor by equality, so two lists are compared by the sorting of one kind. Both orders are
total, and two lists in order are equal if they are permutations of each other.

* `sortTexts_texts`, `sortTexts_textLists`, `sortTexts_mixed`: sorting, for each kind of list.
* `structuralEq_list_iff`, `structuralEq_map_iff`: structural equality of lists and of maps, in
  terms of structural equality of their parts.
-/

namespace EntityModel

namespace Raw

/-! ## The two orders -/

section

variable {α : Type} {order : α → α → Bool}

/-- Sorting by a linear order forgets exactly the order of the items. -/
theorem mergeSort_eq_iff_perm (htrans : ∀ a b c, order a b = true → order b c = true →
    order a c = true) (htotal : ∀ a b, (order a b || order b a) = true)
    (hantisymm : ∀ a b, order a b = true → order b a = true → a = b) {as bs : List α} :
    as.mergeSort order = bs.mergeSort order ↔ as.Perm bs := by
  have has := List.mergeSort_perm as order
  have hbs := List.mergeSort_perm bs order
  constructor
  · intro heq
    exact has.symm.trans (heq ▸ hbs)
  · intro hperm
    refine (has.trans (hperm.trans hbs.symm)).eq_of_pairwise (fun a b _ _ => hantisymm a b) ?_ ?_
    · exact List.pairwise_mergeSort htrans htotal as
    · exact List.pairwise_mergeSort htrans htotal bs

end

theorem textOrder_iff {a b : String} : textOrder a b = true ↔ a ≤ b := by
  rw [textOrder, decide_eq_true_eq]

/-- The normal form of a list of texts. -/
def sortedTexts (texts : List String) : List String := texts.mergeSort textOrder

theorem sortedTexts_eq_iff {as bs : List String} :
    sortedTexts as = sortedTexts bs ↔ as.Perm bs := by
  refine mergeSort_eq_iff_perm ?_ ?_ ?_
  · intro a b c hab hbc
    rw [textOrder_iff] at *
    exact String.le_trans hab hbc
  · intro a b
    rw [Bool.or_eq_true, textOrder_iff, textOrder_iff]
    exact String.le_total a b
  · intro a b hab hba
    rw [textOrder_iff] at *
    exact String.le_antisymm hab hba

theorem textListOrder_cons {a b : String} {as bs : List String} :
    textListOrder (a :: as) (b :: bs) = true ↔
      a < b ∨ a = b ∧ textListOrder as bs = true := by
  rw [textListOrder]
  by_cases heq : a = b
  · subst heq
    simp
  · simp [heq]

theorem textListOrder_trans : ∀ {as bs cs : List String}, textListOrder as bs = true →
    textListOrder bs cs = true → textListOrder as cs = true
  | [], _, _, _, _ => by rw [textListOrder]
  | _ :: _, [], _, hab, _ => by simp [textListOrder] at hab
  | _ :: _, _ :: _, [], _, hbc => by simp [textListOrder] at hbc
  | a :: as, b :: bs, c :: cs, hab, hbc => by
    rw [textListOrder_cons] at *
    rcases hab with hab | ⟨rfl, hab⟩
    · rcases hbc with hbc | ⟨rfl, -⟩
      · exact .inl (String.lt_trans hab hbc)
      · exact .inl hab
    · exact hbc.imp_right fun h => ⟨h.1, textListOrder_trans hab h.2⟩

theorem textListOrder_total : ∀ as bs : List String,
    textListOrder as bs = true ∨ textListOrder bs as = true
  | [], _ => .inl (by rw [textListOrder])
  | _ :: _, [] => .inr (by rw [textListOrder])
  | a :: as, b :: bs => by
    rw [textListOrder_cons, textListOrder_cons]
    rcases Std.lt_trichotomy a b with hlt | rfl | hlt
    · exact .inl (.inl hlt)
    · exact (textListOrder_total as bs).imp (fun h => .inr ⟨rfl, h⟩) fun h => .inr ⟨rfl, h⟩
    · exact .inr (.inl hlt)

theorem textListOrder_antisymm : ∀ {as bs : List String}, textListOrder as bs = true →
    textListOrder bs as = true → as = bs
  | [], [], _, _ => rfl
  | [], _ :: _, _, hba => by simp [textListOrder] at hba
  | _ :: _, [], hab, _ => by simp [textListOrder] at hab
  | a :: as, b :: bs, hab, hba => by
    rw [textListOrder_cons] at *
    rcases hab with hab | ⟨rfl, hab⟩
    · rcases hba with hba | ⟨rfl, -⟩
      · exact absurd (String.lt_trans hab hba) (String.lt_irrefl a)
      · exact absurd hab (String.lt_irrefl b)
    · rcases hba with hba | ⟨-, hba⟩
      · exact absurd hba (String.lt_irrefl a)
      · rw [textListOrder_antisymm hab hba]

theorem sortedTextLists_eq_iff {as bs : List (List String)} :
    as.mergeSort textListOrder = bs.mergeSort textListOrder ↔ as.Perm bs := by
  refine mergeSort_eq_iff_perm ?_ ?_ ?_
  · exact fun _ _ _ hab hbc => textListOrder_trans hab hbc
  · intro as bs
    rw [Bool.or_eq_true]
    exact textListOrder_total as bs
  · exact fun _ _ hab hba => textListOrder_antisymm hab hba

/-! ## Kinds of lists -/

def IsText : Raw → Prop
  | .string _ => True
  | _ => False

/-- A list of nothing but texts, possibly empty. -/
def IsTextList : Raw → Prop
  | .list items => ∀ item ∈ items, item.IsText
  | _ => False

def textList (texts : List String) : Raw := .list (texts.map .string)

/-- A list of parts that each are something is the list of what they are. -/
theorem exists_map_eq {α : Type} {make : α → Raw} {items : List Raw}
    (h : ∀ item ∈ items, ∃ part, item = make part) :
    ∃ parts, items = List.map make parts := by
  have hrange : items ∈ Set.range (List.map make) := by
    rw [Set.range_list_map]
    intro item hitem
    obtain ⟨part, rfl⟩ := h item hitem
    exact Set.mem_range_self part
  obtain ⟨parts, hparts⟩ := hrange
  exact ⟨parts, hparts.symm⟩

theorem IsText.exists_eq {raw : Raw} (h : raw.IsText) : ∃ text, raw = .string text := by
  cases raw with
  | string text => exact ⟨text, rfl⟩
  | _ => cases h

theorem forall_isText_iff {items : List Raw} :
    (∀ item ∈ items, item.IsText) ↔ ∃ texts, items = List.map .string texts := by
  constructor
  · exact fun h => exists_map_eq fun item hitem => (h item hitem).exists_eq
  · rintro ⟨texts, rfl⟩
    simp [IsText]

theorem IsTextList.exists_eq {raw : Raw} (h : raw.IsTextList) :
    ∃ texts, raw = textList texts := by
  cases raw with
  | list items =>
    obtain ⟨texts, rfl⟩ := forall_isText_iff.mp h
    exact ⟨texts, rfl⟩
  | _ => cases h

theorem isTextList_textList (texts : List String) : (textList texts).IsTextList :=
  forall_isText_iff.mpr ⟨texts, rfl⟩

theorem forall_isTextList_iff {items : List Raw} :
    (∀ item ∈ items, item.IsTextList) ↔ ∃ lists, items = List.map textList lists := by
  constructor
  · exact fun h => exists_map_eq fun item hitem => (h item hitem).exists_eq
  · rintro ⟨lists, rfl⟩
    simp [isTextList_textList]

theorem textList_injective {as bs : List String} (h : textList as = textList bs) : as = bs := by
  rw [textList, textList, Raw.list.injEq] at h
  exact List.map_injective_iff.mpr (fun _ _ heq => Raw.string.inj heq) h

theorem strings?_eq_some_iff {items : List Raw} {texts : List String} :
    strings? items = some texts ↔ items = texts.map .string := by
  induction items generalizing texts with
  | nil => cases texts <;> simp [strings?]
  | cons item rest ih =>
    cases item with
    | string text => cases texts <;> simp [strings?, ih, and_comm, @eq_comm _ text]
    | _ => cases texts <;> simp [strings?]

theorem stringLists?_eq_some_iff {items : List Raw} {lists : List (List String)} :
    stringLists? items = some lists ↔ items = lists.map textList := by
  induction items generalizing lists with
  | nil => cases lists <;> simp [stringLists?]
  | cons item rest ih =>
    cases item with
    | list texts =>
      simp only [stringLists?, Option.bind_eq_bind, Option.bind_eq_some_iff, strings?_eq_some_iff,
        ih, Option.pure_def, Option.some.injEq]
      cases lists with
      | nil => simp
      | cons first others => simp [textList]
    | _ => cases lists <;> simp [stringLists?, textList]

/-- The kinds of lists that sorting tells apart. -/
theorem list_kinds (items : List Raw) :
    (∃ texts, items = List.map .string texts) ∨ (∃ lists, items = List.map textList lists) ∨
      (¬ ∀ item ∈ items, item.IsText) ∧ ¬ ∀ item ∈ items, item.IsTextList := by
  rw [← forall_isText_iff, ← forall_isTextList_iff]
  by_cases htexts : ∀ item ∈ items, item.IsText
  · exact .inl htexts
  · by_cases hlists : ∀ item ∈ items, item.IsTextList
    · exact .inr (.inl hlists)
    · exact .inr (.inr ⟨htexts, hlists⟩)

/-! ## Sorting -/

theorem sortTexts_texts (texts : List String) :
    sortTexts (texts.map .string) = (sortedTexts texts).map .string := by
  rw [sortTexts, strings?_eq_some_iff.mpr rfl]
  rfl

theorem sortTexts_textLists (lists : List (List String)) :
    sortTexts (lists.map textList) = (lists.mergeSort textListOrder).map textList := by
  cases lists with
  | nil => simp [sortTexts, strings?]
  | cons texts rest =>
    rw [sortTexts, stringLists?_eq_some_iff.mpr rfl]
    rfl

theorem sortTexts_mixed {items : List Raw} (htexts : ¬ ∀ item ∈ items, item.IsText)
    (hlists : ¬ ∀ item ∈ items, item.IsTextList) : sortTexts items = items := by
  rw [sortTexts]
  cases hstrings : strings? items with
  | some texts =>
    have hitems := strings?_eq_some_iff.mp hstrings
    exact absurd (forall_isText_iff.mpr ⟨texts, hitems⟩) htexts
  | none =>
    cases hstringLists : stringLists? items with
    | some lists =>
      have hitems := stringLists?_eq_some_iff.mp hstringLists
      exact absurd (forall_isTextList_iff.mpr ⟨lists, hitems⟩) hlists
    | none => rfl

theorem sortTexts_perm (items : List Raw) : (sortTexts items).Perm items := by
  rcases list_kinds items with ⟨texts, rfl⟩ | ⟨lists, rfl⟩ | ⟨htexts, hlists⟩
  · rw [sortTexts_texts]
    exact (List.mergeSort_perm texts textOrder).map _
  · rw [sortTexts_textLists]
    exact (List.mergeSort_perm lists textListOrder).map _
  · rw [sortTexts_mixed htexts hlists]

/-! ## The normal form -/

theorem normalizeItems_eq_map (items : List Raw) : normalizeItems items = items.map normalize := by
  induction items with
  | nil => rfl
  | cons item rest ih => rw [normalizeItems, ih, List.map_cons]

theorem normalizeEntries_eq_mapValues (entries : Record) :
    normalizeEntries entries = Assoc.mapValues normalize entries := by
  induction entries with
  | nil => rfl
  | cons entry rest ih =>
    obtain ⟨key, value⟩ := entry
    rw [normalizeEntries, ih]
    rfl

theorem normalize_list (items : List Raw) :
    normalize (.list items) = .list (sortTexts (items.map normalize)) := by
  rw [normalize, normalizeItems_eq_map]

theorem normalize_map (entries : Record) :
    normalize (.map entries) = .map (Assoc.mapValues normalize entries) := by
  rw [normalize, normalizeEntries_eq_mapValues]

/-- The parts of a normalized list are its parts, normalized, in some order. -/
theorem forall_sortTexts_iff {P : Raw → Prop} {items : List Raw}
    (hnormal : ∀ item ∈ items, P (normalize item) ↔ P item) :
    (∀ item ∈ sortTexts (items.map normalize), P item) ↔ ∀ item ∈ items, P item := by
  simp only [(sortTexts_perm _).mem_iff, List.forall_mem_map]
  exact forall₂_congr hnormal

theorem isText_normalize {raw : Raw} : raw.normalize.IsText ↔ raw.IsText := by
  cases raw <;> simp [normalize, IsText]

theorem isTextList_normalize {raw : Raw} : raw.normalize.IsTextList ↔ raw.IsTextList := by
  cases raw with
  | list items =>
    rw [normalize_list, IsTextList, IsTextList]
    exact forall_sortTexts_iff fun item _ => isText_normalize
  | _ => simp [normalize, IsTextList]

theorem map_normalize_texts (texts : List String) :
    (texts.map .string).map normalize = texts.map .string := by
  rw [List.map_map]
  exact List.map_congr_left fun text _ => rfl

theorem normalize_textList (texts : List String) :
    normalize (textList texts) = textList (sortedTexts texts) := by
  rw [textList, normalize_list, map_normalize_texts, sortTexts_texts, textList]

theorem normalize_textLists (lists : List (List String)) :
    normalize (.list (lists.map textList)) =
      .list (((lists.map sortedTexts).mergeSort textListOrder).map textList) := by
  have hlists : (lists.map textList).map normalize = (lists.map sortedTexts).map textList := by
    rw [List.map_map, List.map_map]
    exact List.map_congr_left fun texts _ => normalize_textList texts
  rw [normalize_list, hlists, sortTexts_textLists]

theorem normalize_mixed {items : List Raw} (htexts : ¬ ∀ item ∈ items, item.IsText)
    (hlists : ¬ ∀ item ∈ items, item.IsTextList) :
    normalize (.list items) = .list (items.map normalize) := by
  rw [normalize_list, sortTexts_mixed]
  · simpa only [List.forall_mem_map, isText_normalize] using htexts
  · simpa only [List.forall_mem_map, isTextList_normalize] using hlists

/-! ## Equality and the kinds of lists -/

theorem EqualItems.forall_mem_iff {P : Raw → Prop}
    (hequals : ∀ {a b : Raw}, a.equals b = true → (P a ↔ P b)) {as bs : List Raw}
    (h : EqualItems as bs) : (∀ a ∈ as, P a) ↔ ∀ b ∈ bs, P b := by
  rw [EqualItems] at h
  induction h with
  | nil => simp
  | cons hfirst _ ih => rw [List.forall_mem_cons, List.forall_mem_cons, hequals hfirst, ih]

theorem isText_congr {a b : Raw} (h : a.equals b = true) : a.IsText ↔ b.IsText := by
  cases a <;> cases b <;> simp_all [equals, IsText]

theorem isTextList_congr {a b : Raw} (h : a.equals b = true) : a.IsTextList ↔ b.IsTextList := by
  cases a with
  | list items =>
    obtain ⟨others, rfl, hitems⟩ := equals_list_iff.mp h
    exact hitems.forall_mem_iff isText_congr
  | _ => cases b <;> simp_all [equals, IsTextList]

/-- Where equality of the parts is identity, so is equality of the lists. -/
theorem equalItems_map_iff {α : Type} {make : α → Raw}
    (hmake : ∀ part b, (make part).equals b = true ↔ b = make part) {parts : List α}
    {bs : List Raw} : EqualItems (parts.map make) bs ↔ bs = parts.map make := by
  induction parts generalizing bs with
  | nil => simp [EqualItems]
  | cons part rest ih =>
    simp only [EqualItems] at ih ⊢
    cases bs <;> simp [hmake, ih]

theorem equals_textList_iff {texts : List String} {b : Raw} :
    (textList texts).equals b = true ↔ b = textList texts := by
  have htexts (bs : List Raw) : EqualItems (texts.map .string) bs ↔ bs = texts.map .string :=
    equalItems_map_iff fun _ _ => equals_string_iff
  rw [textList, equals_list_iff]
  constructor
  · rintro ⟨bs, rfl, hbs⟩
    rw [(htexts bs).mp hbs]
  · rintro rfl
    exact ⟨_, rfl, (htexts _).mpr rfl⟩

/-- Equal lists are sorted alike: of texts, or of lists of texts, a list equals only itself. -/
theorem EqualItems.sortTexts {as bs : List Raw} (h : EqualItems as bs) :
    EqualItems (sortTexts as) (sortTexts bs) := by
  rcases list_kinds as with ⟨texts, rfl⟩ | ⟨lists, rfl⟩ | ⟨htexts, hlists⟩
  · rw [(equalItems_map_iff fun _ _ => equals_string_iff).mp h, sortTexts_texts]
    exact (equalItems_map_iff fun _ _ => equals_string_iff).mpr rfl
  · rw [(equalItems_map_iff fun _ _ => equals_textList_iff).mp h, sortTexts_textLists]
    exact (equalItems_map_iff fun _ _ => equals_textList_iff).mpr rfl
  · rw [sortTexts_mixed htexts hlists, sortTexts_mixed]
    · exact h
    · rwa [← h.forall_mem_iff isText_congr]
    · rwa [← h.forall_mem_iff isTextList_congr]

/-! ## Structural equality of lists and maps -/

theorem structuralEq_textList_iff {as bs : List String} :
    structuralEq (textList as) (textList bs) = true ↔ as.Perm bs := by
  rw [structuralEq, normalize_textList, normalize_textList, equals_textList_iff,
    ← sortedTexts_eq_iff]
  exact ⟨fun heq => (textList_injective heq).symm, fun heq => congrArg textList heq.symm⟩

/-- The permutation is found among the sorted lists and carried back to the lists themselves. -/
theorem structuralEq_textLists_iff {as bs : List (List String)} :
    structuralEq (.list (as.map textList)) (.list (bs.map textList)) = true ↔
      ∃ matched : List (List String), List.Forall₂ List.Perm as matched ∧
        matched.Perm bs := by
  have hmatched (matched : List (List String)) :
      as.map sortedTexts = matched.map sortedTexts ↔ List.Forall₂ List.Perm as matched := by
    rw [← List.forall₂_eq_eq_eq, List.forall₂_map_left_iff, List.forall₂_map_right_iff]
    simp only [sortedTexts_eq_iff]
  calc structuralEq (.list (as.map textList)) (.list (bs.map textList)) = true
    _ ↔ (as.map sortedTexts).mergeSort textListOrder =
        (bs.map sortedTexts).mergeSort textListOrder := by
      rw [structuralEq, normalize_textLists, normalize_textLists, equals, equalItems_iff,
        equalItems_map_iff fun _ _ => equals_textList_iff,
        List.map_inj_right fun _ _ => textList_injective, eq_comm]
    _ ↔ (as.map sortedTexts).Perm (bs.map sortedTexts) := sortedTextLists_eq_iff
    _ ↔ ∃ matched : List (List String),
        as.map sortedTexts = matched.map sortedTexts ∧ matched.Perm bs :=
      (iff_of_eq (congrFun₂ (List.eq_map_comp_perm sortedTexts) _ _)).symm
    _ ↔ ∃ matched : List (List String), List.Forall₂ List.Perm as matched ∧
      matched.Perm bs := by
      simp only [hmatched]

theorem forall_mem_iff_of_structuralEq {P : Raw → Prop}
    (hnormal : ∀ {raw : Raw}, P raw.normalize ↔ P raw)
    (hequals : ∀ {a b : Raw}, a.equals b = true → (P a ↔ P b)) {as bs : List Raw}
    (h : structuralEq (.list as) (.list bs) = true) :
    (∀ a ∈ as, P a) ↔ ∀ b ∈ bs, P b := by
  rw [structuralEq, normalize_list, normalize_list, equals, equalItems_iff] at h
  have hsorted := h.forall_mem_iff hequals
  rwa [forall_sortTexts_iff fun _ _ => hnormal, forall_sortTexts_iff fun _ _ => hnormal] at hsorted

theorem forall₂_structuralEq_iff {as bs : List Raw} :
    List.Forall₂ (fun a b => structuralEq a b = true) as bs ↔
      EqualItems (as.map normalize) (bs.map normalize) := by
  rw [EqualItems, List.forall₂_map_left_iff, List.forall₂_map_right_iff]
  rfl

/-- Besides item by item, lists are compared up to permutations only if both are of texts or both of
lists of texts. -/
theorem structuralEq_list_iff {as bs : List Raw} :
    structuralEq (.list as) (.list bs) = true ↔
      List.Forall₂ (fun a b => structuralEq a b = true) as bs ∨
      (∃ texts others : List String, as = texts.map .string ∧ bs = others.map .string ∧
        texts.Perm others) ∨
      ∃ lists others : List (List String), as = lists.map textList ∧
        bs = others.map textList ∧
        ∃ matched : List (List String), List.Forall₂ List.Perm lists matched ∧
          matched.Perm others := by
  constructor
  · intro h
    have htextIff := forall_mem_iff_of_structuralEq isText_normalize isText_congr h
    have hlistIff := forall_mem_iff_of_structuralEq isTextList_normalize isTextList_congr h
    rcases list_kinds as with ⟨texts, rfl⟩ | ⟨lists, rfl⟩ | ⟨htexts, hlists⟩
    · obtain ⟨others, rfl⟩ :=
        forall_isText_iff.mp (htextIff.mp (forall_isText_iff.mpr ⟨_, rfl⟩))
      exact .inr (.inl ⟨texts, others, rfl, rfl, structuralEq_textList_iff.mp h⟩)
    · obtain ⟨others, rfl⟩ :=
        forall_isTextList_iff.mp (hlistIff.mp (forall_isTextList_iff.mpr ⟨_, rfl⟩))
      exact .inr (.inr ⟨lists, others, rfl, rfl, structuralEq_textLists_iff.mp h⟩)
    · refine .inl (forall₂_structuralEq_iff.mpr ?_)
      rw [structuralEq, normalize_mixed htexts hlists, normalize_mixed, equals, equalItems_iff] at h
      · exact h
      · rwa [← htextIff]
      · rwa [← hlistIff]
  · rintro (h | ⟨texts, others, rfl, rfl, hperm⟩ | ⟨lists, others, rfl, rfl, hmatched⟩)
    · rw [structuralEq, normalize_list, normalize_list, equals, equalItems_iff]
      exact (forall₂_structuralEq_iff.mp h).sortTexts
    · exact structuralEq_textList_iff.mpr hperm
    · exact structuralEq_textLists_iff.mpr hmatched

theorem structuralEq_map_iff {as bs : Record} :
    structuralEq (.map as) (.map bs) = true ↔
      List.Forall₂ (fun a b => a.1 = b.1 ∧ structuralEq a.2 b.2 = true) as bs := by
  rw [structuralEq, normalize_map, normalize_map, equals, equalEntries_iff, EqualEntries,
    Assoc.mapValues, Assoc.mapValues, List.forall₂_map_left_iff, List.forall₂_map_right_iff]
  rfl

end Raw

end EntityModel
