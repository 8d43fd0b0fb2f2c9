import EntityModel.Proofs.Difference.Similarity

/-!
# Pruning and structural equality

Pruning and normalizing do not commute: a list of texts and nulls keeps its order, and without the
nulls it is a list of texts, which is sorted. Structural equality survives pruning nevertheless, as
lists that are not compared up to permutations are compared item by item, and both lose the same
items. For the same reason the two orders differ only by one more sorting.

* `Raw.pruneItems_eq`, `Raw.pruneEntries_eq`: pruning is a filter and then a map.
* `Raw.prune_prune`, `Raw.normalize_normalize`: doing either twice does no more than once.
* `Raw.structuralEq_prune`: structurally equal values are structurally equal after pruning.
* `Raw.normalize_prune_normalize`: the normal form after pruning, whichever comes first.
* `Record.mem_prune`, `Record.get?_prune`: the entries of a pruned record.
-/

namespace EntityModel

namespace Raw

theorem pruneItems_eq (items : List Raw) :
    pruneItems items = (items.filter fun item => !item.isNull).map prune := by
  induction items with
  | nil => rfl
  | cons item rest ih =>
    rw [pruneItems, List.filter_cons, ih]
    cases item.isNull <;> rfl

theorem pruneEntries_eq (entries : Record) :
    pruneEntries entries = Assoc.mapValues prune (entries.filter fun entry => !entry.2.isNull) := by
  induction entries with
  | nil => rfl
  | cons entry rest ih =>
    obtain ⟨key, value⟩ := entry
    rw [pruneEntries, List.filter_cons, ih]
    cases value.isNull <;> rfl

theorem isNull_iff {raw : Raw} : raw.isNull = true ↔ raw = .null := by
  cases raw <;> simp [isNull]

@[simp] theorem isNull_prune (raw : Raw) : raw.prune.isNull = raw.isNull := by
  cases raw <;> rfl

theorem prune_prune (raw : Raw) : raw.prune.prune = raw.prune := by
  induction raw using Raw.induction with
  | null | bool _ | int _ | float _ | string _ => rfl
  | list items ih =>
    have hkept : (pruneItems items).filter (fun item => !item.isNull) = pruneItems items := by
      rw [pruneItems_eq, List.filter_eq_self, List.forall_mem_map]
      intro item hitem
      rw [isNull_prune]
      exact (List.mem_filter.mp hitem).2
    rw [prune, prune, pruneItems_eq (pruneItems items), hkept, pruneItems_eq, List.map_map]
    refine congrArg Raw.list (List.map_congr_left fun item hitem => ?_)
    exact ih item (List.mem_of_mem_filter hitem)
  | map entries ih =>
    have hkept : (pruneEntries entries).filter (fun entry => !entry.2.isNull) =
        pruneEntries entries := by
      rw [pruneEntries_eq, List.filter_eq_self, Assoc.mapValues, List.forall_mem_map]
      intro entry hentry
      rw [isNull_prune]
      exact (List.mem_filter.mp hentry).2
    rw [prune, prune, pruneEntries_eq (pruneEntries entries), hkept, pruneEntries_eq,
      Assoc.mapValues, Assoc.mapValues, List.map_map]
    refine congrArg Raw.map (List.map_congr_left fun entry hentry => ?_)
    exact congrArg (entry.1, ·) (ih entry (List.mem_of_mem_filter hentry))

/-- A value that is not null keeps all scalars in it but the nulls. -/
theorem everywhere_prune {p : Raw → Prop} {raw : Raw} :
    (raw.isNull = false → raw.prune.Everywhere p) ↔
      raw.Everywhere fun scalar => scalar.isNull = false → p scalar := by
  induction raw using Raw.induction with
  | null | bool _ | int _ | float _ | string _ => rfl
  | list items ih =>
    refine (forall_prop_of_true rfl).trans ?_
    rw [prune, everywhere_list, everywhere_list, pruneItems_eq, List.forall_mem_map]
    simp only [List.mem_filter, Bool.not_eq_true', and_imp]
    exact forall₂_congr ih
  | map entries ih =>
    refine (forall_prop_of_true rfl).trans ?_
    rw [prune, everywhere_map, everywhere_map, pruneEntries_eq, Assoc.mapValues,
      List.forall_mem_map]
    simp only [List.mem_filter, Bool.not_eq_true', and_imp]
    exact forall₂_congr ih

/-! ## Structural equality -/

/-- Null is structurally equal to nothing else. -/
theorem isNull_congr {a b : Raw} (h : structuralEq a b = true) : a.isNull = b.isNull := by
  cases a <;> cases b <;> first | rfl | simp [structuralEq, normalize, equals] at h

theorem forall₂_prune_items {as bs : List Raw}
    (h : List.Forall₂ (fun a b => structuralEq a b = true) as bs)
    (hitems : ∀ a ∈ as, ∀ {b}, structuralEq a b = true →
      structuralEq a.prune b.prune = true) :
    List.Forall₂ (fun a b => structuralEq a b = true) (pruneItems as) (pruneItems bs) := by
  induction h with
  | nil => exact .nil
  | cons hfirst _ ih =>
    obtain ⟨hitem, hrest⟩ := List.forall_mem_cons.mp hitems
    rw [pruneItems, pruneItems, isNull_congr hfirst]
    split
    · exact ih hrest
    · exact .cons (hitem hfirst) (ih hrest)

theorem forall₂_prune_entries {as bs : Record}
    (h : List.Forall₂ (fun a b => a.1 = b.1 ∧ structuralEq a.2 b.2 = true) as bs)
    (hentries : ∀ a ∈ as, ∀ {b}, structuralEq a.2 b = true →
      structuralEq a.2.prune b.prune = true) :
    List.Forall₂ (fun a b => a.1 = b.1 ∧ structuralEq a.2 b.2 = true) (pruneEntries as)
      (pruneEntries bs) := by
  induction h with
  | nil => exact .nil
  | @cons first second _ _ hfirst _ ih =>
    obtain ⟨key, a⟩ := first
    obtain ⟨key', b⟩ := second
    obtain ⟨hentry, hrest⟩ := List.forall_mem_cons.mp hentries
    rw [pruneEntries, pruneEntries, isNull_congr hfirst.2]
    split
    · exact ih hrest
    · exact .cons ⟨hfirst.1, hentry hfirst.2⟩ (ih hrest)

/-- There is nothing to prune in lists of texts. -/
theorem pruneItems_texts (texts : List String) :
    pruneItems (texts.map .string) = texts.map .string := by
  induction texts with
  | nil => rfl
  | cons text rest ih =>
    rw [List.map_cons, pruneItems, ih]
    rfl

theorem prune_textList (texts : List String) : (textList texts).prune = textList texts := by
  rw [textList, prune, pruneItems_texts]

theorem pruneItems_textLists (lists : List (List String)) :
    pruneItems (lists.map textList) = lists.map textList := by
  induction lists with
  | nil => rfl
  | cons texts rest ih =>
    rw [List.map_cons, pruneItems, ih, prune_textList]
    rfl

theorem structuralEq_prune {a : Raw} :
    ∀ {b : Raw}, structuralEq a b = true → structuralEq a.prune b.prune = true := by
  induction a using Raw.induction with
  | null | bool _ | int _ | float _ | string _ =>
    intro b h
    cases b <;> exact h
  | list items ih =>
    intro b h
    cases b with
    | list others =>
      rw [prune, prune]
      rcases structuralEq_list_iff.mp h with hpairs | ⟨texts, texts', rfl, rfl, -⟩ |
        ⟨lists, lists', rfl, rfl, -⟩
      · exact structuralEq_list_iff.mpr (.inl (forall₂_prune_items hpairs ih))
      · rwa [pruneItems_texts, pruneItems_texts]
      · rwa [pruneItems_textLists, pruneItems_textLists]
    | _ => simp [structuralEq, normalize, equals] at h
  | map entries ih =>
    intro b h
    cases b with
    | map others =>
      have hpairs := structuralEq_map_iff.mp h
      exact structuralEq_map_iff.mpr (forall₂_prune_entries hpairs ih)
    | _ => simp [structuralEq, normalize, equals] at h

/-! ## Normal forms -/

@[simp] theorem isNull_normalize (raw : Raw) : raw.normalize.isNull = raw.isNull := by
  cases raw <;> rfl

theorem sortTexts_sortTexts (items : List Raw) : sortTexts (sortTexts items) = sortTexts items := by
  rcases list_kinds items with ⟨texts, rfl⟩ | ⟨lists, rfl⟩ | ⟨htexts, hlists⟩
  · have hsorted : sortedTexts (sortedTexts texts) = sortedTexts texts :=
      sortedTexts_eq_iff.mpr (List.mergeSort_perm texts textOrder)
    rw [sortTexts_texts, sortTexts_texts, hsorted]
  · have hperm := List.mergeSort_perm lists textListOrder
    rw [sortTexts_textLists, sortTexts_textLists, sortedTextLists_eq_iff.mpr hperm]
  · rw [sortTexts_mixed htexts hlists, sortTexts_mixed htexts hlists]

/-- A normal form is its own normal form. -/
theorem normalize_normalize (raw : Raw) : raw.normalize.normalize = raw.normalize := by
  induction raw using Raw.induction with
  | null | bool _ | int _ | float _ | string _ => rfl
  | list items ih =>
    have hparts : (sortTexts (items.map normalize)).map normalize =
        sortTexts (items.map normalize) := by
      refine (List.map_congr_left fun part hpart => ?_).trans (List.map_id' _)
      obtain ⟨item, hitem, rfl⟩ := List.mem_map.mp ((sortTexts_perm _).mem_iff.mp hpart)
      exact ih item hitem
    rw [normalize_list, normalize_list, hparts, sortTexts_sortTexts]
  | map entries ih =>
    rw [normalize_map, normalize_map, Assoc.mapValues, Assoc.mapValues, List.map_map]
    refine congrArg Raw.map (List.map_congr_left fun entry hentry => ?_)
    exact congrArg (entry.1, ·) (ih entry hentry)

theorem pruneItems_map_normalize {items : List Raw}
    (h : ∀ item ∈ items, item.normalize.prune.normalize = item.prune.normalize) :
    (pruneItems (items.map normalize)).map normalize = (pruneItems items).map normalize := by
  induction items with
  | nil => rfl
  | cons item rest ih =>
    obtain ⟨hitem, hrest⟩ := List.forall_mem_cons.mp h
    rw [List.map_cons, pruneItems, pruneItems, isNull_normalize]
    split
    · exact ih hrest
    · rw [List.map_cons, List.map_cons, hitem, ih hrest]

theorem pruneEntries_mapValues_normalize {entries : Record}
    (h : ∀ entry ∈ entries, entry.2.normalize.prune.normalize = entry.2.prune.normalize) :
    Assoc.mapValues normalize (pruneEntries (Assoc.mapValues normalize entries)) =
      Assoc.mapValues normalize (pruneEntries entries) := by
  induction entries with
  | nil => rfl
  | cons entry rest ih =>
    obtain ⟨key, value⟩ := entry
    obtain ⟨hvalue, hrest⟩ := List.forall_mem_cons.mp h
    rw [Assoc.mapValues_cons, pruneEntries, pruneEntries, isNull_normalize]
    split
    · exact ih hrest
    · rw [Assoc.mapValues_cons, Assoc.mapValues_cons, hvalue, ih hrest]

/-- What is pruned after normalizing need not be normal. Normalized again, it is the normal form of
what is pruned alone. -/
theorem normalize_prune_normalize (raw : Raw) :
    raw.normalize.prune.normalize = raw.prune.normalize := by
  induction raw using Raw.induction with
  | null | bool _ | int _ | float _ | string _ => rfl
  | list items ih =>
    rcases list_kinds items with ⟨texts, rfl⟩ | ⟨lists, rfl⟩ | ⟨htexts, hlists⟩
    · change (textList texts).normalize.prune.normalize = (textList texts).prune.normalize
      rw [prune_textList, normalize_textList, prune_textList, ← normalize_textList,
        normalize_normalize]
    · have hkept (others : List (List String)) :
          (Raw.list (others.map textList)).prune = .list (others.map textList) := by
        rw [prune, pruneItems_textLists]
      rw [hkept, normalize_textLists, hkept, ← normalize_textLists, normalize_normalize]
    · -- without sorting, the parts are pruned where they stand
      rw [normalize_mixed htexts hlists, prune, prune, normalize_list, normalize_list,
        pruneItems_map_normalize ih]
  | map entries ih =>
    rw [normalize_map, prune, prune, normalize_map, normalize_map,
      pruneEntries_mapValues_normalize ih]

/-- Structurally equal values are structurally equal after pruning. Pruning before or after
normalizing comes to the same normal form. -/
theorem prune_respects_structuralEq :
    (∀ a b : Raw, structuralEq a b = true → structuralEq a.prune b.prune = true) ∧
      ∀ raw : Raw, raw.normalize.prune.normalize = raw.prune.normalize :=
  ⟨fun _ _ => structuralEq_prune, normalize_prune_normalize⟩

/-- Groups of readers with a gap between them. -/
def gappedReaders (first second : List String) : Raw :=
  .list [textList first, .null, textList second]

/-- With the gap the groups keep their order, and the readers of each do not. Without it they are
sorted, so that what is pruned after normalizing is not in normal form. -/
theorem gappedReaders_structuralEq :
    structuralEq (gappedReaders ["eve"] ["bob", "ann"]) (gappedReaders ["eve"] ["ann", "bob"]) =
        true ∧
      structuralEq (gappedReaders ["eve"] ["ann"]) (gappedReaders ["ann"] ["eve"]) = false ∧
      structuralEq (gappedReaders ["eve"] ["bob", "ann"]).prune
        (gappedReaders ["eve"] ["ann", "bob"]).prune = true ∧
      (gappedReaders ["eve"] ["bob", "ann"]).normalize.prune =
        .list [textList ["eve"], textList ["ann", "bob"]] ∧
      (gappedReaders ["eve"] ["bob", "ann"]).normalize.prune.normalize =
        .list [textList ["ann", "bob"], textList ["eve"]] := by
  have hequal : structuralEq (gappedReaders ["eve"] ["bob", "ann"])
      (gappedReaders ["eve"] ["ann", "bob"]) = true := by cbv
  refine ⟨hequal, by cbv, prune_respects_structuralEq.1 _ _ hequal, by cbv, ?_⟩
  rw [prune_respects_structuralEq.2]
  cbv

end Raw

/-! ## Records -/

namespace Record

theorem prune_eq (record : Record) :
    record.prune = Assoc.mapValues Raw.prune (record.filter fun entry => !entry.2.isNull) :=
  Raw.pruneEntries_eq record

theorem mem_prune {record : Record} {key : String} {raw : Raw} :
    (key, raw) ∈ record.prune ↔
      ∃ whole, (key, whole) ∈ record ∧ whole.isNull = false ∧ raw = whole.prune := by
  rw [prune_eq, Assoc.mapValues, List.mem_map]
  constructor
  · rintro ⟨⟨name, whole⟩, hmem, heq⟩
    obtain ⟨hmem, hnull⟩ := List.mem_filter.mp hmem
    cases heq
    exact ⟨whole, hmem, by simpa using hnull, rfl⟩
  · rintro ⟨whole, hmem, hnull, rfl⟩
    exact ⟨(key, whole), List.mem_filter.mpr ⟨hmem, by simpa using hnull⟩, rfl⟩

theorem ascending_prune {record : Record} (h : Assoc.Ascending record) :
    Assoc.Ascending record.prune := by
  refine h.of_sublist ?_
  rw [prune_eq, Assoc.keys, Assoc.mapValues, List.map_map]
  exact List.filter_sublist.map Prod.fst

theorem get?_prune {record : Record} (h : Assoc.Ascending record) {key : String} {raw : Raw} :
    Assoc.get? record.prune key = some raw ↔
      ∃ whole, Assoc.get? record key = some whole ∧ whole.isNull = false ∧
        raw = whole.prune := by
  constructor
  · intro hget
    obtain ⟨whole, hmem, hwhole⟩ := mem_prune.mp (Assoc.mem_of_get? hget)
    exact ⟨whole, h.get?_of_mem hmem, hwhole⟩
  · rintro ⟨whole, hget, hwhole⟩
    exact (ascending_prune h).get?_of_mem
      (mem_prune.mpr ⟨whole, Assoc.mem_of_get? hget, hwhole⟩)

end Record

/-- Pruning keeps the order of keys at every depth. -/
theorem Raw.Ordered.prune {raw : Raw} (h : raw.Ordered) : raw.prune.Ordered := by
  induction raw using Raw.induction with
  | null | bool _ | int _ | float _ | string _ => trivial
  | list items ih =>
    rw [Raw.Ordered, Raw.itemsOrdered_iff] at h
    rw [Raw.prune, Raw.Ordered, Raw.itemsOrdered_iff, Raw.pruneItems_eq, List.forall_mem_map]
    intro item hitem
    have hmem := List.mem_of_mem_filter hitem
    exact ih item hmem (h item hmem)
  | map entries ih =>
    rw [Raw.Ordered, Raw.entriesOrdered_iff] at h
    rw [Raw.prune, Raw.Ordered, Raw.entriesOrdered_iff]
    refine ⟨Record.ascending_prune h.1, fun entry hentry => ?_⟩
    obtain ⟨whole, hmem, -, hwhole⟩ := Record.mem_prune.mp hentry
    rw [hwhole]
    exact ih _ hmem (h.2 _ hmem)

end EntityModel
