import EntityModel.Proofs.Difference.Nulls

/-!
# The leaves of a raw value

Read in order, a raw value is a sequence of leaves: scalars, and collections that have nothing in
them but nulls. Each leaf has a place, which tells the keys that lead to it and, in a list, how many
items stand before it. Nulls are no leaves and do not count, so pruning keeps the sequence as it is,
and a value without nulls below its root is what its leaves say.

* `Raw.NullFreeBelow`: no null stands below the root.
* `Raw.leaves`, `Raw.leaves_prune`: the leaves, which pruning keeps.
* `Raw.eq_of_leaves_eq`: of values without nulls below the root, no two have the same leaves.
* `Raw.prune_removes_nulls`: what pruning removes and what it keeps.
-/

namespace EntityModel.Raw

variable {raw a b : Raw}

/-! ## Nulls below the root -/

/-- No null stands in the value, unless it is null itself. -/
def NullFreeBelow (raw : Raw) : Prop := raw.isNull = false → raw.NullFree

theorem NullFree.nullFreeBelow (h : raw.NullFree) : raw.NullFreeBelow := fun _ => h

theorem nullFreeBelow_prune (raw : Raw) : raw.prune.NullFreeBelow := by
  intro hnull
  rw [isNull_prune] at hnull
  exact nullFree_prune hnull

theorem prune_eq_self_iff_nullFreeBelow : raw.prune = raw ↔ raw.NullFreeBelow := by
  rw [NullFreeBelow]
  cases hnull : raw.isNull with
  | true =>
    rw [isNull_iff.mp hnull]
    exact iff_of_true rfl nofun
  | false => rw [prune_eq_self_iff hnull, forall_prop_of_true rfl]

/-! ## Leaves -/

/-- A step from a collection to one of its parts: to the entry of a key, or to the item that has so
many items before it, not counting nulls. -/
inductive Step where
  | entry (key : String)
  | item (rank : Nat)
deriving DecidableEq, Repr

/-- A scalar or an empty collection, with the steps that lead to it. -/
structure Leaf where
  place : List Step
  value : Raw

/-- The leaves of a part as leaves of the collection. -/
def under (step : Step) (found : List Leaf) : List Leaf :=
  found.map fun leaf => ⟨step :: leaf.place, leaf.value⟩

/-- The leaves of a collection: those that are found in its parts, or else itself as an empty
one. -/
def orEmpty (empty : Raw) : List Leaf → List Leaf
  | [] => [⟨[], empty⟩]
  | found => found

mutual
/-- The leaves of a value in order. -/
def leaves : Raw → List Leaf
  | .null => []
  | .list items => orEmpty (.list []) (itemLeaves 0 items)
  | .map entries => orEmpty (.map []) (entryLeaves entries)
  | scalar => [⟨[], scalar⟩]

/-- The leaves of items behind a number of others; nulls are not counted. -/
def itemLeaves (rank : Nat) : List Raw → List Leaf
  | [] => []
  | item :: rest =>
    if item.isNull then itemLeaves rank rest
    else under (.item rank) (leaves item) ++ itemLeaves (rank + 1) rest

/-- The leaves of entries. -/
def entryLeaves : Record → List Leaf
  | [] => []
  | (key, value) :: rest => under (.entry key) (leaves value) ++ entryLeaves rest
end

/-! ## Pruning keeps the leaves -/

theorem itemLeaves_prune {items : List Raw}
    (h : ∀ item ∈ items, item.prune.leaves = item.leaves)
    (rank : Nat) : itemLeaves rank (pruneItems items) = itemLeaves rank items := by
  induction items generalizing rank with
  | nil => rfl
  | cons item rest ih =>
    obtain ⟨hitem, hrest⟩ := List.forall_mem_cons.mp h
    rw [pruneItems, itemLeaves]
    split
    · exact ih hrest rank
    · next hnull => rw [itemLeaves, isNull_prune, if_neg hnull, hitem, ih hrest]

theorem entryLeaves_prune {entries : Record}
    (h : ∀ entry ∈ entries, entry.2.prune.leaves = entry.2.leaves) :
    entryLeaves (pruneEntries entries) = entryLeaves entries := by
  induction entries with
  | nil => rfl
  | cons entry rest ih =>
    obtain ⟨key, value⟩ := entry
    obtain ⟨hvalue, hrest⟩ := List.forall_mem_cons.mp h
    rw [pruneEntries, entryLeaves]
    split
    · next hnull =>
      rw [isNull_iff.mp hnull, ih hrest, leaves]
      rfl
    · rw [entryLeaves, hvalue, ih hrest]

theorem leaves_prune (raw : Raw) : raw.prune.leaves = raw.leaves := by
  induction raw using Raw.induction with
  | null | bool _ | int _ | float _ | string _ => rfl
  | list items ih => rw [prune, leaves, leaves, itemLeaves_prune ih]
  | map entries ih => rw [prune, leaves, leaves, entryLeaves_prune ih]

/-! ## Parts of a collection

Items and entries are treated alike, as parts under the steps that lead to them. -/

/-- The leaves of parts. -/
def partLeaves (parts : List (Step × Raw)) : List Leaf :=
  parts.flatMap fun part => under part.1 part.2.leaves

/-- The items that are not null, numbered. -/
def itemParts (rank : Nat) : List Raw → List (Step × Raw)
  | [] => []
  | item :: rest =>
    if item.isNull then itemParts rank rest else (.item rank, item) :: itemParts (rank + 1) rest

def entryParts (entries : Record) : List (Step × Raw) :=
  entries.map fun entry => (.entry entry.1, entry.2)

theorem partLeaves_cons (step : Step) (part : Raw) (rest : List (Step × Raw)) :
    partLeaves ((step, part) :: rest) = under step part.leaves ++ partLeaves rest :=
  List.flatMap_cons

theorem itemLeaves_eq (rank : Nat) (items : List Raw) :
    itemLeaves rank items = partLeaves (itemParts rank items) := by
  induction items generalizing rank with
  | nil => rfl
  | cons item rest ih =>
    rw [itemLeaves, itemParts]
    split
    · exact ih rank
    · rw [partLeaves_cons, ih]

theorem entryLeaves_eq (entries : Record) :
    entryLeaves entries = partLeaves (entryParts entries) := by
  induction entries with
  | nil => rfl
  | cons entry rest ih =>
    obtain ⟨key, value⟩ := entry
    rw [entryLeaves, ih, entryParts, entryParts, List.map_cons, partLeaves_cons]

theorem step_of_mem_itemParts {rank : Nat} {items : List Raw} {part : Step × Raw}
    (h : part ∈ itemParts rank items) : ∃ n, rank ≤ n ∧ part.1 = .item n := by
  induction items generalizing rank with
  | nil => cases h
  | cons item rest ih =>
    rw [itemParts] at h
    split at h
    · exact ih h
    · rcases List.mem_cons.mp h with rfl | h
      · exact ⟨rank, Nat.le_refl rank, rfl⟩
      · obtain ⟨n, hn, hstep⟩ := ih h
        exact ⟨n, by omega, hstep⟩

/-- No two items have one number. -/
theorem itemParts_pairwise (rank : Nat) (items : List Raw) :
    (itemParts rank items).Pairwise fun a b => a.1 ≠ b.1 := by
  induction items generalizing rank with
  | nil => exact .nil
  | cons item rest ih =>
    rw [itemParts]
    split
    · exact ih rank
    · refine List.pairwise_cons.mpr ⟨fun part hpart => ?_, ih (rank + 1)⟩
      obtain ⟨n, hn, hstep⟩ := step_of_mem_itemParts hpart
      rw [hstep, Ne, Step.item.injEq]
      omega

theorem entryParts_pairwise {entries : Record} (h : Assoc.Ascending entries) :
    (entryParts entries).Pairwise fun a b => a.1 ≠ b.1 := by
  refine List.pairwise_map.mpr (h.imp fun hlt => ?_)
  rw [Ne, Step.entry.injEq]
  exact String.ne_of_lt hlt

theorem map_itemParts {items : List Raw} (h : ∀ item ∈ items, item.NullFree) (rank : Nat) :
    (itemParts rank items).map Prod.snd = items := by
  induction items generalizing rank with
  | nil => rfl
  | cons item rest ih =>
    obtain ⟨hitem, hrest⟩ := List.forall_mem_cons.mp h
    rw [itemParts, hitem.isNull_eq_false, if_neg Bool.false_ne_true, List.map_cons, ih hrest]

/-! ## The kind of a value -/

/-- The first step of a leaf is that to the part that it is of. -/
theorem step_of_mem_partLeaves {parts : List (Step × Raw)} {leaf : Leaf}
    (h : leaf ∈ partLeaves parts) : ∃ part ∈ parts, leaf.place.head? = some part.1 := by
  obtain ⟨part, hpart, h⟩ := List.mem_flatMap.mp h
  obtain ⟨inner, -, rfl⟩ := List.mem_map.mp h
  exact ⟨part, hpart, rfl⟩

theorem place_ne_nil {parts : List (Step × Raw)} {leaf : Leaf} (h : leaf ∈ partLeaves parts) :
    leaf.place ≠ [] := by
  obtain ⟨part, -, hhead⟩ := step_of_mem_partLeaves h
  intro hnil
  rw [hnil] at hhead
  cases hhead

/-- Of parts to which a step does not lead there is no leaf that begins with it. -/
theorem head?_ne_of_mem_partLeaves {step : Step} {parts : List (Step × Raw)}
    (hparts : ∀ part ∈ parts, step ≠ part.1) {leaf : Leaf} (h : leaf ∈ partLeaves parts) :
    leaf.place.head? ≠ some step := by
  obtain ⟨part, hpart, hhead⟩ := step_of_mem_partLeaves h
  rw [hhead, Ne, Option.some.injEq]
  exact (hparts part hpart).symm

theorem mem_orEmpty {empty : Raw} {found : List Leaf} {leaf : Leaf}
    (h : leaf ∈ orEmpty empty found) : leaf = ⟨[], empty⟩ ∨ leaf ∈ found := by
  cases found with
  | nil => exact .inl (List.mem_singleton.mp h)
  | cons => exact .inr h

/-- The kind of the values that a leaf can be of: the first step tells a list from a map, and where
there is none, the leaf is the value. -/
def Leaf.rootKind (leaf : Leaf) : Kind :=
  match leaf.place.head? with
  | none => leaf.value.kind
  | some (.item _) => .list
  | some (.entry _) => .map

theorem rootKind_of_mem_leaves {leaf : Leaf} (h : leaf ∈ raw.leaves) :
    leaf.rootKind = raw.kind := by
  cases raw with
  | null => cases h
  | bool _ | int _ | float _ | string _ =>
    rw [List.mem_singleton.mp h]
    rfl
  | list items =>
    rcases mem_orEmpty h with rfl | h
    · rfl
    · rw [itemLeaves_eq] at h
      obtain ⟨part, hpart, hhead⟩ := step_of_mem_partLeaves h
      obtain ⟨n, -, hstep⟩ := step_of_mem_itemParts hpart
      rw [Leaf.rootKind, hhead, hstep]
      rfl
  | map entries =>
    rcases mem_orEmpty h with rfl | h
    · rfl
    · rw [entryLeaves_eq] at h
      obtain ⟨part, hpart, hhead⟩ := step_of_mem_partLeaves h
      obtain ⟨entry, -, rfl⟩ := List.mem_map.mp hpart
      rw [Leaf.rootKind, hhead]
      rfl

/-- Only null has no leaves. -/
theorem leaves_eq_nil_iff : raw.leaves = [] ↔ raw.isNull = true := by
  have horEmpty (empty : Raw) (found : List Leaf) : orEmpty empty found ≠ [] := by
    cases found <;> exact List.cons_ne_nil _ _
  cases raw with
  | null => exact iff_of_true rfl rfl
  | bool _ | int _ | float _ | string _ =>
    exact iff_of_false (List.cons_ne_nil _ _) Bool.false_ne_true
  | list _ | map _ => exact iff_of_false (horEmpty _ _) Bool.false_ne_true

theorem kind_eq_of_leaves_eq (h : a.leaves = b.leaves) : a.kind = b.kind := by
  cases hleaves : a.leaves with
  | nil =>
    have ha := isNull_iff.mp (leaves_eq_nil_iff.mp hleaves)
    have hb := isNull_iff.mp (leaves_eq_nil_iff.mp (h.symm.trans hleaves))
    rw [ha, hb]
  | cons leaf rest =>
    have ha : leaf ∈ a.leaves := hleaves ▸ List.mem_cons_self
    rw [← rootKind_of_mem_leaves ha, ← rootKind_of_mem_leaves (h ▸ ha)]

/-! ## The leaves tell the value -/

theorem under_injective (step : Step) : Function.Injective (under step) := by
  refine List.map_injective_iff.mpr ?_
  rintro ⟨place, value⟩ ⟨other, value'⟩ h
  cases h
  rfl

/-- The leaves of a part can be told from those behind them, which begin with other steps. -/
theorem under_append_inj {step : Step} {first second rest others : List Leaf}
    (hrest : ∀ leaf ∈ rest, leaf.place.head? ≠ some step)
    (hothers : ∀ leaf ∈ others, leaf.place.head? ≠ some step)
    (h : under step first ++ rest = under step second ++ others) :
    first = second ∧ rest = others := by
  have hfilter : ∀ found behind : List Leaf,
      (∀ leaf ∈ behind, leaf.place.head? ≠ some step) →
        (under step found ++ behind).filter (fun leaf => leaf.place.head? = some step) =
          under step found := by
    intro found behind hbehind
    rw [List.filter_append, List.filter_eq_self.mpr, List.filter_eq_nil_iff.mpr, List.append_nil]
    · simpa using hbehind
    · simp [under]
  have hfirst : under step first = under step second := by
    rw [← hfilter first rest hrest, h, hfilter second others hothers]
  rw [hfirst] at h
  exact ⟨under_injective step hfirst, List.append_cancel_left h⟩

/-- The first of the leaves tells the step to the first part. -/
theorem firstStep_partLeaves {step : Step} {part : Raw} (h : part.isNull = false)
    (rest : List (Step × Raw)) :
    (partLeaves ((step, part) :: rest)).head?.bind (·.place.head?) = some step := by
  rw [partLeaves_cons]
  cases hleaves : part.leaves with
  | nil =>
    rw [leaves_eq_nil_iff, h] at hleaves
    cases hleaves
  | cons leaf others => rfl

/-- Parts that are not null are told apart by the first steps of their leaves. -/
theorem parts_eq_of_leaves_eq {as bs : List (Step × Raw)}
    (has : as.Pairwise fun a b => a.1 ≠ b.1)
    (hbs : bs.Pairwise fun a b => a.1 ≠ b.1) (hasNull : ∀ a ∈ as, a.2.isNull = false)
    (hbsNull : ∀ b ∈ bs, b.2.isNull = false)
    (hparts : ∀ a ∈ as, ∀ b ∈ bs, a.2.leaves = b.2.leaves → a.2 = b.2)
    (h : partLeaves as = partLeaves bs) : as = bs := by
  induction as generalizing bs with
  | nil =>
    cases bs with
    | nil => rfl
    | cons second bs =>
      have hstep := @firstStep_partLeaves second.1 _ (hbsNull second List.mem_cons_self) bs
      rw [← h] at hstep
      cases hstep
  | cons first as ih =>
    obtain ⟨step, a⟩ := first
    obtain ⟨ha, hasRest⟩ := List.forall_mem_cons.mp hasNull
    have hstep := @firstStep_partLeaves step a ha as
    cases bs with
    | nil =>
      rw [h] at hstep
      cases hstep
    | cons second bs =>
      obtain ⟨other, b⟩ := second
      obtain ⟨hb, hbsRest⟩ := List.forall_mem_cons.mp hbsNull
      rw [h, firstStep_partLeaves hb, Option.some.injEq] at hstep
      subst hstep
      obtain ⟨hfirst, has⟩ := List.pairwise_cons.mp has
      obtain ⟨hsecond, hbs⟩ := List.pairwise_cons.mp hbs
      rw [partLeaves_cons, partLeaves_cons] at h
      obtain ⟨hleaves, hrest⟩ := under_append_inj (fun _ => head?_ne_of_mem_partLeaves hfirst)
        (fun _ => head?_ne_of_mem_partLeaves hsecond) h
      have hvalue : a = b := hparts _ List.mem_cons_self _ List.mem_cons_self hleaves
      have htail : as = bs := ih has hbs hasRest hbsRest (fun a ha b hb =>
        hparts a (List.mem_cons_of_mem _ ha) b (List.mem_cons_of_mem _ hb)) hrest
      rw [hvalue, htail]

/-- A collection with nothing in it is not taken for one of its parts. -/
theorem orEmpty_inj {empty : Raw} {found others : List Leaf}
    (hfound : ∀ leaf ∈ found, leaf.place ≠ [])
    (hothers : ∀ leaf ∈ others, leaf.place ≠ [])
    (h : orEmpty empty found = orEmpty empty others) : found = others := by
  cases found with
  | nil =>
    cases others with
    | nil => rfl
    | cons leaf rest =>
      cases h
      exact absurd rfl (hothers _ List.mem_cons_self)
  | cons leaf rest =>
    cases others with
    | nil =>
      cases h
      exact absurd rfl (hfound _ List.mem_cons_self)
    | cons other more => exact h

theorem items_eq_of_leaves_eq {as bs : List Raw} (has : ∀ a ∈ as, a.NullFree)
    (hbs : ∀ b ∈ bs, b.NullFree)
    (hparts : ∀ a ∈ as, ∀ b ∈ bs, a.leaves = b.leaves → a = b)
    (h : (Raw.list as).leaves = (Raw.list bs).leaves) : as = bs := by
  rw [leaves, leaves, itemLeaves_eq, itemLeaves_eq] at h
  have hmem : ∀ {items : List Raw}, (∀ item ∈ items, item.NullFree) →
      ∀ part ∈ itemParts 0 items, part.2 ∈ items := by
    intro items hitems part hpart
    rw [← map_itemParts hitems 0]
    exact List.mem_map_of_mem hpart
  have hsame : itemParts 0 as = itemParts 0 bs := by
    refine parts_eq_of_leaves_eq (itemParts_pairwise 0 as) (itemParts_pairwise 0 bs) ?_ ?_ ?_
      (orEmpty_inj (fun _ => place_ne_nil) (fun _ => place_ne_nil) h)
    · exact fun a ha => (has a.2 (hmem has a ha)).isNull_eq_false
    · exact fun b hb => (hbs b.2 (hmem hbs b hb)).isNull_eq_false
    · exact fun a ha b hb => hparts a.2 (hmem has a ha) b.2 (hmem hbs b hb)
  rw [← map_itemParts has 0, hsame, map_itemParts hbs 0]

theorem entries_eq_of_leaves_eq {as bs : Record} (hascending : Assoc.Ascending as)
    (hascending' : Assoc.Ascending bs) (has : ∀ a ∈ as, a.2.NullFree)
    (hbs : ∀ b ∈ bs, b.2.NullFree)
    (hparts : ∀ a ∈ as, ∀ b ∈ bs, a.2.leaves = b.2.leaves → a.2 = b.2)
    (h : (Raw.map as).leaves = (Raw.map bs).leaves) : as = bs := by
  rw [leaves, leaves, entryLeaves_eq, entryLeaves_eq] at h
  have hsame : entryParts as = entryParts bs := by
    refine parts_eq_of_leaves_eq (entryParts_pairwise hascending)
      (entryParts_pairwise hascending') ?_ ?_ ?_
      (orEmpty_inj (fun _ => place_ne_nil) (fun _ => place_ne_nil) h)
    · exact List.forall_mem_map.mpr fun a ha => (has a ha).isNull_eq_false
    · exact List.forall_mem_map.mpr fun b hb => (hbs b hb).isNull_eq_false
    · exact List.forall_mem_map.mpr fun a ha => List.forall_mem_map.mpr fun b hb =>
        hparts a ha b hb
  refine List.map_injective_iff.mpr ?_ hsame
  rintro ⟨key, value⟩ ⟨other, value'⟩ heq
  cases heq
  rfl

/-- Of values without nulls below the root no two have the same leaves. -/
theorem eq_of_leaves_eq (ha : a.Ordered) (hb : b.Ordered) (haNull : a.NullFreeBelow)
    (hbNull : b.NullFreeBelow) (h : a.leaves = b.leaves) : a = b := by
  have hkind : a.kind = b.kind := kind_eq_of_leaves_eq h
  induction a using Raw.induction generalizing b with
  | null | bool _ | int _ | float _ | string _ =>
    cases b <;> cases hkind
    cases h
    rfl
  | list items ih =>
    cases b with
    | list others =>
      rw [Ordered, itemsOrdered_iff] at ha hb
      have haNull := nullFree_list.mp (haNull rfl)
      have hbNull := nullFree_list.mp (hbNull rfl)
      refine congrArg Raw.list (items_eq_of_leaves_eq haNull hbNull ?_ h)
      intro item hitem other hother heq
      exact ih item hitem (ha item hitem) (hb other hother) (haNull item hitem).nullFreeBelow
        (hbNull other hother).nullFreeBelow heq (kind_eq_of_leaves_eq heq)
    | _ => cases hkind
  | map entries ih =>
    cases b with
    | map others =>
      rw [Ordered, entriesOrdered_iff] at ha hb
      have haNull := nullFree_map.mp (haNull rfl)
      have hbNull := nullFree_map.mp (hbNull rfl)
      refine congrArg Raw.map (entries_eq_of_leaves_eq ha.1 hb.1 haNull hbNull ?_ h)
      intro entry hentry other hother heq
      exact ih entry hentry (ha.2 entry hentry) (hb.2 other hother)
        (haNull entry hentry).nullFreeBelow (hbNull other hother).nullFreeBelow heq
        (kind_eq_of_leaves_eq heq)
    | _ => cases hkind

/-! ## What pruning removes -/

/-- Pruning leaves no null below the root, nor does it make one of the root; it changes nothing just
if there are no nulls below the root, hence nothing the second time. It keeps the leaves in their
order and under their keys, and it makes the only value of them that has no nulls below the root. -/
theorem prune_removes_nulls (raw : Raw) :
    raw.prune.NullFreeBelow ∧ (raw.prune = .null ↔ raw = .null) ∧
      (raw.prune = raw ↔ raw.NullFreeBelow) ∧ raw.prune.prune = raw.prune ∧
      raw.prune.leaves = raw.leaves ∧
      (raw.Ordered → ∀ other : Raw, other.Ordered → other.NullFreeBelow →
        other.leaves = raw.leaves → other = raw.prune) := by
  refine ⟨nullFreeBelow_prune raw, ?_, prune_eq_self_iff_nullFreeBelow, prune_prune raw,
    leaves_prune raw, fun hraw other hother hnull hleaves => ?_⟩
  · rw [← isNull_iff, isNull_prune, isNull_iff]
  · exact eq_of_leaves_eq hother hraw.prune hnull (nullFreeBelow_prune raw)
      (hleaves.trans (leaves_prune raw).symm)

/-- A draft of a job with gaps in it. -/
def jobDraft : Raw :=
  .map [("env", .map [("HOME", .null)]), ("owner", .null),
    ("steps", .list [.null, .string "pull", .list [], .null, .list [.null, .int 3]])]

/-- The job without the gaps. -/
def jobPruned : Raw :=
  .map [("env", .map []), ("steps", .list [.string "pull", .list [], .list [.int 3]])]

/-- The leaves of both: an emptied collection, a text, an empty collection and a number. -/
def jobLeaves : List Leaf :=
  [⟨[.entry "env"], .map []⟩, ⟨[.entry "steps", .item 0], .string "pull"⟩,
    ⟨[.entry "steps", .item 1], .list []⟩, ⟨[.entry "steps", .item 2, .item 0], .int 3⟩]

theorem jobDraft_pruned :
    jobDraft.Ordered ∧ jobPruned.Ordered ∧ jobPruned.NullFreeBelow ∧
      jobDraft.leaves = jobLeaves ∧ jobPruned.leaves = jobLeaves ∧
        jobPruned = jobDraft.prune := by
  have hdraft : jobDraft.Ordered := by
    refine ⟨by decide, ?_⟩
    simp [EntriesOrdered, ItemsOrdered, Ordered]
  have hpruned : jobPruned.Ordered := by
    refine ⟨by decide, ?_⟩
    simp [EntriesOrdered, ItemsOrdered, Ordered, Assoc.Ascending]
  have hnull : jobPruned.NullFreeBelow := by
    simp [jobPruned, NullFreeBelow, NullFree, Everywhere, EntriesEverywhere, ItemsEverywhere,
      isNull]
  obtain ⟨-, -, -, -, -, honly⟩ := prune_removes_nulls jobDraft
  exact ⟨hdraft, hpruned, hnull, rfl, rfl, honly hdraft jobPruned hpruned hnull rfl⟩

end EntityModel.Raw
