import EntityModel.Proofs.Value.Pairing

/-!
# Equality of values as a relation

`Value.equals` is a partial equivalence: the one law that it lacks is that every value equals
itself, and it lacks this law for values with a NaN in them only. Nothing is assumed of the values;
their parts need not have the types that they declare.

Sets are what makes this more than a check by constructors. Whether the greedy choices of `paired`
succeed depends on symmetry and transitivity between the items, and each of the two laws for a set
needs to know what the choices lead to. So both are proved in one induction (`lawful`).

* `Value.induction`: induction on values, with a hypothesis for every item and every entry.
* `Value.type_eq_of_equals`: equal values have one type.
* `Value.equals_symm`, `Value.equals_trans`, `Value.equals_self_iff`: the laws.
-/

namespace EntityModel.Value

/-! ## Induction -/

section

variable {motive : Value → Prop} (null : ∀ type, motive (.null type))
  (unknown : ∀ type, motive (.unknown type)) (string : ∀ value, motive (.string value))
  (int64 : ∀ value, motive (.int64 value)) (float64 : ∀ value, motive (.float64 value))
  (bool : ∀ value, motive (.bool value))
  (list : ∀ element items, (∀ item ∈ items, motive item) → motive (.list element items))
  (set : ∀ element items, (∀ item ∈ items, motive item) → motive (.set element items))
  (map : ∀ element (entries : ValueTable), (∀ entry ∈ entries, motive entry.2) →
    motive (.map element entries))
  (object : ∀ fields (attributes : ValueTable), (∀ entry ∈ attributes, motive entry.2) →
    motive (.object fields attributes))

include null unknown string int64 float64 bool list set map object

@[elab_as_elim]
theorem induction (value : Value) : motive value := by
  cases value with
  | null type => exact null type
  | unknown type => exact unknown type
  | string value => exact string value
  | int64 value => exact int64 value
  | float64 value => exact float64 value
  | bool value => exact bool value
  | list element items => exact list element items fun item _ => induction item
  | set element items => exact set element items fun item _ => induction item
  | map element entries =>
    refine map element entries fun entry hmem => ?_
    have := Assoc.sizeOf_lt_of_mem hmem
    exact induction entry.2
  | object fields attributes =>
    refine object fields attributes fun entry hmem => ?_
    have := Assoc.sizeOf_lt_of_mem hmem
    exact induction entry.2

end

/-! ## What equals a value of each constructor -/

section

variable {b : Value} {element : ValueType} {fields : List (String × ValueType)}

theorem equals_null_iff {type : ValueType} : equals (.null type) b = true ↔ b = .null type := by
  cases b <;> simp [equals, @eq_comm _ type]

theorem equals_unknown_iff {type : ValueType} :
    equals (.unknown type) b = true ↔ b = .unknown type := by
  cases b <;> simp [equals, @eq_comm _ type]

theorem equals_string_iff {text : String} :
    equals (.string text) b = true ↔ b = .string text := by
  cases b <;> simp [equals, @eq_comm _ text]

theorem equals_int64_iff {n : Int64} : equals (.int64 n) b = true ↔ b = .int64 n := by
  cases b <;> simp [equals, @eq_comm _ n]

theorem equals_bool_iff {flag : Bool} : equals (.bool flag) b = true ↔ b = .bool flag := by
  cases b <;> simp [equals, @eq_comm _ flag]

theorem equals_float64_iff {x : Binary64} :
    equals (.float64 x) b = true ↔ ∃ y, b = .float64 y ∧ x.equals y = true := by
  cases b <;> simp [equals]

/-- Equality entry by entry, under the same keys. -/
def EqualTables (as bs : ValueTable) : Prop :=
  List.Forall₂ (fun a b => a.1 = b.1 ∧ a.2.equals b.2 = true) as bs

theorem equalItems_iff {as bs : List Value} : equalItems as bs = true ↔ EqualItems as bs := by
  rw [EqualItems]
  induction as generalizing bs with
  | nil => cases bs <;> simp [equalItems]
  | cons a as ih => cases bs <;> simp [equalItems, ih]

theorem equalTables_iff {as bs : ValueTable} : equalTables as bs = true ↔ EqualTables as bs := by
  rw [EqualTables]
  induction as generalizing bs with
  | nil => cases bs <;> simp [equalTables]
  | cons entry as ih =>
    rcases bs with _ | ⟨other, bs⟩
    · simp [equalTables]
    · obtain ⟨key, a⟩ := entry
      obtain ⟨key', b⟩ := other
      simp [equalTables, ih]

theorem equals_list_iff {as : List Value} :
    equals (.list element as) b = true ↔ ∃ bs, b = .list element bs ∧ EqualItems as bs := by
  cases b <;> simp [equals, equalItems_iff, @eq_comm _ element]

theorem equals_map_iff {as : ValueTable} :
    equals (.map element as) b = true ↔ ∃ bs, b = .map element bs ∧ EqualTables as bs := by
  cases b <;> simp [equals, equalTables_iff, @eq_comm _ element]

theorem equals_object_iff {as : ValueTable} :
    equals (.object fields as) b = true ↔
      ∃ bs, b = .object fields bs ∧ EqualTables as bs := by
  cases b <;> simp [equals, equalTables_iff, @eq_comm _ fields]

theorem equals_set_pairs {as : List Value} :
    equals (.set element as) b = true ↔
      ∃ bs, b = .set element bs ∧ (as.length == bs.length && paired as bs) = true := by
  cases b <;> simp [equals, and_assoc, @eq_comm _ element]

end

/-! ## What equal values have in common -/

theorem type_eq_of_equals {a b : Value} (h : a.equals b = true) : a.type = b.type := by
  cases a <;> cases b <;> simp_all [equals, type]

theorem isKnown_congr {a b : Value} (h : a.equals b = true) : a.isKnown = b.isKnown := by
  cases a <;> cases b <;> first | rfl | simp [equals] at h

theorem isUnknown_congr {a b : Value} (h : a.equals b = true) : a.isUnknown = b.isUnknown := by
  cases a <;> cases b <;> first | rfl | simp [equals] at h

/-! ## Symmetry and transitivity -/

/-- Equality with a value is symmetric, and transitive from the value on. -/
structure Lawful (a : Value) : Prop where
  comm : ∀ b, a.equals b = b.equals a
  trans : ∀ b c, a.equals b = true → b.equals c = true → a.equals c = true

section

variable {as bs : List Value}

theorem passedOn_of_lawful (h : ∀ a ∈ as, a.Lawful) : PassedOn as bs := by
  intro a ha a' ha' b _ c _ hab ha'b hac
  have hba : b.equals a = true := (h a ha).comm b ▸ hab
  have ha'a : a'.equals a = true := (h a' ha').trans b a ha'b hba
  exact (h a' ha').trans a c ha'a hac

/-- The laws need to hold for the items of one list only, whichever of the two leads. -/
theorem passedOn_of_lawful_right (h : ∀ a ∈ as, a.Lawful) : PassedOn bs as := by
  intro b _ b' _ a ha c hc hba hb'a hbc
  have hab' : a.equals b' = true := ((h a ha).comm b').trans hb'a
  have hcb : c.equals b = true := ((h c hc).comm b).trans hbc
  have hca : c.equals a = true := (h c hc).trans b a hcb hba
  have hcb' : c.equals b' = true := (h c hc).trans a b' hca hab'
  exact ((h c hc).comm b').symm.trans hcb'

theorem equalItems_comm (h : ∀ a ∈ as, a.Lawful) : equalItems as bs = equalItems bs as := by
  induction as generalizing bs with
  | nil => cases bs <;> simp [equalItems]
  | cons a as ih =>
    obtain ⟨ha, has⟩ := List.forall_mem_cons.mp h
    cases bs with
    | nil => simp [equalItems]
    | cons b bs => rw [equalItems, equalItems, ha.comm b, ih has]

theorem equalTables_comm {as bs : ValueTable} (h : ∀ entry ∈ as, entry.2.Lawful) :
    equalTables as bs = equalTables bs as := by
  induction as generalizing bs with
  | nil => cases bs <;> simp [equalTables]
  | cons entry as ih =>
    obtain ⟨key, a⟩ := entry
    obtain ⟨ha, has⟩ := List.forall_mem_cons.mp h
    cases bs with
    | nil => simp [equalTables]
    | cons other bs =>
      obtain ⟨key', b⟩ := other
      rw [equalTables, equalTables, ha.comm b, ih has, BEq.comm (a := key)]

theorem equalItems_trans {cs : List Value} (h : ∀ a ∈ as, a.Lawful) (hab : EqualItems as bs)
    (hbc : EqualItems bs cs) : EqualItems as cs := by
  have hboth := (List.forall₂_and_left _ _).mpr ⟨h, hab⟩
  exact Raw.forall₂_comp (fun a b c hab hbc => hab.1.trans b c hab.2 hbc) hboth hbc

theorem equalTables_trans {as bs cs : ValueTable} (h : ∀ entry ∈ as, entry.2.Lawful)
    (hab : EqualTables as bs) (hbc : EqualTables bs cs) : EqualTables as cs := by
  have hboth := (List.forall₂_and_left _ _).mpr ⟨h, hab⟩
  refine Raw.forall₂_comp (fun a b c hab hbc => ?_) hboth hbc
  exact ⟨hab.2.1.trans hbc.1, hab.1.trans b.2 c.2 hab.2.2 hbc.2⟩

/-- The laws for the items of the first set are enough to tell what equality of two sets means. -/
theorem equals_set_iff {element : ValueType} {b : Value} (h : ∀ a ∈ as, a.Lawful) :
    equals (.set element as) b = true ↔ ∃ bs, b = .set element bs ∧ Matched as bs := by
  rw [equals_set_pairs]
  exact exists_congr fun bs => and_congr_right fun _ => paired_iff_matched (passedOn_of_lawful h)

theorem equals_set_comm {element element' : ValueType} (h : ∀ a ∈ as, a.Lawful) :
    equals (.set element as) (.set element' bs) = equals (.set element' bs) (.set element as) := by
  have hmatched : Matched as bs ↔ Matched bs as := by
    constructor
    · exact Matched.symm fun a ha b _ hab => (h a ha).comm b ▸ hab
    · exact Matched.symm fun b _ a ha hba => ((h a ha).comm b).trans hba
  have hpairs := (paired_iff_matched (passedOn_of_lawful h)).trans hmatched
  have hpass : PassedOn bs as := passedOn_of_lawful_right h
  have hpairs' := paired_iff_matched hpass
  rw [equals, equals, Bool.and_assoc, Bool.and_assoc,
    Bool.eq_iff_iff.mpr (hpairs.trans hpairs'.symm)]
  simp [eq_comm]

end

theorem lawful (a : Value) : a.Lawful := by
  induction a using Value.induction with
  | null type =>
    refine ⟨fun b => ?_, fun b c hab hbc => ?_⟩
    · cases b <;> simp [equals, eq_comm]
    · rwa [equals_null_iff.mp hab] at hbc
  | unknown type =>
    refine ⟨fun b => ?_, fun b c hab hbc => ?_⟩
    · cases b <;> simp [equals, eq_comm]
    · rwa [equals_unknown_iff.mp hab] at hbc
  | string text =>
    refine ⟨fun b => ?_, fun b c hab hbc => ?_⟩
    · cases b <;> simp [equals, BEq.comm]
    · rwa [equals_string_iff.mp hab] at hbc
  | int64 n =>
    refine ⟨fun b => ?_, fun b c hab hbc => ?_⟩
    · cases b <;> simp [equals, BEq.comm]
    · rwa [equals_int64_iff.mp hab] at hbc
  | bool flag =>
    refine ⟨fun b => ?_, fun b c hab hbc => ?_⟩
    · cases b <;> simp [equals, BEq.comm]
    · rwa [equals_bool_iff.mp hab] at hbc
  | float64 x =>
    refine ⟨fun b => ?_, fun b c hab hbc => ?_⟩
    · cases b <;> simp [equals, Binary64.equals_comm]
    · obtain ⟨y, rfl, hxy⟩ := equals_float64_iff.mp hab
      obtain ⟨z, rfl, hyz⟩ := equals_float64_iff.mp hbc
      exact equals_float64_iff.mpr ⟨z, rfl, Binary64.equals_trans hxy hyz⟩
  | list element items ih =>
    refine ⟨fun b => ?_, fun b c hab hbc => ?_⟩
    · cases b <;> simp [equals, equalItems_comm ih, eq_comm]
    · obtain ⟨bs, rfl, hitems⟩ := equals_list_iff.mp hab
      obtain ⟨cs, rfl, hothers⟩ := equals_list_iff.mp hbc
      exact equals_list_iff.mpr ⟨cs, rfl, equalItems_trans ih hitems hothers⟩
  | set element items ih =>
    refine ⟨fun b => ?_, fun b c hab hbc => ?_⟩
    · cases b with
      | set element' bs => exact equals_set_comm ih
      | _ => simp [equals]
    · obtain ⟨bs, rfl, hmatched⟩ := (equals_set_iff ih).mp hab
      obtain ⟨cs, rfl, hpaired⟩ := equals_set_pairs.mp hbc
      rw [Bool.and_eq_true, beq_iff_eq] at hpaired
      have hbc := matched_of_paired hpaired.1 hpaired.2
      have htrans : Matched items cs := hmatched.trans (fun a ha => (ih a ha).trans) hbc
      exact (equals_set_iff ih).mpr ⟨cs, rfl, htrans⟩
  | map element entries ih =>
    refine ⟨fun b => ?_, fun b c hab hbc => ?_⟩
    · cases b <;> simp [equals, equalTables_comm ih, eq_comm]
    · obtain ⟨bs, rfl, hentries⟩ := equals_map_iff.mp hab
      obtain ⟨cs, rfl, hothers⟩ := equals_map_iff.mp hbc
      exact equals_map_iff.mpr ⟨cs, rfl, equalTables_trans ih hentries hothers⟩
  | object fields attributes ih =>
    refine ⟨fun b => ?_, fun b c hab hbc => ?_⟩
    · cases b <;> simp [equals, equalTables_comm ih, eq_comm]
    · obtain ⟨bs, rfl, hentries⟩ := equals_object_iff.mp hab
      obtain ⟨cs, rfl, hothers⟩ := equals_object_iff.mp hbc
      exact equals_object_iff.mpr ⟨cs, rfl, equalTables_trans ih hentries hothers⟩

theorem equals_symm {a b : Value} (h : a.equals b = true) : b.equals a = true :=
  ((lawful a).comm b).symm.trans h

theorem equals_trans {a b c : Value} (hab : a.equals b = true) (hbc : b.equals c = true) :
    a.equals c = true := (lawful a).trans b c hab hbc

/-! ## Reflexivity -/

mutual
/-- No known number inside the value is a NaN. -/
def NaNFree : Value → Prop
  | .float64 x => x.isNaN = false
  | .list _ items | .set _ items => ItemsNaNFree items
  | .map _ entries => EntriesNaNFree entries
  | .object _ attributes => EntriesNaNFree attributes
  | _ => True

def ItemsNaNFree : List Value → Prop
  | [] => True
  | item :: rest => NaNFree item ∧ ItemsNaNFree rest

def EntriesNaNFree : List (String × Value) → Prop
  | [] => True
  | (_, value) :: rest => NaNFree value ∧ EntriesNaNFree rest
end

theorem itemsNaNFree_iff {items : List Value} :
    ItemsNaNFree items ↔ ∀ item ∈ items, item.NaNFree := by
  induction items with
  | nil => simp [ItemsNaNFree]
  | cons item rest ih => simp [ItemsNaNFree, ih]

theorem entriesNaNFree_iff {entries : ValueTable} :
    EntriesNaNFree entries ↔ ∀ entry ∈ entries, entry.2.NaNFree := by
  induction entries with
  | nil => simp [EntriesNaNFree]
  | cons entry rest ih => simp [EntriesNaNFree, ih]

/-- What is matched with anything at all equals itself. -/
theorem matched_self_iff {as : List Value} : Matched as as ↔ ∀ a ∈ as, a.equals a = true := by
  constructor
  · rintro ⟨cs, hitems, -⟩
    have hself := hitems.imp fun a c hac => And.intro (equals_trans hac (equals_symm hac)) hac
    exact ((List.forall₂_and_left _ _).mp hself).1
  · intro h
    exact ⟨as, List.forall₂_same.mpr h, .refl _⟩

theorem equalTables_self_iff {as : ValueTable} :
    EqualTables as as ↔ ∀ entry ∈ as, entry.2.equals entry.2 = true := by
  rw [EqualTables, List.forall₂_same]
  exact forall₂_congr fun entry _ => and_iff_right rfl

/-- An absent value has no NaN. -/
theorem isKnown_of_not_nanFree {a : Value} (h : ¬ a.NaNFree) : a.isKnown = true := by
  cases a with
  | null | unknown => exact absurd trivial h
  | _ => rfl

theorem equals_self_iff {a : Value} : a.equals a = true ↔ a.NaNFree := by
  induction a using Value.induction with
  | null _ | unknown _ | string _ | int64 _ | bool _ => simp [equals, NaNFree]
  | float64 x => simp [equals, NaNFree, Binary64.equals_self]
  | list element items ih =>
    have hself : equals (.list element items) (.list element items) = true ↔
        ∀ item ∈ items, item.equals item = true := by
      simp [equals, equalItems_iff, EqualItems, List.forall₂_same]
    rw [hself, NaNFree, itemsNaNFree_iff]
    exact forall₂_congr ih
  | set element items ih =>
    have hself : equals (.set element items) (.set element items) = true ↔
        ∀ item ∈ items, item.equals item = true := by
      simp [equals_set_iff fun item _ => lawful item, matched_self_iff]
    rw [hself, NaNFree, itemsNaNFree_iff]
    exact forall₂_congr ih
  | map element entries ih =>
    have hself : equals (.map element entries) (.map element entries) = true ↔
        ∀ entry ∈ entries, entry.2.equals entry.2 = true := by
      simp [equals_map_iff, equalTables_self_iff]
    rw [hself, NaNFree, entriesNaNFree_iff]
    exact forall₂_congr ih
  | object fields attributes ih =>
    have hself : equals (.object fields attributes) (.object fields attributes) = true ↔
        ∀ entry ∈ attributes, entry.2.equals entry.2 = true := by
      simp [equals_object_iff, equalTables_self_iff]
    rw [hself, NaNFree, entriesNaNFree_iff]
    exact forall₂_congr ih

/-- Equality of values is a partial equivalence between values of one type, and a value equals
itself just if no known number inside it is a NaN. -/
theorem equals_partial_equivalence (a b c : Value) :
    (a.equals b = true → b.equals a = true ∧ a.type = b.type) ∧
      (a.equals b = true → b.equals c = true → a.equals c = true) ∧
      (a.equals a = true ↔ a.NaNFree) :=
  ⟨fun h => ⟨equals_symm h, type_eq_of_equals h⟩, equals_trans, equals_self_iff⟩

/-- Groups of numbers, a set of sets. -/
def groups (members : List (List Int64)) : Value :=
  .set (.set .int64) (members.map fun group => .set .int64 (group.map Value.int64))

/-- Three orders of the same groups, one of which occurs twice. -/
theorem groups_equals :
    (groups [[1, 2], [3], [2, 1]]).equals (groups [[2, 1], [1, 2], [3]]) = true ∧
      (groups [[2, 1], [1, 2], [3]]).equals (groups [[3], [2, 1], [2, 1]]) = true ∧
      (groups [[1, 2], [3], [2, 1]]).equals (groups [[3], [2, 1], [2, 1]]) = true ∧
      (groups [[2, 1], [1, 2], [3]]).equals (groups [[1, 2], [3], [2, 1]]) = true ∧
      ¬ (groups [[1, 2], [3], [3]]).equals (groups [[1, 2], [1, 2], [3]]) = true := by
  have hfirst : (groups [[1, 2], [3], [2, 1]]).equals (groups [[2, 1], [1, 2], [3]]) = true := by
    decide +kernel
  have hsecond : (groups [[2, 1], [1, 2], [3]]).equals (groups [[3], [2, 1], [2, 1]]) = true := by
    decide +kernel
  obtain ⟨hsymm, htrans, -⟩ := equals_partial_equivalence (groups [[1, 2], [3], [2, 1]])
    (groups [[2, 1], [1, 2], [3]]) (groups [[3], [2, 1], [2, 1]])
  exact ⟨hfirst, hsecond, htrans hfirst hsecond, (hsymm hfirst).1, by decide +kernel⟩

end EntityModel.Value
