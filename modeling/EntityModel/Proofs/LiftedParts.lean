import EntityModel.Proofs.Binary64.Value
import EntityModel.Proofs.Lifting
import EntityModel.Proofs.Value.Equality

/-!
# Lifting part by part

As the path matters for errors only, lifting a collection is lifting each of its parts, wherever it
stands. Stated so, pairwise, success no longer depends on the order in which the parts are lifted.

* `liftItems_ok_iff`, `liftEntries_ok_iff`, `liftFields_ok_iff`, `liftRecord_ok_iff`: what the parts
  are lifted to.
* `lift_list_ok`, `lift_set_ok`, `lift_map_ok`, `lift_object_ok`: what the whole is lifted to.
* `liftAt_nanFree`: lifting makes no NaN of anything else.
-/

namespace EntityModel

variable {element type : ValueType} {path : String} {position : Nat} {raw : Raw} {value : Value}

/-! ## Parts -/

/-- Items and what they are lifted to. -/
def LiftedItems (element : ValueType) (items : List Raw) (values : List Value) : Prop :=
  List.Forall₂ (fun raw value => lift element raw = .ok value) items values

/-- Entries and what they are lifted to, under the same keys. -/
def LiftedEntries (element : ValueType) (entries : Record) (values : ValueTable) : Prop :=
  List.Forall₂ (fun entry value => entry.1 = value.1 ∧ lift element entry.2 = .ok value.2)
    entries values

/-- Fields and what they are lifted to from a record. -/
def LiftedFields (record : Record) (fields : List (String × ValueType)) (values : ValueTable) :
    Prop :=
  List.Forall₂ (fun field value => field.1 = value.1 ∧
    lift field.2 (Record.at record field.1) = .ok value.2) fields values

theorem liftItems_ok_iff {items : List Raw} {values : List Value} :
    liftItems (liftAt element) path position items = .ok values ↔
      LiftedItems element items values := by
  rw [LiftedItems]
  induction items generalizing position values with
  | nil => simp [liftItems, eq_comm]
  | cons item rest ih =>
    simp only [liftItems, bind_ok_iff, pure_ok_iff, ih, ← lift_ok_iff,
      List.forall₂_cons_left_iff]
    constructor
    · rintro ⟨value, hvalue, others, hothers, rfl⟩
      exact ⟨value, others, hvalue, hothers, rfl⟩
    · rintro ⟨value, others, hvalue, hothers, rfl⟩
      exact ⟨value, hvalue, others, hothers, rfl⟩

theorem liftEntries_ok_iff {entries : Record} {values : ValueTable} :
    liftEntries (liftAt element) path entries = .ok values ↔
      LiftedEntries element entries values := by
  rw [LiftedEntries]
  induction entries generalizing values with
  | nil => simp [liftEntries, eq_comm]
  | cons entry rest ih =>
    obtain ⟨key, raw⟩ := entry
    simp only [liftEntries, bind_ok_iff, pure_ok_iff, ih, ← lift_ok_iff,
      List.forall₂_cons_left_iff]
    constructor
    · rintro ⟨value, hvalue, others, hothers, rfl⟩
      exact ⟨_, _, ⟨rfl, hvalue⟩, hothers, rfl⟩
    · rintro ⟨⟨key', value⟩, others, ⟨rfl, hvalue⟩, hothers, rfl⟩
      exact ⟨value, hvalue, others, hothers, rfl⟩

theorem liftedFields_cons {record : Record} {name : String} {rest : List (String × ValueType)}
    {values : ValueTable} :
    LiftedFields record ((name, type) :: rest) values ↔
      ∃ value, lift type (Record.at record name) = .ok value ∧
        ∃ others, LiftedFields record rest others ∧ (name, value) :: others = values := by
  rw [LiftedFields, List.forall₂_cons_left_iff]
  constructor
  · rintro ⟨⟨_, value⟩, others, ⟨rfl, hvalue⟩, hothers, rfl⟩
    exact ⟨value, hvalue, others, hothers, rfl⟩
  · rintro ⟨value, hvalue, others, hothers, rfl⟩
    exact ⟨(name, value), others, ⟨rfl, hvalue⟩, hothers, rfl⟩

theorem liftFields_ok_iff {record : Record} {fields : List (String × ValueType)}
    {values : ValueTable} :
    liftFields fields record path = .ok values ↔ LiftedFields record fields values := by
  induction fields generalizing values with
  | nil => simp [liftFields, LiftedFields, eq_comm]
  | cons field rest ih =>
    obtain ⟨name, type⟩ := field
    simp only [liftFields_cons_ok, liftedFields_cons, ih, ← lift_ok_iff]

theorem liftRecord_ok_iff {record : Record} {types : List (String × ValueType)}
    {values : ValueTable} :
    liftRecord record types = .ok values ↔ LiftedFields record types values := by
  induction types generalizing values with
  | nil => simp [liftRecord, LiftedFields, eq_comm]
  | cons field rest ih =>
    obtain ⟨name, type⟩ := field
    simp only [liftRecord_cons_ok, liftedFields_cons, ih, ← lift_ok_iff]

/-! ## The whole -/

theorem lift_list_ok {items : List Raw} :
    lift (.list element) (.list items) = .ok value ↔
      ∃ values, LiftedItems element items values ∧ .list element values = value := by
  simp [lift, liftAt_list_ok, liftItems_ok_iff]

theorem lift_set_ok {items : List Raw} :
    lift (.set element) (.list items) = .ok value ↔
      ∃ values, LiftedItems element items values ∧ .set element values = value := by
  simp [lift, liftAt_set_ok, liftItems_ok_iff]

theorem lift_map_ok {entries : Record} :
    lift (.map element) (.map entries) = .ok value ↔
      ∃ values, LiftedEntries element entries values ∧ .map element values = value := by
  simp [lift, liftAt_map_ok, liftEntries_ok_iff]

theorem lift_object_ok {fields : List (String × ValueType)} {record : Record} :
    lift (.object fields) (.map record) = .ok value ↔
      ∃ attributes, LiftedFields record fields attributes ∧
        .object fields attributes = value := by
  simp [lift, liftAt_object_ok, liftFields_ok_iff]

/-! ## Numbers that are not NaNs -/

namespace Binary64

theorem isNaN_iff {x : Binary64} : x.isNaN = true ↔
    x.exponentField = 2047 ∧ x.fraction ≠ 0 := by
  simp [isNaN]

theorem roundRatio_eq (num den : Nat) : ∃ bits : Nat, roundRatio num den =
    if bits < 0x7FF0000000000000 then ⟨UInt64.ofNat bits⟩ else infinity := by
  rw [roundRatio]
  by_cases h : num = 0
  · exact ⟨0, by rw [if_pos h, if_pos (by decide)]; rfl⟩
  · rw [if_neg h]
    exact ⟨_, rfl⟩

theorem roundRatio_le (num den : Nat) : (roundRatio num den).bits.toNat ≤ 0x7FF0000000000000 := by
  obtain ⟨bits, hbits⟩ := roundRatio_eq num den
  rw [hbits]
  split
  · rw [UInt64.toNat_ofNat']
    omega
  · simp [infinity]

theorem isNaN_withSign {x : Binary64} (h : x.bits.toNat ≤ 0x7FF0000000000000) (negative : Bool) :
    (withSign negative x).isNaN = false := by
  have hbits := toNat_withSign (x := x) (by rw [signBit]; omega) negative
  rw [Bool.eq_false_iff, Ne, isNaN_iff, exponentField, fraction, hbits, leadingBit, signBit]
  split <;> omega

theorem isNaN_ofInt (n : Int) : (ofInt n).isNaN = false :=
  isNaN_withSign (roundRatio_le n.natAbs 1) _

theorem isNaN_of_isFinite {x : Binary64} (h : x.isFinite = true) : x.isNaN = false := by
  rw [Bool.eq_false_iff, Ne, isNaN_iff]
  exact fun hnan => of_decide_eq_true h hnan.1

end Binary64

theorem Decimal.isFinite_of_read? {text : List Char} {x : Binary64} (h : read? text = some x) :
    x.isFinite = true := by
  simp only [read?] at h
  split at h
  · cases h
  · split at h
    · cases h
    · obtain ⟨hfinite, heq⟩ := Option.ite_none_right_eq_some.mp h
      cases heq
      exact hfinite

/-! ## Lifted values without NaNs -/

open Value

theorem liftScalar?_nanFree (hraw : raw.NaNFree) (h : liftScalar? type raw = some value) :
    value.NaNFree := by
  unfold liftScalar? at h
  split at h
  case h_1 | h_2 | h_7 =>
    cases h
    simp [NaNFree]
  case h_3 =>
    obtain ⟨n, -, rfl⟩ := Option.map_eq_some_iff.mp h
    simp [NaNFree]
  case h_4 =>
    cases h
    exact Binary64.isNaN_ofInt _
  case h_5 =>
    cases h
    exact hraw
  case h_6 =>
    obtain ⟨x, hx, rfl⟩ := Option.map_eq_some_iff.mp h
    exact Binary64.isNaN_of_isFinite (Decimal.isFinite_of_read? hx)
  case h_8 => cases h

theorem Record.at_nanFree {record : Record} (h : (Raw.map record).NaNFree) (name : String) :
    (Record.at record name).NaNFree := by
  rw [Record.at]
  cases hget : Assoc.get? record name with
  | none => trivial
  | some raw => exact Raw.nanFree_map.mp h _ (Assoc.mem_of_get? hget)

mutual
/-- A text that is read as a number is read as a finite one, and an integer is near a number. -/
theorem liftAt_nanFree : ∀ {type : ValueType} {raw : Raw} {path : String} {value : Value},
    raw.NaNFree → liftAt type raw path = .ok value → value.NaNFree
  | .string, _, _, _, hraw, h | .int64, _, _, _, hraw, h | .float64, _, _, _, hraw, h
  | .bool, _, _, _, hraw, h => by
    rcases (liftAt_scalar_ok rfl).mp h with ⟨-, rfl⟩ | ⟨-, hscalar⟩
    · simp [NaNFree]
    · exact liftScalar?_nanFree hraw hscalar
  | .list element, _, _, _, hraw, h => by
    rcases liftAt_list_ok.mp h with ⟨-, rfl⟩ | ⟨items, rfl, values, hvalues, rfl⟩
    · simp [NaNFree]
    · have hitems := Raw.nanFree_list.mp hraw
      rw [NaNFree, itemsNaNFree_iff]
      exact liftItems_forall hvalues fun raw hmem _ _ hv => liftAt_nanFree (hitems raw hmem) hv
  | .set element, _, _, _, hraw, h => by
    rcases liftAt_set_ok.mp h with ⟨-, rfl⟩ | ⟨items, rfl, values, hvalues, rfl⟩
    · simp [NaNFree]
    · have hitems := Raw.nanFree_list.mp hraw
      rw [NaNFree, itemsNaNFree_iff]
      exact liftItems_forall hvalues fun raw hmem _ _ hv => liftAt_nanFree (hitems raw hmem) hv
  | .map element, _, _, _, hraw, h => by
    rcases liftAt_map_ok.mp h with ⟨-, rfl⟩ | ⟨entries, rfl, values, hvalues, rfl⟩
    · simp [NaNFree]
    · have hentries := Raw.nanFree_map.mp hraw
      rw [NaNFree, entriesNaNFree_iff]
      exact (liftEntries_forall hvalues
        fun entry hmem _ _ hv => liftAt_nanFree (hentries entry hmem) hv).2
  | .object fields, _, _, _, hraw, h => by
    rcases liftAt_object_ok.mp h with ⟨-, rfl⟩ | ⟨record, rfl, attributes, hattributes, rfl⟩
    · simp [NaNFree]
    · exact liftFields_nanFree hraw hattributes

theorem liftFields_nanFree : ∀ {fields : List (String × ValueType)} {record : Record}
    {path : String} {attributes : ValueTable}, (Raw.map record).NaNFree →
      liftFields fields record path = .ok attributes → EntriesNaNFree attributes
  | [], _, _, _, _, h => by
    rw [liftFields_nil.mp h]
    trivial
  | (name, _) :: _, _, _, _, hrecord, h => by
    obtain ⟨value, hvalue, others, hothers, rfl⟩ := liftFields_cons_ok.mp h
    have hraw := Record.at_nanFree hrecord name
    rw [EntriesNaNFree]
    exact ⟨liftAt_nanFree hraw hvalue, liftFields_nanFree hrecord hothers⟩
end

end EntityModel
