import EntityModel.Proofs.Binary64.Integers
import EntityModel.Proofs.Container.Writing

/-!
# Floating-point numbers as integers

A floating-point number is taken for an integer in two places: where a raw number is lifted into an
integer field, and where a container is asked for the integer in a floating-point field. Both take
the same numbers, those whose exact value is an integer of 64 bits, and both give this value.

* `liftAt_int64_float`, `Container.readInt64_of_get`: the two places.
* `Container.set_of_get`: a value that is set is the value that is found.
* `Container.integers_exact`: integers are exact in both places, and those up to 2 ^ 53 come back
  from a floating-point field.
-/

namespace EntityModel

theorem liftAt_int64_float (x : Binary64) (path : String) :
    liftAt .int64 (.float x) path = match x.int64? with
      | some m => .ok (.int64 m)
      | none => .error (.mismatch path .int64 .float64) := by
  have hraw : Raw.float x ≠ .null := nofun
  rw [liftAt_scalar rfl hraw, liftScalar?]
  cases x.int64? <;> rfl

namespace Container

variable {c : Container} {entity : Entity} {path : String} {x : Binary64} {raw : Raw}
  {old new : Value}

theorem readInt64_of_get (h : c.get path = .ok (.float64 x)) :
    c.readInt64 path = match x.int64? with
      | some m => .ok (some m)
      | none => .error (.notWhole path x) := by
  rw [readInt64, h]
  simp only [ok_bind]
  cases x.int64? <;> rfl

/-- What is set where a path leads is what the path leads to afterwards. -/
theorem set_of_get (hc : c.Sound) (hentity : c.entity? = some entity) (hold : c.get path = .ok old)
    (hnew : lift old.type raw = .ok new) :
    ∃ c', c.set path raw = .ok c' ∧ c'.get path = .ok new := by
  obtain ⟨-, -, steps, hsteps, hresolve⟩ := get_ok.mp hold
  have hset := (hc.set_ok_iff hentity hsteps).mpr ⟨old, new, hresolve, hnew, rfl⟩
  have hfound := resolve_replaceAt_self hresolve new
  exact ⟨_, hset, get_ok.mpr ⟨entity, hentity, steps, hsteps, hfound⟩⟩

/-- A floating-point number is whole just if its value is an integer of 64 bits with a sign; then it
is lifted into an integer field as this integer, and this integer is read where the number stands in
a floating-point field. It comes to the same to cast the number behind a guard that asks for no
fractional part and compares it with the numbers nearest to the smallest and the largest of these
integers. Any other number is refused in both places. Integers up to 2 ^ 53 that are put into a
floating-point field are read there as they were. -/
theorem integers_exact :
    (∀ x : Binary64,
      (x.isWhole = true ↔
        ∃ n : ℤ, x.value? = some (n : ℚ) ∧ -2 ^ 63 ≤ n ∧ n ≤ 2 ^ 63 - 1) ∧
      (x.isWhole = x.isCastable ∧ x.int64? = if x.isCastable then some x.toInt64 else none) ∧
      (∀ n : ℤ, x.value? = some (n : ℚ) → -2 ^ 63 ≤ n → n ≤ 2 ^ 63 - 1 →
        ∃ m : Int64, m.toInt = n ∧
          (∀ path, liftAt .int64 (.float x) path = .ok (.int64 m)) ∧
          ∀ (c : Container) path, c.get path = .ok (.float64 x) →
            c.readInt64 path = .ok (some m)) ∧
      (x.isWhole = false →
        (∀ path, liftAt .int64 (.float x) path = .error (.mismatch path .int64 .float64)) ∧
          ∀ (c : Container) path, c.get path = .ok (.float64 x) →
            c.readInt64 path = .error (.notWhole path x))) ∧
    ∀ m : Int64, m.toInt.natAbs ≤ 2 ^ 53 →
      ∃ x : Binary64, lift .float64 (.int m) = .ok (.float64 x) ∧
        x.value? = some (m.toInt : ℚ) ∧
        (∀ (c : Container) path, c.get path = .ok (.float64 x) →
          c.readInt64 path = .ok (some m)) ∧
        ∀ (c : Container) entity path old, c.Reachable → c.entity? = some entity →
          c.get path = .ok old → old.type = .float64 →
          ∃ c', c.set path (.int m) = .ok c' ∧ c'.readInt64 path = .ok (some m) := by
  refine ⟨fun x => ⟨Binary64.isWhole_iff, ⟨x.isWhole_eq_isCastable, x.int64?_eq⟩,
    ?_, ?_⟩, ?_⟩
  · intro n hvalue hlow hhigh
    have hn : (Int64.ofInt n).toInt = n :=
      Binary64.toInt_ofInt (Binary64.inInt64_iff.mpr ⟨hlow, Int.lt_of_le_sub_one hhigh⟩)
    have hread : x.int64? = some (Int64.ofInt n) := by
      rw [Binary64.int64?_eq_some_iff, hn]
      exact hvalue
    refine ⟨Int64.ofInt n, hn, fun path => ?_, fun c path hget => ?_⟩
    · rw [liftAt_int64_float, hread]
    · rw [readInt64_of_get hget, hread]
  · intro hwhole
    have hread : x.int64? = none := by simpa [Binary64.isWhole] using hwhole
    refine ⟨fun path => ?_, fun c path hget => ?_⟩
    · rw [liftAt_int64_float, hread]
    · rw [readInt64_of_get hget, hread]
  · intro m hm
    have hvalue := Binary64.value?_ofInt hm
    have hlift : lift .float64 (.int m) = .ok (.float64 (.ofInt m.toInt)) := rfl
    have hread : ∀ (c : Container) path, c.get path = .ok (.float64 (.ofInt m.toInt)) →
        c.readInt64 path = .ok (some m) := by
      intro c path hget
      rw [readInt64_of_get hget, Binary64.int64?_eq_some_iff.mpr hvalue]
    refine ⟨.ofInt m.toInt, hlift, hvalue, hread, ?_⟩
    intro c entity path old hc hentity hold htype
    obtain ⟨c', hset, hget⟩ := set_of_get hc.sound hentity hold (htype.symm ▸ hlift)
    exact ⟨c', hset, hread c' path hget⟩

/-! ## A gauge -/

/-- A gauge shows a level. -/
def gauge : Entity where
  schema :=
    { name := "gauge"
      attributes := [("level", .plain .float64 {})] }
  hints := Hints.none
  introspection := ⟨[("level", ⟨.float64, { computed := true }⟩)]⟩

theorem gauge_bound : gauge.Bound := by
  refine ⟨⟨gauge.schema, gauge.hints⟩, ⟨by decide, ?_⟩, rfl⟩
  simp [gauge, Attribute.ChildrenOrdered, Attribute.Ordered, PlainShape.type, ValueType.Ordered]

def gaugeOf (level : Binary64) : Container := ⟨[("level", .float64 level)], some gauge⟩

theorem gaugeOf_reachable (level : Binary64) : (gaugeOf level).Reachable := by
  refine ⟨[.ofRecord gauge [("level", .float level)]], ?_, List.mem_singleton.mpr rfl⟩
  simp only [List.mem_singleton, forall_eq, Operation.Admissible]
  exact ⟨gauge_bound, by simp [Record.Ordered, Raw.Ordered, Raw.EntriesOrdered]⟩

theorem get_gaugeOf (level : Binary64) : (gaugeOf level).get "level" = .ok (.float64 level) :=
  get_ok.mpr ⟨gauge, rfl, [.key "level"], by decide +kernel, rfl⟩

/-- A level of minus zero is zero; the smallest integer is a level, the one beyond the largest is
refused; and a level of minus seven is read as such. -/
theorem gauge_integers :
    (gaugeOf ⟨0x8000000000000000⟩).readInt64 "level" = .ok (some 0) ∧
      (gaugeOf ⟨0xC3E0000000000000⟩).readInt64 "level" = .ok (some Int64.minValue) ∧
      (gaugeOf ⟨0x43E0000000000000⟩).readInt64 "level" =
        .error (.notWhole "level" ⟨0x43E0000000000000⟩) ∧
      (gaugeOf ⟨0⟩).Reachable ∧ (gaugeOf ⟨0⟩).get "level" = .ok (.float64 ⟨0⟩) ∧
      (-7 : Int64).toInt.natAbs ≤ 2 ^ 53 ∧
      ∃ c', (gaugeOf ⟨0⟩).set "level" (.int (-7)) = .ok c' ∧
        c'.readInt64 "level" = .ok (some (-7)) := by
  obtain ⟨hexact, hback⟩ := integers_exact
  have hzero : (⟨0x8000000000000000⟩ : Binary64).value? = some ((0 : ℤ) : ℚ) :=
    Binary64.integer?_eq_some_iff.mp (by decide)
  have hsmallest : (⟨0xC3E0000000000000⟩ : Binary64).value? = some ((-2 ^ 63 : ℤ) : ℚ) :=
    Binary64.integer?_eq_some_iff.mp (by decide)
  obtain ⟨zero, hzero', -, hreadZero⟩ :=
    (hexact ⟨0x8000000000000000⟩).2.2.1 0 hzero (by decide) (by decide)
  obtain ⟨smallest, hsmallest', -, hreadSmallest⟩ :=
    (hexact ⟨0xC3E0000000000000⟩).2.2.1 (-2 ^ 63) hsmallest (by decide) (by decide)
  obtain rfl : zero = 0 := Int64.toInt_inj.mp hzero'
  obtain rfl : smallest = Int64.minValue := Int64.toInt_inj.mp (hsmallest'.trans rfl)
  have hseven : (-7 : Int64).toInt.natAbs ≤ 2 ^ 53 := by decide
  obtain ⟨x, -, -, -, hset⟩ := hback (-7) hseven
  refine ⟨hreadZero _ _ (get_gaugeOf _), hreadSmallest _ _ (get_gaugeOf _), ?_,
    gaugeOf_reachable _, get_gaugeOf _, hseven,
    hset _ gauge "level" _ (gaugeOf_reachable _) rfl (get_gaugeOf _) rfl⟩
  exact ((hexact ⟨0x43E0000000000000⟩).2.2.2 (by decide)).2 _ _ (get_gaugeOf _)

end Container

end EntityModel
