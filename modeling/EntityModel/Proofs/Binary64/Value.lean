import EntityModel.Binary64.Rounding
import Mathlib.Data.Rat.Floor
import Mathlib.Tactic.FieldSimp
import Mathlib.Tactic.Ring

/-!
# The exact values of floating-point numbers

`Binary64.value?` reads the three fields of a number as IEEE 754 does: a finite number is a rational
one, infinities and NaNs are none. Integers are read off the significand and the exponent instead,
without fractions; the two agree.

* `Binary64.value?_eq`: the value by significand and exponent.
* `Binary64.integer?_eq_some_iff`, `Binary64.int64?_eq_some_iff`: the integer that is read is the
  value.
* `Binary64.isWhole_iff`: the whole numbers.
* `Binary64.value?_mk`: the value of a number that is put together from its fields.
-/

namespace EntityModel.Binary64

/-! ## The value -/

/-- The magnitude of a finite number by its fields. The exponent is biased by 1023. The leading bit
of the significand is not written; it is one except for the smallest exponent field, where it is
zero and the exponent is the same as for the next field. -/
def magnitude (x : Binary64) : ℚ :=
  if x.exponentField = 0 then (x.fraction : ℚ) / 2 ^ 52 * 2 ^ (-1022 : ℤ)
  else (1 + (x.fraction : ℚ) / 2 ^ 52) * 2 ^ ((x.exponentField : ℤ) - 1023)

/-- The value of a number by its fields. -/
def value? (x : Binary64) : Option ℚ :=
  if x.exponentField = 2047 then none
  else some (if x.negative then -x.magnitude else x.magnitude)

variable {x : Binary64}

theorem isFinite_iff : x.isFinite = true ↔ x.exponentField ≠ 2047 := by
  simp [isFinite]

/-- With the fraction as an integer, the exponent is smaller by 52. -/
theorem magnitude_eq (x : Binary64) : x.magnitude = x.significand * 2 ^ x.exponent := by
  have hunit (e : ℤ) : (2 : ℚ) ^ (e + 52) = 2 ^ 52 * 2 ^ e := by
    rw [add_comm, zpow_add₀ two_ne_zero]
    rfl
  rw [magnitude, significand, exponent]
  by_cases h : x.exponentField = 0
  · have hexponent : ((max x.exponentField 1 : ℕ) : ℤ) - 1075 = -1074 := by omega
    rw [if_pos h, if_pos h, hexponent, show (-1022 : ℤ) = -1074 + 52 from rfl, hunit]
    field_simp
  · have hexponent :
        ((max x.exponentField 1 : ℕ) : ℤ) - 1075 = x.exponentField - 1075 := by omega
    have hbias : (x.exponentField : ℤ) - 1023 = x.exponentField - 1075 + 52 := by ring
    rw [if_neg h, if_neg h, hexponent, hbias, hunit, Nat.cast_add, leadingBit]
    field_simp
    norm_num
    ring

/-- The factor that a sign is. -/
def signFactor (negative : Bool) : ℚ := if negative then -1 else 1

theorem signed_cast (negative : Bool) (magnitude : ℕ) :
    ((signed negative magnitude : ℤ) : ℚ) = signFactor negative * magnitude := by
  cases negative <;> simp [signed, signFactor]

/-- The value is the significand times its power of two, behind the sign. -/
theorem value?_eq (h : x.isFinite = true) :
    x.value? = some (signFactor x.negative * (x.significand * 2 ^ x.exponent)) := by
  rw [value?, if_neg (isFinite_iff.mp h), ← magnitude_eq, signFactor]
  cases x.negative <;> simp

theorem value?_eq_none_iff : x.value? = none ↔ x.isFinite = false := by
  rw [← Bool.not_eq_true, isFinite_iff, not_not, value?]
  split <;> simp_all

/-! ## Integers -/

/-- A significand over a power of two is an integer only if it is a multiple of it. -/
theorem dvd_of_div_eq {negative : Bool} {significand k : ℕ} {n : ℤ}
    (h : signFactor negative * ((significand : ℚ) / 2 ^ k) = n) : 2 ^ k ∣ significand := by
  have habs : (significand : ℚ) / 2 ^ k = n.natAbs := by
    have hfactor : |signFactor negative| = 1 := by cases negative <;> simp [signFactor]
    rw [Nat.cast_natAbs, Int.cast_abs, ← h, abs_mul, hfactor, one_mul,
      abs_of_nonneg (by positivity)]
  rw [div_eq_iff (by positivity)] at habs
  exact ⟨n.natAbs, by rw [mul_comm]; exact_mod_cast habs⟩

/-- The integer that is read off a number is its value. -/
theorem integer?_eq_some_iff {n : ℤ} : x.integer? = some n ↔ x.value? = some (n : ℚ) := by
  by_cases hfinite : x.isFinite = true
  · rw [value?_eq hfinite, integer?, if_neg (not_not.mpr hfinite)]
    by_cases hexponent : 0 ≤ x.exponent
    · obtain ⟨k, hk⟩ := Int.eq_ofNat_of_zero_le hexponent
      rw [if_pos hexponent, hk, Int.toNat_natCast, Nat.shiftLeft_eq, Option.some_inj,
        Option.some_inj, ← Int.cast_inj (α := ℚ), signed_cast]
      simp
    · obtain ⟨k, hk⟩ := Int.eq_ofNat_of_zero_le (show 0 ≤ -x.exponent by omega)
      have hpower : (x.significand : ℚ) * 2 ^ x.exponent = x.significand / 2 ^ k := by
        rw [← neg_neg x.exponent, hk, zpow_neg, zpow_natCast, div_eq_mul_inv]
      rw [if_neg hexponent, hk, Int.toNat_natCast, Nat.shiftLeft_eq, one_mul, hpower,
        Option.some_inj]
      by_cases hdvd : 2 ^ k ∣ x.significand
      · obtain ⟨q, hq⟩ := hdvd
        have hquotient : (x.significand : ℚ) / 2 ^ k = q := by
          rw [hq, Nat.cast_mul, Nat.cast_pow, Nat.cast_ofNat, mul_div_cancel_left₀]
          positivity
        rw [hquotient, hq, if_pos (Nat.mul_mod_right _ _),
          Nat.mul_div_cancel_left _ (by positivity), Option.some_inj, ← Int.cast_inj (α := ℚ),
          signed_cast]
      · rw [if_neg (fun h => hdvd (Nat.dvd_of_mod_eq_zero h))]
        exact iff_of_false nofun fun h => hdvd (dvd_of_div_eq h)
  · rw [Bool.not_eq_true] at hfinite
    rw [value?_eq_none_iff.mpr hfinite, integer?, if_pos (by simp [hfinite])]
    exact iff_of_false nofun nofun

/-! ## Integers of 64 bits -/

theorem inInt64_iff {n : ℤ} : inInt64 n = true ↔ -2 ^ 63 ≤ n ∧ n < 2 ^ 63 := by
  simp only [inInt64, Bool.and_eq_true, decide_eq_true_eq, Int64.toInt_minValue,
    Int64.toInt_maxValue]
  omega

theorem inInt64_toInt (m : Int64) : inInt64 m.toInt = true :=
  inInt64_iff.mpr ⟨Int64.le_toInt m, Int64.toInt_lt m⟩

theorem toInt_ofInt {n : ℤ} (h : inInt64 n = true) : (Int64.ofInt n).toInt = n := by
  obtain ⟨hlow, hhigh⟩ := inInt64_iff.mp h
  exact Int64.toInt_ofInt_of_le hlow hhigh

/-- The integer of 64 bits that is read off a number is its value: nothing is cut off. -/
theorem int64?_eq_some_iff {m : Int64} : x.int64? = some m ↔ x.value? = some (m.toInt : ℚ) := by
  simp only [int64?, Option.map_eq_some_iff, Option.filter_eq_some_iff]
  constructor
  · rintro ⟨n, ⟨hn, hfits⟩, rfl⟩
    rw [toInt_ofInt hfits]
    exact integer?_eq_some_iff.mp hn
  · intro h
    exact ⟨m.toInt, ⟨integer?_eq_some_iff.mpr h, inInt64_toInt m⟩, Int64.ofInt_toInt m⟩

theorem isWhole_iff_int64 : x.isWhole = true ↔
    ∃ m : Int64, x.value? = some (m.toInt : ℚ) := by
  rw [isWhole, Option.isSome_iff_exists]
  exact exists_congr fun m => int64?_eq_some_iff

/-- A whole number has an integer of 64 bits with a sign as its value. -/
theorem isWhole_iff :
    x.isWhole = true ↔
      ∃ n : ℤ, x.value? = some (n : ℚ) ∧ -2 ^ 63 ≤ n ∧ n ≤ 2 ^ 63 - 1 := by
  rw [isWhole_iff_int64]
  constructor
  · rintro ⟨m, hm⟩
    obtain ⟨hlow, hhigh⟩ := inInt64_iff.mp (inInt64_toInt m)
    exact ⟨m.toInt, hm, hlow, by omega⟩
  · rintro ⟨n, hn, hlow, hhigh⟩
    refine ⟨Int64.ofInt n, ?_⟩
    rw [toInt_ofInt (inInt64_iff.mpr ⟨hlow, by omega⟩)]
    exact hn

/-! ## Numbers by their bits -/

/-- A sign is written above all other bits. -/
theorem toNat_withSign (h : x.bits.toNat < signBit) (negative : Bool) :
    (withSign negative x).bits.toNat = (if negative then signBit else 0) + x.bits.toNat := by
  cases negative with
  | false => simp [withSign]
  | true =>
    have hbits : (x.bits ||| 0x8000000000000000).toNat = 2 ^ 63 * 1 + x.bits.toNat := by
      rw [UInt64.toNat_or, Nat.or_comm, Nat.two_pow_add_eq_or_of_lt (by rw [signBit] at h; omega)]
      rfl
    exact hbits

theorem value?_withSign (h : x.bits.toNat < signBit) (negative : Bool) :
    (withSign negative x).value? = x.value?.map (signFactor negative * ·) := by
  have hbits := toNat_withSign h negative
  have hexponent : (withSign negative x).exponentField = x.exponentField := by
    rw [exponentField, exponentField, hbits, leadingBit, signBit]
    split <;> omega
  have hfraction : (withSign negative x).fraction = x.fraction := by
    rw [fraction, fraction, hbits, leadingBit, signBit]
    split <;> omega
  have hsign : (withSign negative x).negative = negative := by
    rw [Binary64.negative, hbits]
    cases negative <;> simp [h]
  have hplain : x.negative = false := by simpa [Binary64.negative] using h
  rw [value?, value?, magnitude, magnitude, hexponent, hfraction, hsign, hplain]
  split
  · rfl
  · cases negative <;> simp [signFactor]

/-- A number whose significand has its leading bit, by its bits. -/
theorem value?_mk {k significand : ℕ} (hk : k < 2046) (hlow : leadingBit ≤ significand)
    (hhigh : significand < 2 * leadingBit) :
    value? ⟨UInt64.ofNat (k * leadingBit + significand)⟩ =
      some ((significand : ℚ) * 2 ^ ((k : ℤ) - 1074)) := by
  generalize hx : (⟨UInt64.ofNat (k * leadingBit + significand)⟩ : Binary64) = x
  rw [leadingBit] at hlow hhigh
  have hbits : x.bits.toNat = k * leadingBit + significand := by
    rw [← hx, UInt64.toNat_ofNat', leadingBit]
    omega
  have hfield : x.exponentField = k + 1 := by
    rw [exponentField, hbits, leadingBit]
    omega
  have hfraction : x.fraction = significand - leadingBit := by
    rw [fraction, hbits, leadingBit]
    omega
  have hsign : x.negative = false := by
    rw [negative, hbits, signBit, leadingBit, decide_eq_false_iff_not]
    omega
  have hsignificand : x.significand = significand := by
    rw [Binary64.significand, hfield, hfraction, if_neg (by omega), leadingBit]
    omega
  have hexponent : x.exponent = (k : ℤ) - 1074 := by
    rw [exponent, hfield]
    omega
  have hfinite : x.isFinite = true := by
    rw [isFinite_iff, hfield]
    omega
  rw [value?_eq hfinite, hsign, hsignificand, hexponent]
  simp [signFactor]

end EntityModel.Binary64
