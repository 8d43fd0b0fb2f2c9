import EntityModel.Proofs.Binary64.Value

/-!
# Integers that are numbers

An integer whose binary digits fit a significand is rounded to itself, in particular every integer
up to 2 ^ 53. The largest integer of 64 bits has too many digits: it is rounded up to 2 ^ 63, so
that a number below it is one that 64 bits hold.

* `Binary64.value?_ofInt`: integers up to 2 ^ 53 are rounded to themselves.
* `Binary64.isCastable`, `Binary64.toInt64`: the guard of a cast, and the cast.
* `Binary64.isWhole_eq_isCastable`, `Binary64.int64?_eq`: they give the integer that is read off.
-/

namespace EntityModel.Binary64

/-! ## Exact quotients -/

theorem divideToEven_mul (quotient : ℕ) {den : ℕ} (h : 0 < den) :
    divideToEven (quotient * den) den = quotient := by
  have hrest : 2 * (quotient * den % den) < den := by
    rw [Nat.mul_mod_left]
    exact h
  rw [divideToEven, if_pos hrest, Nat.mul_div_cancel _ h]

/-- The exponent for an integer is that of its leading digit. -/
theorem exponentFor_one {n : ℕ} (h : n ≠ 0) : exponentFor n 1 = n.log2 - 52 := by
  have hlow := Nat.log2_self_le h
  have hestimate : (n.log2 : ℤ) - (Nat.log2 1 : ℕ) - 52 = n.log2 - 52 := by
    rw [show Nat.log2 1 = 0 by decide]
    omega
  have hscaled : leadingBit ≤
      if 0 ≤ (n.log2 : ℤ) - 52 then n / (1 <<< ((n.log2 : ℤ) - 52).toNat)
      else (n <<< (-((n.log2 : ℤ) - 52)).toNat) / 1 := by
    rw [leadingBit]
    split
    · obtain ⟨k, hk⟩ := Nat.exists_eq_add_of_le (show 52 ≤ n.log2 by omega)
      rw [show ((n.log2 : ℤ) - 52).toNat = k by omega, Nat.shiftLeft_eq, one_mul,
        Nat.le_div_iff_mul_le (by positivity)]
      rw [hk, pow_add] at hlow
      exact hlow
    · obtain ⟨k, hk⟩ := Nat.exists_eq_add_of_le (show n.log2 ≤ 52 by omega)
      rw [show (-((n.log2 : ℤ) - 52)).toNat = k by omega, Nat.shiftLeft_eq, Nat.div_one]
      calc 4503599627370496 = 2 ^ n.log2 * 2 ^ k := by rw [← pow_add, ← hk]; rfl
        _ ≤ n * 2 ^ k := Nat.mul_le_mul_right _ hlow
  simp only [exponentFor, hestimate]
  rw [if_neg (not_lt.mpr hscaled)]
  omega

/-! ## Exact integers -/

/-- An integer with the digits of a significand, which `e` zeros follow or of which the last `-e`
are zeros, has its leading digit at `52 + e`, and rounding has nothing to do. -/
structure Spread (n significand : ℕ) (e : ℤ) : Prop where
  low : leadingBit ≤ significand
  high : significand < 2 * leadingBit
  eq : (n : ℚ) = significand * 2 ^ e

variable {n significand : ℕ} {e : ℤ}

theorem Spread.ne_zero (h : Spread n significand e) : n ≠ 0 := by
  rintro rfl
  have heq := h.eq
  have hlow := h.low
  rw [leadingBit] at hlow
  have hpos : (0 : ℚ) < significand := by exact_mod_cast (show 0 < significand by omega)
  have hproduct : (0 : ℚ) < significand * 2 ^ e := mul_pos hpos (zpow_pos two_pos e)
  rw [← heq] at hproduct
  simp at hproduct

/-- The zeros that follow the digits, or are their last ones. -/
theorem Spread.zeros (h : Spread n significand e) :
    (∃ k : ℕ, e = k ∧ n = significand * 2 ^ k) ∨
      ∃ k : ℕ, e = -(k : ℤ) ∧ n * 2 ^ k = significand := by
  have heq := h.eq
  obtain ⟨k, rfl | rfl⟩ := Int.eq_nat_or_neg e
  · exact .inl ⟨k, rfl, by exact_mod_cast heq⟩
  · rw [zpow_neg, zpow_natCast, ← div_eq_mul_inv, eq_div_iff (by positivity)] at heq
    exact .inr ⟨k, rfl, by exact_mod_cast heq⟩

theorem Spread.log2_eq (h : Spread n significand e) : (n.log2 : ℤ) = 52 + e := by
  obtain ⟨hlow, hhigh, -⟩ := id h
  rw [leadingBit] at hlow hhigh
  rcases h.zeros with ⟨k, rfl, hn⟩ | ⟨k, rfl, hn⟩
  · have hlog : n.log2 = 52 + k := by
      rw [Nat.log2_eq_iff h.ne_zero, hn, pow_add, pow_add, pow_add]
      exact ⟨Nat.mul_le_mul_right _ hlow, by nlinarith [Nat.two_pow_pos k]⟩
    omega
  · have hk : k < 53 := by
      rw [← Nat.pow_lt_pow_iff_right (a := 2) (by decide)]
      calc 2 ^ k ≤ n * 2 ^ k := Nat.le_mul_of_pos_left _ (Nat.pos_of_ne_zero h.ne_zero)
        _ < 2 ^ 53 := by omega
    obtain ⟨l, hl⟩ := Nat.exists_eq_add_of_le (show k ≤ 52 by omega)
    have hlog : n.log2 = l := by
      have hpower : 2 ^ l * 2 ^ k = 4503599627370496 := by
        rw [← pow_add, add_comm, ← hl]
        rfl
      rw [Nat.log2_eq_iff h.ne_zero]
      constructor
      · refine Nat.le_of_mul_le_mul_right ?_ (Nat.two_pow_pos k)
        omega
      · refine Nat.lt_of_mul_lt_mul_right (a := 2 ^ k) ?_
        rw [pow_succ, mul_right_comm, hpower]
        omega
    omega

theorem Spread.divide_eq (h : Spread n significand e) :
    (if 0 ≤ e then divideToEven n (1 <<< e.toNat) else divideToEven (n <<< (-e).toNat) 1) =
      significand := by
  rcases h.zeros with ⟨k, rfl, hn⟩ | ⟨k, rfl, hn⟩
  · rw [if_pos (Int.natCast_nonneg k), Int.toNat_natCast, Nat.shiftLeft_eq, one_mul, hn]
    exact divideToEven_mul _ (Nat.two_pow_pos k)
  · have hone := divideToEven_mul significand Nat.one_pos
    rw [mul_one] at hone
    split
    · obtain rfl : k = 0 := by omega
      rw [← hone, ← hn]
      simp
    · rw [neg_neg, Int.toNat_natCast, Nat.shiftLeft_eq, hn, hone]

/-- An integer whose digits fit a significand is rounded to itself. -/
theorem Spread.roundRatio_eq (h : Spread n significand e) (hlow : -1074 ≤ e) (hhigh : e ≤ 970) :
    roundRatio n 1 = ⟨UInt64.ofNat ((e + 1074).toNat * leadingBit + significand)⟩ := by
  have hexponent : exponentFor n 1 = e := by
    rw [exponentFor_one h.ne_zero, h.log2_eq]
    omega
  have hbits : (e + 1074).toNat * leadingBit + significand < 0x7FF0000000000000 := by
    have := h.high
    rw [leadingBit] at this ⊢
    omega
  simp only [roundRatio, hexponent, h.divide_eq]
  rw [if_neg h.ne_zero, if_pos hbits]

theorem Spread.value?_ofInt {m : ℤ} (h : Spread m.natAbs significand e) (hlow : -1074 ≤ e)
    (hhigh : e ≤ 970) : (ofInt m).value? = some (m : ℚ) := by
  have hround := h.roundRatio_eq hlow hhigh
  have hbits : (roundRatio m.natAbs 1).bits.toNat < signBit := by
    have := h.high
    rw [leadingBit] at this
    rw [hround, UInt64.toNat_ofNat', leadingBit, signBit]
    omega
  have hpower : (((e + 1074).toNat : ℕ) : ℤ) - 1074 = e := by omega
  rw [ofInt, value?_withSign hbits, hround, value?_mk (by omega) h.low h.high, hpower, ← h.eq,
    Option.map_some, Nat.cast_natAbs, Int.cast_abs, Option.some_inj, signFactor]
  by_cases hm : m < 0
  · rw [if_pos (by simpa using hm), abs_of_neg (by exact_mod_cast hm)]
    ring
  · rw [if_neg (by simpa using hm), abs_of_nonneg (by exact_mod_cast not_lt.mp hm), one_mul]

/-- Natural numbers up to 2 ^ 53 have no more digits than a significand. -/
theorem exists_spread (hn : n ≠ 0) (h : n ≤ 2 ^ 53) :
    ∃ significand e, Spread n significand e ∧ -1074 ≤ e ∧ e ≤ 970 := by
  rcases Nat.lt_or_eq_of_le h with h | rfl
  · have hlog : n.log2 ≤ 52 := by
      have := (Nat.log2_lt hn).mpr h
      omega
    obtain ⟨k, hk⟩ := Nat.exists_eq_add_of_le hlog
    have hpower : 2 ^ n.log2 * 2 ^ k = leadingBit := by
      rw [← pow_add, ← hk]
      rfl
    refine ⟨n * 2 ^ k, -(k : ℤ), ⟨?_, ?_, ?_⟩, by omega, by omega⟩
    · rw [← hpower]
      exact Nat.mul_le_mul_right _ (Nat.log2_self_le hn)
    · rw [← hpower, ← mul_assoc, mul_comm 2, ← pow_succ]
      exact Nat.mul_lt_mul_of_pos_right Nat.lt_log2_self (Nat.two_pow_pos k)
    · rw [Nat.cast_mul, Nat.cast_pow, Nat.cast_ofNat, mul_assoc, zpow_neg, zpow_natCast,
        mul_inv_cancel₀ (by positivity), mul_one]
  · exact ⟨leadingBit, 1, ⟨le_rfl, by decide, by norm_num [leadingBit]⟩,
      by decide, by decide⟩

/-- Integers up to 2 ^ 53, of either sign, are rounded to themselves. -/
theorem value?_ofInt {m : ℤ} (h : m.natAbs ≤ 2 ^ 53) : (ofInt m).value? = some (m : ℚ) := by
  rcases eq_or_ne m 0 with rfl | hm
  · have hsignificand : (ofInt 0).significand = 0 := by decide
    rw [value?_eq (by decide), hsignificand]
    simp
  · obtain ⟨significand, e, hspread, hlow, hhigh⟩ :=
      exists_spread (Int.natAbs_ne_zero.mpr hm) h
    exact hspread.value?_ofInt hlow hhigh

/-! ## The bounds of 64 bits -/

theorem value?_ofInt_minValue : (ofInt Int64.minValue.toInt).value? = some (-2 ^ 63) := by
  rw [Int64.toInt_minValue]
  have hspread : Spread (-2 ^ 63 : ℤ).natAbs leadingBit 11 :=
    ⟨le_rfl, by decide, by norm_num [leadingBit]⟩
  rw [hspread.value?_ofInt (by decide) (by decide)]
  norm_num

/-- The largest integer of 64 bits has 63 digits, too many for a significand, and is rounded up. -/
theorem value?_ofInt_maxValue : (ofInt Int64.maxValue.toInt).value? = some (2 ^ 63) := by
  have hround : ofInt Int64.maxValue.toInt =
      ⟨UInt64.ofNat (1085 * leadingBit + leadingBit)⟩ := by
    decide +kernel
  rw [hround, value?_mk (by decide) le_rfl (by decide)]
  norm_num [leadingBit]

/-! ## The guard and the cast -/

/-- The guard of a cast to an integer: a finite number without a fractional part, at least the
number nearest to the smallest integer of 64 bits and below the number nearest to the largest
one. -/
def isCastable (x : Binary64) : Bool :=
  x.value?.any fun v => Int.fract v = 0 &&
    (ofInt Int64.minValue.toInt).value?.any (· ≤ v) &&
    (ofInt Int64.maxValue.toInt).value?.any (v < ·)

/-- The cast to an integer of 64 bits. The fractional part is cut off, and what is beyond these
integers becomes the smallest or the largest one, infinities as well; a NaN becomes zero. -/
def toInt64 (x : Binary64) : Int64 :=
  match x.value? with
  | some v => .ofIntClamp (if v < 0 then ⌈v⌉ else ⌊v⌋)
  | none => if x.isNaN then 0 else if x.negative then .minValue else .maxValue

section

variable {x : Binary64}

theorem isCastable_iff : x.isCastable = true ↔
    ∃ v, x.value? = some v ∧ Int.fract v = 0 ∧ -2 ^ 63 ≤ v ∧ v < 2 ^ 63 := by
  rw [isCastable, value?_ofInt_minValue, value?_ofInt_maxValue, Option.any_eq_true]
  simp only [Option.any_some, Bool.and_eq_true, decide_eq_true_eq, and_assoc]

theorem isWhole_eq_isCastable (x : Binary64) : x.isWhole = x.isCastable := by
  rw [Bool.eq_iff_iff, isWhole_iff, isCastable_iff]
  constructor
  · rintro ⟨n, hn, hlow, hhigh⟩
    refine ⟨n, hn, Int.fract_intCast n, by exact_mod_cast hlow, ?_⟩
    exact_mod_cast Int.lt_of_le_sub_one hhigh
  · rintro ⟨v, hv, hfract, hlow, hhigh⟩
    obtain ⟨n, rfl⟩ := Int.fract_eq_zero_iff.mp hfract
    refine ⟨n, hv, by exact_mod_cast hlow, Int.le_sub_one_of_lt ?_⟩
    exact_mod_cast hhigh

theorem toInt64_of_value? {m : Int64} (h : x.value? = some (m.toInt : ℚ)) : x.toInt64 = m := by
  rw [toInt64, h]
  simp only [Int.ceil_intCast, Int.floor_intCast, ite_self, Int64.ofIntClamp_toInt]

/-- Behind its guard the cast cuts nothing off: it gives the integer that is read off the number. -/
theorem int64?_eq (x : Binary64) :
    x.int64? = if x.isCastable then some x.toInt64 else none := by
  rw [← isWhole_eq_isCastable, isWhole]
  cases h : x.int64? with
  | none => rfl
  | some m => rw [toInt64_of_value? (int64?_eq_some_iff.mp h), Option.isSome_some, if_pos rfl]

end

end EntityModel.Binary64
