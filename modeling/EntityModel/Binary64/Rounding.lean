import EntityModel.Binary64.Basic

/-!
# Rounding to the nearest number

`roundRatio` gives the number nearest to a quotient of naturals, of two equally near ones the one
with an even significand; beyond the largest finite number it gives infinity. Integers and decimals
are rounded by it.
-/

namespace EntityModel.Binary64

/-- The quotient rounded to the nearest natural, of two equally near ones the even one. -/
def divideToEven (num den : Nat) : Nat :=
  let quotient := num / den
  let rest := 2 * (num % den)
  if rest < den then quotient
  else if den < rest then quotient + 1
  else quotient + quotient % 2

/-- The exponent `e ≥ -1074` for which `num / den` lies between `2 ^ 52 * 2 ^ e` and
`2 ^ 53 * 2 ^ e`, or `-1074` for smaller quotients. -/
def exponentFor (num den : Nat) : Int :=
  let estimate : Int := (num.log2 : Int) - den.log2 - 52
  let scaled := if 0 ≤ estimate then num / (den <<< estimate.toNat)
    else (num <<< (-estimate).toNat) / den
  max (-1074) (if scaled < leadingBit then estimate - 1 else estimate)

/-- The number nearest to `num / den`, without a sign. The bits of a number in the binade of `e`
are `(e + 1074) * 2 ^ 52` plus its significand, so a significand that rounds up to `2 ^ 53` carries
into the exponent field by itself. -/
def roundRatio (num den : Nat) : Binary64 :=
  if num = 0 then ⟨0⟩
  else
    let e := exponentFor num den
    let rounded := if 0 ≤ e then divideToEven num (den <<< e.toNat)
      else divideToEven (num <<< (-e).toNat) den
    let bits := (e + 1074).toNat * leadingBit + rounded
    if bits < 0x7FF0000000000000 then ⟨UInt64.ofNat bits⟩ else infinity

/-- The number nearest to an integer. -/
def ofInt (n : Int) : Binary64 := withSign (decide (n < 0)) (roundRatio n.natAbs 1)

/-- The number nearest to `± digits * 10 ^ power`. Powers whose outcome is certain are not
computed: 10 ^ 310 is beyond every finite number, and 10 ^ -330 below half of the smallest. -/
def ofDecimal (negative : Bool) (digits : Nat) (power : Int) : Binary64 :=
  let size : Int := (Nat.toDigits 10 digits).length + power
  withSign negative
    (if digits = 0 then ⟨0⟩
    else if 310 < size then infinity
    else if size < -330 then ⟨0⟩
    else if 0 ≤ power then roundRatio (digits * Nat.pow 10 power.toNat) 1
    else roundRatio digits (Nat.pow 10 (-power).toNat))

end EntityModel.Binary64
