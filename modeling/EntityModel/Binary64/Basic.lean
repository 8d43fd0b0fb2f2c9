/-!
# Binary floating-point numbers of 64 bits

A number is its 64 bits: a sign, an exponent field of 11 bits and a fraction of 52 bits. A finite
number is exactly `± significand * 2 ^ exponent`, and everything below is stated on that value.

* `equals`: numerical equality, under which a NaN differs from itself and both zeros are equal.
* `integer?`: the value as an integer, if it is one.
* `int64?`: the same, if it fits 64 bits.
-/

namespace EntityModel

/-- A binary floating-point number of 64 bits, given by its bits. -/
structure Binary64 where
  bits : UInt64
deriving DecidableEq, Repr

namespace Binary64

/-! ## The three fields -/

/-- The weight 2 ^ 63 of the sign bit. -/
def signBit : Nat := 0x8000000000000000

/-- The weight 2 ^ 52 of the first bit above the fraction field, the leading bit of a significand
of full width. -/
def leadingBit : Nat := 0x10000000000000

/-- The sign bit. -/
def negative (x : Binary64) : Bool := signBit ≤ x.bits.toNat

/-- The exponent field, below 2048. -/
def exponentField (x : Binary64) : Nat := x.bits.toNat / leadingBit % 2048

/-- The fraction field, below 2 ^ 52. -/
def fraction (x : Binary64) : Nat := x.bits.toNat % leadingBit

/-! ## Classes -/

/-- The largest exponent field marks infinities and NaNs. -/
def isFinite (x : Binary64) : Bool := x.exponentField ≠ 2047

def isNaN (x : Binary64) : Bool := x.exponentField = 2047 && x.fraction ≠ 0

def isZero (x : Binary64) : Bool := x.exponentField = 0 && x.fraction = 0

/-! ## The exact value of a finite number -/

/-- The integer part of the value's two factors; the leading bit is written only for exponent
field 0. -/
def significand (x : Binary64) : Nat :=
  if x.exponentField = 0 then x.fraction else x.fraction + leadingBit

/-- The power of two that the significand is multiplied by. -/
def exponent (x : Binary64) : Int := (max x.exponentField 1 : Nat) - 1075

/-- Puts the sign in front of a magnitude. -/
def signed (negative : Bool) (magnitude : Nat) : Int :=
  if negative then -(magnitude : Int) else magnitude

/-- The value as an integer; nothing for a fraction, an infinity or a NaN. -/
def integer? (x : Binary64) : Option Int :=
  if ¬ x.isFinite then none
  else if 0 ≤ x.exponent then some (signed x.negative (x.significand <<< x.exponent.toNat))
  else
    let unit := 1 <<< (-x.exponent).toNat
    if x.significand % unit = 0 then some (signed x.negative (x.significand / unit)) else none

/-- The integers of 64 bits with a sign. -/
def inInt64 (n : Int) : Bool := Int64.minValue.toInt ≤ n && n ≤ Int64.maxValue.toInt

/-- The value as an integer of 64 bits; nothing if it is none or does not fit. -/
def int64? (x : Binary64) : Option Int64 :=
  (x.integer?.filter inInt64).map Int64.ofInt

/-- A whole number is one that 64 bits with a sign can hold. -/
def isWhole (x : Binary64) : Bool := x.int64?.isSome

/-! ## Comparison -/

/-- Numerical equality: a NaN equals nothing, and the zeros of both signs are equal. -/
def equals (x y : Binary64) : Bool :=
  !x.isNaN && !y.isNaN && (x.bits == y.bits || x.isZero && y.isZero)

theorem equals_self {x : Binary64} : equals x x = !x.isNaN := by
  simp [equals]

theorem equals_comm (x y : Binary64) : equals x y = equals y x := by
  simp only [equals, Bool.and_comm x.isZero, BEq.comm (a := x.bits)]
  cases x.isNaN <;> cases y.isNaN <;> rfl

/-! ## The two infinities -/

def infinity : Binary64 := ⟨0x7FF0000000000000⟩

/-- Sets the sign bit of a number without one. -/
def withSign (negative : Bool) (x : Binary64) : Binary64 :=
  if negative then ⟨x.bits ||| 0x8000000000000000⟩ else x

end Binary64

end EntityModel
