import EntityModel.Decimal.Shortest

/-!
# How decimals are written

A `Layout` fixes the decisions that the value leaves open: from which sizes on an exponent is
written, whether whole numbers end in `.0`, and the texts of the numbers that are not finite.

* `Layout.plain`: never an exponent, whole numbers without a point.
* `Layout.json`: a point or an exponent always shows that the number is not an integer.
-/

namespace EntityModel.Decimal

/-- The decisions of a written form. -/
structure Layout where
  /-- Sizes (the exponent of the first digit) that are written without an exponent. -/
  positional : Int → Bool
  /-- Whole numbers without an exponent end in `.0`. -/
  pointZero : Bool
  tie : Tie
  nan : String
  infinity : String
  negativeInfinity : String

/-- Numbers in messages and in text fields: all digits are written out. -/
def Layout.plain : Layout where
  positional := fun _ => true
  pointZero := false
  tie := .up
  nan := "NaN"
  infinity := "inf"
  negativeInfinity := "-inf"

/-- Numbers in JSON text: positional from 0.00001 up to sixteen digits before the point. JSON has
no other numbers than finite ones. -/
def Layout.json : Layout where
  positional := fun size => -5 ≤ size && size ≤ 15
  pointZero := true
  tie := .toEven
  nan := "null"
  infinity := "null"
  negativeInfinity := "null"

def zeros (n : Nat) : List Char := List.replicate n '0'

/-- Digits with a point, `digits * 10 ^ power`. -/
def positionalText (pointZero : Bool) (digits : List Char) (power : Int) : List Char :=
  if 0 ≤ power then digits ++ zeros power.toNat ++ (if pointZero then ['.', '0'] else [])
  else
    let places := (-power).toNat
    if places < digits.length then
      digits.take (digits.length - places) ++ '.' :: digits.drop (digits.length - places)
    else '0' :: '.' :: zeros (places - digits.length) ++ digits

/-- One digit before the point and an exponent with its sign. -/
def exponentText (digits : List Char) (size : Int) : List Char :=
  digits.take 1 ++ (if digits.length ≤ 1 then [] else '.' :: digits.drop 1) ++
    'e' :: (if size < 0 then '-' else '+') :: Nat.toDigits 10 size.natAbs

/-- The text of a magnitude. -/
def Layout.magnitude (layout : Layout) (d : Decimal) : List Char :=
  let digits := Nat.toDigits 10 d.digits
  let size : Int := digits.length + d.power - 1
  if layout.positional size then positionalText layout.pointZero digits d.power
  else exponentText digits size

/-- The text of a number. -/
def Layout.render (layout : Layout) (x : Binary64) : String :=
  if x.isNaN then layout.nan
  else if ¬ x.isFinite then if x.negative then layout.negativeInfinity else layout.infinity
  else
    let decimal := if x.isZero then ⟨0, 0⟩ else shortest layout.tie x
    String.ofList ((if x.negative then ['-'] else []) ++ layout.magnitude decimal)

end EntityModel.Decimal
