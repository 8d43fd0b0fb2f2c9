import EntityModel.Binary64.Rounding
import EntityModel.Text.Digits

/-!
# Reading decimals

`Decimal.read?` reads the text of a number: a sign, digits with at most one point among or around
them, and an exponent, where only the digits must be there. The result is the nearest
floating-point number; a text beyond the finite numbers is refused.
-/

namespace EntityModel.Decimal

/-- Takes a sign off a text: whether it was a minus, and the rest. -/
def readSign : List Char → Bool × List Char
  | '-' :: rest => (true, rest)
  | '+' :: rest => (false, rest)
  | rest => (false, rest)

/-- The exponent that a text consists of, zero for an empty text. -/
def exponentOf? : List Char → Option Int
  | [] => some 0
  | c :: rest =>
    if c = 'e' || c = 'E' then
      let (negative, digits) := readSign rest
      if digits.isEmpty || !digits.all Char.isDigit then none
      else some (Binary64.signed negative (Text.decimalValue digits))
    else none

/-- The digits after a point and what follows them; without a point there are none. -/
def placesOf : List Char → List Char × List Char
  | '.' :: rest => (rest.takeWhile Char.isDigit, rest.dropWhile Char.isDigit)
  | rest => ([], rest)

/-- The number that a text denotes. -/
def read? (text : List Char) : Option Binary64 :=
  let (negative, unsigned) := readSign text
  let whole := unsigned.takeWhile Char.isDigit
  let (places, rest) := placesOf (unsigned.dropWhile Char.isDigit)
  if whole.isEmpty && places.isEmpty then none
  else
    match exponentOf? rest with
    | none => none
    | some exponent =>
      let digits := Text.decimalValue (whole ++ places)
      let x := Binary64.ofDecimal negative digits (exponent - places.length)
      if x.isFinite then some x else none

end EntityModel.Decimal
