import EntityModel.Binary64.Basic

/-!
# The shortest decimal that reads back

Every finite number other than zero is the nearest one to an interval of decimals. `shortest` finds
a decimal of fewest digits in that interval, and of several the one nearest to the number; `Tie`
says which one counts when two are equally near.
-/

namespace EntityModel

/-- A decimal without a sign, `digits * 10 ^ power`. -/
structure Decimal where
  digits : Nat
  power : Int
deriving DecidableEq, Repr

namespace Decimal

/-- Which of two equally near decimals counts. -/
inductive Tie where
  | up
  | toEven
deriving DecidableEq, Repr

/-- How many decimal digits a natural has. -/
def width (n : Nat) : Nat := (Nat.toDigits 10 n).length

/-- The decimal exponent of the first digit of `num / den`. -/
def leadingPower (num den : Nat) : Int :=
  let estimate : Int := (width num : Int) - width den
  let reaches := if 0 ≤ estimate then den * Nat.pow 10 estimate.toNat ≤ num
    else den ≤ num * Nat.pow 10 (-estimate).toNat
  if reaches then estimate else estimate - 1

/-- The decimals that read back as `significand * 2 ^ exponent`, in quarters of the last place: from
`low` to `high`, the ends included for an even significand. Below a power of two the gap to the next
number is half as wide. -/
structure Interval where
  low : Nat
  value : Nat
  high : Nat
  closed : Bool
  exponent : Int

def Interval.around (x : Binary64) : Interval where
  low := 4 * x.significand - (if x.fraction = 0 && 1 < x.exponentField then 1 else 2)
  value := 4 * x.significand
  high := 4 * x.significand + 2
  closed := x.significand % 2 = 0
  exponent := x.exponent - 2

/-- The better of the two neighbours of the number among the multiples of `10 ^ power`, if one of
them lies in the interval. -/
def Interval.candidate? (tie : Tie) (i : Interval) (power : Int) : Option Nat :=
  let grid := Nat.pow 10 power.toNat <<< (-i.exponent).toNat
  let unit := Nat.pow 10 (-power).toNat <<< i.exponent.toNat
  let inside (n : Nat) : Bool :=
    if i.closed then i.low * unit ≤ n * grid && n * grid ≤ i.high * unit
    else i.low * unit < n * grid && n * grid < i.high * unit
  let below := i.value * unit / grid
  let rest := 2 * (i.value * unit % grid)
  let takeBelow := rest < grid || rest = grid && tie = .toEven && below % 2 = 0
  match inside below, inside (below + 1) with
  | true, true => some (if takeBelow then below else below + 1)
  | true, false => some below
  | false, true => some (below + 1)
  | false, false => none

/-- The decimal without zeros at the end of its digits. -/
def trimmed : (steps : Nat) → (digits : Nat) → (power : Int) → Decimal
  | 0, digits, power => ⟨digits, power⟩
  | steps + 1, digits, power =>
    if digits % 10 = 0 then trimmed steps (digits / 10) (power + 1) else ⟨digits, power⟩

/-- Tries more and more digits. -/
def search (tie : Tie) (i : Interval) (leading : Int) : (tries : Nat) → (count : Nat) → Decimal
  | 0, _ => ⟨0, 0⟩
  | tries + 1, count =>
    match i.candidate? tie (leading - count + 1) with
    | some digits => trimmed (count + 1) digits (leading - count + 1)
    | none => search tie i leading tries (count + 1)

/-- The shortest decimal that reads back as the magnitude of a finite number other than zero.
Seventeen digits always suffice. -/
def shortest (tie : Tie) (x : Binary64) : Decimal :=
  let num := x.significand <<< x.exponent.toNat
  let den := 1 <<< (-x.exponent).toNat
  search tie (.around x) (leadingPower num den) 17 1

end Decimal

end EntityModel
