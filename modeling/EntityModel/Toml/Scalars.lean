import EntityModel.Binary64.Rounding
import EntityModel.Json.Basic
import EntityModel.Text.Digits

/-!
# Numbers, dates and times of TOML documents

A date or time is only checked and kept as its text: the document's tree holds it as an object of
one entry. Digits of numbers may have single underscores between them.
-/

namespace EntityModel.Toml

/-! ## Dates and times -/

/-- Reads a number of exactly `count` decimal digits. -/
def readFixed (count : Nat) (text : List Char) : Option (Nat × List Char) :=
  let digits := text.take count
  if digits.length = count && digits.all Char.isDigit then
    some (Text.decimalValue digits, text.drop count)
  else none

/-- Reads a number of two digits from a range. -/
def readTwo (low high : Nat) (text : List Char) : Option (Nat × List Char) := do
  let (n, rest) ← readFixed 2 text
  if low ≤ n && n ≤ high then return (n, rest) else none

/-- Reads one given character. -/
def readChar (c : Char) : List Char → Option (List Char)
  | d :: rest => if d = c then some rest else none
  | [] => none

def daysOf (year month : Nat) : Nat :=
  if month = 2 then
    if year % 4 = 0 && (year % 100 ≠ 0 || year % 400 = 0) then 29 else 28
  else if [4, 6, 9, 11].contains month then 30
  else 31

/-- Reads a date of the calendar. -/
def readDate (text : List Char) : Option (List Char) := do
  let (year, rest) ← readFixed 4 text
  let (month, rest) ← readTwo 1 12 (← readChar '-' rest)
  let (_, rest) ← readTwo 1 (daysOf year month) (← readChar '-' rest)
  return rest

/-- Reads a time of the day; a minute may have a leap second. -/
def readTime (text : List Char) : Option (List Char) := do
  let (_, rest) ← readTwo 0 23 text
  let (_, rest) ← readTwo 0 59 (← readChar ':' rest)
  let (_, rest) ← readTwo 0 60 (← readChar ':' rest)
  match rest with
  | '.' :: c :: rest => if c.isDigit then return rest.dropWhile Char.isDigit else none
  | '.' :: [] => none
  | rest => return rest

/-- Reads the distance to universal time, if there is one. -/
def readOffset (text : List Char) : List Char :=
  match text with
  | [] => text
  | c :: rest =>
    if c = 'Z' || c = 'z' then rest
    else if c = '+' || c = '-' then
      let after := do
        let (_, rest) ← readTwo 0 23 rest
        let (_, rest) ← readTwo 0 59 (← readChar ':' rest)
        pure rest
      after.getD text
    else text

/-- Reads a date, a time or both. -/
def readDateTime (text : List Char) : Option (List Char) :=
  match readDate text with
  | some (c :: rest) =>
    if c = 'T' || c = 't' || c = ' ' then
      match readTime rest with
      | some rest => some (readOffset rest)
      | none => some (c :: rest)
    else some (c :: rest)
  | some [] => some []
  | none => readTime text

/-- The tree of a date or time. -/
def dateTimeTree (text rest : List Char) : Json :=
  .object [("datetime", .string (String.ofList (text.take (text.length - rest.length))))]

/-! ## Numbers -/

/-- Splits off digits with single underscores between them: the digits alone, and the rest. -/
def spanDigits (isDigit : Char → Bool) : List Char → List Char × List Char
  | c :: '_' :: d :: rest =>
    if isDigit c then
      if isDigit d then
        let (digits, rest) := spanDigits isDigit (d :: rest)
        (c :: digits, rest)
      else ([c], '_' :: d :: rest)
    else ([], c :: '_' :: d :: rest)
  | c :: rest =>
    if isDigit c then
      let (digits, rest) := spanDigits isDigit rest
      (c :: digits, rest)
    else ([], c :: rest)
  | [] => ([], [])

/-- Reads digits, at least one. -/
def readDigits (isDigit : Char → Bool) (text : List Char) : Option (List Char × List Char) :=
  let (digits, rest) := spanDigits isDigit text
  if digits.isEmpty then none else some (digits, rest)

/-- An integer, if 64 bits with a sign hold it. -/
def integer? (n : Int) : Option Json := if Binary64.inInt64 n then some (.int n) else none

/-- The base that a marked integer is written in, and its digits. -/
def base? : Char → Option (Nat × (Char → Bool))
  | 'x' => some (16, fun c => (Text.hexValue? c).isSome)
  | 'o' => some (8, fun c => '0' ≤ c && c ≤ '7')
  | 'b' => some (2, fun c => c = '0' || c = '1')
  | _ => none

/-- Reads an integer in another base than ten. -/
def readBased (mark : Char) (text : List Char) : Option (Json × List Char) := do
  let (base, isDigit) ← base? mark
  let (digits, rest) ← readDigits isDigit text
  let value := digits.foldl (fun n c => base * n + (Text.hexValue? c).getD 0) 0
  return (← integer? value, rest)

/-- Reads a sign. -/
def readSign : List Char → Bool × List Char
  | '-' :: rest => (true, rest)
  | '+' :: rest => (false, rest)
  | text => (false, text)

/-- Reads the exponent of a number, if there is one. -/
def readExponent (text : List Char) : Option (Option Int × List Char) :=
  match text with
  | [] => some (none, [])
  | c :: rest =>
    if c = 'e' || c = 'E' then do
      let (negative, rest) := readSign rest
      let (digits, rest) ← readDigits Char.isDigit rest
      return (some (Binary64.signed negative (Text.decimalValue digits)), rest)
    else some (none, text)

/-- Reads the digits after a point, if there is one. -/
def readPlaces (text : List Char) : Option (Option (List Char) × List Char) :=
  match text with
  | '.' :: rest => do
    let (digits, rest) ← readDigits Char.isDigit rest
    return (some digits, rest)
  | _ => some (none, text)

/-- Reads a decimal number behind its sign. -/
def readDecimal (negative : Bool) (text : List Char) : Option (Json × List Char) := do
  let (whole, rest) ← match text with
    | '0' :: rest => some (['0'], rest)
    | text => readDigits Char.isDigit text
  let (places, rest) ← readPlaces rest
  let (exponent, rest) ← readExponent rest
  if places.isNone && exponent.isNone then
    return (← integer? (Binary64.signed negative (Text.decimalValue whole)), rest)
  else
    let digits := whole ++ places.getD []
    let x := Binary64.ofDecimal negative (Text.decimalValue digits)
      (exponent.getD 0 - (places.getD []).length)
    if x = Binary64.infinity then none else return (.float x, rest)

/-- Reads a number. -/
def readNumber (text : List Char) : Option (Json × List Char) :=
  let (negative, unsigned) := readSign text
  match unsigned with
  | 'i' :: 'n' :: 'f' :: rest => some (.float (Binary64.withSign negative .infinity), rest)
  | 'n' :: 'a' :: 'n' :: rest =>
    some (.float (Binary64.withSign negative ⟨0x7FF8000000000000⟩), rest)
  | '0' :: mark :: rest =>
    if text.length = unsigned.length && (base? mark).isSome then readBased mark rest
    else readDecimal negative unsigned
  | _ => readDecimal negative unsigned

end EntityModel.Toml
