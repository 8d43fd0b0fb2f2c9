import EntityModel.Json.Basic
import EntityModel.Binary64.Rounding
import EntityModel.Text.Digits

/-!
# Reading JSON text

`parse?` reads a text that is one JSON value with blanks around it. Numbers without a point and an
exponent are integers as far as 64 bits hold them, with or without a sign; larger ones and `-0` are
floating-point numbers. A number beyond the finite ones, a control character in a string and half of
a surrogate pair are refused. Of two entries with one key the later counts.
-/

namespace EntityModel.Json

/-! ## Numbers -/

/-- Splits off the digits that a text begins with. -/
def spanDigits (text : List Char) : List Char × List Char :=
  (text.takeWhile Char.isDigit, text.dropWhile Char.isDigit)

/-- The digits after a point, if there is one; a point needs at least one digit. -/
def readPlaces : List Char → Option (List Char × List Char)
  | '.' :: rest =>
    let (digits, rest) := spanDigits rest
    if digits.isEmpty then none else some (digits, rest)
  | rest => some ([], rest)

/-- The exponent, if there is one; it needs at least one digit. -/
def readExponent : List Char → Option (Option Int × List Char)
  | c :: rest =>
    if c = 'e' || c = 'E' then
      let (negative, rest) := match rest with
        | '-' :: rest => (true, rest)
        | '+' :: rest => (false, rest)
        | rest => (false, rest)
      let (digits, rest) := spanDigits rest
      if digits.isEmpty then none
      else some (some (Binary64.signed negative (Text.decimalValue digits)), rest)
    else some (none, c :: rest)
  | [] => some (none, [])

/-- An integer, as far as 64 bits hold it. -/
def ofIntegerDigits (negative : Bool) (magnitude : Nat) : Json :=
  if negative then
    if magnitude = 0 || Int64.minValue.toInt.natAbs < magnitude then
      .float (.ofDecimal true magnitude 0)
    else .int (-magnitude)
  else if magnitude < UInt64.size then .int magnitude
  else .float (.ofDecimal false magnitude 0)

/-- A finite number. -/
def finite? (x : Binary64) : Option Json := if x.isFinite then some (.float x) else none

/-- A number behind its sign. -/
def readMagnitude (negative : Bool) (text : List Char) : Option (Json × List Char) := do
  let (whole, rest) := spanDigits text
  if whole.isEmpty || 1 < whole.length && whole.head? = some '0' then none
  else
    let (places, rest) ← readPlaces rest
    let (exponent, rest) ← readExponent rest
    if places.isEmpty && exponent.isNone then
      match ofIntegerDigits negative (Text.decimalValue whole) with
      | .float x => return (← finite? x, rest)
      | number => return (number, rest)
    else
      let power := exponent.getD 0 - places.length
      return (← finite? (.ofDecimal negative (Text.decimalValue (whole ++ places)) power), rest)

def readNumber : List Char → Option (Json × List Char)
  | '-' :: rest => readMagnitude true rest
  | text => readMagnitude false text

/-! ## Strings -/

/-- The characters that stand for themselves or another one behind a backslash. -/
def simpleEscape? : Char → Option Char
  | '"' => some '"'
  | '\\' => some '\\'
  | '/' => some '/'
  | 'b' => some '\x08'
  | 'f' => some '\x0c'
  | 'n' => some '\n'
  | 'r' => some '\r'
  | 't' => some '\t'
  | _ => none

/-- Reads up to the closing quote. -/
def readStringBody : List Char → Option (List Char × List Char)
  | [] => none
  | '"' :: rest => some ([], rest)
  | '\\' :: 'u' :: a :: b :: c :: d :: rest => do
    let high ← Text.hexNumber? [a, b, c, d]
    if 0xDC00 ≤ high && high < 0xE000 then none
    else if 0xD800 ≤ high && high < 0xDC00 then
      match rest with
      | '\\' :: 'u' :: a :: b :: c :: d :: rest =>
        let low ← Text.hexNumber? [a, b, c, d]
        if 0xDC00 ≤ low && low < 0xE000 then
          let (text, rest) ← readStringBody rest
          return (Char.ofNat (0x10000 + (high - 0xD800) * 1024 + (low - 0xDC00)) :: text, rest)
        else none
      | _ => none
    else
      let (text, rest) ← readStringBody rest
      return (Char.ofNat high :: text, rest)
  | '\\' :: c :: rest => do
    let c ← simpleEscape? c
    let (text, rest) ← readStringBody rest
    return (c :: text, rest)
  | c :: rest =>
    if c.toNat < 32 then none
    else do
      let (text, rest) ← readStringBody rest
      return (c :: text, rest)

/-! ## Values -/

/-- The blanks of JSON text. -/
def isSpace (c : Char) : Bool := c = ' ' || c = '\t' || c = '\n' || c = '\r'

def skipSpace (text : List Char) : List Char := text.dropWhile isSpace

mutual
/-- A value, after blanks. Each level of nesting takes one unit of fuel. -/
def readValue : (fuel : Nat) → List Char → Option (Json × List Char)
  | 0, _ => none
  | fuel + 1, text =>
    match skipSpace text with
    | 'n' :: 'u' :: 'l' :: 'l' :: rest => some (.null, rest)
    | 't' :: 'r' :: 'u' :: 'e' :: rest => some (.bool true, rest)
    | 'f' :: 'a' :: 'l' :: 's' :: 'e' :: rest => some (.bool false, rest)
    | '"' :: rest => do
      let (text, rest) ← readStringBody rest
      return (.string (String.ofList text), rest)
    | '[' :: rest =>
      match skipSpace rest with
      | ']' :: rest => some (.array [], rest)
      | rest => do
        let (items, rest) ← readItems fuel rest
        return (.array items, rest)
    | '\x7b' :: rest =>
      match skipSpace rest with
      | '\x7d' :: rest => some (.object [], rest)
      | rest => do
        let (entries, rest) ← readEntries fuel rest
        return (.object (Assoc.ofList entries), rest)
    | text => readNumber text

/-- At least one item, up to the closing bracket. -/
def readItems : (fuel : Nat) → List Char → Option (List Json × List Char)
  | 0, _ => none
  | fuel + 1, text => do
    let (item, rest) ← readValue fuel text
    match skipSpace rest with
    | ',' :: rest => do
      let (items, rest) ← readItems fuel rest
      return (item :: items, rest)
    | ']' :: rest => return ([item], rest)
    | _ => none

/-- At least one entry, up to the closing brace. -/
def readEntries : (fuel : Nat) → List Char → Option (List (String × Json) × List Char)
  | 0, _ => none
  | fuel + 1, text => do
    match skipSpace text with
    | '"' :: rest => do
      let (key, rest) ← readStringBody rest
      match skipSpace rest with
      | ':' :: rest => do
        let (value, rest) ← readValue fuel rest
        match skipSpace rest with
        | ',' :: rest => do
          let (entries, rest) ← readEntries fuel rest
          return ((String.ofList key, value) :: entries, rest)
        | '\x7d' :: rest => return ([(String.ofList key, value)], rest)
        | _ => none
      | _ => none
    | _ => none
end

/-- Reads a text that is one JSON value. -/
def parse? (text : String) : Option Json := do
  let chars := text.toList
  let (value, rest) ← readValue (chars.length + 1) chars
  if (skipSpace rest).isEmpty then return value else none

end EntityModel.Json
