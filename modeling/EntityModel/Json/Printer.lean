import EntityModel.Json.Basic
import EntityModel.Decimal.Notation

/-!
# JSON text

Two written forms of a JSON value: `compact` has no blanks at all, `pretty` gives every item and
entry a line of its own, indented by two blanks for each level. In strings only quotes,
backslashes and control characters are escaped.
-/

namespace EntityModel.Json

/-- Four digits in base 16. -/
def fourHexDigits (n : Nat) : List Char :=
  let digits := Nat.toDigits 16 n
  List.replicate (4 - digits.length) '0' ++ digits

/-- A character inside a JSON string. -/
def escapeChar (c : Char) : List Char :=
  if c = '"' then ['\\', '"']
  else if c = '\\' then ['\\', '\\']
  else if c = '\x08' then ['\\', 'b']
  else if c = '\x0c' then ['\\', 'f']
  else if c = '\n' then ['\\', 'n']
  else if c = '\r' then ['\\', 'r']
  else if c = '\t' then ['\\', 't']
  else if c.toNat < 32 then '\\' :: 'u' :: fourHexDigits c.toNat
  else [c]

def stringText (text : String) : List Char :=
  '"' :: text.toList.flatMap escapeChar ++ ['"']

/-- The text of a value that has no parts. -/
def leafText : Json → List Char
  | .null => "null".toList
  | .bool true => "true".toList
  | .bool false => "false".toList
  | .int value => (toString value).toList
  | .float value => (Decimal.Layout.json.render value).toList
  | .string value => stringText value
  | .array _ => ['[', ']']
  | .object _ => ['\x7b', '\x7d']

/-! ## Without blanks -/

mutual
/-- The text of a value without blanks. -/
def compactText : Json → List Char
  | .array items => '[' :: compactItems items ++ [']']
  | .object entries => '\x7b' :: compactEntries entries ++ ['\x7d']
  | leaf => leafText leaf

/-- The items, with commas between them. -/
def compactItems : List Json → List Char
  | [] => []
  | [item] => compactText item
  | item :: rest => compactText item ++ ',' :: compactItems rest

/-- The entries, with commas between them. -/
def compactEntries : List (String × Json) → List Char
  | [] => []
  | [(key, value)] => stringText key ++ ':' :: compactText value
  | (key, value) :: rest => stringText key ++ ':' :: compactText value ++ ',' :: compactEntries rest
end

/-- The text of a value without blanks. -/
def compact (value : Json) : String := String.ofList (compactText value)

/-! ## On lines -/

/-- A new line at a depth. -/
def newLine (depth : Nat) : List Char := '\n' :: List.replicate (2 * depth) ' '

mutual
/-- The text of a value whose first line is already indented. -/
def prettyText (depth : Nat) : Json → List Char
  | .array (item :: items) =>
    '[' :: prettyItems (depth + 1) (item :: items) ++ newLine depth ++ [']']
  | .object (entry :: entries) =>
    '\x7b' :: prettyEntries (depth + 1) (entry :: entries) ++ newLine depth ++ ['\x7d']
  | leaf => leafText leaf

/-- The items, each on a line of its own. -/
def prettyItems (depth : Nat) : List Json → List Char
  | [] => []
  | [item] => newLine depth ++ prettyText depth item
  | item :: rest => newLine depth ++ prettyText depth item ++ ',' :: prettyItems depth rest

/-- The entries, each on a line of its own. -/
def prettyEntries (depth : Nat) : List (String × Json) → List Char
  | [] => []
  | [(key, value)] => newLine depth ++ stringText key ++ ':' :: ' ' :: prettyText depth value
  | (key, value) :: rest =>
    newLine depth ++ stringText key ++ ':' :: ' ' :: prettyText depth value ++
      ',' :: prettyEntries depth rest
end

/-- The text of a value on lines, without a newline at its end. -/
def pretty (value : Json) : String := String.ofList (prettyText 0 value)

end EntityModel.Json
