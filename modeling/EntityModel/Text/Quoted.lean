import EntityModel.Text.Hidden

/-!
# Quoted text in messages

`quote` writes a text in double quotes and `quoteChar` a character in single quotes, so that the
reader of a message sees where it begins and ends and what invisible characters it holds. Each
character is escaped on its own.
-/

namespace EntityModel.Text

/-- The digits of a number in base 16, lower case, without leading zeros. -/
def hexDigits (n : Nat) : List Char := Nat.toDigits 16 n

/-- A character by its number, `\u{301}`. -/
def escapeNumber (c : Char) : List Char :=
  ['\\', 'u', '\x7b'] ++ hexDigits c.toNat ++ ['\x7d']

/-- A character inside quotes that are written `mark`: the mark, the backslash and the three usual
line controls have short escapes, hidden characters are shown by number. -/
def escape (mark c : Char) : List Char :=
  if c = '\x00' then ['\\', '0']
  else if c = '\t' then ['\\', 't']
  else if c = '\r' then ['\\', 'r']
  else if c = '\n' then ['\\', 'n']
  else if c = mark then ['\\', mark]
  else if c = '\\' then ['\\', '\\']
  else if isHidden c then escapeNumber c
  else [c]

/-- A text in double quotes. -/
def quote (text : String) : String :=
  String.ofList ('"' :: text.toList.flatMap (escape '"') ++ ['"'])

/-- A character in single quotes. -/
def quoteChar (c : Char) : String :=
  String.ofList ('\'' :: escape '\'' c ++ ['\''])

end EntityModel.Text
