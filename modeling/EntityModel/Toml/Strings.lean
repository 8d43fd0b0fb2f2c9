import EntityModel.Text.Digits

/-!
# Strings of TOML documents

Four written forms of a text: basic strings with escapes and literal ones without, each on one line
or on several. Every reader starts behind the opening quotes and gives the text and what follows the
closing ones. Newlines within a string count as one character, however they are written.
-/

namespace EntityModel.Toml

/-- A blank within a line. -/
def isSpace (c : Char) : Bool := c = ' ' || c = '\t'

/-- Characters that may stand in comments and strings: no controls but the tab. -/
def isPlain (c : Char) : Bool := c = '\t' || (32 ≤ c.toNat && c.toNat ≠ 127)

/-- Splits off the newline that a text begins with. -/
def newline? : List Char → Option (List Char)
  | '\n' :: rest => some rest
  | '\r' :: '\n' :: rest => some rest
  | _ => none

/-- What follows the blanks and newlines that a text begins with. -/
def skipLines : List Char → List Char
  | [] => []
  | '\n' :: rest => skipLines rest
  | '\r' :: '\n' :: rest => skipLines rest
  | c :: rest => if isSpace c then skipLines rest else c :: rest

/-- The character of an escape of one letter. -/
def letterEscape? : Char → Option Char
  | 'b' => some '\x08'
  | 't' => some '\t'
  | 'n' => some '\n'
  | 'f' => some '\x0c'
  | 'r' => some '\r'
  | '"' => some '"'
  | '\\' => some '\\'
  | _ => none

/-- Reads an escape behind its backslash. -/
def readEscape : List Char → Option (Char × List Char)
  | 'u' :: rest => do
    let c ← Text.scalar? (← Text.hexNumber? (rest.take 4))
    if rest.length < 4 then none else return (c, rest.drop 4)
  | 'U' :: rest => do
    let c ← Text.scalar? (← Text.hexNumber? (rest.take 8))
    if rest.length < 8 then none else return (c, rest.drop 8)
  | c :: rest => do return (← letterEscape? c, rest)
  | [] => none

/-- A basic string on one line. -/
def readBasic : (fuel : Nat) → List Char → Option (List Char × List Char)
  | 0, _ => none
  | _ + 1, '"' :: rest => some ([], rest)
  | fuel + 1, '\\' :: rest => do
    let (c, rest) ← readEscape rest
    let (text, rest) ← readBasic fuel rest
    return (c :: text, rest)
  | fuel + 1, c :: rest =>
    if isPlain c then do
      let (text, rest) ← readBasic fuel rest
      return (c :: text, rest)
    else none
  | _ + 1, [] => none

/-- A literal string on one line. -/
def readLiteral : List Char → Option (List Char × List Char)
  | [] => none
  | c :: rest =>
    if c = '\'' then some ([], rest)
    else if isPlain c then do
      let (text, rest) ← readLiteral rest
      return (c :: text, rest)
    else none

/-- Up to two quotes directly before the closing ones belong to the text. -/
def readClosing (quote : Char) : List Char → List Char × List Char
  | a :: b :: rest =>
    if a = quote && b = quote then ([quote, quote], rest)
    else if a = quote then ([quote], b :: rest)
    else ([], a :: b :: rest)
  | [a] => if a = quote then ([quote], []) else ([], [a])
  | [] => ([], [])

/-- A basic string on several lines. A backslash at the end of a line takes away all blanks and
newlines up to the next character. -/
def readBasicLines : (fuel : Nat) → List Char → Option (List Char × List Char)
  | 0, _ => none
  | _ + 1, '"' :: '"' :: '"' :: rest => some (readClosing '"' rest)
  | fuel + 1, '\\' :: rest =>
    match newline? (rest.dropWhile isSpace) with
    | some rest => readBasicLines fuel (skipLines rest)
    | none => do
      let (c, rest) ← readEscape rest
      let (text, rest) ← readBasicLines fuel rest
      return (c :: text, rest)
  | fuel + 1, c :: rest => do
    match newline? (c :: rest) with
    | some rest =>
      let (text, rest) ← readBasicLines fuel rest
      return ('\n' :: text, rest)
    | none =>
      if isPlain c then
        let (text, rest) ← readBasicLines fuel rest
        return (c :: text, rest)
      else none
  | _ + 1, [] => none

/-- A literal string on several lines. -/
def readLiteralLines : (fuel : Nat) → List Char → Option (List Char × List Char)
  | 0, _ => none
  | _ + 1, '\'' :: '\'' :: '\'' :: rest => some (readClosing '\'' rest)
  | fuel + 1, c :: rest => do
    match newline? (c :: rest) with
    | some rest =>
      let (text, rest) ← readLiteralLines fuel rest
      return ('\n' :: text, rest)
    | none =>
      if isPlain c then
        let (text, rest) ← readLiteralLines fuel rest
        return (c :: text, rest)
      else none
  | _ + 1, [] => none

/-- Reads a string on one line: a key, or a value that is not on several lines. -/
def readString : List Char → Option (List Char × List Char)
  | '"' :: rest => readBasic (rest.length + 1) rest
  | '\'' :: rest => readLiteral rest
  | _ => none

/-- Reads a string that is a value. A newline directly behind three quotes is not part of it. -/
def readAnyString : List Char → Option (List Char × List Char)
  | '"' :: '"' :: '"' :: rest =>
    readBasicLines (rest.length + 1) ((newline? rest).getD rest)
  | '\'' :: '\'' :: '\'' :: rest =>
    readLiteralLines (rest.length + 1) ((newline? rest).getD rest)
  | text => readString text

end EntityModel.Toml
