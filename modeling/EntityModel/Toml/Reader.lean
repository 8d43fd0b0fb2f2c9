import EntityModel.Toml.Scalars
import EntityModel.Toml.Strings
import EntityModel.Toml.Table

/-!
# Reading TOML documents

`parse?` reads a TOML 1.0 document as one tree, whose objects hold their entries in the order of the
document. A byte order mark in front of it is passed over.
-/

namespace EntityModel.Toml

/-- Arrays and inline tables may be nested less deep than this, and dotted keys have fewer names. -/
def nestingLimit : Nat := 80

def skipSpace (text : List Char) : List Char := text.dropWhile isSpace

/-- What follows a comment, if the text begins with one. -/
def skipComment : List Char → List Char
  | '#' :: rest => rest.dropWhile isPlain
  | text => text

/-- What follows blanks, comments and newlines. A comment must end its line. -/
def skipBlankLines : (fuel : Nat) → List Char → List Char
  | 0, text => text
  | fuel + 1, text =>
    let text := skipSpace text
    match newline? (skipComment text) with
    | some rest => skipBlankLines fuel rest
    | none => text

/-- The end of a line: blanks, maybe a comment, then a newline or the end of the document. -/
def endLine (text : List Char) : Option (List Char) :=
  match skipComment (skipSpace text) with
  | [] => some []
  | text => newline? text

/-! ## Keys -/

/-- The characters of a key without quotes. -/
def isBare (c : Char) : Bool := c.isAlphanum || c = '-' || c = '_'

/-- Reads one name of a key. -/
def readName (text : List Char) : Option (String × List Char) :=
  match readString text with
  | some (name, rest) => some (String.ofList name, rest)
  | none =>
    let name := text.takeWhile isBare
    if name.isEmpty then none else some (String.ofList name, text.dropWhile isBare)

/-- Reads the names of a key, with points between them and blanks around. -/
def readKey : (fuel : Nat) → List Char → Option (List String × List Char)
  | 0, _ => none
  | fuel + 1, text => do
    let (name, rest) ← readName (skipSpace text)
    match skipSpace rest with
    | '.' :: rest =>
      let (names, rest) ← readKey fuel rest
      return (name :: names, rest)
    | rest => return ([name], rest)

/-! ## Values -/

mutual
/-- Reads a value. -/
def readValue : (fuel depth : Nat) → List Char → Option (Json × List Char)
  | 0, _, _ => none
  | fuel + 1, depth, text =>
    match text with
    | [] => none
    | '[' :: rest =>
      if nestingLimit ≤ depth + 1 then none
      else do
        let (items, rest) ← readItems fuel (depth + 1) rest
        return (.array items, rest)
    | '\x7b' :: rest =>
      if nestingLimit ≤ depth + 1 then none
      else
        match skipSpace rest with
        | '\x7d' :: rest => some (.object [], rest)
        | rest => do
          let (entries, rest) ← readInline fuel (depth + 1) [] rest
          return (.object (entriesTree entries), rest)
    | 't' :: 'r' :: 'u' :: 'e' :: rest => some (.bool true, rest)
    | 'f' :: 'a' :: 'l' :: 's' :: 'e' :: rest => some (.bool false, rest)
    | c :: _ =>
      if c = '"' || c = '\'' then do
        let (string, rest) ← readAnyString text
        return (.string (String.ofList string), rest)
      else
        match readDateTime text with
        | some rest => some (dateTimeTree text rest, rest)
        | none => readNumber text

/-- Reads the items of an array up to the closing bracket; blanks, comments and newlines may stand
between them, and a comma behind the last one. -/
def readItems : (fuel depth : Nat) → List Char → Option (List Json × List Char)
  | 0, _, _ => none
  | fuel + 1, depth, text =>
    match skipBlankLines text.length text with
    | ']' :: rest => some ([], rest)
    | text => do
      let (item, rest) ← readValue fuel depth text
      match skipBlankLines rest.length rest with
      | ',' :: rest =>
        let (items, rest) ← readItems fuel depth rest
        return (item :: items, rest)
      | ']' :: rest => return ([item], rest)
      | _ => none

/-- Reads at least one entry of an inline table, up to the closing brace, behind those that are
already read. -/
def readInline : (fuel depth : Nat) → Entries → List Char → Option (Entries × List Char)
  | 0, _, _, _ => none
  | fuel + 1, depth, done, text => do
    let (names, rest) ← readKey text.length text
    let rest ← readChar '=' rest
    let (tree, rest) ← readValue fuel depth (skipSpace rest)
    let key ← names.getLast?
    if nestingLimit ≤ names.length then none
    else
      let done ← putDotted tree names.dropLast key done
      match skipSpace rest with
      | ',' :: rest => readInline fuel depth done rest
      | '\x7d' :: rest => return (done, rest)
      | _ => none
end

/-! ## Documents -/

/-- What is read so far: the document, and the header that the next entries stand under. -/
structure State where
  root : Entries
  header : List String

/-- Reads a header behind its opening brackets. -/
def readHeader (double : Bool) (state : State) (text : List Char) :
    Option (State × List Char) := do
  let (names, rest) ← readKey text.length text
  let rest ← readChar ']' rest
  let rest ← if double then readChar ']' rest else some rest
  let rest ← endLine rest
  let key ← names.getLast?
  if nestingLimit ≤ names.length then none
  else
    let start := if double then startItem key else startTable key
    let root ← within start names.dropLast state.root
    return (⟨root, names⟩, rest)

/-- Reads an entry of the current table. -/
def readEntry (state : State) (text : List Char) : Option (State × List Char) := do
  let (names, rest) ← readKey text.length text
  let rest ← readChar '=' rest
  let value := skipSpace rest
  let (tree, rest) ← readValue (value.length + 1) 0 value
  let rest ← endLine rest
  let key ← names.getLast?
  if nestingLimit ≤ names.length then none
  else
    let root ← within (putDotted tree names.dropLast key) state.header state.root
    return ({ state with root := root }, rest)

/-- Reads the lines of a document, one unit of fuel for each. -/
def readLines : (fuel : Nat) → State → List Char → Option Entries
  | 0, _, _ => none
  | fuel + 1, state, text =>
    match skipSpace text with
    | [] => some state.root
    | '[' :: '[' :: rest => do
      let (state, rest) ← readHeader true state rest
      readLines fuel state rest
    | '[' :: rest => do
      let (state, rest) ← readHeader false state rest
      readLines fuel state rest
    | c :: rest =>
      if c = '#' || c = '\n' || c = '\r' then do
        readLines fuel state (← endLine (c :: rest))
      else do
        let (state, rest) ← readEntry state (c :: rest)
        readLines fuel state rest

/-- Reads a document: its entries in order. -/
def parse? (document : String) : Option (List (String × Json)) :=
  let text := match document.toList with
    | '\uFEFF' :: rest => rest
    | text => text
  (readLines (text.length + 1) ⟨[], []⟩ text).map entriesTree

end EntityModel.Toml
