import EntityModel.ValueType.Printer
import EntityModel.Text.Alphanumeric
import EntityModel.Text.Blank
import EntityModel.Text.Quoted

/-!
# Reading types

`parse` reads a type expression: the written form with any blanks before names and marks and at the
end. Fields may stand in any order, each name once. The reader works on the characters that are
left; the place of an error is how many bytes of the input are behind it.
-/

namespace EntityModel.ValueType

/-- Why a text is no type expression. Places are byte offsets. -/
inductive ParseError where
  /-- A type ends before the text does. -/
  | trailing (rest input : String)
  /-- A mark is missing. -/
  | expectedMark (mark : Char) (place : Nat) (input : String) (found : Option Char)
  | expectedTypeName (place : Nat) (input : String)
  | unknownType (name : String)
  | expectedFieldName (place : Nat) (input : String)
  | duplicateField (name : String)
  /-- A field is followed neither by a comma nor by the closing brace. -/
  | expectedSeparator (place : Nat) (input : String) (found : Option Char)
deriving DecidableEq, Repr

/-- The character found at the place of an error, if the text goes on there. -/
def foundText : Option Char → String
  | none => "None"
  | some c => "Some(" ++ Text.quoteChar c ++ ")"

/-- What is wrong with the text. -/
def ParseError.detail : ParseError → String
  | .trailing rest input =>
    "unexpected trailing input " ++ Text.quote rest ++ " in " ++ Text.quote input
  | .expectedMark mark place input found =>
    "expected " ++ Text.quoteChar mark ++ " at offset " ++ toString place ++ " in " ++
      Text.quote input ++ ", found " ++ foundText found
  | .expectedTypeName place input =>
    "expected a type name at offset " ++ toString place ++ " in " ++ Text.quote input
  | .unknownType name => "unknown type " ++ Text.quote name
  | .expectedFieldName place input =>
    "expected a field name at offset " ++ toString place ++ " in " ++ Text.quote input
  | .duplicateField name => "duplicate object field " ++ Text.quote name
  | .expectedSeparator place input found =>
    "expected ',' or '\x7d' at offset " ++ toString place ++ " in " ++ Text.quote input ++
      ", found " ++ foundText found

def ParseError.message (e : ParseError) : String := "invalid type expression: " ++ e.detail

/-! ## The words of type expressions -/

/-- Names are made of alphanumeric characters, underscores and hyphens. -/
def isNameChar (c : Char) : Bool := Text.isAlphanumeric c || c = '_' || c = '-'

def skipBlanks (text : List Char) : List Char := text.dropWhile Text.isBlank

/-- The name at the beginning of a text, maybe empty, and what follows it. -/
def spanName (text : List Char) : List Char × List Char :=
  (text.takeWhile isNameChar, text.dropWhile isNameChar)

/-- How many bytes of the input are behind a rest of it. -/
def placeOf (input : String) (rest : List Char) : Nat :=
  input.utf8ByteSize - (String.ofList rest).utf8ByteSize

/-- Reads a mark after blanks. -/
def expect (input : String) (mark : Char) (text : List Char) : Except ParseError (List Char) :=
  match skipBlanks text with
  | c :: rest =>
    if c = mark then .ok rest
    else .error (.expectedMark mark (placeOf input (c :: rest)) input (some c))
  | [] => .error (.expectedMark mark (placeOf input []) input none)

/-- The constructor of a collection type by its name. -/
def collection? : String → Option (ValueType → ValueType)
  | "list" => some .list
  | "set" => some .set
  | "map" => some .map
  | _ => none

/-- A scalar type by its name. -/
def scalar? : String → Option ValueType
  | "string" => some .string
  | "int64" => some .int64
  | "float64" => some .float64
  | "bool" => some .bool
  | _ => none

/-! ## Types -/

mutual
/-- Reads a type, after blanks. Each level of nesting and each field takes one unit of fuel. -/
def readType (input : String) : (fuel : Nat) → List Char →
    Except ParseError (ValueType × List Char)
  | 0, text => .error (.expectedTypeName (placeOf input text) input)
  | fuel + 1, text => do
    let (chars, rest) := spanName (skipBlanks text)
    let name := String.ofList chars
    if chars.isEmpty then .error (.expectedTypeName (placeOf input rest) input)
    else if let some type := scalar? name then return (type, rest)
    else if let some wrap := collection? name then
      let rest ← expect input '<' rest
      let (element, rest) ← readType input fuel rest
      let rest ← expect input '>' rest
      return (wrap element, rest)
    else if name = "object" then
      let rest ← expect input '\x7b' rest
      match skipBlanks rest with
      | '\x7d' :: rest => return (.object [], rest)
      | rest =>
        let (fields, rest) ← readFields input fuel [] rest
        return (.object fields, rest)
    else .error (.unknownType name)

/-- Reads at least one field, up to the closing brace, behind the fields that are already read. -/
def readFields (input : String) : (fuel : Nat) → (done : Assoc ValueType) → List Char →
    Except ParseError (Assoc ValueType × List Char)
  | 0, _, text => .error (.expectedFieldName (placeOf input text) input)
  | fuel + 1, done, text => do
    let (chars, rest) := spanName (skipBlanks text)
    let name := String.ofList chars
    if chars.isEmpty then .error (.expectedFieldName (placeOf input rest) input)
    else
      let rest ← expect input ':' rest
      let (type, rest) ← readType input fuel rest
      if Assoc.has done name then .error (.duplicateField name)
      else
        let done := Assoc.insert name type done
        match skipBlanks rest with
        | ',' :: rest => readFields input fuel done rest
        | '\x7d' :: rest => return (done, rest)
        | c :: rest => .error (.expectedSeparator (placeOf input (c :: rest)) input (some c))
        | [] => .error (.expectedSeparator (placeOf input []) input none)
end

/-- Reads a text that is one type expression. -/
def parse (input : String) : Except ParseError ValueType := do
  let chars := input.toList
  let (type, rest) ← readType input (chars.length + 1) chars
  let rest := skipBlanks rest
  if rest.isEmpty then return type
  else .error (.trailing (String.ofList rest) input)

end EntityModel.ValueType
