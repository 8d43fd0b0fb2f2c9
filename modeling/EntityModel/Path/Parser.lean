import EntityModel.Path.Basic
import EntityModel.Text.Digits
import EntityModel.Text.Quoted

/-!
# Reading paths

`Path.parse` reads the written form. A text is cut at its points; every part is a name followed by
indices in brackets, and only the first part may lack the name. Places in errors are byte offsets.
-/

namespace EntityModel.Path

/-- Why a text is no path. -/
inductive ParseError where
  | empty
  | emptyName (place : Nat)
  | unclosedBracket (place : Nat)
  | invalidIndex (place : Nat) (text : String)
  | unexpectedChar (found : Char) (place : Nat)
deriving DecidableEq, Repr

def ParseError.message : ParseError → String
  | .empty => "empty path"
  | .emptyName place => "empty name in path at position " ++ toString place
  | .unclosedBracket place => "unclosed bracket starting at position " ++ toString place
  | .invalidIndex place text =>
    "invalid index at position " ++ toString place ++ ": " ++ Text.quote text
  | .unexpectedChar found place =>
    "unexpected character " ++ Text.quoteChar found ++ " at position " ++ toString place

/-- How many bytes a text takes. -/
def byteLength : List Char → Nat
  | [] => 0
  | c :: rest => c.utf8Size + byteLength rest

/-- The parts between the points of a text; there is always at least one. -/
def splitPoints : List Char → List (List Char)
  | [] => [[]]
  | c :: rest =>
    if c = '.' then [] :: splitPoints rest
    else match splitPoints rest with
      | part :: parts => (c :: part) :: parts
      | [] => [[c]]

/-! ## Indices -/

/-- The value of decimal digits, if there are only such and at least one. -/
def decimal? (digits : List Char) : Option Nat :=
  if digits.isEmpty || !digits.all Char.isDigit then none
  else some (Text.decimalValue digits)

/-- A position: decimal digits, maybe behind a plus sign, for a number below 2 ^ 64. -/
def index? (text : List Char) : Option UInt64 :=
  let digits := match text with
    | '+' :: digits => digits
    | digits => digits
  (decimal? digits).bind fun n => if n < UInt64.size then some (UInt64.ofNat n) else none

mutual
/-- Reads indices to the end of a part; `place` is the offset of the next character. -/
def readIndices (place : Nat) : List Char → Except ParseError (List Segment)
  | [] => .ok []
  | c :: rest =>
    if c = '[' then readBracket place (place + 1) [] rest
    else .error (.unexpectedChar c place)

/-- Reads on in a bracket that opened at the offset `opened`; `digits` is what it holds so far. -/
def readBracket (opened place : Nat) (digits : List Char) :
    List Char → Except ParseError (List Segment)
  | [] => .error (.unclosedBracket opened)
  | c :: rest =>
    if c = ']' then
      match index? digits with
      | none => .error (.invalidIndex (opened + 1) (String.ofList digits))
      | some position => return .index position :: (← readIndices (place + 1) rest)
    else readBracket opened (place + c.utf8Size) (digits ++ [c]) rest
end

/-! ## Parts -/

/-- Reads one part that begins at the offset `place`; only the first part may lack a name, and only
if it has an index. -/
def readPart (first : Bool) (place : Nat) (part : List Char) : Except ParseError (List Segment) :=
  let name := part.takeWhile (· ≠ '[')
  let indices := part.dropWhile (· ≠ '[')
  if name.isEmpty && (!first || indices.isEmpty) then .error (.emptyName place)
  else if name.contains ']' then
    .error (.unexpectedChar ']' (place + byteLength (name.takeWhile (· ≠ ']'))))
  else do
    let segments ← readIndices (place + byteLength name) indices
    return (if name.isEmpty then segments else .key (String.ofList name) :: segments)

/-- Reads the parts in order. -/
def readParts (first : Bool) (place : Nat) : List (List Char) → Except ParseError Path
  | [] => .ok []
  | part :: parts => do
    let segments ← readPart first place part
    return segments ++ (← readParts false (place + byteLength part + 1) parts)

/-- Reads a text that is one path. -/
def parse (input : String) : Except ParseError Path :=
  if input.isEmpty then .error .empty else readParts true 0 (splitPoints input.toList)

end EntityModel.Path
