import EntityModel.Schema.Encoding
import EntityModel.ValueType.Parser

/-!
# Reading schemas from trees

Trees are read entry by entry in their order, and the first fault is the error. Entries with unknown
names are passed over. An attribute's own entries are read before its shape: the kind, then the
element type or the children.

Entities and hints may also be written as arrays that hold their parts by position; what is missing
at the end is left at its default. The two formats of trees differ in small liberties, which
`Liberties` names.
-/

namespace EntityModel

namespace Schema

/-- Why a tree is no schema. -/
inductive DecodeError where
  /-- Something is missing or of the wrong sort. -/
  | malformed
  /-- An element type cannot be read. -/
  | badType (error : ValueType.ParseError)
deriving DecidableEq, Repr

/-- What a format of trees allows besides the usual form. -/
structure Liberties where
  /-- A kind may be given by its number in the list of kinds. -/
  numberedKinds : Bool
  /-- Arrays may have more parts than positions. -/
  longArrays : Bool

/-- Trees from JSON text. -/
def Liberties.json : Liberties := ⟨true, false⟩

/-- Trees from TOML documents. -/
def Liberties.toml : Liberties := ⟨false, true⟩

/-! ## Scalars -/

def decodeBool : Json → Except DecodeError Bool
  | .bool value => .ok value
  | _ => .error .malformed

def decodeString : Json → Except DecodeError String
  | .string value => .ok value
  | _ => .error .malformed

/-- A text that may be null. -/
def decodeOptional : Json → Except DecodeError (Option String)
  | .null => .ok none
  | .string value => .ok (some value)
  | _ => .error .malformed

def decodeStrings : Json → Except DecodeError (List String)
  | .array items => items.mapM decodeString
  | _ => .error .malformed

/-- A type expression. -/
def decodeType (tree : Json) : Except DecodeError ValueType := do
  (ValueType.parse (← decodeString tree)).mapError .badType

/-! ## Attributes -/

/-- Reads one entry of an attribute into its declaration. -/
def decodeFlag (d : Declaration) (key : String) (tree : Json) : Except DecodeError Declaration :=
  match key with
  | "required" => return { d with required := ← decodeBool tree }
  | "optional" => return { d with optional := ← decodeBool tree }
  | "computed" => return { d with computed := ← decodeBool tree }
  | "sensitive" => return { d with sensitive := ← decodeBool tree }
  | "write_only" => return { d with writeOnly := ← decodeBool tree }
  | "description" => return { d with description := ← decodeOptional tree }
  | _ => .ok d

/-- Reads the declaration from the entries of an attribute. -/
def decodeDeclaration (entries : List (String × Json)) : Except DecodeError Declaration :=
  entries.foldlM (fun d entry => decodeFlag d entry.1 entry.2) {}

/-- The kinds of attributes. -/
inductive AttributeKind where
  | scalar (shape : PlainShape)
  | collection (shape : ValueType → PlainShape)
  | nested (nesting : Nesting)

/-- The kinds under their names, in order. -/
def attributeKinds : List (String × AttributeKind) :=
  [("string", .scalar .string), ("int64", .scalar .int64), ("float64", .scalar .float64),
    ("bool", .scalar .bool), ("list", .collection .list), ("set", .collection .set),
    ("map", .collection .map), ("single_nested", .nested .single), ("list_nested", .nested .list),
    ("set_nested", .nested .set), ("map_nested", .nested .map)]

/-- Reads the kind of an attribute. -/
def decodeKind (liberties : Liberties) : Json → Except DecodeError AttributeKind
  | .string name =>
    match Assoc.get? attributeKinds name with
    | some kind => .ok kind
    | none => .error .malformed
  | .int n =>
    if liberties.numberedKinds && 0 ≤ n then
      match attributeKinds[n.toNat]? with
      | some (_, kind) => .ok kind
      | none => .error .malformed
    else .error .malformed
  | _ => .error .malformed

/-- The tree under a key that must be there. -/
def required (entries : List (String × Json)) (key : String) : Except DecodeError Json :=
  match Assoc.get? entries key with
  | some tree => .ok tree
  | none => .error .malformed

mutual
/-- Reads an attribute. -/
def decodeAttribute (liberties : Liberties) : Json → Except DecodeError Attribute
  | .object entries => do
    let d ← decodeDeclaration entries
    match ← decodeKind liberties (← required entries "kind") with
    | .scalar shape => return .plain shape d
    | .collection shape => return .plain (shape (← decodeType (← required entries "element"))) d
    | .nested nesting =>
      return .nested nesting (Assoc.ofList (← decodeChildren liberties entries)) d
  | _ => .error .malformed

/-- Reads the children among the entries of an attribute; without such an entry there are none. -/
def decodeChildren (liberties : Liberties) :
    List (String × Json) → Except DecodeError (List (String × Attribute))
  | [] => .ok []
  | (key, tree) :: rest =>
    if key = "attributes" then
      match tree with
      | .object entries => decodeNamed liberties entries
      | _ => .error .malformed
    else decodeChildren liberties rest

/-- Reads attributes under their names. -/
def decodeNamed (liberties : Liberties) :
    List (String × Json) → Except DecodeError (List (String × Attribute))
  | [] => .ok []
  | (name, tree) :: rest => do
    let a ← decodeAttribute liberties tree
    return (name, a) :: (← decodeNamed liberties rest)
end

/-- Reads an object of attributes. -/
def decodeAttributes (liberties : Liberties) : Json → Except DecodeError (Assoc Attribute)
  | .object entries => return Assoc.ofList (← decodeNamed liberties entries)
  | _ => .error .malformed

/-! ## Hints and entities -/

/-- The entries of an object, or the parts of an array under the names of their positions. -/
def entriesOf (names : List String) : Json → Except DecodeError (List (String × Json))
  | .object entries => .ok entries
  | .array items => .ok (names.zip items)
  | _ => .error .malformed

/-- Refuses an array with more parts than positions, unless such are allowed. -/
def checkLength (liberties : Liberties) (names : List String) : Json → Except DecodeError Unit
  | .array items =>
    if liberties.longArrays || items.length ≤ names.length then .ok () else .error .malformed
  | _ => .ok ()

/-- Reads one entry of the hints. -/
def decodeHintEntry (hints : Hints) (key : String) (tree : Json) : Except DecodeError Hints :=
  match HintList.ofKey? key with
  | some list => return hints.put list (← decodeStrings tree)
  | none => .ok hints

/-- Reads hints; a list that is not there is empty. -/
def decodeHints (liberties : Liberties) (tree : Json) : Except DecodeError Hints := do
  let names := HintList.all.map HintList.key
  let hints ← (← entriesOf names tree).foldlM
    (fun hints entry => decodeHintEntry hints entry.1 entry.2) .none
  checkLength liberties names tree
  return hints

/-- What is read of an entity so far. -/
structure Draft where
  name : Option String := none
  description : Option String := none
  hints : Hints := .none
  attributes : Assoc Attribute := []

/-- Reads one entry of an entity. -/
def decodeEntityEntry (liberties : Liberties) (draft : Draft) (key : String) (tree : Json) :
    Except DecodeError Draft :=
  match key with
  | "name" => return { draft with name := some (← decodeString tree) }
  | "description" => return { draft with description := ← decodeOptional tree }
  | "hints" => return { draft with hints := ← decodeHints liberties tree }
  | "attributes" => return { draft with attributes := ← decodeAttributes liberties tree }
  | _ => .ok draft

/-- Reads an entity: its schema and its hints. Only the name must be there. -/
def decodeEntity (liberties : Liberties) (tree : Json) : Except DecodeError Registration := do
  let names := ["name", "description", "hints", "attributes"]
  let draft ← (← entriesOf names tree).foldlM
    (fun draft entry => decodeEntityEntry liberties draft entry.1 entry.2) {}
  checkLength liberties names tree
  match draft.name with
  | some name => return ⟨⟨name, draft.description, draft.attributes⟩, draft.hints⟩
  | none => .error .malformed

end Schema

end EntityModel
