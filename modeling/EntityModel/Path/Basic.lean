/-!
# Paths to values

A path leads from a table of named values to a value inside one of them: names address the fields
of objects, indices the items of lists and sets. Its schema key is the path of names alone, under
which declarations are recorded.
-/

namespace EntityModel

/-- One step of a path. -/
inductive Segment where
  /-- A field of an object, or a value of the table. -/
  | key (name : String)
  /-- An item of a list or set, counted from zero. -/
  | index (position : UInt64)
deriving DecidableEq, Repr

/-- A path, from the table inwards. -/
abbrev Path := List Segment

namespace Path

/-- The path of one name. -/
def ofKey (name : String) : Path := [.key name]

/-- The name that a path begins with. -/
def firstKey? : Path → Option String
  | .key name :: _ => some name
  | _ => none

/-- Whether a path is one name. -/
def isTopLevel : Path → Bool
  | [.key _] => true
  | _ => false

/-- The names of a path, in order. -/
def names (path : Path) : List String :=
  path.filterMap fun
    | .key name => some name
    | .index _ => none

/-- The names of a path with points between them. -/
def schemaKey (path : Path) : String := ".".intercalate path.names

/-! ## The written form -/

/-- The digits of a position between brackets. -/
def indexText (position : UInt64) : List Char :=
  '[' :: Nat.toDigits 10 position.toNat ++ [']']

/-- A segment behind another one. -/
def innerText : Segment → List Char
  | .key name => '.' :: name.toList
  | .index position => indexText position

/-- The characters of the written form: only the first segment goes without a point. -/
def text : Path → List Char
  | [] => []
  | .key name :: rest => name.toList ++ rest.flatMap innerText
  | .index position :: rest => indexText position ++ rest.flatMap innerText

/-- The written form, `spec.items[2].name`. -/
def render (path : Path) : String := String.ofList path.text

end Path

end EntityModel
