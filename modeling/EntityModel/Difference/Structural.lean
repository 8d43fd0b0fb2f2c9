import EntityModel.Difference.Pruning

/-!
# Structural equality

Remote services return lists of texts, and lists of such lists, in any order. Structural equality
does not see that order: both values are brought into a normal form in which these lists are sorted,
at every depth, and the normal forms are compared. Everything else counts as it stands.

* `Raw.equals`: equality part by part, floating-point numbers by their numerical value.
* `Raw.normalize`, `structuralEq`: the normal form and equality up to it.
* `Record.difference`: the entries of a record that another one lacks or holds differently.
-/

namespace EntityModel

namespace Raw

mutual
/-- Equality part by part. -/
def equals : Raw → Raw → Bool
  | .null, .null => true
  | .bool a, .bool b => a == b
  | .int a, .int b => a == b
  | .float a, .float b => a.equals b
  | .string a, .string b => a == b
  | .list as, .list bs => equalItems as bs
  | .map as, .map bs => equalEntries as bs
  | _, _ => false

def equalItems : List Raw → List Raw → Bool
  | [], [] => true
  | a :: as, b :: bs => equals a b && equalItems as bs
  | _, _ => false

def equalEntries : Record → Record → Bool
  | [], [] => true
  | (key, a) :: as, (key', b) :: bs => key == key' && equals a b && equalEntries as bs
  | _, _ => false
end

/-! ## The normal form -/

/-- The texts of a list that holds nothing else. -/
def strings? : List Raw → Option (List String)
  | [] => some []
  | .string text :: rest => (strings? rest).map (text :: ·)
  | _ :: _ => none

/-- The lists of texts of a list that holds nothing else. -/
def stringLists? : List Raw → Option (List (List String))
  | [] => some []
  | .list items :: rest => do return (← strings? items) :: (← stringLists? rest)
  | _ :: _ => none

/-- The order of texts by code points. -/
def textOrder (a b : String) : Bool := a ≤ b

/-- The order of lists of texts, item by item; a list comes before its continuations. -/
def textListOrder : List String → List String → Bool
  | [], _ => true
  | _ :: _, [] => false
  | a :: as, b :: bs => if a = b then textListOrder as bs else a < b

/-- Sorts a list of texts or of lists of texts; any other list keeps its order. -/
def sortTexts (items : List Raw) : List Raw :=
  match strings? items with
  | some texts => (texts.mergeSort textOrder).map .string
  | none =>
    match stringLists? items with
    | some lists => (lists.mergeSort textListOrder).map fun texts => .list (texts.map .string)
    | none => items

mutual
/-- The normal form: lists of texts and lists of lists of texts are sorted, from the inside out. -/
def normalize : Raw → Raw
  | .list items => .list (sortTexts (normalizeItems items))
  | .map entries => .map (normalizeEntries entries)
  | leaf => leaf

def normalizeItems : List Raw → List Raw
  | [] => []
  | item :: rest => normalize item :: normalizeItems rest

def normalizeEntries : Record → Record
  | [] => []
  | (key, value) :: rest => (key, normalize value) :: normalizeEntries rest
end

end Raw

/-- Equality up to the order of lists of texts. -/
def structuralEq (a b : Raw) : Bool := a.normalize.equals b.normalize

/-- The entries that another record lacks or holds differently, without nulls. -/
def Record.difference (a b : Record) : Record :=
  Record.prune (a.filter fun entry =>
    match Assoc.get? b entry.1 with
    | none => true
    | some other => !structuralEq entry.2 other)

end EntityModel
