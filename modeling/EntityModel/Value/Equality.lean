import EntityModel.Value.Basic

/-!
# Equality of values

Two values are equal if their types are, and their contents are: sets are compared as collections
in which the order does not matter but repetitions do, floating-point numbers by their numerical
value, and everything else in order.

The items of two sets are paired greedily: each item of the first takes away the first item of the
second that equals it.
-/

namespace EntityModel.Value

mutual
/-- Equality of values. -/
def equals : Value → Value → Bool
  | .null a, .null b => a = b
  | .unknown a, .unknown b => a = b
  | .string a, .string b => a == b
  | .int64 a, .int64 b => a == b
  | .float64 a, .float64 b => a.equals b
  | .bool a, .bool b => a == b
  | .list element items, .list element' items' =>
    decide (element = element') && equalItems items items'
  | .set element items, .set element' items' =>
    decide (element = element') && items.length == items'.length && paired items items'
  | .map element entries, .map element' entries' =>
    decide (element = element') && equalTables entries entries'
  | .object fields attributes, .object fields' attributes' =>
    decide (fields = fields') && equalTables attributes attributes'
  | _, _ => false

/-- Equality item by item. -/
def equalItems : List Value → List Value → Bool
  | [], [] => true
  | a :: as, b :: bs => equals a b && equalItems as bs
  | _, _ => false

/-- Every item of the first list takes away an equal item of the second. -/
def paired : List Value → List Value → Bool
  | [], _ => true
  | a :: as, bs =>
    match bs.findIdx? (equals a) with
    | some i => paired as (bs.eraseIdx i)
    | none => false

/-- Equality entry by entry. -/
def equalTables : List (String × Value) → List (String × Value) → Bool
  | [], [] => true
  | (key, a) :: as, (key', b) :: bs => key == key' && equals a b && equalTables as bs
  | _, _ => false
end

end EntityModel.Value
