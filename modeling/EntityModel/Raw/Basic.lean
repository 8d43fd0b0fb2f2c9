import EntityModel.Assoc
import EntityModel.Binary64.Rounding

/-!
# Raw values

The loosely typed values that are exchanged with a remote service: the values of JSON with integers
of 64 bits and floating-point numbers kept apart. A record is a table of raw values under names.

* `Record.merge`: one record merged into another.
-/

namespace EntityModel

/-- A raw value. The entries of a map are in ascending order of their keys. -/
inductive Raw where
  | null
  | bool (value : Bool)
  | int (value : Int64)
  | float (value : Binary64)
  | string (value : String)
  | list (items : List Raw)
  | map (entries : List (String × Raw))
deriving Inhabited

/-- One remote entity or the body of one request. -/
abbrev Record := List (String × Raw)

namespace Raw

/-- The outermost constructors of raw values. -/
inductive Kind where
  | nil | bool | int64 | float64 | string | list | map
deriving DecidableEq, Repr

def Kind.name : Kind → String
  | .nil => "nil"
  | .bool => "bool"
  | .int64 => "int64"
  | .float64 => "float64"
  | .string => "string"
  | .list => "list"
  | .map => "map"

def kind : Raw → Kind
  | .null => .nil
  | .bool _ => .bool
  | .int _ => .int64
  | .float _ => .float64
  | .string _ => .string
  | .list _ => .list
  | .map _ => .map

def isNull : Raw → Bool
  | .null => true
  | _ => false

def asString? : Raw → Option String
  | .string value => some value
  | _ => none

def asInt64? : Raw → Option Int64
  | .int value => some value
  | _ => none

/-- A number as a floating-point number; integers are rounded to the nearest one. -/
def asFloat64? : Raw → Option Binary64
  | .float value => some value
  | .int value => some (.ofInt value.toInt)
  | _ => none

def asBool? : Raw → Option Bool
  | .bool value => some value
  | _ => none

def asList? : Raw → Option (List Raw)
  | .list items => some items
  | _ => none

def asMap? : Raw → Option Record
  | .map entries => some entries
  | _ => none

/-- The value under a key of a map. -/
def get? (raw : Raw) (key : String) : Option Raw := raw.asMap?.bind (Assoc.get? · key)

end Raw

/-- Merges a record into another one; where both hold a key, `overwrite` says which value stays. -/
def Record.merge (target : Record) (source : Record) (overwrite : Bool) : Record :=
  source.foldl (fun done entry =>
    if overwrite || !Assoc.has done entry.1 then Assoc.insert entry.1 entry.2 done else done) target

end EntityModel
