import EntityModel.Decimal.Reader
import EntityModel.Raw.Json
import EntityModel.Text.Blank
import EntityModel.Text.Quoted
import EntityModel.Value.Basic

/-!
# Raw values to typed values and back

`lift` reads a raw value as a value of a declared type, and `lower` gives a raw value back. Null is
a null of every type. Every scalar has a text, whole floating-point numbers are integers, and the
text of a number is a number; nothing else changes its type. Lowering a list or set drops the items
that are absent, whereas maps and objects keep their keys with a null.

* `lift`, `liftAt`: a raw value as a value of a type.
* `lower`: the raw value of a value.
* `liftRecord`, `lowerTable`: the same for whole tables.
-/

namespace EntityModel

/-- A raw value does not fit the place where it stands. -/
inductive ConversionError where
  /-- The raw value at the path is not of the declared type. -/
  | mismatch (path : String) (expected : ValueType) (actual : Raw.Kind)
  /-- A record was expected. -/
  | notRecord (actual : Raw.Kind)

namespace ConversionError

def path : ConversionError → String
  | .mismatch path _ _ => path
  | .notRecord _ => ""

def expectedText : ConversionError → String
  | .mismatch _ expected _ => expected.render
  | .notRecord _ => ValueType.Kind.map.name

def actual : ConversionError → Raw.Kind
  | .mismatch _ _ actual => actual
  | .notRecord actual => actual

def message (e : ConversionError) : String :=
  "conversion error at " ++ Text.quote e.path ++ ": expected " ++ e.expectedText ++ ", got " ++
    e.actual.name

end ConversionError

/-! ## Lifting -/

/-- The text of a raw value: scalars as they are written, everything else as JSON text. -/
def Raw.text : Raw → String
  | .null => ""
  | .bool value => if value then "true" else "false"
  | .int value => toString value.toInt
  | .float value => Decimal.Layout.plain.render value
  | .string value => value
  | composite => composite.compact

/-- The path of the item at a position. -/
def itemPath (path : String) (position : Nat) : String := path ++ "[" ++ toString position ++ "]"

/-- The path of the map entry under a key. -/
def entryPath (path key : String) : String := path ++ "[" ++ Text.quote key ++ "]"

/-- The path of an object field. -/
def fieldPath (path name : String) : String := if path.isEmpty then name else path ++ "." ++ name

/-- Reads a raw value that is not null as a scalar of a type. -/
def liftScalar? : ValueType → Raw → Option Value
  | .string, raw => some (.string raw.text)
  | .int64, .int value => some (.int64 value)
  | .int64, .float value => value.int64?.map .int64
  | .float64, .int value => some (.float64 (.ofInt value.toInt))
  | .float64, .float value => some (.float64 value)
  | .float64, .string text => (Decimal.read? (Text.trim text.toList)).map .float64
  | .bool, .bool value => some (.bool value)
  | _, _ => none

/-- Lifts the items of a list from a position on. -/
def liftItems (liftItem : Raw → String → Except ConversionError Value) (path : String) :
    (position : Nat) → List Raw → Except ConversionError (List Value)
  | _, [] => .ok []
  | position, item :: rest => do
    let value ← liftItem item (itemPath path position)
    return value :: (← liftItems liftItem path (position + 1) rest)

/-- Lifts the entries of a map in order. -/
def liftEntries (liftEntry : Raw → String → Except ConversionError Value) (path : String) :
    Record → Except ConversionError ValueTable
  | [] => .ok []
  | (key, raw) :: rest => do
    let value ← liftEntry raw (entryPath path key)
    return (key, value) :: (← liftEntries liftEntry path rest)

mutual
/-- Reads a raw value as a value of a type; the path is where it stands, for errors. -/
def liftAt : ValueType → Raw → String → Except ConversionError Value
  | type, .null, _ => .ok (.null type)
  | .list element, .list items, path =>
    return .list element (← liftItems (liftAt element) path 0 items)
  | .set element, .list items, path =>
    return .set element (← liftItems (liftAt element) path 0 items)
  | .map element, .map entries, path =>
    return .map element (← liftEntries (liftAt element) path entries)
  | .object fields, .map entries, path => return .object fields (← liftFields fields entries path)
  | type, raw, path =>
    match liftScalar? type raw with
    | some value => .ok value
    | none => .error (.mismatch path type raw.kind)

/-- Reads the declared fields of an object; a missing one is null. -/
def liftFields : List (String × ValueType) → Record → String →
    Except ConversionError ValueTable
  | [], _, _ => .ok []
  | (name, type) :: rest, entries, path => do
    let value ← match Assoc.get? entries name with
      | some raw => liftAt type raw (fieldPath path name)
      | none => .ok (.null type)
    return (name, value) :: (← liftFields rest entries path)
end

/-- Reads a raw value as a value of a type. -/
def lift (type : ValueType) (raw : Raw) : Except ConversionError Value := liftAt type raw ""

/-- Reads the declared values of a record; a missing one is null, and what is not declared is
passed over. -/
def liftRecord (record : Record) : List (String × ValueType) → Except ConversionError ValueTable
  | [] => .ok []
  | (name, type) :: rest => do
    let value ← match Assoc.get? record name with
      | some raw => liftAt type raw name
      | none => .ok (.null type)
    return (name, value) :: (← liftRecord record rest)

/-- The record that a JSON value denotes. -/
def recordOf (json : Json) : Except ConversionError Record :=
  match Raw.ofJson json with
  | .map entries => .ok entries
  | other => .error (.notRecord other.kind)

/-! ## Lowering -/

mutual
/-- The raw value of a value. -/
def lower : Value → Raw
  | .null _ | .unknown _ => .null
  | .string value => .string value
  | .int64 value => .int value
  | .float64 value => .float value
  | .bool value => .bool value
  | .list _ items | .set _ items => .list (lowerKnown items)
  | .map _ entries => .map (lowerTable entries)
  | .object _ attributes => .map (lowerTable attributes)

/-- The raw values of the items that are known. -/
def lowerKnown : List Value → List Raw
  | [] => []
  | item :: rest => if item.isKnown then lower item :: lowerKnown rest else lowerKnown rest

/-- The raw values of named values. -/
def lowerTable : List (String × Value) → Record
  | [] => []
  | (key, value) :: rest => (key, lower value) :: lowerTable rest
end

end EntityModel
