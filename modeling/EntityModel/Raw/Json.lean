import EntityModel.Raw.Basic
import EntityModel.Json.Printer

/-!
# Raw values as JSON

Raw values and JSON values differ only in their numbers: JSON has integers beyond 64 bits and no
numbers that are not finite. `Raw.toJson` writes such numbers as null, `Raw.ofJson` rounds integers
that do not fit to floating-point numbers.
-/

namespace EntityModel

namespace Raw

mutual
/-- The JSON value of a raw value. -/
def toJson : Raw → Json
  | .null => .null
  | .bool value => .bool value
  | .int value => .int value.toInt
  | .float value => if value.isFinite then .float value else .null
  | .string value => .string value
  | .list items => .array (listToJson items)
  | .map entries => .object (recordToJson entries)

def listToJson : List Raw → List Json
  | [] => []
  | item :: rest => toJson item :: listToJson rest

/-- The entries of the JSON object of a record. -/
def recordToJson : Record → List (String × Json)
  | [] => []
  | (key, value) :: rest => (key, toJson value) :: recordToJson rest
end

mutual
/-- The raw value of a JSON value. -/
def ofJson : Json → Raw
  | .null => .null
  | .bool value => .bool value
  | .int value =>
    if Binary64.inInt64 value then .int (.ofInt value) else .float (.ofInt value)
  | .float value => .float value
  | .string value => .string value
  | .array items => .list (listOfJson items)
  | .object entries => .map (recordOfJson entries)

def listOfJson : List Json → List Raw
  | [] => []
  | item :: rest => ofJson item :: listOfJson rest

/-- The record of the entries of a JSON object. -/
def recordOfJson : List (String × Json) → Record
  | [] => []
  | (key, value) :: rest => (key, ofJson value) :: recordOfJson rest
end

/-- The JSON text of a raw value without blanks. -/
def compact (raw : Raw) : String := raw.toJson.compact

/-- The JSON text of a raw value on lines. -/
def pretty (raw : Raw) : String := raw.toJson.pretty

end Raw

/-- The JSON text of a record on lines. -/
def Record.pretty (record : Record) : String := (Raw.map record).pretty

end EntityModel
