import EntityModel.Assoc
import EntityModel.Binary64.Basic

/-!
# JSON values

The values that JSON text denotes. Integers are kept apart from floating-point numbers, and the
entries of an object are in ascending order of their keys.
-/

namespace EntityModel

/-- A JSON value. -/
inductive Json where
  | null
  | bool (value : Bool)
  | int (value : Int)
  | float (value : Binary64)
  | string (value : String)
  | array (items : List Json)
  | object (entries : List (String × Json))
deriving Inhabited

namespace Json

/-- The value under a key of an object. -/
def get? : Json → String → Option Json
  | .object entries, key => Assoc.get? entries key
  | _, _ => none

def asString? : Json → Option String
  | .string value => some value
  | _ => none

def asBool? : Json → Option Bool
  | .bool value => some value
  | _ => none

def asInt? : Json → Option Int
  | .int value => some value
  | _ => none

def asArray? : Json → Option (List Json)
  | .array items => some items
  | _ => none

def asObject? : Json → Option (List (String × Json))
  | .object entries => some entries
  | _ => none

end Json

end EntityModel
