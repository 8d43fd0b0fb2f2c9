import EntityModel.ValueType.Printer
import EntityModel.Binary64.Basic

/-!
# Typed values

A value always has exactly one type. It is absent, that is null or not known yet, or known; an
absent value still carries its type, and a known collection carries the type of its elements.

* `type`: the type of a value.
* `WellTyped`: the parts of a value have the types that the value declares for them.
-/

namespace EntityModel

/-- A typed value. Entries and fields are in ascending order of their names. -/
inductive Value where
  /-- No value of the type. -/
  | null (type : ValueType)
  /-- A value of the type that is not determined yet. -/
  | unknown (type : ValueType)
  | string (value : String)
  | int64 (value : Int64)
  | float64 (value : Binary64)
  | bool (value : Bool)
  | list (element : ValueType) (items : List Value)
  | set (element : ValueType) (items : List Value)
  | map (element : ValueType) (entries : List (String × Value))
  | object (fields : List (String × ValueType)) (attributes : List (String × Value))
deriving Inhabited

/-- Named values. -/
abbrev ValueTable := List (String × Value)

namespace Value

/-- The declared type of a value. -/
def type : Value → ValueType
  | .null type => type
  | .unknown type => type
  | .string _ => .string
  | .int64 _ => .int64
  | .float64 _ => .float64
  | .bool _ => .bool
  | .list element _ => .list element
  | .set element _ => .set element
  | .map element _ => .map element
  | .object fields _ => .object fields

/-- The outermost constructor of the type. -/
def kind (value : Value) : ValueType.Kind := value.type.kind

def isNull : Value → Bool
  | .null _ => true
  | _ => false

def isUnknown : Value → Bool
  | .unknown _ => true
  | _ => false

/-- Neither null nor unknown. -/
def isKnown (value : Value) : Bool := !value.isNull && !value.isUnknown

/-- The items of a known list or set. -/
def elements? : Value → Option (List Value)
  | .list _ items | .set _ items => some items
  | _ => none

/-- The attributes of a known object. -/
def attributes? : Value → Option ValueTable
  | .object _ attributes => some attributes
  | _ => none

/-- The entries of a known map. -/
def entries? : Value → Option ValueTable
  | .map _ entries => some entries
  | _ => none

/-! ## Checked builders -/

/-- A value of one type stands where another type is declared. -/
inductive TypeMismatch where
  | type (expected actual : ValueType)
  /-- The attributes of an object are not the declared fields. -/
  | fields (expected : ValueType) (names : List String)

def TypeMismatch.expected : TypeMismatch → ValueType
  | .type expected _ | .fields expected _ => expected

def TypeMismatch.actualText : TypeMismatch → String
  | .type _ actual => actual.render
  | .fields _ names => "object with fields [" ++ ",".intercalate names ++ "]"

def TypeMismatch.message (e : TypeMismatch) : String :=
  "type mismatch: expected " ++ e.expected.render ++ ", got " ++ e.actualText

/-- Checks that all values have a type; the first that has another one is the error. -/
def checkTypes (expected : ValueType) : List Value → Except TypeMismatch Unit
  | [] => .ok ()
  | value :: rest =>
    if value.type = expected then checkTypes expected rest
    else .error (.type expected value.type)

/-- A known list whose items all have the element type. -/
def list? (element : ValueType) (items : List Value) : Except TypeMismatch Value := do
  checkTypes element items
  return .list element items

/-- A known set whose items all have the element type. -/
def set? (element : ValueType) (items : List Value) : Except TypeMismatch Value := do
  checkTypes element items
  return .set element items

/-- A known map whose entries all have the element type. -/
def map? (element : ValueType) (entries : ValueTable) : Except TypeMismatch Value := do
  checkTypes element (entries.map Prod.snd)
  return .map element entries

/-- Checks the attributes of an object against its fields, in the order of the fields. -/
def checkFields (attributes : ValueTable) : List (String × ValueType) → Except TypeMismatch Unit
  | [] => .ok ()
  | (name, type) :: rest => do
    checkTypes type (Assoc.get? attributes name).toList
    checkFields attributes rest

/-- A known object that holds exactly the declared fields, each of its type. -/
def object? (fields : Assoc ValueType) (attributes : ValueTable) : Except TypeMismatch Value := do
  if fields.length = attributes.length && (Assoc.keys fields).all (Assoc.has attributes) then
    checkFields attributes fields
    return .object fields attributes
  else .error (.fields (.object fields) (Assoc.keys attributes))

/-! ## Values that are well typed at every depth -/

mutual
/-- The parts of a value have the types that it declares, at every depth. -/
def WellTyped : Value → Prop
  | .list element items | .set element items => ItemsTyped element items
  | .map element entries => EntriesTyped element entries
  | .object fields attributes => AttributesTyped fields attributes
  | _ => True

/-- All items are well typed and have one type. -/
def ItemsTyped (element : ValueType) : List Value → Prop
  | [] => True
  | item :: rest => item.type = element ∧ WellTyped item ∧ ItemsTyped element rest

/-- All entries are well typed and have one type. -/
def EntriesTyped (element : ValueType) : List (String × Value) → Prop
  | [] => True
  | (_, value) :: rest => value.type = element ∧ WellTyped value ∧ EntriesTyped element rest

/-- The attributes are the fields one by one, well typed and of the field's type. -/
def AttributesTyped : List (String × ValueType) → List (String × Value) → Prop
  | [], [] => True
  | (name, type) :: fields, (name', value) :: attributes =>
    name' = name ∧ value.type = type ∧ WellTyped value ∧ AttributesTyped fields attributes
  | _, _ => False
end

end Value

end EntityModel
