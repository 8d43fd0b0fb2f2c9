import EntityModel.Assoc

/-!
# Types of values

Every declared field has exactly one type: a scalar, a list, set or map of one element type, or an
object with named fields of their own types.

* `same_iff`: the Boolean test `same` decides equality.
-/

namespace EntityModel

/-- The type of a value. The fields of an object are in ascending order of their names. -/
inductive ValueType where
  | string
  | int64
  | float64
  | bool
  | list (element : ValueType)
  | set (element : ValueType)
  | map (element : ValueType)
  | object (fields : List (String × ValueType))
deriving Inhabited

namespace ValueType

/-- Scalars have no parts. -/
def isPrimitive : ValueType → Bool
  | .string | .int64 | .float64 | .bool => true
  | _ => false

/-- The element type of a list, set or map. -/
def element? : ValueType → Option ValueType
  | .list element | .set element | .map element => some element
  | _ => none

/-- The fields of an object. -/
def fields? : ValueType → Option (Assoc ValueType)
  | .object fields => some fields
  | _ => none

/-- The outermost constructors of types. -/
inductive Kind where
  | string | int64 | float64 | bool | list | set | map | object
deriving DecidableEq, Repr

def Kind.name : Kind → String
  | .string => "string"
  | .int64 => "int64"
  | .float64 => "float64"
  | .bool => "bool"
  | .list => "list"
  | .set => "set"
  | .map => "map"
  | .object => "object"

def kind : ValueType → Kind
  | .string => .string
  | .int64 => .int64
  | .float64 => .float64
  | .bool => .bool
  | .list _ => .list
  | .set _ => .set
  | .map _ => .map
  | .object _ => .object

/-! ## Equality -/

mutual
/-- Compares two types. -/
def same : ValueType → ValueType → Bool
  | .string, .string | .int64, .int64 | .float64, .float64 | .bool, .bool => true
  | .list a, .list b | .set a, .set b | .map a, .map b => same a b
  | .object as, .object bs => sameFields as bs
  | _, _ => false

/-- Compares the fields of two objects, in order. -/
def sameFields : List (String × ValueType) → List (String × ValueType) → Bool
  | [], [] => true
  | (name, a) :: as, (name', b) :: bs => name == name' && same a b && sameFields as bs
  | _, _ => false
end

mutual
theorem same_iff : ∀ {a b : ValueType}, same a b = true ↔ a = b
  | .string, b => by cases b <;> simp [same]
  | .int64, b => by cases b <;> simp [same]
  | .float64, b => by cases b <;> simp [same]
  | .bool, b => by cases b <;> simp [same]
  | .list a, b => by cases b <;> simp [same, same_iff (a := a)]
  | .set a, b => by cases b <;> simp [same, same_iff (a := a)]
  | .map a, b => by cases b <;> simp [same, same_iff (a := a)]
  | .object f, b => by cases b <;> simp [same, sameFields_iff (f := f)]

theorem sameFields_iff : ∀ {f g : List (String × ValueType)}, sameFields f g = true ↔ f = g
  | [], g => by cases g <;> simp [sameFields]
  | (name, a) :: f, [] => by simp [sameFields]
  | (name, a) :: f, (name', b) :: g => by
    simp [sameFields, same_iff (a := a), sameFields_iff (f := f), and_assoc]
end

instance : DecidableEq ValueType := fun _ _ => decidable_of_iff _ same_iff

end ValueType

end EntityModel
