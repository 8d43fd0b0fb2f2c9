import EntityModel.ValueType.Printer

/-!
# Schemas of entities

A schema names the attributes of one kind of entity. An attribute is plain, with a type of its own,
or nested, with declared children that make up an object or the objects of a collection.
-/

namespace EntityModel

/-- What an attribute says about itself besides its shape. -/
structure Declaration where
  required : Bool := false
  optional : Bool := false
  computed : Bool := false
  sensitive : Bool := false
  writeOnly : Bool := false
  description : Option String := none
deriving DecidableEq, Repr

/-- The shape of an attribute without children. -/
inductive PlainShape where
  | string
  | int64
  | float64
  | bool
  | list (element : ValueType)
  | set (element : ValueType)
  | map (element : ValueType)
deriving DecidableEq

/-- How the children of an attribute are held. -/
inductive Nesting where
  | single
  | list
  | set
  | map
deriving DecidableEq, Repr

/-- A declared attribute. The children are in ascending order of their names. -/
inductive Attribute where
  | plain (shape : PlainShape) (declaration : Declaration)
  | nested (nesting : Nesting) (children : List (String × Attribute)) (declaration : Declaration)

/-- One kind of entity. -/
structure EntitySchema where
  name : String
  description : Option String := none
  attributes : Assoc Attribute := []

/-- The type of values of a shape; `ordered` makes a list of a set. -/
def PlainShape.type (ordered : Bool) : PlainShape → ValueType
  | .string => .string
  | .int64 => .int64
  | .float64 => .float64
  | .bool => .bool
  | .list element => .list element
  | .set element => if ordered then .list element else .set element
  | .map element => .map element

/-- The type of values whose objects have a type; `ordered` makes a list of a set. -/
def Nesting.type (ordered : Bool) (object : ValueType) : Nesting → ValueType
  | .single => object
  | .list => .list object
  | .set => if ordered then .list object else .set object
  | .map => .map object

namespace Attribute

def declaration : Attribute → Declaration
  | .plain _ declaration => declaration
  | .nested _ _ declaration => declaration

/-- The attribute with a changed declaration. -/
def declare (f : Declaration → Declaration) : Attribute → Attribute
  | .plain shape declaration => .plain shape (f declaration)
  | .nested nesting children declaration => .nested nesting children (f declaration)

/-- The declared children; a plain attribute has none. -/
def children? : Attribute → Option (Assoc Attribute)
  | .plain _ _ => none
  | .nested _ children _ => some children

end Attribute

end EntityModel
