import EntityModel.Json.Basic
import EntityModel.Schema.Registry

/-!
# Schemas as trees

The tree of a schema has an object for each entity and attribute. All flags and all lists of hints
are written, a description only if there is one, children for every nested attribute.
-/

namespace EntityModel

def PlainShape.kindName : PlainShape → String
  | .string => "string"
  | .int64 => "int64"
  | .float64 => "float64"
  | .bool => "bool"
  | .list _ => "list"
  | .set _ => "set"
  | .map _ => "map"

def PlainShape.element? : PlainShape → Option ValueType
  | .list element | .set element | .map element => some element
  | _ => none

def Nesting.kindName : Nesting → String
  | .single => "single_nested"
  | .list => "list_nested"
  | .set => "set_nested"
  | .map => "map_nested"

namespace Schema

/-- The entry of a text that may be missing. -/
def optionalEntry (key : String) : Option String → List (String × Json)
  | some text => [(key, .string text)]
  | none => []

/-- The entries that every attribute has. -/
def declarationEntries (d : Declaration) : List (String × Json) :=
  [("required", .bool d.required), ("optional", .bool d.optional), ("computed", .bool d.computed),
    ("sensitive", .bool d.sensitive), ("write_only", .bool d.writeOnly)] ++
  optionalEntry "description" d.description

mutual
/-- The tree of an attribute. -/
def attributeTree : Attribute → Json
  | .plain shape d => .object (Assoc.ofList (("kind", .string shape.kindName) ::
      optionalEntry "element" (shape.element?.map ValueType.render) ++ declarationEntries d))
  | .nested nesting children d => .object (Assoc.ofList (("kind", .string nesting.kindName) ::
      ("attributes", .object (attributeTrees children)) :: declarationEntries d))

/-- The entries of attributes under their names. -/
def attributeTrees : List (String × Attribute) → List (String × Json)
  | [] => []
  | (name, a) :: rest => (name, attributeTree a) :: attributeTrees rest
end

/-- The tree of the hints. -/
def hintsTree (hints : Hints) : Json :=
  .object (Assoc.ofList (HintList.all.map fun list =>
    (list.key, .array ((hints.paths list).map .string))))

/-- The entries that the trees of schemas and registrations share. -/
def schemaEntries (schema : EntitySchema) : List (String × Json) :=
  ("name", .string schema.name) :: ("attributes", .object (attributeTrees schema.attributes)) ::
    optionalEntry "description" schema.description

end Schema

/-- The tree of a schema. -/
def EntitySchema.tree (schema : EntitySchema) : Json :=
  .object (Assoc.ofList (Schema.schemaEntries schema))

/-- The tree of a schema together with its hints. -/
def Registration.tree (r : Registration) : Json :=
  .object (Assoc.ofList (("hints", Schema.hintsTree r.hints) :: Schema.schemaEntries r.schema))

end EntityModel
