import EntityModel.Schema.Registry

/-!
# Outlines of schemas and entities

Two texts with a line for each attribute, indented by its depth: `EntitySchema.outline` shows the
declarations as they stand, `Entity.outline` the types and flags after the hints.
-/

namespace EntityModel

/-- The blanks in front of a line at a depth. -/
def indentation (depth : Nat) : String := String.ofList (List.replicate (2 * depth) ' ')

def PlainShape.label : PlainShape → String
  | shape => (shape.type false).render

def Nesting.label : Nesting → String
  | .single => "object"
  | .list => "list<object>"
  | .set => "set<object>"
  | .map => "map<object>"

def Attribute.label : Attribute → String
  | .plain shape _ => shape.label
  | .nested nesting _ _ => nesting.label

namespace Schema

def yesNo (b : Bool) : String := if b then "true" else "false"

/-- The line of one attribute. -/
def attributeLine (depth : Nat) (name : String) (a : Attribute) : String :=
  let d := a.declaration
  indentation depth ++ name ++ " (" ++ a.label ++ ") [req=" ++ yesNo d.required ++
    " opt=" ++ yesNo d.optional ++ " comp=" ++ yesNo d.computed ++ " sens=" ++ yesNo d.sensitive ++
    " wo=" ++ yesNo d.writeOnly ++ "]\n"

mutual
/-- The lines of an attribute's children. -/
def childLines (depth : Nat) : Attribute → String
  | .plain _ _ => ""
  | .nested _ children _ => attributeLines depth children

/-- The lines of attributes, each with those of its children behind it. -/
def attributeLines (depth : Nat) : List (String × Attribute) → String
  | [] => ""
  | (name, a) :: rest =>
    attributeLine depth name a ++ childLines (depth + 1) a ++
      attributeLines depth rest
end

end Schema

/-- The declarations of a schema. -/
def EntitySchema.outline (schema : EntitySchema) : String :=
  schema.name ++ "\n" ++ Schema.attributeLines 1 schema.attributes

namespace Entity

/-- The depth of a dotted path: how many names it has. -/
def depth (path : String) : Nat := path.toList.count '.' + 1

/-- The last name of a dotted path. -/
def leafName (path : String) : String :=
  String.ofList (path.toList.reverse.takeWhile (· ≠ '.')).reverse

/-- The line of one field. -/
def fieldLine (path : String) (field : Field) : String :=
  indentation (depth path) ++ leafName path ++ ": " ++ field.type.render ++ " (" ++
    ",".intercalate field.classification.flagNames ++ ")\n"

/-- The fields of an entity in ascending order of their paths. -/
def outline (entity : Entity) : String :=
  entity.name ++ "\n" ++
    String.join (entity.introspection.fields.map fun entry => fieldLine entry.1 entry.2)

end Entity

end EntityModel
