import EntityModel.Schema.Classification
import EntityModel.Schema.Hints

/-!
# Introspection

Introspection flattens the nested declarations of a schema into one table: under the dotted path of
every attribute its type and its classification, with the hints laid over the declarations. An
excluded attribute is left out together with its children, here and in the type of its parent.

The first fault in the order of the walk is the error; no attribute is passed over silently.
-/

namespace EntityModel

/-- What is known about a declared field. -/
structure Field where
  type : ValueType
  classification : Classification

/-- The fields of an entity under their dotted paths. Types and classifications could be kept in a
table each, but both are always entered at once and under the same path; in one table, a path with a
type has a classification by construction. -/
structure Introspection where
  fields : Assoc Field

namespace Introspection

def field? (i : Introspection) (path : String) : Option Field := Assoc.get? i.fields path

def typeOf? (i : Introspection) (path : String) : Option ValueType := (i.field? path).map Field.type

def classificationOf? (i : Introspection) (path : String) : Option Classification :=
  (i.field? path).map Field.classification

/-- A path of one name. -/
def isTopLevel (path : String) : Bool := !path.toList.contains '.'

/-- The names of the entity's own attributes with their types. -/
def topLevel (i : Introspection) : List (String × ValueType) :=
  (i.fields.filter fun entry => isTopLevel entry.1).map fun entry => (entry.1, entry.2.type)

end Introspection

namespace Schema

/-- The dotted path of a name below a path; the empty path is the entity itself. -/
def joinPath (parent name : String) : String :=
  if parent.isEmpty then name else parent ++ "." ++ name

/-- Names are not empty and hold no mark of a path. -/
def isName (name : String) : Bool :=
  !name.isEmpty && name.toList.all fun c => c ≠ '.' && c ≠ '[' && c ≠ ']'

def checkName (path name : String) : Except SchemaError Unit :=
  if isName name then .ok () else .error (.invalidAttribute path (.badName name))

/-! ## Types -/

mutual
/-- The type of an attribute. -/
def attributeType (hints : Hints) (path : String) : Attribute → Except SchemaError ValueType
  | .plain shape _ => .ok (shape.type (hints.mentions .preserveOrder path))
  | .nested nesting children _ =>
    if children.isEmpty then .error (.invalidAttribute path .noChildren)
    else do
      let fields ← childTypes hints path children
      return nesting.type (hints.mentions .preserveOrder path) (.object fields)

/-- The types of the children that are not excluded. -/
def childTypes (hints : Hints) (parent : String) :
    List (String × Attribute) → Except SchemaError (List (String × ValueType))
  | [] => .ok []
  | (name, child) :: rest => do
    let path := joinPath parent name
    checkName path name
    if hints.mentions .excluded path then childTypes hints parent rest
    else
      let type ← attributeType hints path child
      return (name, type) :: (← childTypes hints parent rest)
end

/-! ## Classifications -/

/-- Lays the hints for a path over a classification. Later lines win over earlier ones. -/
def overlay (hints : Hints) (path : String) (c : Classification) : Classification :=
  let hinted (list : HintList) : Bool := hints.mentions list path
  let c := if hinted .required then { c with required := true, optional := false } else c
  let c := if hinted .notRequired then { c with required := false } else c
  let c := if hinted .optional then { c with optional := true, required := false } else c
  let c := if hinted .notOptional then { c with optional := false } else c
  let c := if hinted .computed then { c with computed := true } else c
  let c := if hinted .notComputed then { c with computed := false } else c
  { c with
    sensitive := c.sensitive || hinted .sensitive
    readOnly := c.readOnly || hinted .readOnly
    writeOnly := c.writeOnly || hinted .writeOnly
    editOnly := c.editOnly || hinted .editOnly
    deleteOnly := c.deleteOnly || hinted .deleteOnly
    searchable := c.searchable || hinted .searchable }

/-- The classification of an attribute under the hints. -/
def classify (hints : Hints) (path : String) (a : Attribute) :
    Except SchemaError Classification := do
  let d := a.declaration
  if d.required && d.optional then .error (.conflictingFlags path .declaredBoth)
  else
    let c := overlay hints path (.declared d)
    c.validate path
    return c

/-! ## The walk -/

mutual
/-- The fields of an attribute: its own and those of its children. -/
def attributeFields (hints : Hints) (path : String) :
    Attribute → Except SchemaError (List (String × Field))
  | .plain shape d => do
    let type ← attributeType hints path (.plain shape d)
    let c ← classify hints path (.plain shape d)
    return [(path, ⟨type, c⟩)]
  | .nested nesting children d => do
    let type ← attributeType hints path (.nested nesting children d)
    let c ← classify hints path (.nested nesting children d)
    return (path, ⟨type, c⟩) :: (← fieldsBelow hints path children)

/-- The fields of the attributes below a path, in the order of the walk. -/
def fieldsBelow (hints : Hints) (parent : String) :
    List (String × Attribute) → Except SchemaError (List (String × Field))
  | [] => .ok []
  | (name, a) :: rest => do
    let path := joinPath parent name
    checkName path name
    if hints.mentions .excluded path then fieldsBelow hints parent rest
    else
      let fields ← attributeFields hints path a
      return fields ++ (← fieldsBelow hints parent rest)
end

/-- No path may be hinted both required and optional. -/
def checkHints (hints : Hints) : Except SchemaError Unit :=
  match (hints.paths .required).find? (hints.mentions .optional) with
  | some path => .error (.conflictingFlags path .hintedBoth)
  | none => .ok ()

end Schema

/-- Flattens a schema under its hints. -/
def introspect (schema : EntitySchema) (hints : Hints) : Except SchemaError Introspection := do
  Schema.checkHints hints
  let fields ← Schema.fieldsBelow hints "" schema.attributes
  return ⟨Assoc.ofList fields⟩

end EntityModel
