import EntityModel.Conversion
import EntityModel.Difference.Pruning
import EntityModel.Path.Parser
import EntityModel.Path.Resolution
import EntityModel.Schema.Registry

/-!
# Containers

A container holds the values of one entity. It is bound to the entity's schema, or disabled: then it
has values but no schema, and what needs one is refused.

* `Container.create`, `Container.ofRecord`: containers with values of the declared types.
* `Container.get` and the readers: values at paths.
* `Container.set`, `Container.setOrAdd`, `Container.fill`, `Container.copyTo`: changes.
-/

namespace EntityModel

/-- Why an operation on a container is refused. -/
inductive ContainerError where
  /-- No schema is bound. -/
  | disabled
  | undeclared (name : String)
  | unclassified (name : String)
  /-- A value of another type than the declared one. -/
  | wrongType (path : String) (expected actual : ValueType)
  /-- A value of another kind than a reader takes. -/
  | wrongKind (path : String) (expected : List ValueType.Kind) (actual : ValueType.Kind)
  | notWhole (path : String) (value : Binary64)
  | badPath (error : Path.ParseError)
  | resolution (error : ResolutionError)
  | conversion (error : ConversionError)

def ContainerError.message : ContainerError → String
  | .disabled => "state is disabled: no schema bound"
  | .undeclared name => "field " ++ Text.quote name ++ " is not declared"
  | .unclassified name => "no classification for " ++ Text.quote name
  | .wrongType path expected actual =>
    "type mismatch at " ++ Text.quote path ++ ": expected " ++ expected.render ++ ", got " ++
      actual.render
  | .wrongKind path expected actual =>
    "type mismatch at " ++ Text.quote path ++ ": expected " ++
      " or ".intercalate (expected.map ValueType.Kind.name) ++ ", got " ++ actual.name
  | .notWhole path value =>
    "value at " ++ Text.quote path ++ " is not a whole number: " ++
      Decimal.Layout.plain.render value
  | .badPath error => "invalid path: " ++ error.message
  | .resolution error => error.message
  | .conversion error => error.message

/-- The values of one entity, bound to its schema or to none. -/
structure Container where
  values : ValueTable
  entity? : Option Entity

namespace Container

/-! ## Making containers -/

/-- Checks that values are the entity's own attributes and of the declared types. -/
def checkValues (entity : Entity) : ValueTable → Except ContainerError Unit
  | [] => .ok ()
  | (name, value) :: rest =>
    match (entity.typeOf? name).filter fun _ => entity.hasAttribute name with
    | none => .error (.undeclared name)
    | some type =>
      if value.type = type then checkValues entity rest
      else .error (.wrongType name type value.type)

/-- A container with given values. -/
def create (entity : Entity) (values : ValueTable) : Except ContainerError Container := do
  checkValues entity values
  return ⟨values, some entity⟩

/-- A container with the declared values of a record. -/
def ofRecord (entity : Entity) (record : Record) : Except ContainerError Container := do
  return ⟨← (liftRecord record entity.topLevel).mapError .conversion, some entity⟩

/-- A container with the declared values of a JSON object. -/
def ofJson (entity : Entity) (json : Json) : Except ContainerError Container := do
  ofRecord entity (← (recordOf json).mapError .conversion)

/-- A container that no schema is bound to. -/
def unbound (values : ValueTable) : Container := ⟨values, none⟩

def isEnabled (c : Container) : Bool := c.entity?.isSome

/-- The bound entity. -/
def entity (c : Container) : Except ContainerError Entity :=
  match c.entity? with
  | some entity => .ok entity
  | none => .error .disabled

/-- Whether a name is one of the entity's own attributes. -/
def hasAttribute (c : Container) (name : String) : Bool :=
  c.entity?.any (·.hasAttribute name)

/-! ## Reading -/

/-- Reads a path. -/
def parsePath (path : String) : Except ContainerError Path := (Path.parse path).mapError .badPath

/-- The value at a path. -/
def get (c : Container) (path : String) : Except ContainerError Value := do
  let _ ← c.entity
  (resolve c.values (← parsePath path)).mapError .resolution

/-- Refuses a value of a kind that a reader does not take. -/
def wrongKind {α : Type} (path : String) (expected : List ValueType.Kind) (value : Value) :
    Except ContainerError α := .error (.wrongKind path expected value.kind)

/-- A known value of one kind, read by a function; nothing if the value is absent. -/
def read {α : Type} (kind : ValueType.Kind) (payload? : Value → Option α) (c : Container)
    (path : String) : Except ContainerError (Option α) := do
  let value ← c.get path
  if value.kind = kind then return payload? value else wrongKind path [kind] value

def readString (c : Container) (path : String) : Except ContainerError (Option String) :=
  c.read .string (fun | .string value => some value | _ => none) path

def readBool (c : Container) (path : String) : Except ContainerError (Option Bool) :=
  c.read .bool (fun | .bool value => some value | _ => none) path

def readFloat64 (c : Container) (path : String) : Except ContainerError (Option Binary64) :=
  c.read .float64 (fun | .float64 value => some value | _ => none) path

def readObject (c : Container) (path : String) : Except ContainerError (Option ValueTable) :=
  c.read .object Value.attributes? path

def readList (c : Container) (path : String) : Except ContainerError (Option (List Value)) :=
  c.read .list Value.elements? path

def readSet (c : Container) (path : String) : Except ContainerError (Option (List Value)) :=
  c.read .set Value.elements? path

/-- An integer; a floating-point number counts if it is whole. -/
def readInt64 (c : Container) (path : String) : Except ContainerError (Option Int64) := do
  match ← c.get path with
  | .int64 value => return some value
  | .float64 value =>
    match value.int64? with
    | some n => return some n
    | none => .error (.notWhole path value)
  | value =>
    if value.kind = .int64 ∨ value.kind = .float64 then return none
    else wrongKind path [.int64] value

def isNull (c : Container) (path : String) : Except ContainerError Bool :=
  return (← c.get path).isNull

def isUnknown (c : Container) (path : String) : Except ContainerError Bool :=
  return (← c.get path).isUnknown

def isKnown (c : Container) (path : String) : Except ContainerError Bool :=
  return (← c.get path).isKnown

/-! ## Changing -/

/-- Reads a raw value as a value of a type, for a path. -/
def liftFor (path : String) (raw : Raw) (type : ValueType) : Except ContainerError Value :=
  (liftAt type raw path).mapError .conversion

/-- The container with other values. -/
def withValues (c : Container) (values : ValueTable) : Container := { c with values := values }

/-- The container with a value under a name. -/
def put (c : Container) (name : String) (value : Value) : Container :=
  c.withValues (Assoc.insert name value c.values)

/-- Replaces the value that stands at a path. -/
def set (c : Container) (path : String) (raw : Raw) : Except ContainerError Container := do
  let entity ← c.entity
  let steps ← parsePath path
  if steps.isTopLevel then
    match (entity.typeOf? path).filter fun _ => Assoc.has c.values path with
    | none => .error (.undeclared path)
    | some type => return c.put path (← liftFor path raw type)
  else
    return c.withValues
      (← update .resolution (fun value => liftFor path raw value.type) c.values steps)

/-- Sets one of the entity's own attributes, whether the container holds it already or not. -/
def setOrAdd (c : Container) (name : String) (raw : Raw) : Except ContainerError Container := do
  let entity ← c.entity
  match (entity.typeOf? name).filter fun _ => entity.hasAttribute name with
  | none => .error (.undeclared name)
  | some type => return c.put name (← liftFor name raw type)

/-- The type of an own attribute that is computed. -/
def computedType? (entity : Entity) (name : String) : Option ValueType :=
  match entity.typeOf? name, entity.classificationOf? name with
  | some type, some c => if entity.hasAttribute name && c.computed then some type else none
  | _, _ => none

/-- Sets the computed fields among the entries of a record, in order. -/
def fillEntries (entity : Entity) (c : Container) :
    Record → Container × Except ContainerError Unit
  | [] => (c, .ok ())
  | (name, raw) :: rest =>
    match computedType? entity name with
    | none => fillEntries entity c rest
    | some type =>
      match liftFor name raw type with
      | .ok value => fillEntries entity (c.put name value) rest
      | .error e => (c, .error e)

/-- Sets the computed fields from a record. A fault ends the work; what was set before it stays. -/
def fill (c : Container) (record : Record) : Container × Except ContainerError Unit :=
  match c.entity with
  | .ok entity => fillEntries entity c record
  | .error e => (c, .error e)

/-- Copies the known values whose type another container declares for their name. -/
def copyTo (c target : Container) : Except ContainerError Container := do
  let _ ← c.entity
  let entity ← target.entity
  return c.values.foldl (fun done entry =>
    if entry.2.isKnown && entity.typeOf? entry.1 = some entry.2.type then done.put entry.1 entry.2
    else done) target

/-! ## Raw forms -/

/-- The list or set at a path as raw items, without nulls. -/
def toItems (c : Container) (path : String) : Except ContainerError (List Raw) := do
  let value ← c.get path
  if value.kind = .list ∨ value.kind = .set then
    return (lower value).prune.asList?.getD []
  else wrongKind path [.list, .set] value

/-- The map or object at a path as a record, without nulls. -/
def toRecord (c : Container) (path : String) : Except ContainerError Record := do
  let value ← c.get path
  if value.kind = .map ∨ value.kind = .object then
    return (lower value).prune.asMap?.getD []
  else wrongKind path [.map, .object] value

/-- Puts the known values at paths into a record, each under its path, and says whether there was
one. A fault ends the work; what was put before it stays. -/
def putAvailable (c : Container) (record : Record) :
    List String → Record × Except ContainerError Bool
  | [] => (record, .ok false)
  | path :: rest =>
    match c.get path with
    | .error e => (record, .error e)
    | .ok value =>
      if value.isKnown then
        let (record, result) := putAvailable c (Assoc.insert path (lower value) record) rest
        (record, result.map fun _ => true)
      else putAvailable c record rest

/-- The record of the known values at paths. -/
def available (c : Container) (paths : List String) : Except ContainerError Record :=
  let (record, result) := c.putAvailable [] paths
  result.map fun _ => record

/-! ## Declarations at paths -/

/-- The classification of the field that a path leads to. -/
def classification (c : Container) (path : String) : Except ContainerError Classification := do
  let key := (← parsePath path).schemaKey
  let entity ← c.entity
  match entity.classificationOf? key with
  | some found => return found
  | none => .error (.unclassified key)

/-- Whether the field that a path leads to carries a flag. -/
def carries (c : Container) (flag : Flag) (path : String) : Except ContainerError Bool :=
  return (← c.classification path).has flag

def isRequired (c : Container) (path : String) : Except ContainerError Bool :=
  c.carries .required path

def isOptional (c : Container) (path : String) : Except ContainerError Bool :=
  c.carries .optional path

def isComputed (c : Container) (path : String) : Except ContainerError Bool :=
  c.carries .computed path

/-- The declared type of the field that a path leads to. -/
def typeOf (c : Container) (path : String) : Except ContainerError ValueType := do
  let key := (← parsePath path).schemaKey
  let entity ← c.entity
  match entity.typeOf? key with
  | some type => return type
  | none => .error (.undeclared key)

end Container

end EntityModel
