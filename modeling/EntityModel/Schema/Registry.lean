import EntityModel.Schema.Introspection

/-!
# The registry of entities

A registry holds entities under their names, each a schema bound to its hints and introspected. It
is built once, from all registrations, and only read after that.
-/

namespace EntityModel

/-- A schema with its hints, as a registry takes it. -/
structure Registration where
  schema : EntitySchema
  hints : Hints

/-- A schema bound to its hints. -/
structure Entity where
  schema : EntitySchema
  hints : Hints
  introspection : Introspection

namespace Entity

/-- Binds a schema to its hints. -/
def bind (registration : Registration) : Except SchemaError Entity := do
  return ⟨registration.schema, registration.hints,
    ← introspect registration.schema registration.hints⟩

def name (entity : Entity) : String := entity.schema.name

/-- The type declared at a dotted path. -/
def typeOf? (entity : Entity) (path : String) : Option ValueType :=
  entity.introspection.typeOf? path

/-- The classification at a dotted path. -/
def classificationOf? (entity : Entity) (path : String) : Option Classification :=
  entity.introspection.classificationOf? path

/-- The names of the entity's own attributes with their types. -/
def topLevel (entity : Entity) : List (String × ValueType) := entity.introspection.topLevel

/-- Whether a name is one of the entity's own attributes. -/
def hasAttribute (entity : Entity) (name : String) : Bool :=
  Introspection.isTopLevel name && (entity.typeOf? name).isSome

end Entity

/-- Entities under their names. -/
structure Registry where
  entities : Assoc Entity

namespace Registry

/-- Adds registrations to a registry one after the other. -/
def register (done : Assoc Entity) : List Registration → Except SchemaError (Assoc Entity)
  | [] => .ok done
  | registration :: rest => do
    let name := registration.schema.name
    if Assoc.has done name then .error (.duplicateEntity name)
    else
      let entity ← Entity.bind registration
      register (Assoc.insert name entity done) rest

/-- The registry of all registrations; the first that has a fault is the error. -/
def build (registrations : List Registration) : Except SchemaError Registry :=
  return ⟨← register [] registrations⟩

/-- The entity of a name. -/
def get (registry : Registry) (name : String) : Except SchemaError Entity :=
  match Assoc.get? registry.entities name with
  | some entity => .ok entity
  | none => .error (.unknownEntity name)

def contains (registry : Registry) (name : String) : Bool := Assoc.has registry.entities name

/-- The names, in ascending order. -/
def names (registry : Registry) : List String := Assoc.keys registry.entities

def size (registry : Registry) : Nat := registry.entities.length

def isEmpty (registry : Registry) : Bool := registry.entities.isEmpty

end Registry

end EntityModel
