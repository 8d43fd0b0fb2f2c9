import EntityModel.Container.Basic
import EntityModel.Container.Selection
import EntityModel.Value.Equality

/-!
# Projections of containers

A projection shows some of a container's values as a record: the selected fields, all fields, or the
fields that differ from another container. Absent values are left out, unless `includeEmpty` is
among the filters: then they are shown as nulls.
-/

namespace EntityModel.Container

/-- Leaves out nulls unless absent fields are to be shown. -/
def pruneUnless (includeEmpty : Bool) (record : Record) : Record :=
  if includeEmpty then record else record.prune

/-- Whether a field is selected. -/
def selects (entity : Entity) (combination : Combination) (set : Option FieldSet)
    (filters : List FieldFilter) (name : String) : Bool :=
  set.all (·.admits name) &&
    match entity.typeOf? name, entity.classificationOf? name with
    | some type, some c =>
      (type.isPrimitive || !filters.contains .primitivesOnly) &&
        FieldFilter.matches? c combination filters
    | _, _ => false

/-- The entry of a value in a projection. -/
def project? (includeEmpty : Bool) (name : String) (value : Value) : Option (String × Raw) :=
  if value.isKnown then some (name, lower value)
  else if includeEmpty then some (name, .null)
  else none

/-- The selected fields. -/
def filtered (c : Container) (combination : Combination) (set : Option FieldSet)
    (filters : List FieldFilter) : Except ContainerError Record := do
  let entity ← c.entity
  let includeEmpty := filters.contains .includeEmpty
  return pruneUnless includeEmpty (c.values.filterMap fun entry =>
    if selects entity combination set filters entry.1 then
      project? includeEmpty entry.1 entry.2
    else none)

/-- All fields, absent ones as nulls. -/
def allValues (c : Container) : Except ContainerError Record := do
  let _ ← c.entity
  return lowerTable c.values

/-! ## Differences -/

/-- The fields to compare: the given ones, which must be declared, or else those whose
classification meets the conditions. -/
def candidates (c : Container) (entity : Entity) (combination : Combination)
    (fields : Option (List String)) (filters : List FieldFilter) :
    Except ContainerError (List String) :=
  match fields with
  | some names =>
    match names.find? fun name => !entity.hasAttribute name with
    | some name => .error (.undeclared name)
    | none => .ok names
  | none => .ok ((Assoc.keys c.values).filter fun name =>
      (entity.classificationOf? name).any (FieldFilter.matches? · combination filters))

/-- Whether another container lacks a value, has none or holds a different one. -/
def differsIn (other : Container) (name : String) (value : Value) : Bool :=
  match Assoc.get? other.values name with
  | none => true
  | some theirs => !theirs.isKnown || !theirs.equals value

/-- The entry of a field in the difference to another container. -/
def differing? (c other : Container) (includeEmpty : Bool) (name : String) :
    Option (String × Raw) := do
  let value ← Assoc.get? c.values name
  if value.isKnown && !differsIn other name value then none
  else project? includeEmpty name value

/-- The fields whose value differs from that of another container, with the value here. -/
def difference (c other : Container) (combination : Combination) (fields : Option (List String))
    (filters : List FieldFilter) : Except ContainerError Record := do
  let entity ← c.entity
  let _ ← other.entity
  let names ← c.candidates entity combination fields filters
  let includeEmpty := filters.contains .includeEmpty
  return pruneUnless includeEmpty (Assoc.ofList (names.filterMap (c.differing? other includeEmpty)))

end EntityModel.Container
