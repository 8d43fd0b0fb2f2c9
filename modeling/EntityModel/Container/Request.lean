import EntityModel.Container.Projection

/-!
# Parameters of requests

The same container serves to look up, create, edit and delete a remote entity. What is sent follows
from the classification of the fields and from what is known.
-/

namespace EntityModel.Container

/-- Fields that most remote entities can be found by. -/
def commonSearchable : List String :=
  ["name", "path", "tenant_id", "tenant_name", "bucket", "gid", "uid"]

/-- Fields that identify an entity by themselves. -/
def identifiers : List String := ["id", "guid"]

/-- Adds the known ones of some fields to a record. -/
def addKnown (c : Container) (names : List String) (record : Record) : Record :=
  names.foldl (fun done name =>
    match Assoc.get? c.values name with
    | some value => if value.isKnown then Assoc.insert name (lower value) done else done
    | none => done) record

/-- The known read-only fields. -/
def readOnlySearchParams (c : Container) : Except ContainerError Record :=
  c.filtered .any none [.carries .readOnly]

/-- What an entity is looked up by: the common fields; or else the required and searchable ones that
are not sent on edits or deletions only; in both cases with the identifiers and the read-only
fields; and if that is nothing, the optional scalars. -/
def searchParams (c : Container) : Except ContainerError Record := do
  let entity ← c.entity
  let common ← c.filtered .any (some { includes := commonSearchable })
    [.carries .required, .carries .optional, .carries .searchable]
  let base ← if common.isEmpty then
      c.filtered .any (some { excludes := entity.hints.editOrDeleteOnly })
        [.carries .required, .carries .searchable]
    else pure common
  let params := (c.addKnown identifiers base).merge (← c.readOnlySearchParams) false
  if params.isEmpty then c.filtered .any none [.carries .optional, .primitivesOnly]
  else return params

/-- The known optional fields of a list. -/
def optionalAmong (c : Container) (names : List String) : Except ContainerError Record :=
  if names.isEmpty then return []
  else c.filtered .any (some { includes := names }) [.carries .optional]

/-- The known optional fields that are sent on edits only. -/
def editOnlyParams (c : Container) : Except ContainerError Record := do
  c.optionalAmong ((← c.entity).hints.paths .editOnly)

/-- The known optional fields that are sent on deletions only. -/
def deleteOnlyParams (c : Container) : Except ContainerError Record := do
  c.optionalAmong ((← c.entity).hints.paths .deleteOnly)

/-- The known required and optional fields, without those sent on edits or deletions only and
without the identifier that the remote service assigns. -/
def createParams (c : Container) : Except ContainerError Record := do
  let entity ← c.entity
  let params ← c.filtered .any (some { excludes := entity.hints.editOrDeleteOnly })
    [.carries .required, .carries .optional]
  return Assoc.erase "id" params

end EntityModel.Container
