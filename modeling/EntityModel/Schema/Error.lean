import EntityModel.Text.Quoted

/-!
# Faults of schemas

Why a schema cannot be bound to its hints, and why a registry does not hold what is asked of it.
-/

namespace EntityModel

/-- What is wrong with a declaration. -/
inductive AttributeFault where
  | badName (name : String)
  | noChildren
deriving DecidableEq, Repr

def AttributeFault.message : AttributeFault → String
  | .badName name =>
    "attribute name " ++ Text.quote name ++ " must be non-empty and free of '.', '[' and ']'"
  | .noChildren => "nested attribute declares no child attributes"

/-- Flags that do not go together. -/
inductive FlagConflict where
  | hintedBoth
  | declaredBoth
  | requiredAndOptional
  | writeOnlyAndComputed
deriving DecidableEq, Repr

def FlagConflict.message : FlagConflict → String
  | .hintedBoth => "listed in both required_fields and optional_fields"
  | .declaredBoth => "declared both required and optional"
  | .requiredAndOptional => "required and optional are mutually exclusive"
  | .writeOnlyAndComputed => "a write-only field cannot be computed"

inductive SchemaError where
  | invalidAttribute (path : String) (fault : AttributeFault)
  | conflictingFlags (path : String) (conflict : FlagConflict)
  | duplicateEntity (name : String)
  | unknownEntity (name : String)
deriving DecidableEq, Repr

def SchemaError.message : SchemaError → String
  | .invalidAttribute path fault => "invalid attribute " ++ Text.quote path ++ ": " ++ fault.message
  | .conflictingFlags path conflict =>
    "conflicting flags on " ++ Text.quote path ++ ": " ++ conflict.message
  | .duplicateEntity name => "entity " ++ Text.quote name ++ " is registered more than once"
  | .unknownEntity name => "unknown entity: " ++ name

end EntityModel
