import EntityModel.Schema.Classification

/-!
# Selecting fields

Fields are selected by their classification and by their names. Two of the filters are modifiers:
they match no classification and only change how the selected fields are shown.
-/

namespace EntityModel

/-- A condition on a field, or a modifier. -/
inductive FieldFilter where
  | carries (flag : Flag)
  | lacks (flag : Flag)
  /-- Absent fields are shown as nulls. -/
  | includeEmpty
  /-- Only scalar fields are shown. -/
  | primitivesOnly
deriving DecidableEq, Repr

/-- How several conditions go together. -/
inductive Combination where
  | all
  | any
deriving DecidableEq, Repr

namespace FieldFilter

def isModifier : FieldFilter → Bool
  | .includeEmpty | .primitivesOnly => true
  | _ => false

/-- Whether a classification meets a condition; modifiers have no answer. -/
def test? (c : Classification) : FieldFilter → Option Bool
  | .carries flag => some (c.has flag)
  | .lacks flag => some (!c.has flag)
  | .includeEmpty | .primitivesOnly => none

/-- Whether a classification meets the conditions of a list; without conditions every one does. -/
def matches? (c : Classification) (combination : Combination) (filters : List FieldFilter) : Bool :=
  match filters.filterMap (test? c) with
  | [] => true
  | results =>
    match combination with
    | .all => results.all id
    | .any => results.any id

end FieldFilter

/-- Names that are let through or kept out. -/
structure FieldSet where
  /-- Unless it is empty, only these names are let through. -/
  includes : List String := []
  excludes : List String := []

namespace FieldSet

/-- Whether a name is let through; keeping out wins. -/
def admits (set : FieldSet) (name : String) : Bool :=
  !set.excludes.contains name && (set.includes.isEmpty || set.includes.contains name)

end FieldSet

end EntityModel
