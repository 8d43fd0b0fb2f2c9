/-!
# Hints

Hints correct the declarations of a schema from outside. Each of fourteen lists holds the dotted
paths of the attributes that it concerns: `name` means the attribute of the entity itself,
`spec.name` only the one nested in `spec`.
-/

namespace EntityModel

/-- The lists of hints. -/
inductive HintList where
  | required
  | notRequired
  | optional
  | notOptional
  | computed
  | notComputed
  | sensitive
  | searchable
  | readOnly
  | writeOnly
  | editOnly
  | deleteOnly
  /-- Attributes that are left out together with their children. -/
  | excluded
  /-- Sets that keep the order of their items and so are lists. -/
  | preserveOrder
deriving DecidableEq, Repr

namespace HintList

/-- All lists, in the order in which they are written. -/
def all : List HintList :=
  [.required, .notRequired, .optional, .notOptional, .computed, .notComputed, .sensitive,
    .searchable, .readOnly, .writeOnly, .editOnly, .deleteOnly, .excluded, .preserveOrder]

theorem mem_all (list : HintList) : list ∈ all := by cases list <;> simp [all]

/-- The name of a list in configurations. -/
def key : HintList → String
  | .required => "required_fields"
  | .notRequired => "not_required_fields"
  | .optional => "optional_fields"
  | .notOptional => "not_optional_fields"
  | .computed => "computed_fields"
  | .notComputed => "not_computed_fields"
  | .sensitive => "sensitive_fields"
  | .searchable => "searchable_fields"
  | .readOnly => "read_only_fields"
  | .writeOnly => "write_only_fields"
  | .editOnly => "edit_only_fields"
  | .deleteOnly => "delete_only_fields"
  | .excluded => "excluded_fields"
  | .preserveOrder => "preserve_order_fields"

/-- The list of a name. -/
def ofKey? (key : String) : Option HintList := all.find? fun list => list.key == key

end HintList

/-- The paths in each list. -/
@[ext]
structure Hints where
  paths : HintList → List String

namespace Hints

/-- No hints. -/
def none : Hints := ⟨fun _ => []⟩

/-- Whether a list holds a path. -/
def mentions (hints : Hints) (list : HintList) (path : String) : Bool :=
  (hints.paths list).contains path

/-- The hints with another content of one list. -/
def put (hints : Hints) (list : HintList) (paths : List String) : Hints :=
  ⟨fun other => if other = list then paths else hints.paths other⟩

/-- The hints with more paths at the end of a list. -/
def add (hints : Hints) (list : HintList) (paths : List String) : Hints :=
  hints.put list (hints.paths list ++ paths)

/-- The paths that are no part of create requests and look-ups: those sent on edits only, then
those sent on deletions only. -/
def editOrDeleteOnly (hints : Hints) : List String :=
  hints.paths .editOnly ++ hints.paths .deleteOnly

@[simp] theorem paths_put_self (hints : Hints) (list : HintList) (paths : List String) :
    (hints.put list paths).paths list = paths := by simp [put]

theorem paths_put_of_ne {list other : HintList} (h : other ≠ list) (hints : Hints)
    (paths : List String) : (hints.put list paths).paths other = hints.paths other := by
  simp [put, h]

end Hints

end EntityModel
