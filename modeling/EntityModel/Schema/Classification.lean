import EntityModel.Schema.Basic
import EntityModel.Schema.Error

/-!
# Classification of fields

Nine flags say how a field takes part in requests. They come from the declaration of the attribute;
one that is declared neither required nor optional nor computed is computed.
-/

namespace EntityModel

/-- The flags of a classification. -/
inductive Flag where
  | required
  | optional
  | computed
  | sensitive
  /-- Usable to find an existing remote entity. -/
  | searchable
  /-- Only sent on look-ups. -/
  | readOnly
  | writeOnly
  /-- Only sent on edits. -/
  | editOnly
  /-- Only sent on deletions. -/
  | deleteOnly
deriving DecidableEq, Repr

namespace Flag

/-- All flags, in the order in which they are listed. -/
def all : List Flag :=
  [.required, .optional, .computed, .sensitive, .searchable, .readOnly, .writeOnly, .editOnly,
    .deleteOnly]

def name : Flag → String
  | .required => "required"
  | .optional => "optional"
  | .computed => "computed"
  | .sensitive => "sensitive"
  | .searchable => "searchable"
  | .readOnly => "read_only"
  | .writeOnly => "write_only"
  | .editOnly => "edit_only"
  | .deleteOnly => "delete_only"

end Flag

/-- Which flags a field carries. -/
structure Classification where
  required : Bool := false
  optional : Bool := false
  computed : Bool := false
  sensitive : Bool := false
  searchable : Bool := false
  readOnly : Bool := false
  writeOnly : Bool := false
  editOnly : Bool := false
  deleteOnly : Bool := false
deriving DecidableEq, Repr

namespace Classification

/-- Whether a flag is set. -/
def has (c : Classification) : Flag → Bool
  | .required => c.required
  | .optional => c.optional
  | .computed => c.computed
  | .sensitive => c.sensitive
  | .searchable => c.searchable
  | .readOnly => c.readOnly
  | .writeOnly => c.writeOnly
  | .editOnly => c.editOnly
  | .deleteOnly => c.deleteOnly

/-- The classification that carries the flags of a list. -/
def ofFlags (flags : List Flag) : Classification where
  required := flags.contains .required
  optional := flags.contains .optional
  computed := flags.contains .computed
  sensitive := flags.contains .sensitive
  searchable := flags.contains .searchable
  readOnly := flags.contains .readOnly
  writeOnly := flags.contains .writeOnly
  editOnly := flags.contains .editOnly
  deleteOnly := flags.contains .deleteOnly

/-- The flags that are set, in order. -/
def flags (c : Classification) : List Flag := Flag.all.filter c.has

/-- The names of the flags that are set, in order. -/
def flagNames (c : Classification) : List String := c.flags.map Flag.name

/-- The classification that a declaration amounts to by itself. -/
def declared (d : Declaration) : Classification where
  required := d.required
  optional := d.optional
  computed := d.computed || (!d.required && !d.optional)
  sensitive := d.sensitive
  writeOnly := d.writeOnly

/-- Refuses flags that cannot hold together. -/
def validate (path : String) (c : Classification) : Except SchemaError Unit :=
  if c.required && c.optional then .error (.conflictingFlags path .requiredAndOptional)
  else if c.writeOnly && c.computed then .error (.conflictingFlags path .writeOnlyAndComputed)
  else .ok ()

end Classification

end EntityModel
