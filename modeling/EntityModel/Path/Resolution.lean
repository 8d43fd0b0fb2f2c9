import EntityModel.Path.Basic
import EntityModel.Text.Quoted
import EntityModel.Value.Basic

/-!
# Values at paths

`resolve` finds the value at a path of a table, and `update` changes it in place. Both walk the same
steps: a name leads into a known object, an index into a known list or set.

* `resolve`: the value at a path.
* `update`, `assign`: a table with another value at a path.
-/

namespace EntityModel

/-- Why a step leads nowhere. -/
inductive StepError where
  | emptyPath
  /-- A table has names only. -/
  | unnamed
  | keyNotFound
  /-- The object is null or unknown. -/
  | absentObject
  | noNames (kind : ValueType.Kind)
  | outOfBounds (length : Nat)
  /-- The list or set is null or unknown. -/
  | absentItems (kind : ValueType.Kind)
  | noIndices (kind : ValueType.Kind)
deriving DecidableEq, Repr

def StepError.message : StepError → String
  | .emptyPath => "empty path"
  | .unnamed => "top-level values are addressed by name"
  | .keyNotFound => "key not found"
  | .absentObject => "object is null or unknown"
  | .noNames kind => "cannot look up a name in a " ++ kind.name
  | .outOfBounds length => "index out of bounds (len " ++ toString length ++ ")"
  | .absentItems kind => kind.name ++ " is null or unknown"
  | .noIndices kind => "a " ++ kind.name ++ " does not support indexing"

/-- A path that leads nowhere: its shortest part that does so, and why. -/
structure ResolutionError where
  path : Path
  reason : StepError
deriving DecidableEq, Repr

def ResolutionError.message (e : ResolutionError) : String :=
  "cannot resolve " ++ Text.quote e.path.render ++ ": " ++ e.reason.message

namespace Value

/-! ## One step -/

/-- The part of a value that a segment names. -/
def child (value : Value) : Segment → Except StepError Value
  | .key name =>
    match value with
    | .object _ attributes =>
      match Assoc.get? attributes name with
      | some part => .ok part
      | none => .error .keyNotFound
    | _ => .error (if value.kind = .object then .absentObject else .noNames value.kind)
  | .index position =>
    match value with
    | .list _ items | .set _ items =>
      match items[position.toNat]? with
      | some part => .ok part
      | none => .error (.outOfBounds items.length)
    | _ => .error (if value.kind = .list ∨ value.kind = .set then .absentItems value.kind
        else .noIndices value.kind)

/-- The value with another part under a segment. -/
def withChild (part : Value) : Value → Segment → Value
  | .object fields attributes, .key name => .object fields (Assoc.replace name part attributes)
  | .list element items, .index position => .list element (items.set position.toNat part)
  | .set element items, .index position => .set element (items.set position.toNat part)
  | value, _ => value

/-! ## Many steps -/

/-- Follows segments from a value; `walked` is the path up to it. -/
def follow (walked : Path) : Value → List Segment → Except ResolutionError Value
  | value, [] => .ok value
  | value, segment :: rest =>
    match value.child segment with
    | .ok part => follow (walked ++ [segment]) part rest
    | .error reason => .error ⟨walked ++ [segment], reason⟩

/-- Changes the value that segments lead to. -/
def change {ε : Type} (refuse : ResolutionError → ε) (f : Value → Except ε Value)
    (walked : Path) :
    Value → List Segment → Except ε Value
  | value, [] => f value
  | value, segment :: rest =>
    match value.child segment with
    | .ok part => do
      let part ← change refuse f (walked ++ [segment]) part rest
      return withChild part value segment
    | .error reason => .error (refuse ⟨walked ++ [segment], reason⟩)

end Value

/-! ## Tables -/

/-- The value of a table that a path begins at, with its name and the segments behind it. -/
def entryAt (table : ValueTable) : Path → Except ResolutionError (String × Value × List Segment)
  | .key name :: rest =>
    match Assoc.get? table name with
    | some value => .ok (name, value, rest)
    | none => .error ⟨[.key name], .keyNotFound⟩
  | .index position :: _ => .error ⟨[.index position], .unnamed⟩
  | [] => .error ⟨[], .emptyPath⟩

/-- The value at a path. -/
def resolve (table : ValueTable) (path : Path) : Except ResolutionError Value := do
  let (name, value, rest) ← entryAt table path
  value.follow (.ofKey name) rest

/-- The table with the value at a path changed by a function that may fail. -/
def update {ε : Type} (refuse : ResolutionError → ε) (f : Value → Except ε Value)
    (table : ValueTable) (path : Path) : Except ε ValueTable := do
  let (name, value, rest) ← (entryAt table path).mapError refuse
  let value ← value.change refuse f (.ofKey name) rest
  return Assoc.replace name value table

/-- The table with another value at a path. -/
def assign (table : ValueTable) (path : Path) (new : Value) : Except ResolutionError ValueTable :=
  update id (fun _ => .ok new) table path

end EntityModel
