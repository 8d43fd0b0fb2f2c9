import EntityModel.Container.Basic
import EntityModel.Schema.Outline

/-!
# Dumps of containers

A dump shows every value on a line with its flags, the attributes of objects indented below it. A
known value that is classified sensitive is not shown.
-/

namespace EntityModel.Container

/-- What stands for a sensitive value. -/
def redacted : String := "<sensitive>"

/-- The flags of a field, if it has any. -/
def flagNote (c : Option Classification) : String :=
  match c.map Classification.flagNames with
  | none | some [] => ""
  | some names => " (" ++ ",".intercalate names ++ ")"

/-- The text of a value on its line. -/
def dumpText (sensitive : Bool) (value : Value) : String :=
  if value.isNull then "<null>"
  else if value.isUnknown then "<unknown>"
  else if sensitive then redacted
  else (lower value).compact

/-- The line of a value that is shown as a whole. -/
def dumpLine (depth : Nat) (name note : String) (sensitive : Bool) (value : Value) : String :=
  indentation depth ++ name ++ ": " ++ value.kind.name ++ note ++ " = " ++
    dumpText sensitive value ++ "\n"

mutual
/-- The lines of a value under a name; `path` is its dotted path. -/
def dumpValue (entity : Entity) (depth : Nat) (name path : String) : Value → String
  | .object fields attributes =>
    let c := entity.classificationOf? path
    if c.any (·.sensitive) then
      dumpLine depth name (flagNote c) true (.object fields attributes)
    else
      indentation depth ++ name ++ ": object" ++ flagNote c ++ "\n" ++
        dumpTable entity (depth + 1) (path ++ ".") attributes
  | value =>
    let c := entity.classificationOf? path
    dumpLine depth name (flagNote c) (c.any (·.sensitive)) value

/-- The lines of named values; `parent` is what their dotted paths begin with. -/
def dumpTable (entity : Entity) (depth : Nat) (parent : String) : List (String × Value) → String
  | [] => ""
  | (name, value) :: rest =>
    dumpValue entity depth name (parent ++ name) value ++ dumpTable entity depth parent rest
end

/-- All values of a container, on lines. -/
def dump (c : Container) : Except ContainerError String :=
  return dumpTable (← c.entity) 0 "" c.values

end EntityModel.Container
