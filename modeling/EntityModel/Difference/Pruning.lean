import EntityModel.Raw.Basic

/-!
# Pruning nulls

`Raw.prune` leaves out the null entries of maps and the null items of lists at every depth. A
collection that loses all its parts stays as an empty one, and a null that is the whole value stays.
-/

namespace EntityModel

namespace Raw

mutual
/-- The raw value without nulls below its root. -/
def prune : Raw → Raw
  | .list items => .list (pruneItems items)
  | .map entries => .map (pruneEntries entries)
  | leaf => leaf

/-- The items that are not null, pruned. -/
def pruneItems : List Raw → List Raw
  | [] => []
  | item :: rest => if item.isNull then pruneItems rest else prune item :: pruneItems rest

/-- The entries that are not null, pruned. -/
def pruneEntries : Record → Record
  | [] => []
  | (key, value) :: rest =>
    if value.isNull then pruneEntries rest else (key, prune value) :: pruneEntries rest
end

end Raw

/-- The record without nulls at any depth. -/
def Record.prune (record : Record) : Record := Raw.pruneEntries record

end EntityModel
