import EntityModel.Json.Basic

/-!
# Tables of TOML documents

A document is a table that headers and dotted keys extend step by step, in the order in which they
stand. How a table came to be decides what may still extend it: one that is only implied by a longer
header may get a header of its own, one that dotted keys made may only get more dotted keys, and one
with a header of its own is never defined again.
-/

namespace EntityModel.Toml

/-- How a table came to be. -/
inductive Origin where
  /-- By a header of its own. -/
  | header
  /-- By the header of a table below it. -/
  | implied
  /-- By a dotted key. -/
  | dotted
deriving DecidableEq, Repr

/-- An entry of a table that is still being read. -/
inductive Node where
  | value (tree : Json)
  | table (origin : Origin) (entries : List (String × Node))
  /-- Tables under one header in double brackets, the last one first. -/
  | tables (items : List (List (String × Node)))

/-- The entries of a table, in the order of the document. -/
abbrev Entries := List (String × Node)

/-- Puts a node in the place of the one under a key, or at the end. -/
def Entries.put (key : String) (node : Node) (entries : Entries) : Entries :=
  if Assoc.has entries key then Assoc.replace key node entries else entries ++ [(key, node)]

mutual
/-- The finished tree. -/
def Node.tree : Node → Json
  | .value tree => tree
  | .table _ entries => .object (entriesTree entries)
  | .tables items => .array (itemsTree items).reverse

def entriesTree : List (String × Node) → List (String × Json)
  | [] => []
  | (key, node) :: rest => (key, node.tree) :: entriesTree rest

def itemsTree : List (List (String × Node)) → List Json
  | [] => []
  | item :: rest => .object (entriesTree item) :: itemsTree rest
end

/-- Changes the table that the names of a header lead to; in an array of tables that is the last
one. -/
def within (change : Entries → Option Entries) : List String → Entries → Option Entries
  | [], entries => change entries
  | key :: path, entries =>
    match Assoc.get? entries key with
    | none => do
      return entries.put key (.table .implied (← within change path []))
    | some (.table origin below) => do
      return entries.put key (.table origin (← within change path below))
    | some (.tables (last :: others)) => do
      return entries.put key (.tables ((← within change path last) :: others))
    | some (.tables []) => none
    | some (.value _) => none

/-- Starts the table of a header. -/
def startTable (key : String) (entries : Entries) : Option Entries :=
  match Assoc.get? entries key with
  | none => some (entries.put key (.table .header []))
  | some (.table .implied below) =>
    some (Entries.put key (.table .header below) (Assoc.erase key entries))
  | some _ => none

/-- Starts one more table of a header in double brackets. -/
def startItem (key : String) (entries : Entries) : Option Entries :=
  match Assoc.get? entries key with
  | none => some (entries.put key (.tables [[]]))
  | some (.tables items) => some (entries.put key (.tables ([] :: items)))
  | some _ => none

/-- Puts a value under a dotted key. The tables on the way must not have a header of their own, and
the one that takes the value must be made by dotted keys if it is not the one the key starts in. -/
def putDotted (tree : Json) : (path : List String) → (key : String) → Entries → Option Entries
  | [], key, entries =>
    match Assoc.get? entries key with
    | none => some (entries.put key (.value tree))
    | some _ => none
  | first :: path, key, entries =>
    match Assoc.get? entries first with
    | none => do return entries.put first (.table .dotted (← putDotted tree path key []))
    | some (.table origin below) =>
      if origin = .header || path.isEmpty && origin = .implied then none
      else do return entries.put first (.table origin (← putDotted tree path key below))
    | some (.tables (last :: others)) =>
      if path.isEmpty then none
      else do return entries.put first (.tables ((← putDotted tree path key last) :: others))
    | some (.tables []) => none
    | some (.value _) => none

end EntityModel.Toml
