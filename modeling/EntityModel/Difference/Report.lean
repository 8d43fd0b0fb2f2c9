import EntityModel.Difference.Sliding
import EntityModel.Difference.Structural
import EntityModel.Raw.Json
import EntityModel.Text.Lines

/-!
# Reports of differences

`structuralDiff` says nothing about structurally equal values. For any others it shows the JSON text
of both normal forms as one list of lines: lines of both behind two blanks, those of the first value
only behind a minus sign, those of the second only behind a plus sign.
-/

namespace EntityModel

namespace Script

variable {α : Type}

/-- Between kept lines, all deleted lines come before all inserted ones. -/
def gather : List (Edit α) → (deleted inserted : List α) → List (Edit α)
  | [], deleted, inserted => [.delete deleted, .insert inserted]
  | .keep lines :: rest, deleted, inserted =>
    .delete deleted :: .insert inserted :: .keep lines :: gather rest [] []
  | .delete lines :: rest, deleted, inserted => gather rest (deleted ++ lines) inserted
  | .insert lines :: rest, deleted, inserted => gather rest deleted (inserted ++ lines)

theorem spells_gather (script : List (Edit α)) (deleted inserted : List α) :
    Spells (gather script deleted inserted) (deleted ++ oldLines script)
      (inserted ++ newLines script) := by
  induction script generalizing deleted inserted with
  | nil => simp [gather, Spells, Edit.old, Edit.new]
  | cons edit rest ih =>
    cases edit with
    | keep lines =>
      have h := ih [] []
      simp_all [gather, Spells, Edit.old, Edit.new]
    | delete lines =>
      have h := ih (deleted ++ lines) inserted
      simp_all [gather, Spells, Edit.old, Edit.new]
    | insert lines =>
      have h := ih deleted (inserted ++ lines)
      simp_all [gather, Spells, Edit.old, Edit.new]

end Script

namespace Edit

/-- The sign in front of a line. -/
def sign {α : Type} : Edit α → Char
  | .keep _ => ' '
  | .delete _ => '-'
  | .insert _ => '+'

/-- The lines of a run. -/
def lines {α : Type} : Edit α → List α
  | .keep lines | .delete lines | .insert lines => lines

/-- The lines of a run behind their sign. A line that lacks a newline gets one; no line of a JSON
text lacks it. -/
def marked (edit : Edit (List Char)) : List (List Char) :=
  edit.lines.map fun line => edit.sign :: ' ' :: Text.ended line

end Edit

/-- The lines of the JSON text of a raw value. -/
def Raw.prettyLines (raw : Raw) : List (List Char) :=
  Text.lines (raw.toJson.prettyText 0 ++ ['\n'])

/-- What distinguishes two values, if they are not structurally equal. The differ finds a script
that leads from the lines of the one to those of the other. -/
def structuralDiffBy (differ : List (List Char) → List (List Char) → List (Edit (List Char)))
    (expected actual : Raw) : Option String :=
  if structuralEq expected actual then none
  else
    let script := differ expected.normalize.prettyLines actual.normalize.prettyLines
    some ("mismatch:\n" ++ String.ofList (script.flatMap Edit.marked).flatten)

/-- The script that reports are made from. -/
def lineScript (old new : List (List Char)) : List (Edit (List Char)) :=
  Script.gather (Script.settle (Script.find old new)) [] []

/-- The report of the differences between two values. -/
def structuralDiff (expected actual : Raw) : Option String :=
  structuralDiffBy lineScript expected actual

end EntityModel
