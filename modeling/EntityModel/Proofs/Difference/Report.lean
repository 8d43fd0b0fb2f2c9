import EntityModel.Difference.Report
import EntityModel.Proofs.Json.Lines

/-!
# Reports are faithful

A report of a difference can be read back: its lines with a blank or a minus sign in front, without
these marks, are the JSON text of the first normal form, and its lines with a blank or a plus sign
that of the second. The script of the difference speaks of the lines of both texts; what is to be
shown besides is that these are the lines of the report as well, which they are as a JSON text ends
in a newline and has no other line break inside a line.

* `Text.lines_flatten`: lines that are put together are the lines of the whole.
* `Script.side_marked`: the two texts in the marked lines of a script.
* `isReport_of_spells`: the marked lines of any script make a report.
* `structuralDiff_faithful`: the report of any two values, whichever differ it is made with.
-/

namespace EntityModel

/-! ## Lines -/

namespace Text

/-- A text with a newline at its end and nowhere else. -/
def IsLine (line : List Char) : Prop := ∃ body, '\n' ∉ body ∧ line = body ++ ['\n']

theorem lines_append {body : List Char} (h : '\n' ∉ body) (rest : List Char) :
    lines (body ++ '\n' :: rest) = (body ++ ['\n']) :: lines rest := by
  induction body with
  | nil => simp [lines]
  | cons c body ih =>
    obtain ⟨hc, hbody⟩ : c ≠ '\n' ∧ '\n' ∉ body := by
      rw [List.mem_cons, not_or] at h
      exact ⟨Ne.symm h.1, h.2⟩
    rw [List.cons_append, lines, if_neg hc, ih hbody]
    rfl

/-- Lines that are put together are found again. -/
theorem lines_flatten {list : List (List Char)} (h : ∀ line ∈ list, IsLine line) :
    lines list.flatten = list := by
  induction list with
  | nil => rfl
  | cons line rest ih =>
    obtain ⟨⟨body, hbody, rfl⟩, hrest⟩ := List.forall_mem_cons.mp h
    rw [List.flatten_cons, List.append_assoc, List.singleton_append, lines_append hbody, ih hrest]

/-- A text that ends in a newline consists of such lines. -/
theorem isLine_of_mem_lines (text : List Char) :
    ∀ line ∈ lines (text ++ ['\n']), IsLine line := by
  induction text with
  | nil => simp [lines, IsLine]
  | cons c rest ih =>
    rw [List.cons_append, lines]
    split
    · next hc =>
      rw [List.forall_mem_cons]
      exact ⟨⟨[], by simp, by rw [hc, List.nil_append]⟩, ih⟩
    · next hc =>
      split
      · next line more heq =>
        rw [heq, List.forall_mem_cons] at ih
        obtain ⟨⟨body, hbody, hline⟩, hmore⟩ := ih
        rw [List.forall_mem_cons]
        refine ⟨⟨c :: body, ?_, by rw [hline, List.cons_append]⟩, hmore⟩
        rw [List.mem_cons, not_or]
        exact ⟨Ne.symm hc, hbody⟩
      · next heq =>
        have hflat := flatten_lines (rest ++ ['\n'])
        rw [heq] at hflat
        simp at hflat

theorem ended_of_isLine {line : List Char} (h : IsLine line) : ended line = line := by
  obtain ⟨body, -, rfl⟩ := h
  simp [ended]

end Text

/-! ## Marked lines -/

/-- What the lines with a blank or with another mark in front say without the two characters that
stand before them. -/
def side (mark : Char) (lines : List (List Char)) : List Char :=
  ((lines.filter fun line => line.head? = some ' ' || line.head? = some mark).map
    (List.drop 2)).flatten

theorem side_append (mark : Char) (lines others : List (List Char)) :
    side mark (lines ++ others) = side mark lines ++ side mark others := by
  simp [side]

section

variable {mark sign : Char}

theorem side_of_shown (h : sign = ' ' ∨ sign = mark) (lines : List (List Char)) :
    side mark (lines.map fun line => sign :: ' ' :: line) = lines.flatten := by
  have hkept : (lines.map fun line => sign :: ' ' :: line).filter
      (fun line => line.head? = some ' ' || line.head? = some mark) =
        lines.map fun line => sign :: ' ' :: line := by
    rw [List.filter_eq_self, List.forall_mem_map]
    intro line _
    simpa using h
  rw [side, hkept, List.map_map]
  exact congrArg List.flatten (List.map_id lines)

theorem side_of_hidden (hblank : sign ≠ ' ') (h : sign ≠ mark) (lines : List (List Char)) :
    side mark (lines.map fun line => sign :: ' ' :: line) = [] := by
  have hnone : (lines.map fun line => sign :: ' ' :: line).filter
      (fun line => line.head? = some ' ' || line.head? = some mark) = [] := by
    rw [List.filter_eq_nil_iff, List.forall_mem_map]
    intro line _
    simp [hblank, h]
  rw [side, hnone, List.map_nil, List.flatten_nil]

end

section

variable {edit : Edit (List Char)} {script : List (Edit (List Char))} {old new : List (List Char)}

theorem Edit.sign_mem (edit : Edit (List Char)) : edit.sign ∈ [' ', '-', '+'] := by
  cases edit <;> simp [sign]

theorem Edit.marked_eq (h : ∀ line ∈ edit.lines, Text.IsLine line) :
    edit.marked = edit.lines.map fun line => edit.sign :: ' ' :: line :=
  List.map_congr_left fun line hline => by rw [Text.ended_of_isLine (h line hline)]

theorem Edit.side_marked (h : ∀ line ∈ edit.lines, Text.IsLine line) :
    side '-' edit.marked = edit.old.flatten ∧ side '+' edit.marked = edit.new.flatten := by
  rw [marked_eq h]
  cases edit with
  | keep lines => exact ⟨side_of_shown (.inl rfl) lines, side_of_shown (.inl rfl) lines⟩
  | delete lines =>
    exact ⟨side_of_shown (.inr rfl) lines,
      side_of_hidden (show '-' ≠ ' ' by decide) (show '-' ≠ '+' by decide) lines⟩
  | insert lines =>
    exact ⟨side_of_hidden (show '+' ≠ ' ' by decide) (show '+' ≠ '-' by decide) lines,
      side_of_shown (.inr rfl) lines⟩

/-- The marked lines of a script hold the two lists that it speaks of. -/
theorem Script.side_marked (h : ∀ edit ∈ script, ∀ line ∈ edit.lines, Text.IsLine line) :
    side '-' (script.flatMap Edit.marked) = (oldLines script).flatten ∧
      side '+' (script.flatMap Edit.marked) = (newLines script).flatten := by
  induction script with
  | nil => exact ⟨rfl, rfl⟩
  | cons edit rest ih =>
    obtain ⟨hedit, hrest⟩ := List.forall_mem_cons.mp h
    obtain ⟨hold, hnew⟩ := Edit.side_marked hedit
    obtain ⟨holds, hnews⟩ := ih hrest
    rw [List.flatMap_cons, side_append, side_append, oldLines_cons, newLines_cons,
      List.flatten_append, List.flatten_append, hold, hnew, holds, hnews]
    exact ⟨rfl, rfl⟩

/-- A script has no lines but those of the two lists. -/
theorem Script.Spells.mem_or_mem (h : Script.Spells script old new) (hedit : edit ∈ script)
    {line : List Char} (hline : line ∈ edit.lines) : line ∈ old ∨ line ∈ new := by
  have hold : ∀ l ∈ edit.old, l ∈ old := fun l hl =>
    h.1 ▸ List.mem_flatMap.mpr ⟨edit, hedit, hl⟩
  have hnew : ∀ l ∈ edit.new, l ∈ new := fun l hl =>
    h.2 ▸ List.mem_flatMap.mpr ⟨edit, hedit, hl⟩
  cases edit with
  | keep lines | delete lines => exact .inl (hold line hline)
  | insert lines => exact .inr (hnew line hline)

end

/-- The script of a difference speaks of the lines of both texts. -/
theorem spells_lineScript (old new : List (List Char)) :
    Script.Spells (lineScript old new) old new := by
  have hfound := Script.spells_find old new
  have hsettled := Script.spells_settle (Script.find old new)
  have hgathered := Script.spells_gather (Script.settle (Script.find old new)) [] []
  exact ⟨hgathered.1.trans (hsettled.1.trans hfound.1),
    hgathered.2.trans (hsettled.2.trans hfound.2)⟩

/-! ## The report -/

/-- A line of a report: a sign, a blank, a text without control characters and a newline. -/
def IsMarkedLine (line : List Char) : Prop :=
  ∃ sign body, sign ∈ [' ', '-', '+'] ∧ Json.Printed body ∧
    line = sign :: ' ' :: body ++ ['\n']

theorem IsMarkedLine.isLine {line : List Char} (h : IsMarkedLine line) : Text.IsLine line := by
  obtain ⟨sign, body, hsign, hbody, rfl⟩ := h
  have hnewline : '\n' ∉ body := fun hmem => absurd (hbody _ hmem) (by decide)
  refine ⟨sign :: ' ' :: body, ?_, rfl⟩
  simp only [List.mem_cons, List.not_mem_nil, or_false] at hsign
  rcases hsign with rfl | rfl | rfl <;> simpa using hnewline

/-- The text begins with the line `mismatch:`. Only marked lines follow, and the two texts can be
read off from these. -/
def IsReport (text : String) (old new : List Char) : Prop :=
  ∃ lines, Text.lines text.toList = "mismatch:\n".toList :: lines ∧
    (∀ line ∈ lines, IsMarkedLine line) ∧ side '-' lines = old ∧ side '+' lines = new

/-- The JSON text of a raw value on lines, with a newline at its end. -/
def Raw.prettyText (raw : Raw) : List Char := (raw.pretty ++ "\n").toList

theorem Raw.prettyText_eq (raw : Raw) : raw.prettyText = raw.toJson.prettyText 0 ++ ['\n'] := by
  simp [Raw.prettyText, Raw.pretty, Json.pretty]

theorem Raw.flatten_prettyLines (raw : Raw) : raw.prettyLines.flatten = raw.prettyText := by
  rw [Raw.prettyLines, Text.flatten_lines, Raw.prettyText_eq]

/-- In a line of a JSON text there is no control character but the newline at its end. -/
theorem Raw.exists_of_mem_prettyLines {raw : Raw} {line : List Char}
    (h : line ∈ raw.prettyLines) :
    ∃ body, Json.Printed body ∧ line = body ++ ['\n'] := by
  obtain ⟨body, hbody, rfl⟩ := Text.isLine_of_mem_lines _ line h
  refine ⟨body, fun c hc => ?_, rfl⟩
  have htext : c ∈ raw.toJson.prettyText 0 ++ ['\n'] := by
    rw [← Text.flatten_lines (raw.toJson.prettyText 0 ++ ['\n'])]
    exact List.mem_flatten.mpr ⟨_, h, List.mem_append_left _ hc⟩
  have hcontrol : Json.NewlinesOnly (raw.toJson.prettyText 0 ++ ['\n']) := by
    simp [Json.newlinesOnly_prettyText]
  exact (hcontrol c htext).resolve_left fun heq => hbody (heq ▸ hc)

/-- Whatever script leads from the lines of one text to those of the other, its marked lines make a
report. -/
theorem isReport_of_spells {old new : Raw} {script : List (Edit (List Char))}
    (h : Script.Spells script old.prettyLines new.prettyLines) :
    IsReport ("mismatch:\n" ++ String.ofList (script.flatMap Edit.marked).flatten)
      old.prettyText new.prettyText := by
  have hended : ∀ edit ∈ script, ∀ line ∈ edit.lines, Text.IsLine line :=
    fun edit hedit line hline => (h.mem_or_mem hedit hline).elim
      (Text.isLine_of_mem_lines _ line) (Text.isLine_of_mem_lines _ line)
  have hmarked : ∀ line ∈ script.flatMap Edit.marked, IsMarkedLine line := by
    intro marked hmem
    obtain ⟨edit, hedit, hmem⟩ := List.mem_flatMap.mp hmem
    rw [Edit.marked_eq (hended edit hedit)] at hmem
    obtain ⟨line, hline, rfl⟩ := List.mem_map.mp hmem
    obtain ⟨body, hbody, rfl⟩ := (h.mem_or_mem hedit hline).elim
      Raw.exists_of_mem_prettyLines Raw.exists_of_mem_prettyLines
    exact ⟨edit.sign, body, edit.sign_mem, hbody, rfl⟩
  have hsides := Script.side_marked hended
  rw [h.1, h.2, old.flatten_prettyLines, new.flatten_prettyLines] at hsides
  have hfirst : Text.IsLine "mismatch:\n".toList := ⟨"mismatch:".toList, by decide, by decide⟩
  have hlines := Text.lines_flatten
    (List.forall_mem_cons.mpr ⟨hfirst, fun line hline => (hmarked line hline).isLine⟩)
  refine ⟨_, ?_, hmarked, hsides⟩
  rw [String.toList_append]
  exact (congrArg (fun text => Text.lines (_ ++ text)) String.toList_ofList).trans hlines

/-- Nothing is reported of structurally equal values. Of any others the report shows the JSON text
of both normal forms: its lines with a blank or a minus sign are the first, those with a blank or a
plus sign the second. -/
def ReportsFaithfully (diff : Raw → Raw → Option String) : Prop :=
  ∀ expected actual : Raw,
    (diff expected actual = none ↔ structuralEq expected actual = true) ∧
    (structuralEq expected actual = true ∨
      ∃ text, diff expected actual = some text ∧
        IsReport text expected.normalize.prettyText actual.normalize.prettyText)

section

variable {differ : List (List Char) → List (List Char) → List (Edit (List Char))}

theorem reportsFaithfully_of_spells
    (hdiffer : ∀ old new, Script.Spells (differ old new) old new) :
    ReportsFaithfully (structuralDiffBy differ) := by
  intro expected actual
  rw [structuralDiffBy]
  by_cases h : structuralEq expected actual = true
  · rw [if_pos h]
    exact ⟨iff_of_true rfl h, .inl h⟩
  · rw [if_neg h]
    exact ⟨iff_of_false nofun h, .inr ⟨_, rfl, isReport_of_spells (hdiffer _ _)⟩⟩

end

/-- Reports are faithful, whichever differ they are made with, as long as its scripts speak of the
lists that they were made for. -/
theorem structuralDiff_faithful :
    (∀ differ, (∀ old new, Script.Spells (differ old new) old new) →
      ReportsFaithfully (structuralDiffBy differ)) ∧
    ReportsFaithfully structuralDiff :=
  ⟨fun _ => reportsFaithfully_of_spells, reportsFaithfully_of_spells spells_lineScript⟩

/-- The script that keeps nothing. -/
def wholeScript (old new : List (List Char)) : List (Edit (List Char)) :=
  [.delete old, .insert new]

theorem spells_wholeScript (old new : List (List Char)) :
    Script.Spells (wholeScript old new) old new :=
  ⟨List.append_nil old, List.append_nil new⟩

def webPorts : Raw := .list [.int 80]

def allPorts : Raw := .list [.int 80, .int 443]

/-- The report without kept lines. -/
def portsWhole : String := "mismatch:\n- [\n-   80\n- ]\n+ [\n+   80,\n+   443\n+ ]\n"

/-- The report with the lines kept that both texts have. -/
def portsDiff : String := "mismatch:\n  [\n-   80\n+   80,\n+   443\n  ]\n"

/-- Both reports show the same two texts. -/
theorem ports_structuralDiff :
    (∀ old new, Script.Spells (wholeScript old new) old new) ∧
      structuralDiffBy wholeScript webPorts allPorts = some portsWhole ∧
      IsReport portsWhole "[\n  80\n]\n".toList "[\n  80,\n  443\n]\n".toList ∧
      structuralDiff webPorts allPorts = some portsDiff ∧
      IsReport portsDiff "[\n  80\n]\n".toList "[\n  80,\n  443\n]\n".toList := by
  have hdiffers : ¬ structuralEq webPorts allPorts = true := by decide
  have hweb : webPorts.normalize.prettyText = "[\n  80\n]\n".toList := by decide
  have hall : allPorts.normalize.prettyText = "[\n  80,\n  443\n]\n".toList := by decide
  have hwhole : structuralDiffBy wholeScript webPorts allPorts = some portsWhole := rfl
  have hdiff : structuralDiff webPorts allPorts = some portsDiff := rfl
  obtain ⟨hany, hown⟩ := structuralDiff_faithful
  obtain ⟨text, htext, hreport⟩ :=
    (hany wholeScript spells_wholeScript webPorts allPorts).2.resolve_left hdiffers
  obtain ⟨text', htext', hreport'⟩ := (hown webPorts allPorts).2.resolve_left hdiffers
  cases htext.symm.trans hwhole
  cases htext'.symm.trans hdiff
  rw [hweb, hall] at hreport hreport'
  exact ⟨spells_wholeScript, hwhole, hreport, hdiff, hreport'⟩

end EntityModel
