/-!
# Lines of a text

* `flatten_lines`: the lines of a text, with the newline at the end of each, make up the text.
-/

namespace EntityModel.Text

/-- The lines of a text, each with the newline that ends it. -/
def lines : List Char → List (List Char)
  | [] => []
  | c :: rest =>
    if c = '\n' then [c] :: lines rest
    else match lines rest with
      | line :: more => (c :: line) :: more
      | [] => [[c]]

/-- A line with a newline at its end, where it lacks one. -/
def ended (line : List Char) : List Char :=
  if line.getLast? = some '\n' then line else line ++ ['\n']

theorem flatten_lines (text : List Char) : (lines text).flatten = text := by
  induction text with
  | nil => rfl
  | cons c rest ih =>
    simp only [lines]
    split
    · simp [ih]
    · split
      · next line more h => simp [h] at ih; simp [ih]
      · next h => simp [h] at ih; simp [ih]

end EntityModel.Text
