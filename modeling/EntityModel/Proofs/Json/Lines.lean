import EntityModel.Json.Printer
import Mathlib.Data.Char

/-!
# Line breaks in JSON text

JSON text on lines is broken where the printer breaks it and nowhere else: control characters in
strings and keys are escaped, so the only one in the text is the newline between two lines.

* `Json.printed_leafText`: a value without parts is on one line.
* `Json.newlinesOnly_prettyText`: a newline is the only control character in the text of a value.
-/

namespace EntityModel.Json

/-! ## Characters of a line -/

/-- No control characters stand in the text. -/
def Printed (text : List Char) : Prop := ∀ c ∈ text, 32 ≤ c.toNat

variable {text others : List Char}

@[simp] theorem printed_nil : Printed [] := by simp [Printed]

@[simp] theorem printed_cons {c : Char} :
    Printed (c :: text) ↔ 32 ≤ c.toNat ∧ Printed text := List.forall_mem_cons

@[simp] theorem printed_append : Printed (text ++ others) ↔ Printed text ∧ Printed others :=
  List.forall_mem_append

theorem Printed.sublist (h : Printed others) (hsub : text.Sublist others) : Printed text :=
  fun c hc => h c (hsub.subset hc)

/-! ## Numbers -/

theorem printed_of_isDigit (h : ∀ c ∈ text, c.isDigit = true) : Printed text := by
  intro c hc
  have hdigit := h c hc
  simp only [Char.isDigit, Bool.and_eq_true, decide_eq_true_eq] at hdigit
  exact le_trans (by decide) hdigit.1

theorem printed_toDigits (n : ℕ) : Printed (Nat.toDigits 10 n) :=
  printed_of_isDigit fun _ hc => Nat.isDigit_of_mem_toDigits (by decide) (by decide) hc

theorem printed_toString (n : ℤ) : Printed (toString n).toList := by
  rw [Int.toString_eq_repr, Int.repr_eq_if]
  split
  · rw [Nat.toList_repr]
    exact printed_toDigits _
  · rw [String.toList_append, Nat.toList_repr, printed_append]
    exact ⟨by simp, printed_toDigits _⟩

theorem printed_zeros (n : ℕ) : Printed (Decimal.zeros n) := by
  intro c hc
  rw [(List.mem_replicate.mp hc).2]
  decide

theorem printed_positionalText {digits : List Char} (h : Printed digits) (pointZero : Bool)
    (power : ℤ) : Printed (Decimal.positionalText pointZero digits power) := by
  have hleft (n : ℕ) := h.sublist (List.take_sublist n digits)
  have hright (n : ℕ) := h.sublist (List.drop_sublist n digits)
  simp only [Decimal.positionalText]
  split
  · split <;> simp [h, printed_zeros]
  · split
    · simp [hleft, hright]
    · simp [h, printed_zeros]

theorem printed_exponentText {digits : List Char} (h : Printed digits) (size : ℤ) :
    Printed (Decimal.exponentText digits size) := by
  have hfirst := h.sublist (List.take_sublist 1 digits)
  have hrest := h.sublist (List.tail_sublist digits)
  rw [Decimal.exponentText]
  split <;> split <;> simp [hfirst, hrest, printed_toDigits]

theorem printed_magnitude (layout : Decimal.Layout) (d : Decimal) :
    Printed (layout.magnitude d) := by
  simp only [Decimal.Layout.magnitude]
  split
  · exact printed_positionalText (printed_toDigits _) _ _
  · exact printed_exponentText (printed_toDigits _) _

theorem printed_render (x : Binary64) : Printed (Decimal.Layout.json.render x).toList := by
  simp only [Decimal.Layout.render]
  split
  · simp [Decimal.Layout.json]
  · split
    · split <;> simp [Decimal.Layout.json]
    · rw [String.toList_ofList, printed_append]
      exact ⟨by split <;> simp, printed_magnitude _ _⟩

/-! ## Strings -/

theorem printed_escapeChar (c : Char) : Printed (escapeChar c) := by
  have hdigits : ∀ n < 32, Printed (fourHexDigits n) := by
    have hall : ∀ n < 32, (fourHexDigits n).all (fun c => 32 ≤ c.toNat) = true := by decide
    exact fun n hn c hc => of_decide_eq_true (List.all_eq_true.mp (hall n hn) c hc)
  unfold escapeChar
  iterate 7
    split
    · simp
  split
  · next hcontrol => simpa using hdigits _ hcontrol
  · next hprinted => simpa using hprinted

theorem printed_stringText (text : String) : Printed (stringText text) := by
  have hchars : Printed (text.toList.flatMap escapeChar) := by
    intro c hc
    obtain ⟨d, -, hd⟩ := List.mem_flatMap.mp hc
    exact printed_escapeChar d c hd
  simp [stringText, hchars]

/-- A value without parts is on one line. -/
theorem printed_leafText (json : Json) : Printed (leafText json) := by
  cases json with
  | null => simp [leafText]
  | bool value => cases value <;> simp [leafText]
  | int value => exact printed_toString value
  | float value => exact printed_render value
  | string value => exact printed_stringText value
  | array _ => simp [leafText]
  | object _ => simp [leafText]

/-! ## Values on lines -/

/-- The only control characters in the text are newlines. -/
def NewlinesOnly (text : List Char) : Prop := ∀ c ∈ text, c = '\n' ∨ 32 ≤ c.toNat

@[simp] theorem newlinesOnly_nil : NewlinesOnly [] := by simp [NewlinesOnly]

@[simp] theorem newlinesOnly_cons {c : Char} :
    NewlinesOnly (c :: text) ↔ (c = '\n' ∨ 32 ≤ c.toNat) ∧ NewlinesOnly text :=
      List.forall_mem_cons

@[simp] theorem newlinesOnly_append :
    NewlinesOnly (text ++ others) ↔ NewlinesOnly text ∧ NewlinesOnly others :=
  List.forall_mem_append

theorem Printed.newlinesOnly (h : Printed text) : NewlinesOnly text := fun c hc => .inr (h c hc)

theorem newlinesOnly_newLine (depth : ℕ) : NewlinesOnly (newLine depth) := by
  rw [newLine, newlinesOnly_cons]
  refine ⟨.inl rfl, fun c hc => ?_⟩
  rw [(List.mem_replicate.mp hc).2]
  exact .inr (by decide)

mutual
theorem newlinesOnly_prettyText :
    ∀ (depth : ℕ) (json : Json), NewlinesOnly (prettyText depth json)
  | depth, .array (item :: items) => by
    have hitems := newlinesOnly_prettyItems (depth + 1) (item :: items)
    simp [prettyText, hitems, newlinesOnly_newLine]
  | depth, .object (entry :: entries) => by
    have hentries := newlinesOnly_prettyEntries (depth + 1) (entry :: entries)
    simp [prettyText, hentries, newlinesOnly_newLine]
  | _, .null | _, .bool _ | _, .int _ | _, .float _ | _, .string _ | _, .array []
  | _, .object [] => by
    unfold prettyText
    exact (printed_leafText _).newlinesOnly

theorem newlinesOnly_prettyItems :
    ∀ (depth : ℕ) (items : List Json), NewlinesOnly (prettyItems depth items)
  | _, [] => newlinesOnly_nil
  | depth, [item] => by
    simp [prettyItems, newlinesOnly_newLine, newlinesOnly_prettyText depth item]
  | depth, item :: next :: rest => by
    simp [prettyItems, newlinesOnly_newLine, newlinesOnly_prettyText depth item,
      newlinesOnly_prettyItems depth (next :: rest)]

theorem newlinesOnly_prettyEntries :
    ∀ (depth : ℕ) (entries : List (String × Json)), NewlinesOnly (prettyEntries depth entries)
  | _, [] => newlinesOnly_nil
  | depth, [(key, value)] => by
    simp [prettyEntries, newlinesOnly_newLine, (printed_stringText key).newlinesOnly,
      newlinesOnly_prettyText depth value]
  | depth, (key, value) :: next :: rest => by
    simp [prettyEntries, newlinesOnly_newLine, (printed_stringText key).newlinesOnly,
      newlinesOnly_prettyText depth value, newlinesOnly_prettyEntries depth (next :: rest)]
end

end EntityModel.Json
