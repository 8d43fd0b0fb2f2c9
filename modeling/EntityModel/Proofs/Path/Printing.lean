import EntityModel.Proofs.Path.Grammar
import Mathlib.Data.List.Induction

/-!
# Reading printed paths

A path is printed with a point before every name but the first segment, whatever the segments are.
When the names are free of points and brackets, the print falls into parts again, each of them a
name and the indices up to the next name. A text that was read is its print, except that the print
writes positions without a plus sign and without zeros before them.

* `pathText_text`: the grammar derives a path from its print.
* `PathText.sameButNumerals`: how a text differs from the print of its path.
* `path_print_round_trip`: the paths that come back from their print.
-/

namespace EntityModel.Path

variable {text other others print : List Char} {path more : Path} {position : UInt64}

theorem text_append (hne : path ≠ []) :
    Path.text (path ++ more) = path.text ++ more.flatMap innerText := by
  obtain ⟨segment, after, rfl⟩ := List.exists_cons_of_ne_nil hne
  cases segment <;> simp [Path.text]

/-! ## The print of a path -/

theorem indexText_indexText (position : UInt64) : IndexText (indexText position) position :=
  indexText_iff.mpr ⟨_, rfl, index?_toDigits position⟩

/-- The print behind the first segment is indices, up to the next name, and then parts. -/
theorem exists_indices_and_parts : ∀ {path : Path},
    (∀ name ∈ path.names, Schema.isName name = true) →
    ∃ indicesText indices partsText parts, IndicesText indicesText indices ∧
      PartsText partsText parts ∧ path.flatMap innerText = indicesText ++ partsText ∧
      path = indices ++ parts
  | [], _ => ⟨[], [], [], [], .none, .none, rfl, rfl⟩
  | .key name :: rest, hnames => by
    rw [names_key, List.forall_mem_cons] at hnames
    obtain ⟨indicesText, indices, partsText, parts, hindices, hparts, htext, hrest⟩ :=
      exists_indices_and_parts hnames.2
    have hmore := PartsText.more (.part hnames.1 hindices) hparts
    exact ⟨[], [], _, _, .none, hmore, by simp [innerText, htext], by simp [hrest]⟩
  | .index position :: rest, hnames => by
    rw [names_index] at hnames
    obtain ⟨indicesText, indices, partsText, parts, hindices, hparts, htext, hrest⟩ :=
      exists_indices_and_parts hnames
    have hmore := IndicesText.more (indexText_indexText position) hindices
    exact ⟨_, _, _, _, hmore, hparts, by simp [innerText, htext], by simp [hrest]⟩

/-- A path whose names are free of points and brackets is derived from its print. -/
theorem pathText_text (hne : path ≠ [])
    (hnames : ∀ name ∈ path.names, Schema.isName name = true) :
    PathText path.text path := by
  cases path with
  | nil => exact absurd rfl hne
  | cons segment rest =>
    cases segment with
    | key name =>
      rw [names_key, List.forall_mem_cons] at hnames
      obtain ⟨_, _, _, _, hindices, hparts, htext, rfl⟩ := exists_indices_and_parts hnames.2
      have hpath := PathText.path (.named (.part hnames.1 hindices)) hparts
      simpa [Path.text, htext] using hpath
    | index position =>
      rw [names_index] at hnames
      obtain ⟨_, _, _, _, hindices, hparts, htext, rfl⟩ := exists_indices_and_parts hnames
      have hfirst := IndicesText.more (indexText_indexText position) hindices
      have hpath := PathText.path (.unnamed hfirst (List.cons_ne_nil _ _)) hparts
      simpa [Path.text, htext] using hpath

theorem PathText.ne_nil (h : PathText text path) : path ≠ [] := by
  obtain ⟨hfirst, -⟩ := h
  exact List.append_ne_nil_of_left_ne_nil hfirst.ne_nil.2 _

/-! ## Texts that differ in their numerals -/

/-- Two texts are the same, except that numerals in the brackets of the first one may have a plus
sign and zeros before them. -/
inductive SameButNumerals : List Char → List Char → Prop where
  | nil : SameButNumerals [] []
  | char {c : Char} {text print : List Char} (hc : c ≠ '[') (hrest : SameButNumerals text print) :
      SameButNumerals (c :: text) (c :: print)
  | numeral {sign text print : List Char} (hsign : sign = [] ∨ sign = ['+']) (zeros number : Nat)
      (hrest : SameButNumerals text print) :
      SameButNumerals
        ('[' :: sign ++ List.replicate zeros '0' ++ Nat.toDigits 10 number ++ ']' :: text)
        ('[' :: Nat.toDigits 10 number ++ ']' :: print)

namespace SameButNumerals

theorem append (h : SameButNumerals text print) (hothers : SameButNumerals other others) :
    SameButNumerals (text ++ other) (print ++ others) := by
  induction h with
  | nil => exact hothers
  | char hc _ ih => exact .char hc ih
  | numeral hsign zeros number _ ih =>
    simpa only [List.append_assoc, List.cons_append] using numeral hsign zeros number ih

theorem refl (h : '[' ∉ text) : SameButNumerals text text := by
  induction text with
  | nil => exact .nil
  | cons c rest ih =>
    obtain ⟨hc, hrest⟩ : '[' ≠ c ∧ '[' ∉ rest := by simpa using h
    exact .char hc.symm (ih hrest)

end SameButNumerals

theorem digitChar_toNat {c : Char} (h : c.isDigit = true) :
    c.toNat - 48 < 10 ∧ Nat.digitChar (c.toNat - 48) = c := by
  have hrange : 48 ≤ c.toNat ∧ c.toNat ≤ 57 := Char.isDigit_iff_toNat.mp h
  have hlt : c.toNat - 48 < 10 := by omega
  refine ⟨hlt, Char.toNat_inj.mp ?_⟩
  rw [Nat.toNat_digitChar_of_lt_ten hlt]
  omega

/-- Digits are zeros and the shortest digits for their value. -/
theorem exists_zeros_toDigits {digits : List Char} (hne : digits ≠ [])
    (hdigits : ∀ c ∈ digits, c.isDigit = true) :
    ∃ zeros,
      digits = List.replicate zeros '0' ++ Nat.toDigits 10 (Nat.ofDigitChars 10 digits 0) := by
  -- digits are added to a number at its end, so the induction is from there
  induction digits using List.reverseRecOn with
  | nil => exact absurd rfl hne
  | append_singleton digits c ih =>
    obtain ⟨hbefore, hc⟩ := List.forall_mem_append.mp hdigits
    obtain ⟨hlt, hchar⟩ := digitChar_toNat (hc c List.mem_cons_self)
    have hlast : Nat.toDigits 10 (c.toNat - 48) = [c] := by
      rw [Nat.toDigits_of_lt_base hlt, hchar]
    have hvalue : Nat.ofDigitChars 10 (digits ++ [c]) 0 =
        10 * Nat.ofDigitChars 10 digits 0 + (c.toNat - 48) := by
      rw [Nat.ofDigitChars_append, Nat.ofDigitChars_cons, Nat.ofDigitChars_nil]
      rfl
    rw [hvalue]
    by_cases hempty : digits = []
    · subst hempty
      exact ⟨0, by simp [hlast]⟩
    obtain ⟨zeros, hzeros⟩ := ih hempty hbefore
    rcases Nat.eq_zero_or_pos (Nat.ofDigitChars 10 digits 0) with hzero | hpos
    · rw [hzero, Nat.toDigits_zero] at hzeros
      refine ⟨zeros + 1, ?_⟩
      rw [hzero, Nat.mul_zero, Nat.zero_add, hlast, List.replicate_succ', ← hzeros]
    · refine ⟨zeros, ?_⟩
      rw [← Nat.toDigits_append_toDigits (by decide) hpos hlt, hlast,
        ← List.append_assoc, ← hzeros]

/-! ## How a text differs from the print -/

theorem IndexText.sameButNumerals (h : IndexText text position) :
    SameButNumerals text (indexText position) := by
  obtain ⟨hsign, hne, hdigits, hvalue⟩ := h
  obtain ⟨zeros, hzeros⟩ := exists_zeros_toDigits hne hdigits
  rw [hvalue] at hzeros
  subst hzeros
  simpa [indexText] using SameButNumerals.numeral hsign zeros position.toNat .nil

theorem IndicesText.sameButNumerals (h : IndicesText text path) :
    SameButNumerals text (path.flatMap innerText) := by
  induction h with
  | none => exact .nil
  | more hindex _ ih => exact hindex.sameButNumerals.append ih

theorem PartText.sameButNumerals (h : PartText text path) : SameButNumerals text path.text := by
  obtain ⟨hname, hindices⟩ := h
  have hopen := (Schema.isName_no_bracket hname).1
  exact (SameButNumerals.refl hopen).append hindices.sameButNumerals

theorem FirstText.sameButNumerals (h : FirstText text path) : SameButNumerals text path.text := by
  obtain hpart | ⟨hindices, hne⟩ := h
  · exact hpart.sameButNumerals
  · cases hindices with
    | none => exact absurd rfl hne
    | more hindex hrest => exact hindex.sameButNumerals.append hrest.sameButNumerals

theorem PartText.flatMap_innerText (h : PartText text path) :
    path.flatMap innerText = '.' :: path.text := by
  cases h
  rfl

theorem PartsText.sameButNumerals (h : PartsText text path) :
    SameButNumerals text (path.flatMap innerText) := by
  induction h with
  | none => exact .nil
  | more hpart _ ih =>
    rw [List.flatMap_append, hpart.flatMap_innerText]
    exact (SameButNumerals.char (by decide) hpart.sameButNumerals).append ih

theorem PathText.sameButNumerals (h : PathText text path) : SameButNumerals text path.text := by
  obtain ⟨hfirst, hrest⟩ := h
  rw [text_append hfirst.ne_nil.2]
  exact hfirst.sameButNumerals.append hrest.sameButNumerals

/-! ## The round trip -/

theorem ne_nil_of_parse {input : String} (h : parse input = .ok path) : path ≠ [] :=
  (pathText_of_parse h).ne_nil

theorem parse_render (hne : path ≠ [])
    (hnames : ∀ name ∈ path.names, Schema.isName name = true) :
    parse path.render = .ok path := by
  apply PathText.parse_ok
  rw [render, String.toList_ofList]
  exact pathText_text hne hnames

/-- Exactly the paths of some segments whose names are free of points and brackets come back from
their print. Every path that was read is one of them, and its print is the text that it was read
from, but for the numerals in brackets. -/
theorem path_print_round_trip :
    (∀ path : Path, parse path.render = .ok path ↔
      path ≠ [] ∧ ∀ name ∈ path.names, Schema.isName name = true) ∧
    ∀ (input : String) (path : Path), parse input = .ok path →
      (path ≠ [] ∧ ∀ name ∈ path.names, Schema.isName name = true) ∧
      parse path.render = .ok path ∧ SameButNumerals input.toList path.render.toList := by
  refine ⟨fun path => ⟨fun h => ⟨ne_nil_of_parse h, names_of_parse h⟩,
    fun ⟨hne, hnames⟩ => parse_render hne hnames⟩, fun input path h => ?_⟩
  have hne := ne_nil_of_parse h
  have hnames := names_of_parse h
  refine ⟨⟨hne, hnames⟩, parse_render hne hnames, ?_⟩
  rw [render, String.toList_ofList]
  exact (pathText_of_parse h).sameButNumerals

/-- A path that is written with long numerals. -/
def namePath : Path := [.key "spec", .index 7, .index 0, .key "name"]

/-- The first numeral loses its sign and its zeros. A name with a point in it is printed like two
names, and a path of no segments like nothing, so these paths do not come back. -/
theorem namePath_round_trip :
    parse "spec[+007][0].name" = .ok namePath ∧
      (namePath ≠ [] ∧ ∀ name ∈ namePath.names, Schema.isName name = true) ∧
      parse namePath.render = .ok namePath ∧ namePath.render = "spec[7][0].name" ∧
      SameButNumerals "spec[+007][0].name".toList namePath.render.toList ∧
      parse (render [.key "a.b"]) ≠ .ok [.key "a.b"] ∧ parse (render []) ≠ .ok [] := by
  obtain ⟨hiff, hagain⟩ := path_print_round_trip
  have hread : parse "spec[+007][0].name" = .ok namePath := by decide +kernel
  obtain ⟨hnames, hback, hsame⟩ := hagain _ _ hread
  refine ⟨hread, hnames, hback, by decide +kernel, hsame, fun h => ?_, fun h => ?_⟩
  · have hname := ((hiff _).mp h).2 "a.b" List.mem_cons_self
    exact absurd hname (by decide)
  · exact ((hiff _).mp h).1 rfl

end EntityModel.Path
