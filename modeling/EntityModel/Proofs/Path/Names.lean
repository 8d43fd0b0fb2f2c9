import EntityModel.Path.Parser
import EntityModel.Proofs.Schema.Declared

/-!
# The names of a path

What stands between the points and brackets of a text can be the name of an attribute, so the schema
key of a path is a dotted path of such names.

* `readPart_ok`: what a part holds that can be read.
* `names_of_parse`: every name of a path that was read.
* `schemaKey_of_parse`: its schema key.
-/

namespace EntityModel.Path

@[simp] theorem names_nil : names [] = [] := rfl

@[simp] theorem names_key (name : String) (path : Path) :
    names (.key name :: path) = name :: names path := rfl

@[simp] theorem names_index (position : UInt64) (path : Path) :
    names (.index position :: path) = names path := rfl

theorem names_append (path rest : Path) : names (path ++ rest) = names path ++ names rest :=
  List.filterMap_append

theorem names_ne_nil {path : Path} {name : String} (h : path.getLast? = some (.key name)) :
    names path ≠ [] := by
  have hmem : name ∈ names path :=
    List.mem_filterMap.mpr ⟨.key name, List.mem_of_getLast? h, rfl⟩
  exact List.ne_nil_of_mem hmem

/-- A path that ends in a name after its first segment still does so without that segment. -/
theorem getLast?_tail {segment : Segment} {rest : Path} {name : String} (hne : rest ≠ [])
    (h : (segment :: rest).getLast? = some (.key name)) : rest.getLast? = some (.key name) := by
  obtain ⟨second, others, rfl⟩ := List.exists_cons_of_ne_nil hne
  rwa [List.getLast?_cons_cons] at h

theorem splitPoints_no_point (text : List Char) : ∀ part ∈ splitPoints text, '.' ∉ part := by
  induction text with
  | nil => simp [splitPoints]
  | cons c rest ih =>
    rw [splitPoints]
    split
    · simpa using ih
    · next hc =>
      split
      · next part parts heq =>
        rw [heq, List.forall_mem_cons] at ih
        exact List.forall_mem_cons.mpr ⟨by simpa [Ne.symm hc] using ih.1, ih.2⟩
      · simp [Ne.symm hc]

mutual
theorem names_of_readIndices : ∀ {text : List Char} {place : Nat} {segments : List Segment},
    readIndices place text = .ok segments → names segments = []
  | [], _, _, h => by
    cases h
    rfl
  | c :: rest, _, _, h => by
    rw [readIndices] at h
    split at h
    · exact names_of_readBracket h
    · cases h

theorem names_of_readBracket : ∀ {text digits : List Char} {opened place : Nat}
    {segments : List Segment}, readBracket opened place digits text = .ok segments →
    names segments = []
  | [], _, _, _, _, h => by cases h
  | c :: rest, digits, _, _, _, h => by
    rw [readBracket] at h
    split at h
    · split at h
      · cases h
      · simp only [bind_ok_iff, pure_ok_iff] at h
        obtain ⟨others, hothers, rfl⟩ := h
        rw [names_index]
        exact names_of_readIndices hothers
    · exact names_of_readBracket h
end

/-- What a part holds that can be read: a name, which may be missing where there are indices in the
first part, and the indices. -/
theorem readPart_ok {first : Bool} {place : Nat} {part : List Char} {segments : List Segment}
    (h : readPart first place part = .ok segments) :
    ∃ name rest indices place', part = name ++ rest ∧ '[' ∉ name ∧ ']' ∉ name ∧
      readIndices place' rest = .ok indices ∧
      (name = [] ∧ first = true ∧ rest ≠ [] ∧ segments = indices ∨
        name ≠ [] ∧ segments = .key (String.ofList name) :: indices) := by
  have hopen : '[' ∉ part.takeWhile (· ≠ '[') := by
    intro hmem
    simpa using List.all_eq_true.mp List.all_takeWhile '[' hmem
  unfold readPart at h
  dsimp only at h
  split at h
  · cases h
  next hnamed =>
  split at h
  · cases h
  next hclose =>
  simp only [bind_ok_iff, pure_ok_iff] at h
  obtain ⟨indices, hindices, rfl⟩ := h
  refine ⟨_, _, indices, _, List.takeWhile_append_dropWhile.symm, hopen, by simpa using hclose,
    hindices, ?_⟩
  split
  · next hempty =>
    obtain ⟨hfirst, hrest⟩ : first = true ∧ part.dropWhile (· ≠ '[') ≠ [] := by
      simpa only [hempty, Bool.true_and, Bool.or_eq_true, Bool.not_eq_true', not_or,
        Bool.not_eq_false, List.isEmpty_iff] using hnamed
    exact .inl ⟨List.isEmpty_iff.mp hempty, hfirst, hrest, rfl⟩
  · next hne => exact .inr ⟨by simpa using hne, rfl⟩

theorem isName_ofList {name : List Char} (hne : name ≠ []) (hpoint : '.' ∉ name)
    (hopen : '[' ∉ name) (hclose : ']' ∉ name) : Schema.isName (String.ofList name) = true := by
  have hchars : ∀ c ∈ name, c ≠ '.' ∧ c ≠ '[' ∧ c ≠ ']' := by
    refine fun c hc => ⟨?_, ?_, ?_⟩ <;> rintro rfl
    · exact hpoint hc
    · exact hopen hc
    · exact hclose hc
  simp only [Schema.isName, Bool.and_eq_true, List.all_eq_true, String.toList_ofList]
  exact ⟨by simpa using hne, fun c hc => by simp [hchars c hc]⟩

/-- A part without points begins with a name, unless it begins with a bracket. -/
theorem names_of_readPart {first : Bool} {place : Nat} {part : List Char}
    {segments : List Segment} (hpart : '.' ∉ part)
    (h : readPart first place part = .ok segments) :
    ∀ name ∈ names segments, Schema.isName name = true := by
  obtain ⟨name, rest, indices, _, rfl, hopen, hclose, hindices,
    ⟨-, -, -, rfl⟩ | ⟨hne, rfl⟩⟩ := readPart_ok h
  · simp [names_of_readIndices hindices]
  · have hpoint : '.' ∉ name := fun hmem => hpart (List.mem_append_left rest hmem)
    rw [names_key, names_of_readIndices hindices, List.forall_mem_singleton]
    exact isName_ofList hne hpoint hopen hclose

theorem names_of_readParts {first : Bool} {place : Nat} {parts : List (List Char)} {path : Path}
    (hparts : ∀ part ∈ parts, '.' ∉ part) (h : readParts first place parts = .ok path) :
    ∀ name ∈ names path, Schema.isName name = true := by
  induction parts generalizing first place path with
  | nil =>
    cases h
    simp
  | cons part rest ih =>
    simp only [readParts, bind_ok_iff, pure_ok_iff] at h
    obtain ⟨segments, hsegments, others, hothers, rfl⟩ := h
    rw [List.forall_mem_cons] at hparts
    intro name hname
    rw [names_append, List.mem_append] at hname
    rcases hname with hname | hname
    · exact names_of_readPart hparts.1 hsegments name hname
    · exact ih hparts.2 hothers name hname

/-- Whatever text a path is read from, its names can be names of attributes. -/
theorem names_of_parse {input : String} {path : Path} (h : parse input = .ok path) :
    ∀ name ∈ path.names, Schema.isName name = true := by
  rw [parse] at h
  split at h
  · cases h
  · exact names_of_readParts (splitPoints_no_point _) h

theorem schemaKey_of_parse {input : String} {path : Path} (h : parse input = .ok path) :
    path.schemaKey = Schema.dotted "" path.names :=
  (Schema.dotted_eq (names_of_parse h)).symm

end EntityModel.Path
