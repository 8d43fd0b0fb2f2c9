import EntityModel.Proofs.Schema.Table
import EntityModel.Schema.Outline
import Mathlib.Data.List.TakeWhile

/-!
# What outlines of entities show

The outline of an entity has one row for each field, in ascending order of the paths. A reader takes
a row to stand under the nearest row before it that is less indented. Where these are the parents,
all paths can be read off, and conversely.

The order of paths goes through the tree of attributes from parents to children but for one thing: a
character that comes before the point in a name. Between `disk` and `disk.size` there is `disk-type`
then, and the size seems to be that of the type.

* `readPaths_eq_iff`: the paths can be read off just if every row stands under its parent.
* `above?_eq_some_iff`: the nearest row that is less indented, among rows in ascending order.
* `exists_append_of_between`: what lies between a path and one below it continues the path.
* `outline_shows_tree_iff`: when the outline of an entity shows its tree.
-/

namespace EntityModel

namespace Schema

variable {hints : Hints} {attributes : List (String × Attribute)} {front back : List String}
  {b : Attribute}

/-- Names that lead to an attribute lead past others, and none of these is excluded. -/
theorem Declared.of_append {parent : String} (hne : front ≠ [])
    (h : Declared hints parent attributes (front ++ back) b) :
    ∃ a, Declared hints parent attributes front a := by
  induction front generalizing parent attributes with
  | nil => exact absurd rfl hne
  | cons name rest ih =>
    rw [List.cons_append] at h
    generalize hnames : rest ++ back = names at h
    cases h with
    | here hmem hincluded =>
      obtain ⟨rfl, -⟩ := List.append_eq_nil_iff.mp hnames
      exact ⟨b, .here hmem hincluded⟩
    | @inside _ _ _ a _ _ hmem hincluded hbelow =>
      by_cases hrest : rest = []
      · subst hrest
        exact ⟨a, .here hmem hincluded⟩
      · obtain ⟨c, hc⟩ := ih hrest (hnames ▸ hbelow)
        exact ⟨c, .inside hmem hincluded hc⟩

end Schema

namespace Entity

/-! ## Rows -/

/-- A row of an outline: how deep it is indented, the name, and what is said about it. -/
structure Row where
  depth : Nat
  name : String
  details : String

def Row.text (row : Row) : String := indentation row.depth ++ row.name ++ ": " ++ row.details

/-- The row of a field. -/
def row (path : String) (field : Field) : Row where
  depth := depth path
  name := leafName path
  details := field.type.render ++ " (" ++
    ",".intercalate field.classification.flagNames ++ ")\n"

/-- The rows of an outline, each with the path of its field. -/
def rows (entity : Entity) : List (String × Row) :=
  entity.introspection.fields.map fun entry => (entry.1, row entry.1 entry.2)

/-- The paths of the fields. -/
def paths (entity : Entity) : List String := Assoc.keys entity.introspection.fields

theorem map_fst_rows (entity : Entity) : entity.rows.map Prod.fst = entity.paths := by
  simp [rows, paths, Assoc.keys]

theorem outline_eq (entity : Entity) :
    entity.outline = entity.name ++ "\n" ++
      String.join (entity.rows.map fun entry => entry.2.text) := by
  have hline : ∀ path field, fieldLine path field = (row path field).text := by
    simp [fieldLine, Row.text, row, String.append_assoc]
  simp only [outline, rows, List.map_map, Function.comp_def, hline]

/-- The blanks that a text begins with. -/
def blanks (text : String) : Nat := (text.toList.takeWhile (· = ' ')).length

/-- The depth of a row can be seen, unless its name begins with a blank as well. -/
theorem Row.blanks_text (row : Row) (h : row.name.toList.head? ≠ some ' ') :
    blanks row.text = 2 * row.depth := by
  have hrest :
      (row.name.toList ++ ": ".toList ++ row.details.toList).takeWhile (· = ' ') = [] := by
    cases hname : row.name.toList with
    | nil => rfl
    | cons c rest =>
      have hc : c ≠ ' ' := by simpa [hname] using h
      simp [hc]
  have hblanks : ∀ c ∈ List.replicate (2 * row.depth) ' ', decide (c = ' ') = true := by simp
  simp only [blanks, text, indentation, String.toList_append, String.toList_ofList,
    List.append_assoc] at hrest ⊢
  rw [List.takeWhile_append_of_pos hblanks, hrest, List.append_nil, List.length_replicate]

/-! ## Reading -/

/-- The path of the nearest row before that is less indented. -/
def above? (before : List (String × Row)) (depth : Nat) : Option String :=
  (before.reverse.find? fun entry => entry.2.depth < depth).map Prod.fst

/-- The path of a row that stands under others. -/
def Row.path (row : Row) (before : List (String × Row)) : String :=
  match above? before row.depth with
  | some parent => parent ++ "." ++ row.name
  | none => row.name

/-- The paths that are read off rows when those of the rows before are known. -/
def readPaths : (before : List (String × Row)) → List Row → List String
  | _, [] => []
  | before, row :: rest => row.path before :: readPaths (before ++ [(row.path before, row)]) rest

/-- The nearest less indented row before that of a nested field is the row of the field's parent. -/
def StandUnderParents (rows : List (String × Row)) : Prop :=
  ∀ before path row after, rows = before ++ (path, row) :: after →
    ∀ parent name, '.' ∉ name.toList → path = parent ++ "." ++ name →
      above? before row.depth = some parent

theorem readPaths_eq_map_iff (before after : List (String × Row)) :
    readPaths before (after.map Prod.snd) = after.map Prod.fst ↔
      ∀ between path row rest, after = between ++ (path, row) :: rest →
        row.path (before ++ between) = path := by
  induction after generalizing before with
  | nil => simp [readPaths]
  | cons entry after ih =>
    obtain ⟨path, row⟩ := entry
    rw [List.map_cons, List.map_cons, readPaths, List.cons.injEq]
    constructor
    · rintro ⟨hpath, hafter⟩ between path' row' rest heq
      rw [hpath] at hafter
      cases between with
      | nil =>
        cases heq
        rwa [List.append_nil]
      | cons entry between =>
        cases heq
        simpa using (ih _).mp hafter between path' row' rest rfl
    · intro h
      have hpath : row.path before = path := by simpa using h [] path row after rfl
      refine ⟨hpath, (ih _).mpr fun between path' row' rest heq => ?_⟩
      rw [hpath]
      simpa using h ((path, row) :: between) path' row' rest (by rw [heq, List.cons_append])

/-! ## Depths and names of paths -/

variable {parent name path : String}

theorem depth_child (h : '.' ∉ name.toList) :
    depth (parent ++ "." ++ name) = depth parent + 1 := by
  simp [depth, List.count_eq_zero.mpr h]

theorem leafName_child (h : '.' ∉ name.toList) : leafName (parent ++ "." ++ name) = name := by
  have hname : ∀ c ∈ name.toList.reverse, decide (c ≠ '.') = true := by
    intro c hc
    rw [decide_eq_true_eq]
    rintro rfl
    exact h (List.mem_reverse.mp hc)
  have hchars : (parent ++ "." ++ name).toList.reverse =
      name.toList.reverse ++ '.' :: parent.toList.reverse := by
    simp
  rw [leafName, hchars, List.takeWhile_append_of_pos hname, List.takeWhile_cons_of_neg (by simp),
    List.append_nil, List.reverse_reverse, String.ofList_toList]

theorem leafName_of_own (h : '.' ∉ path.toList) : leafName path = path := by
  have hpath : path.toList.reverse.takeWhile (· ≠ '.') = path.toList.reverse := by
    rw [List.takeWhile_eq_self_iff]
    intro c hc
    rw [decide_eq_true_eq]
    rintro rfl
    exact h (List.mem_reverse.mp hc)
  rw [leafName, hpath, List.reverse_reverse, String.ofList_toList]

/-- A path with a point in it is that of a name below another. -/
theorem exists_parent (h : '.' ∈ path.toList) :
    ∃ parent name, '.' ∉ name.toList ∧ path = parent ++ "." ++ name := by
  obtain ⟨back, front, hsplit, hback⟩ := List.eq_append_cons_of_mem (List.mem_reverse.mpr h)
  refine ⟨String.ofList front.reverse, String.ofList back.reverse, by simpa using hback, ?_⟩
  rw [← String.toList_inj, ← List.reverse_inj, hsplit]
  simp

theorem rows_eq_append {entity : Entity} {before after : List (String × Row)} {row : Row}
    (h : entity.rows = before ++ (path, row) :: after) :
    row.depth = depth path ∧ row.name = leafName path ∧
      ∀ entry ∈ before, entry.2.depth = depth entry.1 := by
  have hall : ∀ entry ∈ entity.rows,
      entry.2.depth = depth entry.1 ∧ entry.2.name = leafName entry.1 := by
    intro entry hentry
    obtain ⟨field, -, rfl⟩ := List.mem_map.mp hentry
    exact ⟨rfl, rfl⟩
  rw [h] at hall
  obtain ⟨hdepth, hname⟩ := hall (path, row) (by simp)
  exact ⟨hdepth, hname, fun entry hentry => (hall entry (List.mem_append_left _ hentry)).1⟩

/-- What is read is right just if the rows stand under those of the parents: only the names of
nested fields lack something, and it is the path of the parent. -/
theorem readPaths_eq_iff (entity : Entity) :
    readPaths [] (entity.rows.map Prod.snd) = entity.paths ↔ StandUnderParents entity.rows := by
  rw [← map_fst_rows, readPaths_eq_map_iff]
  refine forall_congr' fun before => forall_congr' fun path => forall_congr' fun row =>
    forall_congr' fun after => forall_congr' fun heq => ?_
  obtain ⟨hdepth, hname, hbefore⟩ := rows_eq_append heq
  rw [List.nil_append, Row.path, hname]
  constructor
  · rintro hread parent name hfree rfl
    rw [leafName_child hfree] at hread
    cases habove : above? before row.depth with
    | none =>
      rw [habove] at hread
      have hname : name = parent ++ "." ++ name := hread
      exact absurd (by rw [hname]; simp) hfree
    | some above =>
      rw [habove] at hread
      exact congrArg some (String.append_left_inj _ |>.mp (String.append_left_inj _ |>.mp hread))
  · intro hunder
    by_cases hpoint : '.' ∈ path.toList
    · obtain ⟨parent, name, hfree, rfl⟩ := exists_parent hpoint
      rw [hunder parent name hfree rfl, leafName_child hfree]
    · have hnone : above? before row.depth = none := by
        rw [above?, Option.map_eq_none_iff, List.find?_eq_none]
        intro entry hentry
        rw [hbefore entry (List.mem_reverse.mp hentry), hdepth, depth, depth,
          List.count_eq_zero.mpr hpoint]
        simp
      rw [hnone, leafName_of_own hpoint]

/-! ## The order of paths -/

/-- What lies between a text and one that continues it continues it as well. -/
theorem exists_append_of_between {lower between more : List Char} (hlower : lower < between)
    (hupper : between < lower ++ more) :
    ∃ rest, rest ≠ [] ∧ between = lower ++ rest ∧ rest < more := by
  induction lower generalizing between with
  | nil => exact ⟨between, by rintro rfl; exact List.lt_irrefl _ hlower, rfl, hupper⟩
  | cons c lower ih =>
    obtain _ | ⟨d, between⟩ := between
    · exact absurd hlower (List.not_lt_nil _)
    · rw [List.cons_append, List.cons_lt_cons_iff] at hupper
      rw [List.cons_lt_cons_iff] at hlower
      obtain rfl : c = d := by
        rcases hlower with hlt | ⟨heq, -⟩
        · rcases hupper with hgt | ⟨heq, -⟩
          · exact absurd hlt (Char.lt_asymm hgt)
          · exact heq.symm
        · exact heq
      have hlower' := (hlower.resolve_left (Char.lt_irrefl c)).2
      have hupper' := (hupper.resolve_left (Char.lt_irrefl c)).2
      obtain ⟨rest, hne, rfl, hrest⟩ := ih hlower' hupper'
      exact ⟨rest, hne, rfl, hrest⟩

/-- A path continues another one within its last name, with a character before the point. -/
def Interrupts (other parent : String) : Prop :=
  ∃ rest, other = parent ++ rest ∧ '.' ∉ rest.toList ∧ ∃ c ∈ rest.toList.head?, c < '.'

/-- Besides paths below a path there is one that continues it and comes before these. -/
def Interrupted (paths : List String) : Prop :=
  ∃ parent ∈ paths, (∃ path ∈ paths, Schema.Below path parent) ∧
    ∃ other ∈ paths, Interrupts other parent

theorem interrupts_iff {other : String} : Interrupts other parent ↔
    parent.toList <+: other.toList ∧ '.' ∉ other.toList.drop parent.toList.length ∧
      (other.toList.drop parent.toList.length).head?.any (· < '.') = true := by
  simp only [Option.any_eq_true, decide_eq_true_eq]
  constructor
  · rintro ⟨rest, rfl, hfree, hfirst⟩
    rw [String.toList_append, List.drop_left]
    exact ⟨List.prefix_append .., hfree, hfirst⟩
  · rintro ⟨⟨rest, hrest⟩, hfree, hfirst⟩
    rw [← hrest, List.drop_left] at hfree hfirst
    refine ⟨String.ofList rest, ?_, by simpa using hfree, by simpa using hfirst⟩
    rw [← String.toList_inj, String.toList_append, String.toList_ofList, hrest]

instance (other parent : String) : Decidable (Interrupts other parent) :=
  decidable_of_iff _ interrupts_iff.symm

instance (paths : List String) : Decidable (Interrupted paths) :=
  inferInstanceAs (Decidable (∃ parent ∈ paths,
    (∃ path ∈ paths, Schema.Below path parent) ∧ ∃ other ∈ paths,
      Interrupts other parent))

theorem lt_append {rest : String} (h : rest ≠ "") : parent < parent ++ rest := by
  obtain ⟨c, chars, hchars⟩ := List.exists_cons_of_ne_nil (mt String.toList_eq_nil_iff.mp h)
  have hlonger : parent.toList ++ [] < parent.toList ++ c :: chars :=
    List.append_left_lt (List.nil_lt_cons c chars)
  change parent.toList < (parent ++ rest).toList
  rwa [String.toList_append, hchars, ← List.append_nil parent.toList, List.append_assoc]

theorem Interrupts.between {other : String} (h : Interrupts other parent) (name : String) :
    parent < other ∧ other < parent ++ "." ++ name := by
  obtain ⟨rest, rfl, -, c, hc, hlt⟩ := h
  obtain ⟨chars, hchars⟩ := List.head?_eq_some_iff.mp hc
  refine ⟨lt_append (by rintro rfl; simp at hchars), ?_⟩
  change (parent ++ rest).toList < (parent ++ "." ++ name).toList
  simp only [String.toList_append, List.append_assoc, hchars]
  exact List.append_left_lt (List.cons_lt_cons_iff.mpr (.inl hlt))

theorem Interrupts.depth_eq {other : String} (h : Interrupts other parent) :
    depth other = depth parent := by
  obtain ⟨rest, rfl, hfree, -⟩ := h
  simp [depth, List.count_eq_zero.mpr hfree]

/-- What comes between a path and one below it interrupts, or it is indented deeper than the
path. -/
theorem interrupts_or_depth_lt {other : String} (hlower : parent < other)
    (hupper : other < parent ++ "." ++ name) :
    Interrupts other parent ∨ depth parent < depth other := by
  change other.toList < (parent ++ "." ++ name).toList at hupper
  simp only [String.toList_append, List.append_assoc] at hupper
  obtain ⟨rest, hne, hother, hrest⟩ := exists_append_of_between hlower hupper
  by_cases hpoint : '.' ∈ rest
  · right
    have hcount := List.count_pos_iff.mpr hpoint
    rw [depth, depth, hother, List.count_append]
    omega
  · left
    obtain ⟨c, rest, rfl⟩ := List.exists_cons_of_ne_nil hne
    refine ⟨String.ofList (c :: rest), ?_, by simpa using hpoint, c, by simp, ?_⟩
    · rw [← String.toList_inj, hother, String.toList_append, String.toList_ofList]
    · rcases List.cons_lt_cons_iff.mp hrest with hlt | ⟨rfl, -⟩
      · exact hlt
      · exact absurd List.mem_cons_self hpoint

/-- Among rows in ascending order, the nearest one that is less indented is the row of a path, if
all those between are not. -/
theorem above?_eq_some_iff {before : List (String × Row)} {row : Row} {depth : Nat}
    (hascending : Assoc.Ascending before) (hmem : (parent, row) ∈ before)
    (hdepth : row.depth < depth) :
    above? before depth = some parent ↔ ∀ entry ∈ before, parent < entry.1 →
      depth ≤ entry.2.depth := by
  obtain ⟨front, back, rfl⟩ := List.append_of_mem hmem
  obtain ⟨-, hback, hfront⟩ := List.pairwise_append.mp hascending
  have hlater : ∀ entry ∈ back, parent < entry.1 := (List.pairwise_cons.mp hback).1
  have hearlier : ∀ entry ∈ front, entry.1 < parent := fun entry hentry =>
    hfront entry hentry (parent, row) List.mem_cons_self
  have hfind : above? (front ++ (parent, row) :: back) depth =
      ((back.reverse.find? fun entry => entry.2.depth < depth).or (some (parent, row))).map
        Prod.fst := by
    simp [above?, List.find?_append, hdepth]
  rw [hfind]
  cases hshallow : back.reverse.find? fun entry => entry.2.depth < depth with
  | none =>
    refine iff_of_true rfl fun entry hentry hlt => ?_
    rcases List.mem_append.mp hentry with hentry | hentry
    · exact absurd hlt (String.lt_asymm (hearlier entry hentry))
    · rcases List.mem_cons.mp hentry with rfl | hentry
      · exact absurd hlt (String.lt_irrefl _)
      · simpa using List.find?_eq_none.mp hshallow entry (List.mem_reverse.mpr hentry)
  | some entry =>
    have hentry : entry ∈ back := List.mem_reverse.mp (List.mem_of_find?_eq_some hshallow)
    have hlt : entry.2.depth < depth := by simpa using List.find?_some hshallow
    refine iff_of_false (fun heq => ?_) fun hdeep => ?_
    · exact String.ne_of_lt (hlater entry hentry) (Option.some.inj heq).symm
    · have := hdeep entry (by simp [hentry]) (hlater entry hentry)
      omega

/-! ## Bound entities -/

variable {entity : Entity}

/-- The paths are those of the names that lead to attributes, none on the way being excluded. -/
theorem Bound.mem_paths (h : entity.Bound) : path ∈ entity.paths ↔
    ∃ names a, (∀ n ∈ names, Schema.isName n = true) ∧ Schema.dotted "" names = path ∧
      Schema.Declared entity.hints "" entity.schema.attributes names a := by
  constructor
  · intro hpath
    obtain ⟨field, hget⟩ := Option.isSome_iff_exists.mp (Assoc.mem_keys_iff.mp hpath)
    obtain ⟨names, a, hnames, hdotted, hdeclared, -⟩ := h.records hget
    exact ⟨names, a, hnames, hdotted, hdeclared⟩
  · rintro ⟨names, a, -, rfl, hdeclared⟩
    obtain ⟨-, -, fields, hfields, hintrospection⟩ := bound_iff.mp h
    obtain ⟨field, hfield, -⟩ := hdeclared.recorded hfields
    rw [paths, hintrospection, Assoc.mem_keys_ofList]
    exact List.mem_map.mpr ⟨_, hfield, rfl⟩

/-- With a path that is below another, the table has this other one and a child of it. -/
theorem Bound.parent_mem_paths (h : entity.Bound) (hpath : path ∈ entity.paths)
    (hbelow : Schema.Below path parent) :
    parent ∈ entity.paths ∧
      ∃ name, '.' ∉ name.toList ∧ parent ++ "." ++ name ∈ entity.paths := by
  obtain ⟨names, a, hnames, rfl, hdeclared⟩ := h.mem_paths.mp hpath
  obtain ⟨front, back, rfl, hfront, hback, rfl⟩ := Schema.exists_append_of_below hnames hbelow
  obtain ⟨name, back, rfl⟩ := List.exists_cons_of_ne_nil hback
  obtain ⟨hnames, hname, -⟩ : (∀ n ∈ front, Schema.isName n = true) ∧
      Schema.isName name = true ∧ ∀ n ∈ back, Schema.isName n = true := by
    simpa [or_imp, forall_and] using hnames
  obtain ⟨b, hparent⟩ := hdeclared.of_append hfront
  refine ⟨h.mem_paths.mpr ⟨front, b, hnames, rfl, hparent⟩, name,
    Schema.isName_no_point hname, ?_⟩
  have hne : Schema.dotted "" front ≠ "" := by
    obtain ⟨first, rest, rfl⟩ := List.exists_cons_of_ne_nil hfront
    exact Schema.dotted_ne_empty (Schema.isName_ne_empty (hnames first List.mem_cons_self)) rest
  have hchild : Schema.dotted "" (front ++ [name]) = Schema.dotted "" front ++ "." ++ name := by
    rw [Schema.dotted_append]
    exact Schema.joinPath_of_ne hne name
  rw [List.append_cons] at hdeclared
  obtain ⟨c, hc⟩ := hdeclared.of_append (by simp : front ++ [name] ≠ [])
  have hnames' : ∀ n ∈ front ++ [name], Schema.isName n = true := by
    simpa [or_imp, forall_and] using ⟨hnames, hname⟩
  exact h.mem_paths.mpr ⟨front ++ [name], c, hnames', hchild, hc⟩

theorem Bound.rows_ascending (h : entity.Bound) : Assoc.Ascending entity.rows :=
  List.pairwise_map.mpr h.fields_ascending

theorem mem_rows : path ∈ entity.paths ↔ ∃ row, (path, row) ∈ entity.rows := by
  rw [← map_fst_rows]
  simp

theorem mem_paths_of_rows {before after : List (String × Row)} {row : Row}
    (hrows : entity.rows = before ++ (path, row) :: after) : path ∈ entity.paths :=
  mem_rows.mpr ⟨row, hrows ▸ List.mem_append_right _ List.mem_cons_self⟩

/-- Before a row there are those of the smaller paths. -/
theorem Bound.mem_before (h : entity.Bound) {before after : List (String × Row)} {row : Row}
    (hrows : entity.rows = before ++ (path, row) :: after) {entry : String × Row} :
    entry ∈ before ↔ entry ∈ entity.rows ∧ entry.1 < path := by
  have hascending := h.rows_ascending
  rw [hrows] at hascending ⊢
  obtain ⟨-, hrest, hbefore⟩ := List.pairwise_append.mp hascending
  constructor
  · intro hmem
    exact ⟨List.mem_append_left _ hmem, hbefore _ hmem _ List.mem_cons_self⟩
  · rintro ⟨hmem, hlt⟩
    refine (List.mem_append.mp hmem).resolve_right fun hmem => ?_
    rcases List.mem_cons.mp hmem with rfl | hmem
    · exact String.lt_irrefl _ hlt
    · exact String.lt_asymm hlt ((List.pairwise_cons.mp hrest).1 _ hmem)

/-- A row stands under that of its parent just if no path interrupts. -/
theorem Bound.above?_child (h : entity.Bound) {before after : List (String × Row)} {row : Row}
    (hfree : '.' ∉ name.toList)
    (hrows : entity.rows = before ++ (parent ++ "." ++ name, row) :: after) :
    above? before row.depth = some parent ↔
      ∀ other ∈ entity.paths, ¬ Interrupts other parent := by
  obtain ⟨hdepth, -, hbefore⟩ := rows_eq_append hrows
  rw [depth_child hfree] at hdepth
  obtain ⟨hparent, -⟩ := h.parent_mem_paths (mem_paths_of_rows hrows) ⟨name, rfl⟩
  obtain ⟨parentRow, hparentRow⟩ := mem_rows.mp hparent
  have hmem : (parent, parentRow) ∈ before := by
    refine (h.mem_before hrows).mpr ⟨hparentRow, ?_⟩
    rw [String.append_assoc]
    exact lt_append (by simp)
  have hascending : Assoc.Ascending before :=
    h.rows_ascending.of_sublist (hrows ▸ ((List.sublist_append_left before _).map Prod.fst))
  rw [above?_eq_some_iff hascending hmem (by rw [hbefore _ hmem, hdepth]; exact Nat.lt_succ_self _)]
  constructor
  · intro hdeep other hother hinterrupts
    obtain ⟨hlower, hupper⟩ := hinterrupts.between name
    obtain ⟨otherRow, hotherRow⟩ := mem_rows.mp hother
    have hotherMem := (h.mem_before hrows).mpr ⟨hotherRow, hupper⟩
    have hdeeper := hdeep _ hotherMem hlower
    rw [hbefore _ hotherMem, hdepth, hinterrupts.depth_eq] at hdeeper
    exact Nat.lt_irrefl _ hdeeper
  · intro hnone entry hentry hlower
    obtain ⟨hrow, hupper⟩ := (h.mem_before hrows).mp hentry
    rw [hbefore entry hentry, hdepth]
    exact (interrupts_or_depth_lt hlower hupper).resolve_left (hnone _ (mem_rows.mpr ⟨_, hrow⟩))

/-- All rows stand under those of their parents just if no path interrupts. -/
theorem Bound.standUnderParents_iff (h : entity.Bound) :
    StandUnderParents entity.rows ↔ ¬ Interrupted entity.paths := by
  constructor
  · rintro hunder ⟨parent, -, ⟨path, hpath, hbelow⟩, other, hother, hinterrupts⟩
    obtain ⟨-, name, hfree, hchild⟩ := h.parent_mem_paths hpath hbelow
    obtain ⟨row, hrow⟩ := mem_rows.mp hchild
    obtain ⟨before, after, hrows⟩ := List.append_of_mem hrow
    have habove := hunder before _ row after hrows parent name hfree rfl
    exact (h.above?_child hfree hrows).mp habove other hother hinterrupts
  · rintro hnone before _ row after hrows parent name hfree rfl
    refine (h.above?_child hfree hrows).mpr fun other hother hinterrupts => hnone ?_
    have hchild := mem_paths_of_rows hrows
    obtain ⟨hparent, -⟩ := h.parent_mem_paths hchild ⟨name, rfl⟩
    exact ⟨parent, hparent, ⟨_, hchild, name, rfl⟩, other, hother, hinterrupts⟩

/-- The outline of a bound entity has a row for each field, indented by its depth. The nested fields
stand under their parents, and all paths can be read off, just if no path interrupts. -/
theorem outline_shows_tree_iff (h : entity.Bound) :
    (entity.outline = entity.name ++ "\n" ++
        String.join (entity.rows.map fun entry => entry.2.text) ∧
      entity.rows.map Prod.fst = entity.paths ∧
      ∀ entry ∈ entity.rows, entry.2.name.toList.head? ≠ some ' ' →
        blanks entry.2.text = 2 * entry.2.depth) ∧
    (StandUnderParents entity.rows ↔ ¬ Interrupted entity.paths) ∧
    (readPaths [] (entity.rows.map Prod.snd) = entity.paths ↔ ¬ Interrupted entity.paths) :=
  ⟨⟨outline_eq entity, map_fst_rows entity, fun entry _ => entry.2.blanks_text⟩,
    h.standUnderParents_iff, (readPaths_eq_iff entity).trans h.standUnderParents_iff⟩

theorem vault_outline_shows_tree :
    vault.Bound ∧ StandUnderParents vault.rows ∧
      readPaths [] (vault.rows.map Prod.snd) = ["name", "rules", "rules.token"] :=
  ⟨vault_bound, (outline_shows_tree_iff vault_bound).2.1.mpr (by decide),
    (outline_shows_tree_iff vault_bound).2.2.mpr (by decide)⟩

/-! ## A disk and its type -/

/-- The type of a disk is declared beside the disk. -/
def storeRegistration : Registration where
  schema :=
    { name := "store"
      attributes := [("disk", .nested .single [("size", .plain .int64 {})] {}),
        ("disk-type", .plain .string {})] }
  hints := Hints.none

def store : Entity where
  schema := storeRegistration.schema
  hints := storeRegistration.hints
  introspection := ⟨[("disk", ⟨.object [("size", .int64)], { computed := true }⟩),
    ("disk-type", ⟨.string, { computed := true }⟩),
    ("disk.size", ⟨.int64, { computed := true }⟩)]⟩

theorem store_bound : store.Bound := by
  refine ⟨storeRegistration, ⟨by decide, ?_⟩, rfl⟩
  simp [storeRegistration, Attribute.ChildrenOrdered, Attribute.Ordered, PlainShape.type,
    ValueType.Ordered]

/-- The size of the disk stands under the type. -/
theorem store_outline_misleads :
    store.Bound ∧
      store.outline = "store\n  disk: object\x7bsize:int64\x7d (computed)\n" ++
        "  disk-type: string (computed)\n    size: int64 (computed)\n" ∧
      ¬ StandUnderParents store.rows ∧
      readPaths [] (store.rows.map Prod.snd) = ["disk", "disk-type", "disk-type.size"] := by
  refine ⟨store_bound, by decide, fun h => ?_, by decide⟩
  have habove :=
    h (store.rows.take 2) "disk.size" (row "disk.size" ⟨.int64, { computed := true }⟩)
    [] rfl "disk" "size" (by decide) rfl
  exact absurd habove (by decide)

end Entity

end EntityModel
