import EntityModel.Proofs.Resolution

/-!
# Paths as lenses

A path that leads somewhere names one place of a table. Finding the value at the place and changing
it there walk the same steps, so a change is given the value that is found. The laws of a lens hold:
what is put there is found there, putting back what was there restores the table, and of two values
put there the second counts. A path that parts from it is answered as before.

* `Path.Diverges`: two paths part, so that neither leads on from the other.
* `Value.change_eq`, `update_eq`: a change finds a value and puts another one in its place.
* `Value.follow_replaceAt_of_diverges`, `resolve_replaceAt_of_diverges`: all else stays.
* `replaceAt_comm`: values may be put at paths that part in any order.
* `resolve_update_lens`: the laws together.
-/

namespace EntityModel

/-! ## Entries put in place of others -/

namespace Assoc

variable {α : Type} {key other : String} {value : α} {entries : Assoc α}

theorem replace_replace (key : String) (a b : α) (entries : Assoc α) :
    replace key b (replace key a entries) = replace key b entries := by
  induction entries with
  | nil => rfl
  | cons entry rest ih =>
    obtain ⟨name, old⟩ := entry
    by_cases h : key = name
    · simp [replace, h]
    · simp [replace, h, ih]

theorem replace_of_get? (h : get? entries key = some value) :
    replace key value entries = entries := by
  induction entries with
  | nil => rfl
  | cons entry rest ih =>
    obtain ⟨name, old⟩ := entry
    rw [get?_cons] at h
    unfold replace
    by_cases hname : key = name
    · rw [if_pos hname] at h ⊢
      cases h
      rw [hname]
    · rw [if_neg hname] at h ⊢
      rw [ih h]

theorem replace_comm (hne : key ≠ other) (a b : α) (entries : Assoc α) :
    replace other b (replace key a entries) = replace key a (replace other b entries) := by
  induction entries with
  | nil => rfl
  | cons entry rest ih =>
    obtain ⟨name, old⟩ := entry
    by_cases hkey : key = name
    · have hother : other ≠ name := fun h => hne (hkey.trans h.symm)
      simp [replace, hkey, hother]
    · by_cases hother : other = name
      · simp [replace, hkey, hother]
      · simp [replace, hkey, hother, ih]

/-- Under a key that ascending entries hold, inserting is replacing. -/
theorem insert_eq_replace (hasc : Ascending entries) (hkey : key ∈ keys entries) (value : α) :
    insert key value entries = replace key value entries := by
  induction entries with
  | nil => cases hkey
  | cons entry rest ih =>
    obtain ⟨name, old⟩ := entry
    obtain ⟨hfirst, hrest⟩ := List.pairwise_cons.mp hasc
    unfold insert replace
    by_cases hname : key = name
    · rw [if_pos hname, if_pos hname]
    · have hmem : key ∈ keys rest := (List.mem_cons.mp hkey).resolve_left hname
      obtain ⟨later, hlater, rfl⟩ := List.mem_map.mp hmem
      have hnlt : ¬ later.1 < name := fun hlt =>
        String.lt_irrefl name (String.lt_trans (hfirst later hlater) hlt)
      rw [if_neg hname, if_neg hname, if_neg hnlt, ih hrest hmem]

end Assoc

/-! ## Paths that part -/

namespace Path

/-- Neither of two paths leads on from the other. -/
def Diverges (p q : Path) : Prop := ¬ p <+: q ∧ ¬ q <+: p

instance (p q : Path) : Decidable (p.Diverges q) := inferInstanceAs (Decidable (_ ∧ _))

variable {p q : Path} {first second : Segment}

theorem Diverges.symm (h : p.Diverges q) : q.Diverges p := ⟨h.2, h.1⟩

theorem not_diverges_nil (p : Path) : ¬ Diverges p [] := fun h => h.2 List.nil_prefix

/-- Paths part at once, or behind a segment that they share. -/
theorem diverges_cons_iff :
    Diverges (first :: p) (second :: q) ↔
      first ≠ second ∨ first = second ∧ p.Diverges q := by
  unfold Diverges
  rw [List.cons_prefix_cons, List.cons_prefix_cons]
  by_cases h : first = second
  · simp [h]
  · simp [h, Ne.symm h]

end Path

namespace Value

variable {value part new a b : Value} {segment other : Segment}

/-! ## One step -/

theorem child_withChild_self (h : value.child segment = .ok part) (new : Value) :
    (withChild new value segment).child segment = .ok new := by
  cases segment with
  | key name =>
    obtain ⟨fields, attributes, rfl, hget⟩ := child_key_ok.mp h
    have hnew : Assoc.get? (Assoc.replace name new attributes) name = some new := by
      rw [Assoc.get?_replace, if_pos rfl, hget, Option.map_some]
    exact child_key_ok.mpr ⟨fields, _, rfl, hnew⟩
  | index position =>
    obtain ⟨element, items, hcollection, hitem⟩ := child_index_ok.mp h
    obtain ⟨hlt, -⟩ := List.getElem?_eq_some_iff.mp hitem
    have hnew : (items.set position.toNat new)[position.toNat]? = some new :=
      List.getElem?_set_self hlt
    rcases hcollection with rfl | rfl
    · exact child_index_ok.mpr ⟨element, _, .inl rfl, hnew⟩
    · exact child_index_ok.mpr ⟨element, _, .inr rfl, hnew⟩

/-- A new part leaves the other parts alone, and the faults of steps that lead nowhere. -/
theorem child_withChild_of_ne (new value : Value) (hne : other ≠ segment) :
    (withChild new value segment).child other = value.child other := by
  cases segment with
  | key name =>
    cases value with
    | object fields attributes =>
      cases other with
      | key key =>
        have hkey : key ≠ name := fun h => hne (congrArg Segment.key h)
        simp only [withChild, child, Assoc.get?_replace, if_neg hkey]
      | index position => rfl
    | _ => rfl
  | index position =>
    cases value with
    | list element items | set element items =>
      cases other with
      | key key => rfl
      | index position' =>
        have hposition : position.toNat ≠ position'.toNat := fun h =>
          hne (congrArg Segment.index (UInt64.toNat_inj.mp h).symm)
        simp only [withChild, child, List.getElem?_set_ne hposition, List.length_set]
    | _ => rfl

theorem withChild_withChild (a b value : Value) (segment : Segment) :
    withChild b (withChild a value segment) segment = withChild b value segment := by
  cases segment with
  | key name =>
    cases value with
    | object fields attributes => simp only [withChild, Assoc.replace_replace]
    | _ => rfl
  | index position =>
    cases value with
    | list element items | set element items => simp only [withChild, List.set_set]
    | _ => rfl

/-- The part that is there already changes nothing. -/
theorem withChild_child (h : value.child segment = .ok part) :
    withChild part value segment = value := by
  cases segment with
  | key name =>
    obtain ⟨fields, attributes, rfl, hget⟩ := child_key_ok.mp h
    rw [withChild, Assoc.replace_of_get? hget]
  | index position =>
    obtain ⟨element, items, hcollection, hitem⟩ := child_index_ok.mp h
    obtain ⟨hlt, rfl⟩ := List.getElem?_eq_some_iff.mp hitem
    rcases hcollection with rfl | rfl <;> rw [withChild, List.set_getElem_self]

theorem withChild_comm (hne : segment ≠ other) (a b value : Value) :
    withChild b (withChild a value segment) other =
      withChild a (withChild b value other) segment := by
  cases segment with
  | key name =>
    cases value with
    | object fields attributes =>
      cases other with
      | key key =>
        have hkey : name ≠ key := fun h => hne (congrArg Segment.key h)
        simp only [withChild, Assoc.replace_comm hkey]
      | index position => rfl
    | _ => cases other <;> rfl
  | index position =>
    cases value with
    | list element items | set element items =>
      cases other with
      | key key => rfl
      | index position' =>
        have hposition : position.toNat ≠ position'.toNat := fun h =>
          hne (congrArg Segment.index (UInt64.toNat_inj.mp h))
        simp only [withChild, List.set_comm _ _ hposition]
    | _ => cases other <;> rfl

/-- Only known values have parts. -/
theorem isKnown_of_child (h : value.child segment = .ok part) : value.isKnown = true := by
  cases segment with
  | key name =>
    obtain ⟨fields, attributes, rfl, -⟩ := child_key_ok.mp h
    rfl
  | index position =>
    obtain ⟨element, items, hcollection, -⟩ := child_index_ok.mp h
    rcases hcollection with rfl | rfl <;> rfl

/-! ## Many steps -/

/-- The value with another value at the place that segments lead to. -/
def replaceAt (value : Value) (segments : List Segment) (new : Value) : Value :=
  match segments with
  | [] => new
  | segment :: rest =>
    match value.child segment with
    | .ok part => withChild (part.replaceAt rest new) value segment
    | .error _ => value

variable {walked : Path} {segments others : List Segment} {old : Value}

theorem replaceAt_cons (h : value.child segment = .ok part) (rest : List Segment) (new : Value) :
    value.replaceAt (segment :: rest) new = withChild (part.replaceAt rest new) value segment := by
  rw [replaceAt, h]

theorem replaceAt_cons_error {reason : StepError} (h : value.child segment = .error reason)
    (rest : List Segment) (new : Value) : value.replaceAt (segment :: rest) new = value := by
  rw [replaceAt, h]

/-- A change walks to the value that `follow` finds, and fails as `follow` does. -/
theorem change_eq {ε : Type} (refuse : ResolutionError → ε) (f : Value → Except ε Value)
    (walked : Path) (value : Value) (segments : List Segment) :
    change refuse f walked value segments = (do
      let old ← (follow walked value segments).mapError refuse
      let new ← f old
      return value.replaceAt segments new) := by
  induction segments generalizing walked value with
  | nil =>
    rw [change, follow, renamed_ok, ok_bind]
    exact (bind_pure (f value)).symm
  | cons segment rest ih =>
    rw [change, follow]
    cases hchild : value.child segment with
    | error reason => rfl
    | ok part => simp only [ih, bind_assoc, pure_bind, replaceAt_cons hchild]

theorem follow_replaceAt_self (h : follow walked value segments = .ok old) :
    follow walked (value.replaceAt segments new) segments = .ok new := by
  induction segments generalizing walked value with
  | nil => rfl
  | cons segment rest ih =>
    obtain ⟨part, hpart, h⟩ := follow_cons_ok.mp h
    rw [replaceAt_cons hpart]
    exact follow_cons_ok.mpr ⟨_, child_withChild_self hpart _, ih h⟩

theorem replaceAt_follow (h : follow walked value segments = .ok old) :
    value.replaceAt segments old = value := by
  induction segments generalizing walked value with
  | nil =>
    cases h
    rfl
  | cons segment rest ih =>
    obtain ⟨part, hpart, h⟩ := follow_cons_ok.mp h
    rw [replaceAt_cons hpart, ih h, withChild_child hpart]

theorem replaceAt_replaceAt (a b value : Value) (segments : List Segment) :
    (value.replaceAt segments a).replaceAt segments b = value.replaceAt segments b := by
  induction segments generalizing value with
  | nil => rfl
  | cons segment rest ih =>
    cases hchild : value.child segment with
    | error reason => simp only [replaceAt_cons_error hchild]
    | ok part =>
      have hnext := child_withChild_self hchild (part.replaceAt rest a)
      rw [replaceAt_cons hchild, replaceAt_cons hnext, ih, withChild_withChild,
        replaceAt_cons hchild]

/-- Where a path parts from the one that a value was put at, it is answered as before. -/
theorem follow_replaceAt_of_diverges (value new : Value) (h : Path.Diverges segments others) :
    follow walked (value.replaceAt segments new) others = follow walked value others := by
  induction segments generalizing walked value others with
  | nil => exact absurd h.symm (Path.not_diverges_nil others)
  | cons segment rest ih =>
    cases others with
    | nil => exact absurd h (Path.not_diverges_nil _)
    | cons other rest' =>
      cases hchild : value.child segment with
      | error reason => rw [replaceAt_cons_error hchild]
      | ok part =>
        rw [replaceAt_cons hchild]
        rcases Path.diverges_cons_iff.mp h with hne | ⟨rfl, hrest⟩
        · simp only [follow, child_withChild_of_ne _ _ (Ne.symm hne)]
        · simp only [follow, child_withChild_self hchild, hchild, ih _ hrest]

theorem replaceAt_comm (a b value : Value) (h : Path.Diverges segments others) :
    (value.replaceAt segments a).replaceAt others b =
      (value.replaceAt others b).replaceAt segments a := by
  induction segments generalizing value others with
  | nil => exact absurd h.symm (Path.not_diverges_nil others)
  | cons segment rest ih =>
    cases others with
    | nil => exact absurd h (Path.not_diverges_nil _)
    | cons other rest' =>
      rcases Path.diverges_cons_iff.mp h with hne | ⟨rfl, hrest⟩
      · -- what is put under either segment leaves the step along the other one alone
        have hsegment := fun new : Value => child_withChild_of_ne new value hne
        have hother := fun new : Value => child_withChild_of_ne new value (Ne.symm hne)
        cases hchild : value.child segment with
        | error reason =>
          cases hchild' : value.child other <;> simp only [replaceAt, hchild, hchild', hsegment]
        | ok part =>
          cases hchild' : value.child other with
          | error reason' => simp only [replaceAt, hchild, hchild', hother]
          | ok part' => simp only [replaceAt, hchild, hchild', hsegment, hother, withChild_comm hne]
      · cases hchild : value.child segment with
        | error reason => simp only [replaceAt_cons_error hchild]
        | ok part =>
          simp only [replaceAt_cons hchild, replaceAt_cons (child_withChild_self hchild _),
            withChild_withChild, ih part hrest]

/-- A path that leads on behind a value leaves that value a known one of its type. -/
theorem follow_prefix_replaceAt (new : Value) (h : follow walked value segments = .ok old)
    (hbefore : others <+: segments) (hne : others ≠ segments) :
    ∃ between, follow walked value others = .ok between ∧ between.isKnown = true ∧
      ∃ between', follow walked (value.replaceAt segments new) others = .ok between' ∧
        between'.type = between.type ∧ between'.isKnown = true := by
  induction segments generalizing walked value others with
  | nil => exact absurd (List.prefix_nil.mp hbefore) hne
  | cons segment rest ih =>
    obtain ⟨part, hpart, h⟩ := follow_cons_ok.mp h
    have hnext := child_withChild_self hpart (part.replaceAt rest new)
    rw [replaceAt_cons hpart]
    cases others with
    | nil =>
      exact ⟨value, rfl, isKnown_of_child hpart, _, rfl, withChild_type _ _ _,
        isKnown_of_child hnext⟩
    | cons other rest' =>
      obtain ⟨rfl, hrest⟩ := List.cons_prefix_cons.mp hbefore
      have hneRest : rest' ≠ rest := fun heq => hne (congrArg _ heq)
      obtain ⟨between, hfound, hknown, between', hfound', hkept⟩ := ih h hrest hneRest
      exact ⟨between, follow_cons_ok.mpr ⟨part, hpart, hfound⟩, hknown, between',
        follow_cons_ok.mpr ⟨_, hnext, hfound'⟩, hkept⟩

end Value

/-! ## Tables -/

/-- The table with another value at a path. -/
def replaceAt (table : ValueTable) (path : Path) (new : Value) : ValueTable :=
  match path with
  | .key name :: rest =>
    match Assoc.get? table name with
    | some first => Assoc.replace name (first.replaceAt rest new) table
    | none => table
  | _ => table

variable {table table' : ValueTable} {name : String} {rest : List Segment} {old new : Value}
  {path other : Path}

/-- A table is found in as an object with its values is, from the first name on. -/
theorem resolve_key (fields : List (String × ValueType)) (table : ValueTable) (name : String)
    (rest : List Segment) :
    resolve table (.key name :: rest) =
      Value.follow [] (.object fields table) (.key name :: rest) := by
  rw [resolve, entryAt, Value.follow, Value.child]
  cases Assoc.get? table name <;> rfl

theorem replaceAt_key (fields : List (String × ValueType)) (table : ValueTable) (name : String)
    (rest : List Segment) (new : Value) :
    (Value.object fields table).replaceAt (.key name :: rest) new =
      .object fields (replaceAt table (.key name :: rest) new) := by
  simp only [Value.replaceAt, replaceAt, Value.child]
  cases Assoc.get? table name <;> rfl

theorem keys_replaceAt (table : ValueTable) (path : Path) (new : Value) :
    Assoc.keys (replaceAt table path new) = Assoc.keys table := by
  unfold replaceAt
  split
  · split
    · exact Assoc.keys_replace _ _ _
    · rfl
  · rfl

/-- A change of a table finds the value that `resolve` finds, and fails as `resolve` does. -/
theorem update_eq {ε : Type} (refuse : ResolutionError → ε) (f : Value → Except ε Value)
    (table : ValueTable) (path : Path) :
    update refuse f table path = (do
      let old ← (resolve table path).mapError refuse
      let new ← f old
      return replaceAt table path new) := by
  unfold update resolve replaceAt
  match path with
  | [] => rfl
  | .index position :: rest => rfl
  | .key name :: rest =>
    rw [entryAt]
    cases hget : Assoc.get? table name with
    | none => rfl
    | some first => simp only [renamed_ok, ok_bind, Value.change_eq, bind_assoc, pure_bind, hget]

theorem assign_eq (table : ValueTable) (path : Path) (new : Value) :
    assign table path new = (resolve table path).map fun _ => replaceAt table path new := by
  rw [assign, update_eq]
  cases resolve table path <;> rfl

theorem assign_ok :
    assign table path new = .ok table' ↔
      (∃ old, resolve table path = .ok old) ∧ replaceAt table path new = table' := by
  rw [assign_eq]
  cases resolve table path with
  | error e => simp [Except.map]
  | ok old => simp [Except.map]

theorem resolve_replaceAt_self (h : resolve table path = .ok old) (new : Value) :
    resolve (replaceAt table path new) path = .ok new := by
  obtain ⟨name, first, rest, rfl, -, -⟩ := resolve_ok.mp h
  rw [resolve_key [], ← replaceAt_key]
  rw [resolve_key []] at h
  exact Value.follow_replaceAt_self h

theorem replaceAt_resolve (h : resolve table path = .ok old) :
    replaceAt table path old = table := by
  obtain ⟨name, first, rest, rfl, -, -⟩ := resolve_ok.mp h
  rw [resolve_key []] at h
  have hsame := Value.replaceAt_follow h
  rw [replaceAt_key] at hsame
  exact (Value.object.inj hsame).2

theorem replaceAt_replaceAt (a b : Value) (table : ValueTable) (path : Path) :
    replaceAt (replaceAt table path a) path b = replaceAt table path b := by
  match path with
  | [] | .index _ :: _ => rfl
  | .key name :: rest =>
    have hsame := Value.replaceAt_replaceAt a b (.object [] table) (.key name :: rest)
    rw [replaceAt_key, replaceAt_key, replaceAt_key] at hsame
    exact (Value.object.inj hsame).2

/-- Where a path parts from the one that a value was put at, it is answered as before. -/
theorem resolve_replaceAt_of_diverges (h : path.Diverges other) (table : ValueTable) (new : Value) :
    resolve (replaceAt table path new) other = resolve table other := by
  match path, other with
  | [], _ => exact absurd h.symm (Path.not_diverges_nil _)
  | _, [] => exact absurd h (Path.not_diverges_nil _)
  | .index _ :: _, _ => rfl
  | .key _ :: _, .index _ :: _ => rfl
  | .key name :: rest, .key name' :: rest' =>
    rw [resolve_key [], resolve_key [] table, ← replaceAt_key]
    exact Value.follow_replaceAt_of_diverges _ _ h

theorem replaceAt_comm (h : path.Diverges other) (a b : Value) (table : ValueTable) :
    replaceAt (replaceAt table path a) other b = replaceAt (replaceAt table other b) path a := by
  match path, other with
  | [], _ => exact absurd h.symm (Path.not_diverges_nil _)
  | _, [] => exact absurd h (Path.not_diverges_nil _)
  | .index _ :: _, _ => rfl
  | .key _ :: _, .index _ :: _ => rfl
  | .key name :: rest, .key name' :: rest' =>
    have hsame := Value.replaceAt_comm a b (.object [] table) h
    simp only [replaceAt_key] at hsame
    exact (Value.object.inj hsame).2

/-- A value that a path leads through stays a known one of its type. -/
theorem resolve_prefix_replaceAt (h : resolve table path = .ok old) (hnonempty : other ≠ [])
    (hbefore : other <+: path) (hne : other ≠ path) (new : Value) :
    ∃ between, resolve table other = .ok between ∧ between.isKnown = true ∧
      ∃ between', resolve (replaceAt table path new) other = .ok between' ∧
        between'.type = between.type ∧ between'.isKnown = true := by
  obtain ⟨name, first, rest, rfl, -, -⟩ := resolve_ok.mp h
  obtain ⟨segment, rest', rfl⟩ := List.exists_cons_of_ne_nil hnonempty
  obtain ⟨rfl, -⟩ := List.cons_prefix_cons.mp hbefore
  rw [resolve_key []] at h
  rw [resolve_key [], resolve_key [] (replaceAt _ _ _), ← replaceAt_key]
  exact Value.follow_prefix_replaceAt new h hbefore hne

/-! ## The laws together -/

/-- Finding and changing go together: a change is given the value that is found and fails with the
same fault, and assigning fails exactly where finding does. What is assigned is found; assigning the
old value again restores the table, and of two values the second counts. Paths that part from this
one lead where they led before, and the values on the way stay known values of their types. -/
theorem resolve_update_lens (table : ValueTable) (path : Path) :
    (∀ {ε : Type} (refuse : ResolutionError → ε) (f : Value → Except ε Value),
      update refuse f table path = (do
        let old ← (resolve table path).mapError refuse
        let new ← f old
        (assign table path new).mapError refuse)) ∧
    (∀ new, (assign table path new).map (fun _ => ()) = (resolve table path).map fun _ => ()) ∧
    ∀ old new table', resolve table path = .ok old → assign table path new = .ok table' →
      resolve table' path = .ok new ∧
      assign table' path old = .ok table ∧
      (∀ newer, assign table' path newer = assign table path newer) ∧
      (∀ other, path.Diverges other → resolve table' other = resolve table other) ∧
      ∀ other, other ≠ [] → other <+: path → other ≠ path →
        ∃ between, resolve table other = .ok between ∧ between.isKnown = true ∧
          ∃ between', resolve table' other = .ok between' ∧ between'.type = between.type ∧
            between'.isKnown = true := by
  refine ⟨fun refuse f => ?_, fun new => ?_, ?_⟩
  · rw [update_eq]
    cases hold : resolve table path with
    | error e => rfl
    | ok old => simp only [assign_eq, hold, renamed_ok, ok_bind, Except.map, pure, Except.pure]
  · rw [assign_eq]
    cases resolve table path <;> rfl
  · intro old new table' hold hnew
    obtain ⟨-, rfl⟩ := assign_ok.mp hnew
    have hself := resolve_replaceAt_self hold new
    refine ⟨hself, ?_, ?_, ?_, ?_⟩
    · refine assign_ok.mpr ⟨⟨new, hself⟩, ?_⟩
      rw [replaceAt_replaceAt, replaceAt_resolve hold]
    · intro newer
      rw [assign_eq, assign_eq, hself, hold, replaceAt_replaceAt]
      rfl
    · intro other hother
      exact resolve_replaceAt_of_diverges hother table new
    · intro other hnonempty hbefore hne
      exact resolve_prefix_replaceAt hold hnonempty hbefore hne new

/-- A shelf with two labels on it. -/
def shelf (second : String) : ValueTable :=
  [("spec", .object [("labels", .set .string)]
    [("labels", .set .string [.string "old", .string second])])]

/-- The place of a label. -/
def labelPath (position : UInt64) : Path := [.key "spec", .key "labels", .index position]

/-- Another second label leaves the first one and the object around both. -/
theorem shelf_lens :
    resolve (shelf "red") (labelPath 1) = .ok (.string "red") ∧
      assign (shelf "red") (labelPath 1) (.string "blue") = .ok (shelf "blue") ∧
      resolve (shelf "blue") (labelPath 1) = .ok (.string "blue") ∧
      assign (shelf "blue") (labelPath 1) (.string "red") = .ok (shelf "red") ∧
      (labelPath 1).Diverges (labelPath 0) ∧
      resolve (shelf "blue") (labelPath 0) = resolve (shelf "red") (labelPath 0) ∧
      ∃ spec, resolve (shelf "blue") [.key "spec"] = .ok spec ∧ spec.isKnown = true := by
  obtain ⟨-, -, hlaws⟩ := resolve_update_lens (shelf "red") (labelPath 1)
  have hold : resolve (shelf "red") (labelPath 1) = .ok (.string "red") := rfl
  have hnew : assign (shelf "red") (labelPath 1) (.string "blue") = .ok (shelf "blue") := rfl
  obtain ⟨hself, hback, -, hothers, hway⟩ := hlaws _ _ _ hold hnew
  have hparts : (labelPath 1).Diverges (labelPath 0) := by decide
  obtain ⟨-, -, -, spec, hspec, -, hknown⟩ :=
    hway [.key "spec"] (by decide) (by decide) (by decide)
  exact ⟨hold, hnew, hself, hback, hparts, hothers _ hparts, spec, hspec, hknown⟩

end EntityModel
