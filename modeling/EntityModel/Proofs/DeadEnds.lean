import EntityModel.Proofs.Lens
import Mathlib.Data.List.Induction

/-!
# Paths that lead nowhere

A path that leads nowhere has a shortest beginning that does so. It is what the error of the whole
path names: follow a path segment by segment, and the first segment that leads nowhere ends it, so
the segments behind it make no difference. Finding a value and changing it come to the same end.

* `resolve_append`: a path is followed to the end of its first part and on from there.
* `NamesDeadEnd`: an error names the shortest beginning that leads nowhere.
* `resolve_error_iff`: the errors of paths.
* `dead_ends_named`: the errors of finding and of changing.
-/

namespace EntityModel

variable {α : Type} {table : ValueTable} {path before after : Path} {e : ResolutionError}

/-! ## Paths in parts -/

theorem Value.follow_append (walked : Path) (value : Value) (before after : List Segment) :
    value.follow walked (before ++ after) = (do
      let part ← value.follow walked before
      part.follow (walked ++ before) after) := by
  induction before generalizing walked value with
  | nil => rw [List.append_nil, follow, ok_bind, List.nil_append]
  | cons segment rest ih =>
    rw [List.cons_append, follow, follow]
    cases value.child segment with
    | error reason => rfl
    | ok part => simp only [ih, List.append_assoc, List.singleton_append]

/-- A path leads where its second part leads from the value at its first part. -/
theorem resolve_append (table : ValueTable) (hne : before ≠ []) (after : Path) :
    resolve table (before ++ after) = (do
      let part ← resolve table before
      part.follow before after) := by
  obtain ⟨segment, rest, rfl⟩ := List.exists_cons_of_ne_nil hne
  cases segment with
  | index position => rfl
  | key name =>
    rw [List.cons_append, resolve_key [], resolve_key [], ← List.cons_append, Value.follow_append]
    rfl

/-- Behind a part that leads nowhere nothing counts. -/
theorem resolve_append_error (hne : before ≠ []) (h : resolve table before = .error e)
    (after : Path) : resolve table (before ++ after) = .error e := by
  rw [resolve_append table hne, h, error_bind]

/-- Every beginning of a path that leads somewhere does so. -/
theorem exists_resolve_of_append {value : Value} (hne : before ≠ [])
    (h : resolve table (before ++ after) = .ok value) :
    ∃ between, resolve table before = .ok between := by
  rw [resolve_append table hne, bind_ok_iff] at h
  obtain ⟨between, hbetween, -⟩ := h
  exact ⟨between, hbetween⟩

/-! ## The last segment -/

/-- Where a path leads nowhere, either the part without its last segment leads nowhere already, or
the last segment is the fault. -/
theorem resolve_concat_error {segment : Segment}
    (h : resolve table (before ++ [segment]) = .error e) :
    (before ≠ [] ∧ resolve table before = .error e) ∨
      (e.path = before ++ [segment] ∧
        (before ≠ [] → ∃ value, resolve table before = .ok value)) := by
  by_cases hne : before = []
  · subst hne
    refine .inr ⟨?_, fun hne => absurd rfl hne⟩
    cases segment with
    | index position =>
      cases h
      rfl
    | key name =>
      rw [List.nil_append, resolve, entryAt] at h
      cases hget : Assoc.get? table name with
      | some value => simp [hget, ok_bind, Value.follow] at h
      | none =>
        rw [hget] at h
        cases h
        rfl
  · rw [resolve_append table hne] at h
    cases hbefore : resolve table before with
    | error e' =>
      rw [hbefore, error_bind] at h
      exact .inl ⟨hne, h⟩
    | ok value =>
      refine .inr ⟨?_, fun _ => ⟨value, rfl⟩⟩
      rw [hbefore, ok_bind, Value.follow] at h
      cases hchild : value.child segment with
      | ok part => simp [hchild, Value.follow] at h
      | error reason =>
        rw [hchild] at h
        cases h
        rfl

/-! ## Dead ends -/

/-- An error names the shortest beginning of a path that leads nowhere, and is the error of that
beginning. -/
structure NamesDeadEnd (access : Path → Except ResolutionError α) (path : Path)
    (e : ResolutionError) : Prop where
  nonempty : e.path ≠ []
  begins : e.path <+: path
  fails : access e.path = .error e
  shorter : ∀ other, other ≠ [] → other <+: path → other.length < e.path.length →
    ∃ a, access other = .ok a

/-- A longer path that begins with a dead end has it as well. -/
theorem NamesDeadEnd.extend {access : Path → Except ResolutionError α}
    (h : NamesDeadEnd access before e) (hpath : before <+: path) : NamesDeadEnd access path e where
  nonempty := h.nonempty
  begins := h.begins.trans hpath
  fails := h.fails
  shorter := fun other hne hother hlt => by
    have hle : other.length ≤ before.length := Nat.le_of_lt (hlt.trans_le h.begins.length_le)
    exact h.shorter other hne (List.prefix_of_prefix_length_le hother hpath hle) hlt

theorem namesDeadEnd_of_error (hne : path ≠ []) (h : resolve table path = .error e) :
    NamesDeadEnd (resolve table) path e := by
  -- a path is at its end with its first fault, so the induction is on the last segment
  induction path using List.reverseRecOn with
  | nil => exact absurd rfl hne
  | append_singleton before segment ih =>
    rcases resolve_concat_error h with ⟨hbefore, hfails⟩ | ⟨hpath, hbefore⟩
    · exact (ih hbefore hfails).extend (List.prefix_append before [segment])
    · refine ⟨hpath ▸ hne, hpath ▸ List.prefix_rfl, hpath ▸ h,
        fun other hother hbegins hlt => ?_⟩
      rcases List.prefix_concat_iff.mp hbegins with rfl | ⟨rest, rfl⟩
      · exact absurd hlt (hpath ▸ Nat.lt_irrefl _)
      · obtain ⟨value, hvalue⟩ := hbefore (List.append_ne_nil_of_left_ne_nil hother rest)
        exact exists_resolve_of_append hother hvalue

/-- The errors of a path are those that name its dead end. -/
theorem resolve_error_iff (hne : path ≠ []) :
    resolve table path = .error e ↔ NamesDeadEnd (resolve table) path e := by
  refine ⟨namesDeadEnd_of_error hne, fun h => ?_⟩
  obtain ⟨rest, hrest⟩ := h.begins
  rw [← hrest]
  exact resolve_append_error h.nonempty h.fails rest

/-! ## Changes -/

/-- The table with a function applied to the value at a path. -/
def modifyAt (f : Value → Value) (table : ValueTable) (path : Path) :
    Except ResolutionError ValueTable :=
  update id (fun value => .ok (f value)) table path

theorem modifyAt_eq (f : Value → Value) (table : ValueTable) (path : Path) :
    modifyAt f table path = (resolve table path).map fun old => replaceAt table path (f old) := by
  rw [modifyAt, update_eq]
  cases resolve table path <;> rfl

theorem modifyAt_error_iff {f : Value → Value} :
    modifyAt f table path = .error e ↔ resolve table path = .error e := by
  rw [modifyAt_eq]
  cases resolve table path <;> simp [Except.map]

theorem exists_modifyAt_iff {f : Value → Value} :
    (∃ table', modifyAt f table path = .ok table') ↔
      ∃ value, resolve table path = .ok value := by
  rw [modifyAt_eq]
  cases resolve table path <;> simp [Except.map]

/-- A change comes to the same end as finding. -/
theorem namesDeadEnd_modifyAt_iff {f : Value → Value} :
    NamesDeadEnd (modifyAt f table) path e ↔ NamesDeadEnd (resolve table) path e := by
  constructor
  · rintro ⟨hne, hbegins, hfails, hshorter⟩
    exact ⟨hne, hbegins, modifyAt_error_iff.mp hfails, fun other hother hpath hlt =>
      exists_modifyAt_iff.mp (hshorter other hother hpath hlt)⟩
  · rintro ⟨hne, hbegins, hfails, hshorter⟩
    exact ⟨hne, hbegins, modifyAt_error_iff.mpr hfails, fun other hother hpath hlt =>
      exists_modifyAt_iff.mpr (hshorter other hother hpath hlt)⟩

/-- Finding and changing fail with exactly the errors that name the dead end of a path, and the
message has its written form. A change that could itself be refused fails with the same errors. -/
theorem dead_ends_named (table : ValueTable) (hne : path ≠ []) :
    (∀ e, resolve table path = .error e ↔ NamesDeadEnd (resolve table) path e) ∧
      (∀ f e, modifyAt f table path = .error e ↔ NamesDeadEnd (modifyAt f table) path e) ∧
      ∀ e, resolve table path = .error e →
        e.message = "cannot resolve " ++ Text.quote e.path.render ++ ": " ++ e.reason.message ∧
          ∀ {ε : Type} (refuse : ResolutionError → ε) (f : Value → Except ε Value),
            update refuse f table path = .error (refuse e) := by
  refine ⟨fun e => resolve_error_iff hne, fun f e => ?_,
    fun e he => ⟨rfl, fun refuse f => ?_⟩⟩
  · rw [modifyAt_error_iff, namesDeadEnd_modifyAt_iff]
    exact resolve_error_iff hne
  · rw [update_eq, he, renamed_error, error_bind]

/-- A shelf has no sixth label, whatever is asked about it. -/
theorem shelf_dead_end :
    labelPath 5 ++ [.key "color"] ≠ [] ∧
      resolve (shelf "red") (labelPath 5 ++ [.key "color"]) =
        .error ⟨labelPath 5, .outOfBounds 2⟩ ∧
      NamesDeadEnd (resolve (shelf "red")) (labelPath 5 ++ [.key "color"])
        ⟨labelPath 5, .outOfBounds 2⟩ ∧
      (∀ f, modifyAt f (shelf "red") (labelPath 5 ++ [.key "color"]) =
        .error ⟨labelPath 5, .outOfBounds 2⟩) ∧
      (labelPath 5).render = "spec.labels[5]" := by
  have hne : labelPath 5 ++ [.key "color"] ≠ [] := by decide
  have hfails : resolve (shelf "red") (labelPath 5 ++ [.key "color"]) =
      .error ⟨labelPath 5, .outOfBounds 2⟩ := rfl
  obtain ⟨hresolve, hmodify, -⟩ := dead_ends_named (shelf "red") hne
  have hnamed := (hresolve _).mp hfails
  refine ⟨hne, hfails, hnamed, fun f => ?_, by decide +kernel⟩
  exact (hmodify f _).mpr (namesDeadEnd_modifyAt_iff.mpr hnamed)

end EntityModel
