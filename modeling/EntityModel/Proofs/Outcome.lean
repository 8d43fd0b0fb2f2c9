/-!
# Outcomes of computations that may be refused

What an outcome says about the steps that led to it.

* `bind_ok_iff`: two steps succeed if the first does and the second does with its result.
* `bind_error_iff`: two steps fail if the first does, or the second does with its result.
* `renamed_ok_iff`: renaming errors touches no success.
* `ok_bind`, `error_bind`, `renamed_ok`, `renamed_error`: runs whose first outcome is known.
* `bind_congr_of_ok`: runs whose second steps agree on every result of the first.
* `error?`: the error of a run, and that of two runs in a row.
* `translate`: an outcome with its error and its result replaced by their images.
-/

namespace EntityModel

variable {ε δ α β : Type}

@[simp] theorem bind_ok_iff {first : Except ε α} {next : α → Except ε β} {b : β} :
    (first >>= next) = .ok b ↔ ∃ a, first = .ok a ∧ next a = .ok b := by
  cases first with
  | error e => simp [bind, Except.bind]
  | ok a => simp [bind, Except.bind]

/-- A check has no result but that it succeeds. -/
@[simp] theorem exists_unit_iff {P : Unit → Prop} : (∃ u, P u) ↔ P () :=
  ⟨fun ⟨_, h⟩ => h, fun h => ⟨(), h⟩⟩

@[simp] theorem pure_ok_iff {a b : α} : (pure a : Except ε α) = .ok b ↔ a = b := by
  simp [pure, Except.pure]

@[simp] theorem map_ok_iff {f : α → β} {run : Except ε α} {b : β} :
    f <$> run = .ok b ↔ ∃ a, run = .ok a ∧ f a = b := by
  rcases run with e | a
  · simp [Functor.map, Except.map]
  · simp [Functor.map, Except.map]

@[simp] theorem renamed_ok_iff {rename : ε → δ} {run : Except ε α} {a : α} :
    run.mapError rename = .ok a ↔ run = .ok a := by
  rcases run with e | b
  · exact iff_of_false nofun nofun
  · show (Except.ok b : Except δ α) = .ok a ↔ _
    rw [Except.ok.injEq, Except.ok.injEq]

theorem bind_error_iff {first : Except ε α} {next : α → Except ε β} {e : ε} :
    (first >>= next) = .error e ↔
      first = .error e ∨ ∃ a, first = .ok a ∧ next a = .error e := by
  cases first with
  | error e' => simp [bind, Except.bind]
  | ok a => simp [bind, Except.bind]

theorem pure_ne_error (a : α) (e : ε) : (pure a : Except ε α) ≠ .error e := nofun

/-- A step that only reshapes a result fails as the run before it. -/
theorem bind_pure_error_iff {run : Except ε α} {f : α → β} {e : ε} :
    (do return f (← run)) = .error e ↔ run = .error e := by
  cases run <;> simp [bind, Except.bind, pure, Except.pure]

theorem ok_bind (a : α) (next : α → Except ε β) : (Except.ok a >>= next) = next a := rfl

theorem error_bind (e : ε) (next : α → Except ε β) :
    (Except.error e >>= next) = .error e := rfl

/-- What comes second counts only after a success. -/
theorem bind_congr_of_ok {first : Except ε α} {next others : α → Except ε β}
    (h : ∀ a, first = .ok a → next a = others a) : (first >>= next) = first >>= others := by
  rcases first with e | a
  · rfl
  · exact h a rfl

theorem renamed_ok (rename : ε → δ) (a : α) :
    (Except.ok a : Except ε α).mapError rename = .ok a :=
  rfl

theorem renamed_error (rename : ε → δ) (e : ε) :
    (Except.error e : Except ε α).mapError rename = .error (rename e) := rfl

/-- A list comes back from what its members are written as if every member does. -/
theorem mapM_map_ok_iff {read : α → Except ε β} {write : β → α} {values : List β} :
    (values.map write).mapM read = .ok values ↔
      ∀ value ∈ values, read (write value) = .ok value := by
  induction values with
  | nil => simp
  | cons value rest ih =>
    rw [List.map_cons, List.mapM_cons, List.forall_mem_cons, ← ih]
    simp

/-! ## Errors -/

/-- The error of a run that failed. -/
def error? : Except ε α → Option ε
  | .ok _ => none
  | .error e => some e

theorem error?_eq_some {run : Except ε α} {e : ε} : error? run = some e ↔ run = .error e := by
  cases run <;> simp [error?]

/-- Of two runs in a row, the second counts only if the first has no error. -/
theorem error?_both {γ : Type} (first : Except ε α) (second : Except ε β)
    (f : α → β → γ) :
    error? (do return f (← first) (← second)) = (error? first).or (error? second) := by
  cases first <;> cases second <;> rfl

theorem error?_return (run : Except ε α) (f : α → β) :
    error? (do return f (← run)) = error? run := by
  cases run <;> rfl

/-! ## Translated outcomes -/

variable {α' β' γ γ' : Type}

/-- The outcome with its error and its result replaced by their images. -/
def translate (onError : ε → δ) (onResult : α → β) : Except ε α → Except δ β
  | .ok a => .ok (onResult a)
  | .error e => .error (onError e)

section

variable {onError : ε → δ} {onFirst : α → α'} {onSecond : β → β'}
  {onResult : γ → γ'} {first others : Except ε α} {second : Except ε β}

/-- Two steps, each translated by itself. -/
theorem translate_both {make : α → β → γ} {make' : α' → β' → γ'}
    (h : ∀ a b, make' (onFirst a) (onSecond b) = onResult (make a b)) :
    (do
      return make' (← translate onError onFirst first)
        (← translate onError onSecond second)) =
      translate onError onResult (do return make (← first) (← second)) := by
  rcases first with e | a
  · rfl
  · rcases second with e | b
    · rfl
    · exact congrArg Except.ok (h a b)

theorem translate_return {make : α → γ} {make' : α' → γ'}
    (h : ∀ a, make' (onFirst a) = onResult (make a)) :
    (do return make' (← translate onError onFirst first)) =
      translate onError onResult (do return make (← first)) := by
  rcases first with e | a
  · rfl
  · exact congrArg Except.ok (h a)

/-- Steps that cannot be told apart after translation, one after another. -/
theorem translate_bind_congr {next nextOther : α → Except ε γ}
    (hfirst : translate onError onFirst first = translate onError onFirst others)
    (hnext : ∀ a a', onFirst a = onFirst a' →
      translate onError onResult (next a) = translate onError onResult (nextOther a')) :
    translate onError onResult (first >>= next) =
      translate onError onResult (others >>= nextOther) := by
  rcases first with e | a <;> rcases others with e' | a'
  · exact congrArg Except.error (Except.error.inj hfirst)
  · cases hfirst
  · cases hfirst
  · exact hnext a a' (Except.ok.inj hfirst)

theorem translate_bind_same {next nextOther : α → Except ε γ}
    (hnext : ∀ a,
      translate onError onResult (next a) = translate onError onResult (nextOther a)) :
    translate onError onResult (first >>= next) =
      translate onError onResult (first >>= nextOther) := by
  rcases first with e | a
  · rfl
  · exact hnext a

/-- Outcomes of one translation are both errors or both results. -/
theorem translate_eq_iff :
    translate onError onFirst first = translate onError onFirst others ↔
      (∃ e e', first = .error e ∧ others = .error e' ∧ onError e = onError e') ∨
        ∃ a a', first = .ok a ∧ others = .ok a' ∧ onFirst a = onFirst a' := by
  rcases first with e | a <;> rcases others with e' | a' <;> simp [translate]

end

end EntityModel
