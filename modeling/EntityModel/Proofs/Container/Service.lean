import EntityModel.Container.Request
import EntityModel.Proofs.Container.Filling
import EntityModel.Proofs.Lens

/-!
# Containers with a schema

Operations on bound containers fail for many reasons, but never for want of a schema.

* `Served`: what did not end for want of a schema.
* `Served.bind` and its siblings: runs made of smaller runs.
* `served_get` and its siblings: the operations one by one.
-/

namespace EntityModel.Container

variable {α : Type} {c : Container}

/-- A run that does not end for want of a schema. -/
def Served (run : Except ContainerError α) : Prop := run ≠ .error .disabled

/-! ## Runs -/

section Runs

variable {β δ : Type}

theorem served_ok (a : α) : Served (.ok a) := nofun

theorem served_error {e : ContainerError} (h : e ≠ .disabled) :
    Served (.error e : Except ContainerError α) := by
  intro heq
  exact h (Except.error.inj heq)

theorem Served.bind {first : Except ContainerError α} {next : α → Except ContainerError β}
    (h : Served first) (hnext : ∀ a, Served (next a)) : Served (first >>= next) := by
  cases first with
  | ok a => exact hnext a
  | error e => exact served_error fun heq => h (congrArg Except.error heq)

theorem Served.map {run : Except ContainerError α} (h : Served run) (f : α → β) :
    Served (run.map f) := h.bind fun a => served_ok (f a)

theorem served_renamed (rename : δ → ContainerError) (run : Except δ α)
    (hrename : ∀ e, rename e ≠ .disabled) : Served (run.mapError rename) := by
  cases run with
  | ok a => exact served_ok a
  | error e => exact served_error (hrename e)

theorem Served.ite {P : Prop} [Decidable P] {run other : Except ContainerError α}
    (h : Served run) (hother : Served other) : Served (if P then run else other) := by
  by_cases hP : P
  · rw [if_pos hP]
    exact h
  · rw [if_neg hP]
    exact hother

theorem served_parsePath (path : String) : Served (parsePath path) :=
  served_renamed .badPath _ fun _ => nofun

theorem served_liftFor (path : String) (raw : Raw) (type : ValueType) :
    Served (liftFor path raw type) :=
  served_renamed .conversion _ fun _ => nofun

theorem served_wrongKind (path : String) (expected : List ValueType.Kind) (value : Value) :
    Served (wrongKind path expected value : Except ContainerError α) :=
  served_error nofun

end Runs

/-! ## Operations on bound containers -/

section Bound

variable {entity : Entity} (hc : c.entity? = some entity)

include hc

theorem served_entity : Served c.entity := by
  rw [entity_ok.mpr hc]
  exact served_ok entity

theorem served_get (path : String) : Served (c.get path) := by
  unfold get
  apply (served_entity hc).bind
  intro entity
  apply (served_parsePath path).bind
  intro steps
  exact served_renamed .resolution _ fun _ => nofun

theorem served_read (kind : ValueType.Kind) (payload? : Value → Option α) (path : String) :
    Served (c.read kind payload? path) := by
  unfold read
  apply (served_get hc path).bind
  intro value
  exact .ite (served_ok _) (served_wrongKind _ _ _)

theorem served_readInt64 (path : String) : Served (c.readInt64 path) := by
  unfold readInt64
  apply (served_get hc path).bind
  intro value
  split
  · exact served_ok _
  · split
    · exact served_ok _
    · exact served_error nofun
  · exact .ite (served_ok _) (served_wrongKind _ _ _)

theorem served_set (path : String) (raw : Raw) : Served (c.set path raw) := by
  unfold set
  apply (served_entity hc).bind
  intro entity
  apply (served_parsePath path).bind
  intro steps
  apply Served.ite
  · split
    · exact served_error nofun
    · exact (served_liftFor _ _ _).bind fun _ => served_ok _
  · rw [update_eq]
    have hresolve : Served ((resolve c.values steps).mapError .resolution) :=
      served_renamed .resolution _ fun _ => nofun
    refine Served.bind (hresolve.bind fun old => ?_) fun _ => served_ok _
    exact (served_liftFor _ _ _).bind fun _ => served_ok _

theorem served_setOrAdd (name : String) (raw : Raw) : Served (c.setOrAdd name raw) := by
  unfold setOrAdd
  apply (served_entity hc).bind
  intro entity
  split
  · exact served_error nofun
  · exact (served_liftFor _ _ _).bind fun _ => served_ok _

theorem served_fill (record : Record) : Served (c.fill record).2 := by
  intro hrefused
  have hrun : fillEntries entity c record = ((c.fill record).1, .error .disabled) := by
    rw [← fill_eq hc, ← hrefused]
  obtain ⟨-, -, -, -, -, fault, -, -, -, he, -⟩ := fillEntries_error hrun
  cases he

theorem served_copyTo {target : Container} {entity' : Entity}
    (htarget : target.entity? = some entity') : Served (c.copyTo target) := by
  unfold copyTo
  apply (served_entity hc).bind
  intro entity
  apply (served_entity htarget).bind
  intro entity'
  exact served_ok _

theorem served_toItems (path : String) : Served (c.toItems path) := by
  unfold toItems
  apply (served_get hc path).bind
  intro value
  exact .ite (served_ok _) (served_wrongKind _ _ _)

theorem served_toRecord (path : String) : Served (c.toRecord path) := by
  unfold toRecord
  apply (served_get hc path).bind
  intro value
  exact .ite (served_ok _) (served_wrongKind _ _ _)

theorem served_putAvailable (record : Record) (paths : List String) :
    Served (c.putAvailable record paths).2 := by
  induction paths generalizing record with
  | nil => exact served_ok false
  | cons path rest ih =>
    have hget := served_get hc path
    unfold putAvailable
    cases hvalue : c.get path with
    | error e =>
      rw [hvalue] at hget
      exact served_error fun heq => hget (congrArg Except.error heq)
    | ok value =>
      by_cases hknown : value.isKnown = true
      · simp only [if_pos hknown]
        exact (ih _).map _
      · simp only [if_neg hknown]
        exact ih record

theorem served_available (paths : List String) : Served (c.available paths) :=
  (served_putAvailable hc [] paths).map _

theorem served_classification (path : String) : Served (c.classification path) := by
  unfold classification
  apply (served_parsePath path).bind
  intro steps
  apply (served_entity hc).bind
  intro entity
  split
  · exact served_ok _
  · exact served_error nofun

theorem served_carries (flag : Flag) (path : String) : Served (c.carries flag path) :=
  (served_classification hc path).bind fun _ => served_ok _

theorem served_typeOf (path : String) : Served (c.typeOf path) := by
  unfold typeOf
  apply (served_parsePath path).bind
  intro steps
  apply (served_entity hc).bind
  intro entity
  split
  · exact served_ok _
  · exact served_error nofun

theorem served_filtered (combination : Combination) (names : Option FieldSet)
    (filters : List FieldFilter) : Served (c.filtered combination names filters) := by
  unfold filtered
  exact (served_entity hc).bind fun _ => served_ok _

theorem served_difference {other : Container} {entity' : Entity}
    (hother : other.entity? = some entity') (combination : Combination)
    (fields : Option (List String)) (filters : List FieldFilter) :
    Served (c.difference other combination fields filters) := by
  unfold difference
  apply (served_entity hc).bind
  intro entity
  apply (served_entity hother).bind
  intro entity'
  refine Served.bind ?_ fun _ => served_ok _
  unfold candidates
  split
  · split
    · exact served_error nofun
    · exact served_ok _
  · exact served_ok _

theorem served_searchParams : Served c.searchParams := by
  unfold searchParams
  apply (served_entity hc).bind
  intro entity
  apply (served_filtered hc _ _ _).bind
  intro common
  have hrest : ∀ base, Served (do
      let params := (c.addKnown identifiers base).merge (← c.readOnlySearchParams) false
      if params.isEmpty then c.filtered .any none [.carries .optional, .primitivesOnly]
      else return params) := by
    intro base
    apply (served_filtered hc _ _ _).bind
    intro readOnly
    exact .ite (served_filtered hc _ _ _) (served_ok _)
  exact .ite ((served_filtered hc _ _ _).bind hrest) ((served_ok common).bind hrest)

theorem served_optionalAmong (names : List String) : Served (c.optionalAmong names) := by
  unfold optionalAmong
  exact .ite (served_ok _) (served_filtered hc _ _ _)

theorem served_createParams : Served c.createParams := by
  unfold createParams
  apply (served_entity hc).bind
  intro entity
  exact (served_filtered hc _ _ _).bind fun _ => served_ok _

end Bound

end EntityModel.Container
