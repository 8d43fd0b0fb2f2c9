import EntityModel.Container.Dump
import EntityModel.Proofs.Container.Service

/-!
# Containers without a schema

A container that no schema is bound to has values, but what needs the schema is refused. Most calls
look for the schema first. Some do something else before that: the calls that ask for a declaration
read the path to it, and the calls that go through a list of paths look at the container once for
every path, so not at all if the list is empty.

* `Call`: the calls that need a schema.
* `Call.answer`, `Call.after`, `Call.argumentsAfter`: what a call answers and what it leaves behind.
* `Call.early?`: what a call answers before it looks for a schema.
* `answer_of_early`, `answer_of_unbound`, `answer_served`: the answers in the three cases.
* `refuses_iff`: which calls are refused for want of a schema, and that these change nothing.
* `unbound_answers_early`: two calls to containers without a schema that are not refused for that.
-/

namespace EntityModel.Container

variable {α : Type} {c : Container} {values : ValueTable} {path : String}

/-! ## Calls -/

/-- The calls that need a schema, by the types of their answers. In a call between two containers
the second one is an argument. -/
inductive Call : Type → Type where
  | entity : Call Entity
  | get (path : String) : Call Value
  | readString (path : String) : Call (Option String)
  | readBool (path : String) : Call (Option Bool)
  | readInt64 (path : String) : Call (Option Int64)
  | readFloat64 (path : String) : Call (Option Binary64)
  | readObject (path : String) : Call (Option ValueTable)
  | readList (path : String) : Call (Option (List Value))
  | readSet (path : String) : Call (Option (List Value))
  | isNull (path : String) : Call Bool
  | isUnknown (path : String) : Call Bool
  | isKnown (path : String) : Call Bool
  | set (path : String) (raw : Raw) : Call Unit
  | setOrAdd (name : String) (raw : Raw) : Call Unit
  | fill (record : Record) : Call Unit
  | copyTo (target : Container) : Call Unit
  | toItems (path : String) : Call (List Raw)
  | toRecord (path : String) : Call Record
  | putAvailable (record : Record) (paths : List String) : Call Bool
  | available (paths : List String) : Call Record
  | classification (path : String) : Call Classification
  | isRequired (path : String) : Call Bool
  | isOptional (path : String) : Call Bool
  | isComputed (path : String) : Call Bool
  | typeOf (path : String) : Call ValueType
  | filtered (combination : Combination) (names : Option FieldSet) (filters : List FieldFilter) :
    Call Record
  | allValues : Call Record
  | difference (other : Container) (combination : Combination) (fields : Option (List String))
    (filters : List FieldFilter) : Call Record
  | searchParams : Call Record
  | readOnlySearchParams : Call Record
  | editOnlyParams : Call Record
  | deleteOnlyParams : Call Record
  | createParams : Call Record
  | dump : Call String

namespace Call

/-- What a call answers. -/
def answer (c : Container) : Call α → Except ContainerError α
  | .entity => c.entity
  | .get path => c.get path
  | .readString path => c.readString path
  | .readBool path => c.readBool path
  | .readInt64 path => c.readInt64 path
  | .readFloat64 path => c.readFloat64 path
  | .readObject path => c.readObject path
  | .readList path => c.readList path
  | .readSet path => c.readSet path
  | .isNull path => c.isNull path
  | .isUnknown path => c.isUnknown path
  | .isKnown path => c.isKnown path
  | .set path raw => (c.set path raw).map fun _ => ()
  | .setOrAdd name raw => (c.setOrAdd name raw).map fun _ => ()
  | .fill record => (c.fill record).2
  | .copyTo target => (c.copyTo target).map fun _ => ()
  | .toItems path => c.toItems path
  | .toRecord path => c.toRecord path
  | .putAvailable record paths => (c.putAvailable record paths).2
  | .available paths => c.available paths
  | .classification path => c.classification path
  | .isRequired path => c.isRequired path
  | .isOptional path => c.isOptional path
  | .isComputed path => c.isComputed path
  | .typeOf path => c.typeOf path
  | .filtered combination names filters => c.filtered combination names filters
  | .allValues => c.allValues
  | .difference other combination fields filters => c.difference other combination fields filters
  | .searchParams => c.searchParams
  | .readOnlySearchParams => c.readOnlySearchParams
  | .editOnlyParams => c.editOnlyParams
  | .deleteOnlyParams => c.deleteOnlyParams
  | .createParams => c.createParams
  | .dump => c.dump

/-- The container after a call; a single change that fails leaves it as it was. -/
def after (c : Container) : Call α → Container
  | .set path raw => (c.set path raw).toOption.getD c
  | .setOrAdd name raw => (c.setOrAdd name raw).toOption.getD c
  | .fill record => (c.fill record).1
  | _ => c

/-- The call with its arguments as they are after it. -/
def argumentsAfter (c : Container) : Call α → Call α
  | .copyTo target => .copyTo ((c.copyTo target).toOption.getD target)
  | .putAvailable record paths => .putAvailable (c.putAvailable record paths).1 paths
  | call => call

/-- The containers whose schemas a call needs. -/
def containers (c : Container) : Call α → List Container
  | .copyTo target => [c, target]
  | .difference other _ _ _ => [c, other]
  | _ => [c]

/-- The fault of a text that is no path. -/
def badPath? (path : String) : Option (Except ContainerError α) :=
  match Path.parse path with
  | .ok _ => none
  | .error e => some (.error (.badPath e))

/-- What a call answers before it looks for a schema, if it does. -/
def early? : Call α → Option (Except ContainerError α)
  | .classification path => badPath? path
  | .isRequired path | .isOptional path | .isComputed path => badPath? path
  | .typeOf path => badPath? path
  | .putAvailable _ [] => some (.ok false)
  | .available [] => some (.ok [])
  | _ => none

theorem mem_containers_self (c : Container) (call : Call α) : c ∈ call.containers c := by
  cases call <;> exact List.mem_cons_self

theorem badPath?_ne_disabled :
    badPath? path ≠ (some (.error .disabled) : Option (Except ContainerError α)) := by
  unfold badPath?
  cases Path.parse path with
  | ok steps => exact nofun
  | error e => exact nofun

theorem early?_ne_disabled (call : Call α) : call.early? ≠ some (.error .disabled) := by
  cases call with
  | classification path | isRequired path | isOptional path | isComputed path | typeOf path =>
    exact badPath?_ne_disabled
  | putAvailable record paths => cases paths <;> exact nofun
  | available paths => cases paths <;> exact nofun
  | _ => exact nofun

end Call

/-! ## Before the schema is looked for

An early answer is the same for every container. -/

theorem parsePath_bind_of_badPath {next : Path → Except ContainerError α}
    {result : Except ContainerError α} (h : Call.badPath? path = some result) :
    (parsePath path >>= next) = result := by
  unfold Call.badPath? at h
  unfold parsePath
  cases hparse : Path.parse path with
  | ok steps =>
    rw [hparse] at h
    cases h
  | error e =>
    rw [hparse] at h
    cases h
    rfl

theorem carries_of_badPath {result : Except ContainerError Bool}
    (h : Call.badPath? path = some result) (c : Container) (flag : Flag) :
    c.carries flag path = result := by
  rw [carries, classification, bind_assoc]
  exact parsePath_bind_of_badPath h

theorem answer_of_early {call : Call α} {result : Except ContainerError α}
    (h : call.early? = some result) (c : Container) : call.answer c = result := by
  cases call with
  | classification path | typeOf path => exact parsePath_bind_of_badPath h
  | isRequired path | isOptional path | isComputed path => exact carries_of_badPath h c _
  | putAvailable record paths =>
    cases paths with
    | nil =>
      cases h
      rfl
    | cons path rest => cases h
  | available paths =>
    cases paths with
    | nil =>
      cases h
      rfl
    | cons path rest => cases h
  | _ => cases h

/-! ## Without a schema -/

theorem exists_parsePath_ok
    (h : Call.badPath? path = (none : Option (Except ContainerError α))) :
    ∃ steps, parsePath path = .ok steps := by
  unfold Call.badPath? at h
  unfold parsePath
  cases hparse : Path.parse path with
  | ok steps => exact ⟨steps, rfl⟩
  | error e =>
    rw [hparse] at h
    cases h

theorem classification_unbound {steps : Path} (h : parsePath path = .ok steps)
    (values : ValueTable) : (unbound values).classification path = .error .disabled := by
  rw [classification, h]
  rfl

theorem carries_unbound {steps : Path} (h : parsePath path = .ok steps) (values : ValueTable)
    (flag : Flag) : (unbound values).carries flag path = .error .disabled := by
  rw [carries, classification_unbound h]
  rfl

theorem typeOf_unbound {steps : Path} (h : parsePath path = .ok steps) (values : ValueTable) :
    (unbound values).typeOf path = .error .disabled := by
  rw [typeOf, h]
  rfl

theorem copyTo_unbound (c : Container) (values : ValueTable) :
    c.copyTo (unbound values) = .error .disabled := by
  obtain ⟨own, entity?⟩ := c
  cases entity? with
  | none => rfl
  | some entity => rfl

theorem difference_unbound (c : Container) (values : ValueTable) (combination : Combination)
    (fields : Option (List String)) (filters : List FieldFilter) :
    c.difference (unbound values) combination fields filters = .error .disabled := by
  obtain ⟨own, entity?⟩ := c
  cases entity? with
  | none => rfl
  | some entity => rfl

/-- The first of the paths is refused, so nothing is put into the record. -/
theorem putAvailable_unbound (values : ValueTable) (record : Record) (paths : List String) :
    ((unbound values).putAvailable record paths).1 = record := by
  cases paths with
  | nil => rfl
  | cons path rest => rfl

theorem answer_of_unbound {call : Call α} (h : unbound values ∈ call.containers c)
    (hearly : call.early? = none) : call.answer c = .error .disabled := by
  cases call with
  | copyTo target =>
    rcases List.mem_pair.mp h with rfl | rfl
    · rfl
    · show (c.copyTo (unbound values)).map _ = _
      rw [copyTo_unbound]
      rfl
  | difference other combination fields filters =>
    rcases List.mem_pair.mp h with rfl | rfl
    · rfl
    · exact difference_unbound c values combination fields filters
  | classification path =>
    obtain rfl := List.mem_singleton.mp h
    obtain ⟨steps, hsteps⟩ := exists_parsePath_ok hearly
    exact classification_unbound hsteps values
  | isRequired path | isOptional path | isComputed path =>
    obtain rfl := List.mem_singleton.mp h
    obtain ⟨steps, hsteps⟩ := exists_parsePath_ok hearly
    exact carries_unbound hsteps values _
  | typeOf path =>
    obtain rfl := List.mem_singleton.mp h
    obtain ⟨steps, hsteps⟩ := exists_parsePath_ok hearly
    exact typeOf_unbound hsteps values
  | putAvailable record paths =>
    obtain rfl := List.mem_singleton.mp h
    cases paths with
    | nil => cases hearly
    | cons path rest => rfl
  | available paths =>
    obtain rfl := List.mem_singleton.mp h
    cases paths with
    | nil => cases hearly
    | cons path rest => rfl
  -- all others look for the schema first
  | _ =>
    obtain rfl := List.mem_singleton.mp h
    rfl

theorem after_of_unbound {call : Call α} (h : unbound values ∈ call.containers c) :
    call.after c = c := by
  cases call with
  | set path raw | setOrAdd name raw | fill record =>
    obtain rfl := List.mem_singleton.mp h
    rfl
  | _ => rfl

theorem argumentsAfter_of_unbound {call : Call α} (h : unbound values ∈ call.containers c) :
    call.argumentsAfter c = call := by
  cases call with
  | copyTo target =>
    rcases List.mem_pair.mp h with rfl | rfl
    · rfl
    · show Call.copyTo ((c.copyTo (unbound values)).toOption.getD _) = _
      rw [copyTo_unbound]
      rfl
  | putAvailable record paths =>
    obtain rfl := List.mem_singleton.mp h
    show Call.putAvailable ((unbound values).putAvailable record paths).1 paths = _
    rw [putAvailable_unbound]
  | _ => rfl

/-! ## With schemas -/

theorem answer_served {call : Call α}
    (h : ∀ d ∈ call.containers c, ∃ entity, d.entity? = some entity) :
    Served (call.answer c) := by
  obtain ⟨entity, hc⟩ := h c (call.mem_containers_self c)
  cases call with
  | entity => exact served_entity hc
  | get path => exact served_get hc path
  | readString path | readBool path | readFloat64 path | readObject path | readList path
  | readSet path => exact served_read hc _ _ path
  | readInt64 path => exact served_readInt64 hc path
  | isNull path | isUnknown path | isKnown path =>
    exact (served_get hc path).bind fun _ => served_ok _
  | set path raw => exact (served_set hc path raw).map _
  | setOrAdd name raw => exact (served_setOrAdd hc name raw).map _
  | fill record => exact served_fill hc record
  | copyTo target =>
    obtain ⟨entity', htarget⟩ := h target (List.mem_cons_of_mem _ List.mem_cons_self)
    exact (served_copyTo hc htarget).map _
  | toItems path => exact served_toItems hc path
  | toRecord path => exact served_toRecord hc path
  | putAvailable record paths => exact served_putAvailable hc record paths
  | available paths => exact served_available hc paths
  | classification path => exact served_classification hc path
  | isRequired path | isOptional path | isComputed path => exact served_carries hc _ path
  | typeOf path => exact served_typeOf hc path
  | filtered combination names filters => exact served_filtered hc combination names filters
  | allValues | dump => exact (served_entity hc).bind fun _ => served_ok _
  | difference other combination fields filters =>
    obtain ⟨entity', hother⟩ := h other (List.mem_cons_of_mem _ List.mem_cons_self)
    exact served_difference hc hother combination fields filters
  | searchParams => exact served_searchParams hc
  | readOnlySearchParams => exact served_filtered hc _ _ _
  | editOnlyParams | deleteOnlyParams =>
    exact (served_entity hc).bind fun _ => served_optionalAmong hc _
  | createParams => exact served_createParams hc

/-! ## All calls -/

/-- A call is refused for want of a schema just if a container without one takes part in it and the
call comes to no answer before it looks for the schema: that is, unless it asks for the declaration
at a text that is no path, or goes through no paths at all. If such a container takes part, neither
the container that is called nor an argument changes, whatever the answer is. -/
theorem refuses_iff (c : Container) (call : Call α) :
    (call.answer c = .error .disabled ↔
      (∃ values, unbound values ∈ call.containers c) ∧ call.early? = none) ∧
    ∀ values, unbound values ∈ call.containers c →
      call.answer c = call.early?.getD (.error .disabled) ∧ call.after c = c ∧
        call.argumentsAfter c = call := by
  refine ⟨⟨fun hrefused => ⟨?_, ?_⟩, ?_⟩, ?_⟩
  · by_contra hnone
    refine answer_served (fun d hd => ?_) hrefused
    obtain ⟨values, entity?⟩ := d
    cases entity? with
    | none => exact absurd ⟨values, hd⟩ hnone
    | some entity => exact ⟨entity, rfl⟩
  · cases hearly : call.early? with
    | none => rfl
    | some result =>
      rw [answer_of_early hearly] at hrefused
      rw [hrefused] at hearly
      exact absurd hearly call.early?_ne_disabled
  · rintro ⟨⟨values, hvalues⟩, hearly⟩
    exact answer_of_unbound hvalues hearly
  · intro values hvalues
    refine ⟨?_, after_of_unbound hvalues, argumentsAfter_of_unbound hvalues⟩
    cases hearly : call.early? with
    | none => exact answer_of_unbound hvalues hearly
    | some result => exact answer_of_early hearly c

/-- Nothing is copied from a host into a container without a schema. -/
theorem host_refused :
    unbound [] ∈ (Call.copyTo (unbound [])).containers (hostOf 2 8) ∧
      (Call.copyTo (unbound [])).answer (hostOf 2 8) = .error .disabled ∧
      (Call.copyTo (unbound [])).argumentsAfter (hostOf 2 8) = .copyTo (unbound []) := by
  have hmem : unbound [] ∈ (Call.copyTo (unbound [])).containers (hostOf 2 8) :=
    List.mem_cons_of_mem _ List.mem_cons_self
  obtain ⟨hrefused, hunchanged⟩ := refuses_iff (hostOf 2 8) (.copyTo (unbound []))
  exact ⟨hmem, hrefused.mpr ⟨⟨[], hmem⟩, rfl⟩, (hunchanged [] hmem).2.2⟩

/-- Not every call to a container without a schema is refused for that. A bracket that is never
closed is found before, and no paths at all have no values. -/
theorem unbound_answers_early :
    (Call.classification "a[").answer (unbound []) = .error (.badPath (.unclosedBracket 1)) ∧
      (Call.available []).answer (unbound []) = .ok [] ∧
      ¬ ∀ (values : ValueTable) {α : Type} (call : Call α),
        call.answer (unbound values) = .error .disabled := by
  refine ⟨by rfl, rfl, fun hall => ?_⟩
  have hpath : (Call.classification "a[").answer (unbound []) = .error .disabled :=
    hall [] (.classification "a[")
  cases hpath

end EntityModel.Container
