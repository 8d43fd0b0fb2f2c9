import EntityModel.Proofs.Builders
import EntityModel.Proofs.Container.Operations
import EntityModel.Proofs.Schema.Declared

/-!
# What every container keeps

A session is a run of operations on any number of containers, some of which fail. The operations
check types on the outside only and write through paths and from one container into another, yet all
of them keep one invariant of the values, at every depth.

* `Container.Sound`: the values of a container are as its entity declares them.
* `Container.set_sound` and its siblings: what one operation keeps.
* `Session.run_sound`: what a whole session keeps.
-/

namespace EntityModel

namespace Container

/-- A value as an entity declares it for one of its own attributes. -/
structure Fits (entity : Entity) (name : String) (value : Value) : Prop where
  own : entity.hasAttribute name = true
  type : entity.typeOf? name = some value.type
  wellTyped : value.WellTyped
  ordered : value.Ordered

/-- The invariant: if a container is bound, it is bound to an entity that declares its values. -/
structure Sound (c : Container) : Prop where
  bound : ∀ {entity}, c.entity? = some entity → entity.Bound
  ascending : ∀ {entity}, c.entity? = some entity → Assoc.Ascending c.values
  fits : ∀ {entity}, c.entity? = some entity →
    ∀ entry ∈ c.values, Fits entity entry.1 entry.2

/-- A later state of a container: of the same entity, with no key less. -/
structure Extends (c c' : Container) : Prop where
  entity : c'.entity? = c.entity?
  keys : ∀ key ∈ Assoc.keys c.values, key ∈ Assoc.keys c'.values

theorem Extends.refl (c : Container) : c.Extends c := ⟨rfl, fun _ h => h⟩

theorem Extends.trans {c₁ c₂ c₃ : Container} (h : c₁.Extends c₂)
    (h' : c₂.Extends c₃) :
    c₁.Extends c₃ :=
  ⟨h'.entity.trans h.entity, fun key hkey => h'.keys key (h.keys key hkey)⟩

variable {c c' : Container} {entity : Entity} {path name : String} {value : Value} {raw : Raw}
  {record : Record}

/-! ## Single writes -/

theorem Sound.put (h : c.Sound)
    (hvalue : ∀ {entity}, c.entity? = some entity → Fits entity name value) :
    (c.put name value).Sound where
  bound := h.bound
  ascending := fun hentity => Assoc.ascending_insert (h.ascending hentity)
  fits := fun hentity entry hentry => by
    rcases Assoc.mem_insert hentry with rfl | hentry
    · exact hvalue hentity
    · exact h.fits hentity entry hentry

theorem put_extends (c : Container) (name : String) (value : Value) :
    c.Extends (c.put name value) :=
  ⟨rfl, fun _ hkey => Assoc.mem_keys_insert.mpr (.inr hkey)⟩

theorem Sound.replace (h : c.Sound)
    (hvalue : ∀ {entity}, c.entity? = some entity → Fits entity name value) :
    (c.withValues (Assoc.replace name value c.values)).Sound where
  bound := h.bound
  ascending := fun hentity => Assoc.ascending_replace (h.ascending hentity)
  fits := fun hentity entry hentry => by
    rcases Assoc.mem_replace hentry with rfl | hentry
    · exact hvalue hentity
    · exact h.fits hentity entry hentry

theorem replace_extends (c : Container) (name : String) (value : Value) :
    c.Extends (c.withValues (Assoc.replace name value c.values)) :=
  ⟨rfl, fun _ hkey => (Assoc.keys_replace name value c.values).symm ▸ hkey⟩

/-- A value lifted for an own attribute is as the entity declares it. -/
theorem fits_of_liftAt (hbound : entity.Bound) {type : ValueType}
    (hown : entity.hasAttribute name = true) (htype : entity.typeOf? name = some type)
    (hraw : raw.Ordered) (h : liftAt type raw path = .ok value) : Fits entity name value := by
  obtain ⟨heq, hwell⟩ := liftAt_typed h
  exact ⟨hown, heq ▸ htype, hwell, liftAt_ordered (hbound.typeOf?_ordered htype) hraw h⟩

/-! ## New containers -/

theorem create_sound {values : ValueTable} (hbound : entity.Bound)
    (hasc : Assoc.Ascending values) (hmade : ∀ entry ∈ values, entry.2.Made)
    (h : create entity values = .ok c) : c.Sound := by
  obtain ⟨hcheck, rfl⟩ := create_ok.mp h
  refine ⟨fun heq => ?_, fun _ => hasc, fun heq entry hentry => ?_⟩ <;> cases heq
  · exact hbound
  · obtain ⟨hown, htype⟩ := checkValues_ok.mp hcheck entry hentry
    exact ⟨hown, htype, (hmade entry hentry).wellTyped, (hmade entry hentry).ordered⟩

theorem ofRecord_sound (hbound : entity.Bound) (hrecord : record.Ordered)
    (h : ofRecord entity record = .ok c) : c.Sound := by
  obtain ⟨values, hvalues, rfl⟩ := ofRecord_ok.mp h
  obtain ⟨hkeys, hlifted⟩ := liftRecord_ok hvalues
  refine ⟨fun heq => ?_, fun heq => ?_, fun heq entry hentry => ?_⟩ <;> cases heq
  · exact hbound
  · exact hbound.topLevel_ascending.of_keys hkeys
  · obtain ⟨type, hmem, hlift⟩ := hlifted entry hentry
    obtain ⟨hown, htype⟩ := hbound.mem_topLevel.mp hmem
    have hraw := Record.at_ordered (Raw.entriesOrdered_iff.mp hrecord.2) entry.1
    exact fits_of_liftAt hbound hown htype hraw hlift

theorem ofJson_sound {json : Json} (hbound : entity.Bound) (hjson : json.Ordered)
    (h : ofJson entity json = .ok c) : c.Sound := by
  obtain ⟨record, hrecord, h⟩ := ofJson_ok.mp h
  exact ofRecord_sound hbound (recordOf_ordered hjson hrecord) h

theorem unbound_sound (values : ValueTable) : (unbound values).Sound :=
  ⟨nofun, nofun, nofun⟩

/-! ## Changes -/

/-- Whatever stands at the end of a path gives way to a value of its own type only. -/
theorem change_lift {first new : Value} {walked : Path} {segments : List Segment}
    (hraw : raw.Ordered) (hwell : first.WellTyped) (hordered : first.Ordered)
    (h : first.change .resolution (fun value => liftFor path raw value.type) walked segments =
      .ok new) : (new.WellTyped ∧ new.Ordered) ∧ new.type = first.type := by
  refine Value.change_keeps (P := fun value => value.WellTyped ∧ value.Ordered) ?_ ?_ ?_
    ⟨hwell, hordered⟩ h
  · intro value part segment hvalue hpart
    exact ⟨Value.child_wellTyped hvalue.1 hpart, Value.child_ordered hvalue.2 hpart⟩
  · intro value part new segment hvalue hpart hnew htype
    exact ⟨Value.withChild_wellTyped hvalue.1 hpart hnew.1 htype,
      Value.withChild_ordered hvalue.2 hpart hnew.2⟩
  · intro value new hvalue hnew
    obtain ⟨htype, hlifted⟩ := liftAt_typed (liftFor_ok.mp hnew)
    exact ⟨⟨hlifted, liftAt_ordered hvalue.2.type_ordered hraw (liftFor_ok.mp hnew)⟩, htype⟩

theorem set_sound (hc : c.Sound) (hraw : raw.Ordered) (h : c.set path raw = .ok c') :
    c'.Sound := by
  obtain ⟨entity, hentity, steps, -, h⟩ := set_ok.mp h
  split at h
  · -- a whole value is lifted to the declared type, not to the type of the value in its place
    obtain ⟨type, ⟨htype, hhas⟩, value, hlift, rfl⟩ := h
    obtain ⟨entry, hentry, rfl⟩ := List.mem_map.mp (Assoc.has_iff.mp hhas)
    refine hc.put fun heq => ?_
    cases hentity.symm.trans heq
    have hown := (hc.fits hentity entry hentry).own
    exact fits_of_liftAt (hc.bound hentity) hown htype hraw hlift
  · obtain ⟨values, hupdate, rfl⟩ := h
    obtain ⟨name, first, rest, -, hget, new, hchange, rfl⟩ := update_ok.mp hupdate
    have hfirst := hc.fits hentity _ (Assoc.mem_of_get? hget)
    obtain ⟨⟨hwell, hordered⟩, htype⟩ :=
      change_lift hraw hfirst.wellTyped hfirst.ordered hchange
    refine hc.replace fun heq => ?_
    cases hentity.symm.trans heq
    exact ⟨hfirst.own, htype ▸ hfirst.type, hwell, hordered⟩

theorem set_extends (h : c.set path raw = .ok c') : c.Extends c' := by
  obtain ⟨entity, -, steps, -, h⟩ := set_ok.mp h
  split at h
  · obtain ⟨type, -, value, -, rfl⟩ := h
    exact put_extends c path value
  · obtain ⟨values, hupdate, rfl⟩ := h
    obtain ⟨name, first, rest, -, -, new, -, rfl⟩ := update_ok.mp hupdate
    exact replace_extends c name new

theorem setOrAdd_sound (hc : c.Sound) (hraw : raw.Ordered) (h : c.setOrAdd name raw = .ok c') :
    c'.Sound := by
  obtain ⟨entity, hentity, type, ⟨htype, hown⟩, value, hlift, rfl⟩ := setOrAdd_ok.mp h
  refine hc.put fun heq => ?_
  cases hentity.symm.trans heq
  exact fits_of_liftAt (hc.bound hentity) hown htype hraw hlift

theorem setOrAdd_extends (h : c.setOrAdd name raw = .ok c') : c.Extends c' := by
  obtain ⟨entity, -, type, -, value, -, rfl⟩ := setOrAdd_ok.mp h
  exact put_extends c name value

/-- Filling keeps the invariant also when it ends half way with a fault. -/
theorem fill_sound (hc : c.Sound) (hrecord : record.Ordered) : (c.fill record).1.Sound := by
  refine (fill_keeps (P := fun done => done.entity? = c.entity? ∧ done.Sound) ?_ ⟨rfl, hc⟩).2
  intro entity done entry type value hentity ⟨hsame, hdone⟩ hentry htype hlift
  obtain ⟨htype, hown, -⟩ := computedType?_eq_some.mp htype
  refine ⟨hsame, hdone.put fun heq => ?_⟩
  cases (hsame.trans hentity).symm.trans heq
  have hraw := Raw.entriesOrdered_iff.mp hrecord.2 entry hentry
  exact fits_of_liftAt (hc.bound hentity) hown htype hraw hlift

theorem fill_extends (c : Container) (record : Record) : c.Extends (c.fill record).1 :=
  fill_keeps (P := c.Extends) (fun _ hdone _ _ _ => hdone.trans (put_extends _ _ _)) (.refl c)

/-- A key of the source is a name without points, so what the target declares under it is one of the
target's own attributes. -/
theorem copyTo_sound {target : Container} (hc : c.Sound) (htarget : target.Sound)
    (h : c.copyTo target = .ok c') : c'.Sound := by
  refine (copyTo_keeps (P := fun done => done.entity? = target.entity? ∧ done.Sound) ?_
    ⟨rfl, htarget⟩ h).2
  intro source entity done entry hsource hentity ⟨hsame, hdone⟩ hentry _ htype
  have hentry := hc.fits hsource entry hentry
  refine ⟨hsame, hdone.put fun heq => ?_⟩
  cases (hsame.trans hentity).symm.trans heq
  have htop : Introspection.isTopLevel entry.1 = true := by
    have hown := hentry.own
    rw [Entity.hasAttribute, Bool.and_eq_true] at hown
    exact hown.1
  exact ⟨by simp [Entity.hasAttribute, htop, htype], htype, hentry.wellTyped, hentry.ordered⟩

theorem copyTo_extends {target : Container} (h : c.copyTo target = .ok c') :
    target.Extends c' :=
  copyTo_keeps (P := target.Extends) (fun _ _ hdone _ _ _ => hdone.trans (put_extends _ _ _))
    (.refl target) h

end Container

/-! ## Sessions -/

/-- An operation of a session; containers go by their positions. -/
inductive Operation where
  | create (entity : Entity) (values : ValueTable)
  | ofRecord (entity : Entity) (record : Record)
  | ofJson (entity : Entity) (json : Json)
  | unbound (values : ValueTable)
  | set (target : Nat) (path : String) (raw : Raw)
  | setOrAdd (target : Nat) (name : String) (raw : Raw)
  | fill (target : Nat) (record : Record)
  | copyTo (source target : Nat)

/-- What an operation is given: bound entities, made values, and tables in ascending order. -/
def Operation.Admissible : Operation → Prop
  | .create entity values =>
    entity.Bound ∧ Assoc.Ascending values ∧ ∀ entry ∈ values, entry.2.Made
  | .ofRecord entity record => entity.Bound ∧ record.Ordered
  | .ofJson entity json => entity.Bound ∧ json.Ordered
  | .set _ _ raw | .setOrAdd _ _ raw => raw.Ordered
  | .fill _ record => record.Ordered
  | .unbound _ | .copyTo _ _ => True

/-- Containers in the order in which they were made. -/
abbrev Session := List Container

namespace Session

variable {c : Container} {session : Session} {operation : Operation} {operations : List Operation}

/-- Adds a new container, unless making it failed. -/
def add (session : Session) : Except ContainerError Container → Session
  | .ok c => session ++ [c]
  | .error _ => session

/-- Changes a container; if the change fails, it stays as it was. -/
def attempt (session : Session) (target : Nat)
    (f : Container → Except ContainerError Container) : Session :=
  session.modify target fun c => (f c).toOption.getD c

/-- The session after an operation. -/
def step (session : Session) : Operation → Session
  | .create entity values => session.add (Container.create entity values)
  | .ofRecord entity record => session.add (Container.ofRecord entity record)
  | .ofJson entity json => session.add (Container.ofJson entity json)
  | .unbound values => session.add (.ok (Container.unbound values))
  | .set target path raw => session.attempt target (·.set path raw)
  | .setOrAdd target name raw => session.attempt target (·.setOrAdd name raw)
  | .fill target record => session.modify target fun c => (c.fill record).1
  | .copyTo source target =>
    match session[source]? with
    | some c => session.attempt target c.copyTo
    | none => session

/-- The session after operations one after the other. -/
def run (session : Session) (operations : List Operation) : Session := operations.foldl step session

/-! What a step does to all containers follows from what it does to each. -/

theorem forall_add {P : Container → Prop} {result : Except ContainerError Container}
    (hsession : ∀ c ∈ session, P c) (hresult : ∀ c, result = .ok c → P c) :
    ∀ c ∈ session.add result, P c := by
  cases result with
  | ok c => simpa [add, or_imp, forall_and] using ⟨hsession, hresult c rfl⟩
  | error e => exact hsession

theorem forall_modify {P : Container → Prop} {target : Nat} {f : Container → Container}
    (hsession : ∀ c ∈ session, P c) (hf : ∀ c, P c → P (f c)) :
    ∀ c ∈ session.modify target f, P c := by
  intro c hc
  obtain ⟨i, hi⟩ := List.mem_iff_getElem?.mp hc
  rw [List.getElem?_modify] at hi
  obtain ⟨old, hold, rfl⟩ := Option.map_eq_some_iff.mp hi
  have hkept := hsession old (List.mem_of_getElem? hold)
  split
  · exact hf old hkept
  · exact hkept

theorem forall_attempt {P : Container → Prop} {target : Nat}
    {f : Container → Except ContainerError Container} (hsession : ∀ c ∈ session, P c)
    (hf : ∀ c c', P c → f c = .ok c' → P c') : ∀ c ∈ session.attempt target f, P c := by
  refine forall_modify hsession fun c hc => ?_
  cases hresult : f c with
  | ok c' => exact hf c c' hc hresult
  | error e => exact hc

theorem step_sound (hsession : ∀ c ∈ session, c.Sound) (h : operation.Admissible) :
    ∀ c ∈ session.step operation, c.Sound := by
  cases operation with
  | create entity values =>
    obtain ⟨hbound, hasc, hmade⟩ := h
    exact forall_add hsession fun c => Container.create_sound hbound hasc hmade
  | ofRecord entity record =>
    exact forall_add hsession fun c => Container.ofRecord_sound h.1 h.2
  | ofJson entity json => exact forall_add hsession fun c => Container.ofJson_sound h.1 h.2
  | unbound values =>
    change ∀ c ∈ session.add (.ok (Container.unbound values)), c.Sound
    refine forall_add hsession fun c heq => ?_
    cases heq
    exact Container.unbound_sound values
  | set target path raw => exact forall_attempt hsession fun c c' hc => Container.set_sound hc h
  | setOrAdd target name raw =>
    exact forall_attempt hsession fun c c' hc => Container.setOrAdd_sound hc h
  | fill target record => exact forall_modify hsession fun c hc => Container.fill_sound hc h
  | copyTo source target =>
    rw [step]
    split
    · next c hc =>
      have hsource := hsession c (List.mem_of_getElem? hc)
      exact forall_attempt hsession fun t t' ht => Container.copyTo_sound hsource ht
    · exact hsession

/-- A later session: every container is still there, of the same entity and with no key less. -/
def Extends (session later : Session) : Prop :=
  ∀ (i : Nat) c, session[i]? = some c → ∃ c', later[i]? = some c' ∧ c.Extends c'

theorem add_extends (session : Session) (result : Except ContainerError Container) :
    session.Extends (session.add result) := by
  intro i c hc
  refine ⟨c, ?_, .refl c⟩
  cases result with
  | ok new => exact List.getElem?_append_left (List.getElem?_eq_some_iff.mp hc).1 ▸ hc
  | error e => exact hc

theorem modify_extends {f : Container → Container} (hf : ∀ c : Container, c.Extends (f c))
    (session : Session)
    (target : Nat) : session.Extends (session.modify target f) := by
  intro i c hc
  refine ⟨if target = i then f c else c, by simp [List.getElem?_modify, hc], ?_⟩
  split
  · exact hf c
  · exact .refl c

theorem attempt_extends {f : Container → Except ContainerError Container}
    (hf : ∀ (c : Container) c', f c = .ok c' → c.Extends c') (session : Session)
    (target : Nat) :
    session.Extends (session.attempt target f) := by
  refine modify_extends (fun c => ?_) session target
  cases hresult : f c with
  | ok c' => exact hf c c' hresult
  | error e => exact .refl c

theorem step_extends (session : Session) (operation : Operation) :
    session.Extends (session.step operation) := by
  cases operation with
  | create | ofRecord | ofJson => exact add_extends session _
  | unbound values => exact add_extends session (.ok (Container.unbound values))
  | set target path raw => exact attempt_extends (fun _ _ => Container.set_extends) session target
  | setOrAdd target name raw =>
    exact attempt_extends (fun _ _ => Container.setOrAdd_extends) session target
  | fill target record => exact modify_extends (fun c => c.fill_extends record) session target
  | copyTo source target =>
    rw [step]
    split
    · exact attempt_extends (fun _ _ => Container.copyTo_extends) session target
    · exact fun i c hc => ⟨c, hc, .refl c⟩

theorem run_extends (session : Session) (operations : List Operation) :
    session.Extends (session.run operations) := by
  induction operations generalizing session with
  | nil => exact fun i c hc => ⟨c, hc, .refl c⟩
  | cons operation rest ih =>
    -- containers keep their positions, so a container is followed by its position
    intro i c hc
    obtain ⟨c₁, hc₁, hfirst⟩ := step_extends session operation i c hc
    obtain ⟨c₂, hc₂, hrest⟩ := ih (session.step operation) i c₁ hc₁
    exact ⟨c₂, hc₂, hfirst.trans hrest⟩

theorem run_sound_from (hsession : ∀ c ∈ session, c.Sound)
    (h : ∀ operation ∈ operations, operation.Admissible) :
    ∀ c ∈ session.run operations, c.Sound := by
  induction operations generalizing session with
  | nil => exact hsession
  | cons operation rest ih =>
    rw [List.forall_mem_cons] at h
    exact ih (step_sound hsession h.1) h.2

/-- Whatever operations a session is made of, whether they succeed or fail, every container holds
values as its entity declares them, at every depth, and none ever loses a key. -/
theorem run_sound (operations more : List Operation)
    (h : ∀ operation ∈ operations, operation.Admissible) :
    (∀ c ∈ run [] operations, c.Sound) ∧
      (run [] operations).Extends (run [] (operations ++ more)) := by
  refine ⟨run_sound_from (by simp) h, ?_⟩
  rw [run, run, List.foldl_append]
  exact run_extends _ more

/-- A vault with one rule. -/
def vaultRecord (token : String) : Record :=
  [("name", .string "main"), ("rules", .list [.map [("token", .string token)]])]

theorem vaultRecord_ordered (token : String) : (vaultRecord token).Ordered := by
  have hkeys : ["name", "rules"].Pairwise (· < ·) := by decide
  exact ⟨Assoc.ascending_iff.mpr hkeys,
    by simp [vaultRecord, Raw.EntriesOrdered, Raw.Ordered, Raw.ItemsOrdered]⟩

/-- Two vaults; the token of a rule of the first changes before its values go to the second. -/
def vaultOperations : List Operation :=
  [.ofRecord vault (vaultRecord "s3"),
    .create vault [("rules", .null (.list (.object [("token", .string)])))],
    .set 0 "rules[0].token" (.int 7),
    .copyTo 0 1]

theorem vaultOperations_admissible :
    ∀ operation ∈ vaultOperations, operation.Admissible := by
  have hmade : (Value.null (.list (.object [("token", .string)]))).Made :=
    .null (by simp [ValueType.Ordered, ValueType.FieldsOrdered])
  simp [vaultOperations, Operation.Admissible, vault_bound, hmade, vaultRecord_ordered, Raw.Ordered]

theorem run_vaultOperations :
    (∀ operation ∈ vaultOperations, operation.Admissible) ∧
      (∀ c ∈ run [] vaultOperations, c.Sound) ∧
        (run [] vaultOperations).Extends (run [] (vaultOperations ++ [.unbound []])) :=
  ⟨vaultOperations_admissible, run_sound vaultOperations _ vaultOperations_admissible⟩

end Session

/-- A container of some session. -/
def Container.Reachable (c : Container) : Prop :=
  ∃ operations : List Operation, (∀ operation ∈ operations, operation.Admissible) ∧
    c ∈ Session.run [] operations

theorem Container.Reachable.sound {c : Container} (h : c.Reachable) : c.Sound := by
  obtain ⟨operations, hoperations, hc⟩ := h
  exact Session.run_sound_from (by simp) hoperations c hc

/-- The container of such a record. -/
def Container.vaultOf (token : String) : Container :=
  ⟨[("name", .string "main"),
    ("rules", .list (.object [("token", .string)])
      [.object [("token", .string)] [("token", .string token)]])], some vault⟩

theorem Container.vaultOf_reachable (token : String) : (vaultOf token).Reachable := by
  refine ⟨[.ofRecord vault (Session.vaultRecord token)], ?_, List.mem_singleton.mpr rfl⟩
  simpa [Operation.Admissible] using ⟨vault_bound, Session.vaultRecord_ordered token⟩

end EntityModel
