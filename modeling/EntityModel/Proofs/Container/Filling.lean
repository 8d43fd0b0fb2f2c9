import EntityModel.Proofs.Container.Session

/-!
# Filling from a record

Filling sets the computed fields of a record one after the other. If all their raw values can be
read, every such field is set and nothing else changes. If one cannot be read, filling stops there,
and the fields that come before it in the record keep what they were set to.

* `Fills`, `Filled`: which fields a record sets, and what a container holds then.
* `fillEntry`, `Filled.cons`: what one entry adds.
* `fillEntries_filled`: a run that succeeds sets all of them.
* `fillEntries_error`: a run that fails sets those before the one that cannot be read.
* `fill_unchanged_iff`: the outcome, and when a failure leaves the container as it was.
* `host_fill`: a failure that does not.
-/

namespace EntityModel.Container

variable {c c' : Container} {entity : Entity} {name : String} {raw : Raw} {type : ValueType}
  {record before after : Record}

/-- A record sets a field: it has an entry under the name of one of the entity's own attributes,
and the attribute is computed. -/
structure Fills (entity : Entity) (record : Record) (name : String) (raw : Raw)
    (type : ValueType) : Prop where
  entry : Assoc.get? record name = some raw
  type : entity.typeOf? name = some type
  own : entity.hasAttribute name = true
  computed : ∃ flags, entity.classificationOf? name = some flags ∧ flags.computed = true

/-- What a container holds after a record has filled it: the fields that the record sets, as values
of their declared types, and for the rest what it held before. -/
structure Filled (entity : Entity) (record : Record) (c c' : Container) : Prop where
  set : ∀ {name raw type}, Fills entity record name raw type →
    ∃ value, lift type raw = .ok value ∧ Assoc.get? c'.values name = some value
  rest : ∀ {name}, (∀ raw type, ¬ Fills entity record name raw type) →
    Assoc.get? c'.values name = Assoc.get? c.values name

theorem fills_iff :
    Fills entity record name raw type ↔
      Assoc.get? record name = some raw ∧ computedType? entity name = some type := by
  rw [computedType?_eq_some]
  constructor
  · rintro ⟨hentry, htype, hown, hcomputed⟩
    exact ⟨hentry, htype, hown, hcomputed⟩
  · rintro ⟨hentry, htype, hown, hcomputed⟩
    exact ⟨hentry, htype, hown, hcomputed⟩

/-- What an entry sets, and what the entries behind it set. -/
theorem fills_cons {key : String} {first : Raw} {rest : Record} :
    Fills entity ((key, first) :: rest) name raw type ↔
      (name = key ∧ first = raw ∧ computedType? entity key = some type) ∨
        name ≠ key ∧ Fills entity rest name raw type := by
  rw [fills_iff, fills_iff, Assoc.get?_cons]
  by_cases h : name = key
  · subst h
    simp
  · simp [h]

/-! ## One entry -/

section Entry

variable {next : Container} {key : String} {first : Raw} {rest : Record} {own : ValueType}
  {value : Value} {e : ContainerError}

/-- The container after one entry of a record. -/
def fillEntry (entity : Entity) (c : Container) (key : String) (first : Raw) :
    Except ContainerError Container :=
  match computedType? entity key with
  | none => .ok c
  | some own => (liftFor key first own).map (c.put key)

theorem fillEntries_cons (entity : Entity) (c : Container) (key : String) (first : Raw)
    (rest : Record) :
    fillEntries entity c ((key, first) :: rest) =
      match fillEntry entity c key first with
      | .ok next => fillEntries entity next rest
      | .error e => (c, .error e) := by
  rw [fillEntries, fillEntry]
  cases computedType? entity key with
  | none => rfl
  | some own =>
    dsimp only
    cases liftFor key first own with
    | error e => rfl
    | ok value => rfl

theorem fillEntry_error (h : fillEntry entity c key first = .error e) :
    ∃ own fault, computedType? entity key = some own ∧ liftAt own first key = .error fault ∧
      e = .conversion fault := by
  unfold fillEntry at h
  cases htype : computedType? entity key with
  | none =>
    rw [htype] at h
    cases h
  | some own =>
    rw [htype] at h
    dsimp only at h
    cases hlift : liftAt own first key with
    | error fault =>
      rw [liftFor, hlift, renamed_error] at h
      cases h
      exact ⟨own, fault, rfl, hlift, rfl⟩
    | ok value =>
      rw [liftFor, hlift, renamed_ok] at h
      cases h

/-- The entries behind one have other names. -/
theorem not_fills_behind (hasc : Assoc.Ascending ((key, first) :: rest)) (raw : Raw)
    (type : ValueType) : ¬ Fills entity rest key raw type := by
  intro hfills
  obtain ⟨hfirst, -⟩ := List.pairwise_cons.mp hasc
  exact String.lt_irrefl key (hfirst _ (Assoc.mem_of_get? hfills.entry))

/-- An entry that sets no field adds nothing to what the entries behind it set. -/
theorem Filled.skip (h : Filled entity rest c c') (hnone : computedType? entity key = none)
    (hlater : ∀ raw type, ¬ Fills entity rest key raw type) :
    Filled entity ((key, first) :: rest) c c' := by
  have hsame : ∀ {name raw type}, Fills entity ((key, first) :: rest) name raw type ↔
      Fills entity rest name raw type := by
    intro name raw type
    rw [fills_cons, hnone]
    constructor
    · rintro (⟨-, -, htype⟩ | ⟨-, hfills⟩)
      · cases htype
      · exact hfills
    · intro hfills
      refine .inr ⟨?_, hfills⟩
      rintro rfl
      exact hlater raw type hfills
  constructor
  · intro name raw type hfills
    exact h.set (hsame.mp hfills)
  · intro name hrest
    exact h.rest fun raw type hfills => hrest raw type (hsame.mpr hfills)

/-- What an entry sets stays, as the entries behind it set other fields. -/
theorem Filled.put (h : Filled entity rest (c.put key value) c')
    (htype : computedType? entity key = some own) (hvalue : lift own first = .ok value)
    (hlater : ∀ raw type, ¬ Fills entity rest key raw type) :
    Filled entity ((key, first) :: rest) c c' := by
  have hput : ∀ name, Assoc.get? (c.put key value).values name =
      if name = key then some value else Assoc.get? c.values name :=
    fun name => Assoc.get?_insert key name value c.values
  constructor
  · intro name raw type hfills
    rcases fills_cons.mp hfills with ⟨rfl, rfl, hown⟩ | ⟨-, hfills⟩
    · cases htype.symm.trans hown
      refine ⟨value, hvalue, ?_⟩
      rw [h.rest hlater, hput, if_pos rfl]
    · exact h.set hfills
  · intro name hnone
    have hne : name ≠ key := by
      rintro rfl
      exact hnone first own (fills_cons.mpr (.inl ⟨rfl, rfl, htype⟩))
    have hrest : ∀ raw type, ¬ Fills entity rest name raw type := fun raw type hfills =>
      hnone raw type (fills_cons.mpr (.inr ⟨hne, hfills⟩))
    rw [h.rest hrest, hput, if_neg hne]

/-- One entry and then the entries behind it fill a container as the whole record does. -/
theorem Filled.cons (hasc : Assoc.Ascending ((key, first) :: rest))
    (hstep : fillEntry entity c key first = .ok next) (h : Filled entity rest next c') :
    Filled entity ((key, first) :: rest) c c' := by
  unfold fillEntry at hstep
  cases htype : computedType? entity key with
  | none =>
    rw [htype] at hstep
    cases hstep
    exact h.skip htype (not_fills_behind hasc)
  | some own =>
    rw [htype] at hstep
    obtain ⟨value, hlift, rfl⟩ := map_ok_iff.mp hstep
    have hvalue : lift own first = .ok value := lift_ok_iff.mpr (liftFor_ok.mp hlift)
    exact h.put htype hvalue (not_fills_behind hasc)

end Entry

/-! ## One run -/

theorem fillEntries_filled (hasc : Assoc.Ascending record)
    (h : fillEntries entity c record = (c', .ok ())) : Filled entity record c c' := by
  induction record generalizing c with
  | nil =>
    cases h
    exact ⟨fun hfills => absurd hfills.entry nofun, fun _ => rfl⟩
  | cons entry rest ih =>
    obtain ⟨key, first⟩ := entry
    have hrest : Assoc.Ascending rest := (List.pairwise_cons.mp hasc).2
    rw [fillEntries_cons] at h
    cases hstep : fillEntry entity c key first with
    | error e =>
      rw [hstep] at h
      cases h
    | ok next =>
      rw [hstep] at h
      exact (ih hrest h).cons hasc hstep

/-- A run that fails has done with all entries before the one that cannot be read. -/
theorem fillEntries_error {e : ContainerError} (h : fillEntries entity c record = (c', .error e)) :
    ∃ before name raw after type fault, record = before ++ (name, raw) :: after ∧
      computedType? entity name = some type ∧ liftAt type raw name = .error fault ∧
        e = .conversion fault ∧ fillEntries entity c before = (c', .ok ()) := by
  induction record generalizing c with
  | nil => cases h
  | cons entry rest ih =>
    obtain ⟨key, first⟩ := entry
    rw [fillEntries_cons] at h
    cases hstep : fillEntry entity c key first with
    | error e' =>
      rw [hstep] at h
      cases h
      obtain ⟨own, fault, htype, hfault, he⟩ := fillEntry_error hstep
      exact ⟨[], key, first, rest, own, fault, rfl, htype, hfault, he, rfl⟩
    | ok next =>
      rw [hstep] at h
      obtain ⟨before, name, raw, after, type, fault, rfl, htype, hfault, he, hbefore⟩ := ih h
      refine ⟨(key, first) :: before, name, raw, after, type, fault, rfl, htype, hfault, he, ?_⟩
      rw [fillEntries_cons, hstep]
      exact hbefore

theorem fill_eq (hentity : c.entity? = some entity) (record : Record) :
    c.fill record = fillEntries entity c record := by
  have hbound : c.entity = .ok entity := entity_ok.mpr hentity
  rw [fill, hbound]

/-- Filled containers that hold no more than before are those that held it already. -/
theorem Filled.values_eq_iff (h : Filled entity record c c') (hasc : Assoc.Ascending c.values)
    (hasc' : Assoc.Ascending c'.values) :
    c'.values = c.values ↔ ∀ name raw type value, Fills entity record name raw type →
      lift type raw = .ok value → Assoc.get? c.values name = some value := by
  constructor
  · intro heq name raw type value hfills hvalue
    obtain ⟨own, hown, hget⟩ := h.set hfills
    cases hvalue.symm.trans hown
    rwa [heq] at hget
  · intro hheld
    apply hasc'.ext hasc
    intro name
    by_cases hfills : ∃ raw type, Fills entity record name raw type
    · obtain ⟨raw, type, hfills⟩ := hfills
      obtain ⟨value, hvalue, hget⟩ := h.set hfills
      rw [hget, hheld name raw type value hfills hvalue]
    · exact h.rest fun raw type hsets => hfills ⟨raw, type, hsets⟩

/-- Filling fails just where the record sets a field that cannot be read, with the fault of the
first one. If it succeeds, the record has filled the container. If it fails, the entries before the
fault have filled it, and the values are what they were before just if the container held all of
that already. -/
theorem fill_unchanged_iff (hc : c.Reachable) (hentity : c.entity? = some entity)
    (hrecord : record.Ordered) :
    ((∃ e, (c.fill record).2 = .error e) ↔
      ∃ name raw type, Fills entity record name raw type ∧
        ∀ value, lift type raw ≠ .ok value) ∧
    ((c.fill record).2 = .ok () → Filled entity record c (c.fill record).1) ∧
    ∀ e, (c.fill record).2 = .error e →
      ∃ before name raw after type fault, record = before ++ (name, raw) :: after ∧
        Fills entity record name raw type ∧ liftAt type raw name = .error fault ∧
        e = .conversion fault ∧ Filled entity before c (c.fill record).1 ∧
        ((c.fill record).1.values = c.values ↔ ∀ name raw type value,
          Fills entity before name raw type → lift type raw = .ok value →
            Assoc.get? c.values name = some value) := by
  have hsound := hc.sound
  have hasc : Assoc.Ascending record := hrecord.1
  have hsuccess : (c.fill record).2 = .ok () → Filled entity record c (c.fill record).1 := by
    intro h
    apply fillEntries_filled hasc
    rw [← fill_eq hentity, ← h]
  have hfailure : ∀ e, (c.fill record).2 = .error e →
      ∃ before name raw after type fault, record = before ++ (name, raw) :: after ∧
        Fills entity record name raw type ∧ liftAt type raw name = .error fault ∧
        e = .conversion fault ∧ Filled entity before c (c.fill record).1 := by
    intro e h
    have hrun : fillEntries entity c record = ((c.fill record).1, .error e) := by
      rw [← fill_eq hentity, ← h]
    obtain ⟨before, name, raw, after, type, fault, rfl, htype, hfault, he, hbefore⟩ :=
      fillEntries_error hrun
    have hentry := hasc.get?_of_mem (List.mem_append_right before List.mem_cons_self)
    have hfilled := fillEntries_filled (List.pairwise_append.mp hasc).1 hbefore
    exact ⟨before, name, raw, after, type, fault, rfl,
      fills_iff.mpr ⟨hentry, htype⟩, hfault, he, hfilled⟩
  refine ⟨⟨?_, ?_⟩, hsuccess, ?_⟩
  · rintro ⟨e, h⟩
    obtain ⟨-, name, raw, -, type, fault, -, hfills, hfault, -, -⟩ := hfailure e h
    refine ⟨name, raw, type, hfills, fun value hvalue => ?_⟩
    have hsame : Except.error fault = .ok value := hfault.symm.trans (liftAt_path name hvalue)
    cases hsame
  · rintro ⟨name, raw, type, hfills, hunread⟩
    cases h : (c.fill record).2 with
    | error e => exact ⟨e, rfl⟩
    | ok u =>
      obtain ⟨value, hvalue, -⟩ := (hsuccess h).set hfills
      exact absurd hvalue (hunread value)
  · intro e h
    obtain ⟨before, name, raw, after, type, fault, hsplit, hfills, hfault, he, hfilled⟩ :=
      hfailure e h
    have hasc' :=
      (fill_sound hsound hrecord).ascending ((fill_extends c record).entity.trans hentity)
    exact ⟨before, name, raw, after, type, fault, hsplit, hfills, hfault, he, hfilled,
      hfilled.values_eq_iff (hsound.ascending hentity) hasc'⟩

/-! ## A failure half way -/

/-- A host reports its processors and its memory. -/
def hostRegistration : Registration where
  schema :=
    { name := "host"
      attributes := [("cpu", .plain .int64 { computed := true }),
        ("ram", .plain .int64 { computed := true })] }
  hints := Hints.none

def host : Entity where
  schema := hostRegistration.schema
  hints := hostRegistration.hints
  introspection := ⟨[("cpu", ⟨.int64, { computed := true }⟩),
    ("ram", ⟨.int64, { computed := true }⟩)]⟩

theorem host_bound : host.Bound := by
  refine ⟨hostRegistration, ⟨by decide, ?_⟩, rfl⟩
  simp [hostRegistration, Attribute.ChildrenOrdered, Attribute.Ordered, PlainShape.type,
    ValueType.Ordered]

/-- The container of a host's record. -/
def hostOf (cpu ram : Int64) : Container :=
  ⟨[("cpu", .int64 cpu), ("ram", .int64 ram)], some host⟩

theorem hostRecord_ordered {cpu ram : Raw} (hcpu : cpu.Ordered) (hram : ram.Ordered) :
    Record.Ordered [("cpu", cpu), ("ram", ram)] := by
  have hkeys : ["cpu", "ram"].Pairwise (· < ·) := by decide
  exact ⟨Assoc.ascending_iff.mpr hkeys, by simp [Raw.EntriesOrdered, hcpu, hram]⟩

theorem hostOf_reachable (cpu ram : Int64) : (hostOf cpu ram).Reachable := by
  refine ⟨[.ofRecord host [("cpu", .int cpu), ("ram", .int ram)]], ?_,
    List.mem_singleton.mpr rfl⟩
  simp only [List.mem_singleton, forall_eq, Operation.Admissible]
  exact ⟨host_bound, hostRecord_ordered trivial trivial⟩

/-- The memory of a host is no text, so its record is refused, and the processors change all the
same. -/
theorem host_fill :
    (hostOf 2 8).Reachable ∧
      (∃ e, ((hostOf 2 8).fill [("cpu", .int 4), ("ram", .string "x")]).2 = .error e) ∧
      ((hostOf 2 8).fill [("cpu", .int 4), ("ram", .string "x")]).1 = hostOf 4 8 ∧
      (hostOf 4 8).values ≠ (hostOf 2 8).values := by
  refine ⟨hostOf_reachable 2 8, ⟨_, rfl⟩, rfl, ?_⟩
  simp [hostOf]

/-- It is refused for the memory, with the processors of the record already there. -/
theorem host_fill_unchanged_iff :
    (hostOf 2 8).Reachable ∧ (hostOf 2 8).entity? = some host ∧
      Record.Ordered [("cpu", .int 4), ("ram", .string "x")] ∧
      ∃ e before name raw after type fault,
        ((hostOf 2 8).fill [("cpu", .int 4), ("ram", .string "x")]).2 = .error e ∧
        [("cpu", .int 4), ("ram", .string "x")] = before ++ (name, raw) :: after ∧
        liftAt type raw name = .error fault ∧
        Filled host before (hostOf 2 8)
          ((hostOf 2 8).fill [("cpu", .int 4), ("ram", .string "x")]).1 := by
  have hrecord : Record.Ordered [("cpu", .int 4), ("ram", .string "x")] :=
    hostRecord_ordered trivial trivial
  obtain ⟨-, -, hfails⟩ := fill_unchanged_iff (hostOf_reachable 2 8) rfl hrecord
  obtain ⟨before, name, raw, after, type, fault, hsplit, -, hfault, -, hfilled, -⟩ :=
    hfails _ rfl
  exact ⟨hostOf_reachable 2 8, rfl, hrecord, _, before, name, raw, after, type, fault,
    rfl, hsplit, hfault, hfilled⟩

end EntityModel.Container
