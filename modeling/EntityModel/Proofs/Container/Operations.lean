import EntityModel.Container.Basic
import EntityModel.Proofs.Lifting
import EntityModel.Proofs.Resolution

/-!
# What the operations on containers do

For every operation that makes or changes a container, what its success says about the result. The
operations that work through several entries are described by what they keep: a property of
containers that every single write keeps.

* `create_ok`, `ofRecord_ok`, `ofJson_ok`: new containers.
* `set_ok`, `setOrAdd_ok`: one write.
* `fill_keeps`, `copyTo_keeps`: many writes.
-/

namespace EntityModel.Container

variable {c c' : Container} {entity : Entity} {path name : String} {raw : Raw}

theorem entity_ok : c.entity = .ok entity ↔ c.entity? = some entity := by
  rw [Container.entity]
  cases c.entity? <;> simp

theorem parsePath_ok {steps : Path} : parsePath path = .ok steps ↔
    Path.parse path = .ok steps := by
  simp [parsePath]

theorem liftFor_ok {type : ValueType} {value : Value} :
    liftFor path raw type = .ok value ↔ liftAt type raw path = .ok value := by
  simp [liftFor]

/-! ## New containers -/

theorem checkValues_ok {values : ValueTable} :
    checkValues entity values = .ok () ↔
      ∀ entry ∈ values, entity.hasAttribute entry.1 = true ∧
        entity.typeOf? entry.1 = some entry.2.type := by
  induction values with
  | nil => simp [checkValues]
  | cons entry rest ih =>
    obtain ⟨key, value⟩ := entry
    rw [checkValues]
    split
    · next hnone =>
      rw [Option.filter_eq_none_iff] at hnone
      simp only [reduceCtorEq, List.forall_mem_cons, false_iff]
      rintro ⟨⟨hown, htype⟩, -⟩
      exact hnone _ htype hown
    · next type hsome =>
      obtain ⟨htype, hown⟩ := Option.filter_eq_some_iff.mp hsome
      split
      · next heq => simp [ih, htype, hown, heq]
      · next hne =>
        simp only [reduceCtorEq, List.forall_mem_cons, false_iff]
        rintro ⟨⟨-, hother⟩, -⟩
        exact hne (Option.some.inj (hother.symm.trans htype))

theorem create_ok {values : ValueTable} :
    create entity values = .ok c ↔
      checkValues entity values = .ok () ∧ ⟨values, some entity⟩ = c := by
  simp [create]

theorem ofRecord_ok {record : Record} :
    ofRecord entity record = .ok c ↔
      ∃ values, liftRecord record entity.topLevel = .ok values ∧
        ⟨values, some entity⟩ = c := by
  simp [ofRecord]

theorem ofJson_ok {json : Json} :
    ofJson entity json = .ok c ↔
      ∃ record, recordOf json = .ok record ∧ ofRecord entity record = .ok c := by
  simp [ofJson]

/-- The values of a record are the lifted values of the types, in their order. -/
theorem liftRecord_ok {record : Record} {types : List (String × ValueType)} {values : ValueTable}
    (h : liftRecord record types = .ok values) :
    Assoc.keys values = Assoc.keys types ∧
      ∀ entry ∈ values, ∃ type, (entry.1, type) ∈ types ∧
        liftAt type (Record.at record entry.1) entry.1 = .ok entry.2 := by
  induction types generalizing values with
  | nil =>
    cases h
    exact ⟨rfl, by simp⟩
  | cons field rest ih =>
    obtain ⟨key, type⟩ := field
    obtain ⟨value, hvalue, others, hothers, rfl⟩ := liftRecord_cons_ok.mp h
    obtain ⟨hkeys, hrest⟩ := ih hothers
    refine ⟨by simpa [Assoc.keys] using hkeys, List.forall_mem_cons.mpr ⟨?_, ?_⟩⟩
    · exact ⟨type, List.mem_cons_self, hvalue⟩
    · intro entry hentry
      obtain ⟨own, hmem, hlift⟩ := hrest entry hentry
      exact ⟨own, List.mem_cons_of_mem _ hmem, hlift⟩

/-! ## One write -/

theorem set_ok :
    c.set path raw = .ok c' ↔
      ∃ entity, c.entity? = some entity ∧ ∃ steps, Path.parse path = .ok steps ∧
        if steps.isTopLevel then
          ∃ type, (entity.typeOf? path = some type ∧ Assoc.has c.values path = true) ∧
            ∃ value, liftAt type raw path = .ok value ∧ c.put path value = c'
        else
          ∃ values, update .resolution (fun value => liftFor path raw value.type) c.values steps =
            .ok values ∧ c.withValues values = c' := by
  simp only [set, bind_ok_iff, entity_ok, parsePath_ok]
  refine exists_congr fun entity => and_congr_right fun _ => exists_congr fun steps =>
    and_congr_right fun _ => ?_
  split
  · cases hfilter : (entity.typeOf? path).filter fun _ => Assoc.has c.values path with
    | none =>
      rw [Option.filter_eq_none_iff] at hfilter
      simp only [reduceCtorEq, false_iff]
      rintro ⟨type, ⟨htype, hhas⟩, -⟩
      exact hfilter _ htype hhas
    | some type =>
      obtain ⟨htype, hhas⟩ := Option.filter_eq_some_iff.mp hfilter
      simp [htype, hhas, liftFor_ok]
  · simp

theorem setOrAdd_ok :
    c.setOrAdd name raw = .ok c' ↔
      ∃ entity, c.entity? = some entity ∧
        ∃ type, (entity.typeOf? name = some type ∧ entity.hasAttribute name = true) ∧
          ∃ value, liftAt type raw name = .ok value ∧ c.put name value = c' := by
  simp only [setOrAdd, bind_ok_iff, entity_ok]
  refine exists_congr fun entity => and_congr_right fun _ => ?_
  cases hfilter : (entity.typeOf? name).filter fun _ => entity.hasAttribute name with
  | none =>
    rw [Option.filter_eq_none_iff] at hfilter
    simp only [reduceCtorEq, false_iff]
    rintro ⟨type, ⟨htype, hown⟩, -⟩
    exact hfilter _ htype hown
  | some type =>
    obtain ⟨htype, hown⟩ := Option.filter_eq_some_iff.mp hfilter
    simp [htype, hown, liftFor_ok]

/-! ## Many writes -/

theorem computedType?_eq_some {type : ValueType} :
    computedType? entity name = some type ↔
      entity.typeOf? name = some type ∧ entity.hasAttribute name = true ∧
        ∃ flags, entity.classificationOf? name = some flags ∧ flags.computed = true := by
  rw [computedType?]
  cases entity.typeOf? name <;> cases entity.classificationOf? name <;> simp [and_comm]

/-- Filling keeps, also when it fails, what the write of each computed field keeps. -/
theorem fillEntries_keeps {P : Container → Prop} {record : Record}
    (hput : ∀ {done entry type value}, P done → entry ∈ record →
      computedType? entity entry.1 = some type → liftAt type entry.2 entry.1 = .ok value →
      P (done.put entry.1 value)) (hc : P c) : P (fillEntries entity c record).1 := by
  induction record generalizing c with
  | nil => exact hc
  | cons entry rest ih =>
    obtain ⟨key, first⟩ := entry
    have hrest : ∀ {done : Container}, P done → P (fillEntries entity done rest).1 :=
      ih fun hdone hmem => hput hdone (List.mem_cons_of_mem _ hmem)
    rw [fillEntries]
    split
    · exact hrest hc
    · next type htype =>
      split
      · next value hvalue =>
        exact hrest (hput hc List.mem_cons_self htype (liftFor_ok.mp hvalue))
      · exact hc

theorem fill_keeps {P : Container → Prop} {record : Record}
    (hput : ∀ {entity done entry type value}, c.entity? = some entity → P done →
      entry ∈ record →
      computedType? entity entry.1 = some type → liftAt type entry.2 entry.1 = .ok value →
      P (done.put entry.1 value)) (hc : P c) : P (c.fill record).1 := by
  rw [fill]
  split
  · next entity hentity => exact fillEntries_keeps (hput (entity_ok.mp hentity)) hc
  · exact hc

/-- Copying keeps of the target what the write of each value of the source keeps. -/
theorem copyTo_keeps {P : Container → Prop} {target : Container}
    (hput : ∀ {source entity done entry}, c.entity? = some source →
      target.entity? = some entity → P done → entry ∈ c.values → entry.2.isKnown = true →
      entity.typeOf? entry.1 = some entry.2.type → P (done.put entry.1 entry.2))
    (htarget : P target) (h : c.copyTo target = .ok c') : P c' := by
  simp only [copyTo, bind_ok_iff, entity_ok, pure_ok_iff] at h
  obtain ⟨source, hsource, entity, hentity, rfl⟩ := h
  have general : ∀ (entries : ValueTable) (done : Container),
      (∀ entry ∈ entries, entry ∈ c.values) → P done → P (entries.foldl (fun done entry =>
        if entry.2.isKnown && entity.typeOf? entry.1 = some entry.2.type then
          done.put entry.1 entry.2
        else done) done) := by
    intro entries
    induction entries with
    | nil => exact fun _ _ hdone => hdone
    | cons entry rest ih =>
      intro done hsub hdone
      refine ih _ (fun e he => hsub e (List.mem_cons_of_mem _ he)) ?_
      dsimp only
      split
      · next hcond =>
        simp only [Bool.and_eq_true, decide_eq_true_eq] at hcond
        exact hput hsource hentity hdone (hsub entry List.mem_cons_self) hcond.1 hcond.2
      · exact hdone
  exact general c.values target (fun _ h => h) htarget

end EntityModel.Container
