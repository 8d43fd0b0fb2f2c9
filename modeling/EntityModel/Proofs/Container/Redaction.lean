import EntityModel.Container.Dump
import EntityModel.Proofs.Container.Session

/-!
# Redaction

A dump should say of a sensitive value only whether it is null, unknown or known. `Agree` relates
the values that it may not tell apart. It keeps them apart all the same if something sensitive
stands inside a list, a set or a map, as these are shown as one text. `Entity.Shielded` says that
this is not so.

* `Agree.eq_of_clear`: where nothing is sensitive, values that agree are equal.
* `Agree.dumpValue_eq`: where all that is sensitive is reached through objects, they look the same.
* `Entity.Shielded.dump_eq`: the same for whole dumps.
-/

namespace EntityModel

/-- Whether the field at a dotted path is classified sensitive. -/
def Entity.isSensitive (entity : Entity) (path : String) : Bool :=
  (entity.classificationOf? path).any (·.sensitive)

/-! ## Values that agree -/

mutual
/-- Values at a path that differ at most in what stands at sensitive paths, and there only in the
payloads of known values. Indices and the keys of maps are no part of a path. -/
inductive Agree (entity : Entity) : String → Value → Value → Prop where
  | same {path : String} (v : Value) : Agree entity path v v
  | hidden {path : String} {v w : Value} (hpath : entity.isSensitive path = true)
      (htype : w.type = v.type) (hv : v.isKnown = true) (hw : w.isKnown = true) :
      Agree entity path v w
  | list {path : String} {element : ValueType} {vs ws : List Value}
      (h : AgreeItems entity path vs ws) : Agree entity path (.list element vs) (.list element ws)
  | set {path : String} {element : ValueType} {vs ws : List Value}
      (h : AgreeItems entity path vs ws) : Agree entity path (.set element vs) (.set element ws)
  | map {path : String} {element : ValueType} {vs ws : ValueTable}
      (h : AgreeEntries entity (fun _ => path) vs ws) :
      Agree entity path (.map element vs) (.map element ws)
  | object {path : String} {fields : List (String × ValueType)} {vs ws : ValueTable}
      (h : AgreeEntries entity (fun name => path ++ "." ++ name) vs ws) :
      Agree entity path (.object fields vs) (.object fields ws)

/-- Items that agree one by one; they all stand at the path of their list. -/
inductive AgreeItems (entity : Entity) : String → List Value → List Value → Prop where
  | nil {path : String} : AgreeItems entity path [] []
  | cons {path : String} {v w : Value} {vs ws : List Value} (h : Agree entity path v w)
      (hrest : AgreeItems entity path vs ws) : AgreeItems entity path (v :: vs) (w :: ws)

/-- Entries of the same keys that agree one by one; each has a path that its key gives. -/
inductive AgreeEntries (entity : Entity) :
    (path : String → String) → ValueTable → ValueTable → Prop where
  | nil {path : String → String} : AgreeEntries entity path [] []
  | cons {path : String → String} {name : String} {v w : Value} {vs ws : ValueTable}
      (h : Agree entity (path name) v w) (hrest : AgreeEntries entity path vs ws) :
      AgreeEntries entity path ((name, v) :: vs) ((name, w) :: ws)
end

/-- Containers of an entity that differ at most in sensitive payloads. -/
def Entity.Indistinct (entity : Entity) (c c' : Container) : Prop :=
  AgreeEntries entity (fun name => name) c.values c'.values

/-! ## Where sensitive values stand -/

namespace Entity

mutual
/-- A value of a type at a path has no sensitive part, but for objects without fields: of these
there is only one that is known. -/
def Quiet (entity : Entity) (path : String) : ValueType → Prop
  | .list element | .set element | .map element => Quiet entity path element
  | .object fields => QuietFields entity path fields
  | _ => True

def QuietFields (entity : Entity) (path : String) : List (String × ValueType) → Prop
  | [] => True
  | (name, type) :: rest =>
    (entity.isSensitive (path ++ "." ++ name) = true → type = .object []) ∧
      Quiet entity (path ++ "." ++ name) type ∧ QuietFields entity path rest
end

/-- Neither a value of a type at a path nor any part of it is sensitive. -/
def Clear (entity : Entity) (path : String) (type : ValueType) : Prop :=
  (entity.isSensitive path = true → type = .object []) ∧ entity.Quiet path type

mutual
/-- All that is sensitive in a value of a type at a path is reached through objects alone. -/
def Hides (entity : Entity) (path : String) : ValueType → Prop
  | .object fields => entity.isSensitive path = true ∨ HidesFields entity path fields
  | type => entity.isSensitive path = true ∨ entity.Quiet path type

def HidesFields (entity : Entity) (path : String) : List (String × ValueType) → Prop
  | [] => True
  | (name, type) :: rest =>
    Hides entity (path ++ "." ++ name) type ∧ HidesFields entity path rest
end

/-- All that is sensitive in an entity is reached from its own attributes through objects alone. -/
def Shielded (entity : Entity) : Prop :=
  ∀ name type, entity.hasAttribute name = true → entity.typeOf? name = some type →
    entity.Hides name type

variable {entity : Entity} {path : String} {fields : List (String × ValueType)}
  {type element : ValueType}

theorem quietFields_iff :
    entity.QuietFields path fields ↔
      ∀ field ∈ fields, entity.Clear (path ++ "." ++ field.1) field.2 := by
  induction fields with
  | nil => simp [QuietFields]
  | cons field rest ih => simp [QuietFields, Clear, ih, and_assoc]

theorem hidesFields_iff :
    entity.HidesFields path fields ↔
      ∀ field ∈ fields, entity.Hides (path ++ "." ++ field.1) field.2 := by
  induction fields with
  | nil => simp [HidesFields]
  | cons field rest ih => simp [HidesFields, ih]

/-- An item stands at the path of its collection, which is not sensitive. -/
theorem Clear.elements (h : entity.Clear path type) (helement : type.element? = some element) :
    entity.Clear path element := by
  cases type <;> cases helement <;> exact ⟨fun hpath => absurd (h.1 hpath) (by simp), h.2⟩

theorem Clear.attributes (h : entity.Clear path (.object fields)) :
    ∀ field ∈ fields, entity.Clear (path ++ "." ++ field.1) field.2 :=
  quietFields_iff.mp h.2

end Entity

/-! ## What a dump shows -/

variable {entity : Entity} {path : String} {v w : Value}

theorem Agree.type_eq (h : Agree entity path v w) : w.type = v.type := by
  cases h with
  | hidden _ htype => exact htype
  | _ => rfl

theorem Agree.absent_eq (h : Agree entity path v w) :
    w.isNull = v.isNull ∧ w.isUnknown = v.isUnknown := by
  cases h with
  | hidden _ _ hv hw =>
    simp only [Value.isKnown, Bool.and_eq_true, Bool.not_eq_true'] at hv hw
    exact ⟨hw.1.trans hv.1.symm, hw.2.trans hv.2.symm⟩
  | _ => exact ⟨rfl, rfl⟩

/-- There is one known object without fields. -/
theorem Value.eq_of_no_fields (hv : v.isKnown = true) (hwell : v.WellTyped)
    (htype : v.type = .object []) : v = .object [] [] := by
  cases v with
  | null | unknown => cases hv
  | object fields attributes =>
    cases htype
    cases attributes with
    | nil => rfl
    | cons entry rest => cases hwell
  | _ => cases htype

mutual
/-- Where nothing is sensitive, values that agree are equal. -/
theorem Agree.eq_of_clear : ∀ {path : String} {v w : Value}, Agree entity path v w →
    entity.Clear path v.type → v.WellTyped → w.WellTyped → v = w
  | _, _, _, .same v, _, _, _ => rfl
  | _, _, _, .hidden hpath htype hv hw, hclear, hwell, hwell' => by
    -- what is sensitive and clear has no fields
    have hempty := hclear.1 hpath
    rw [Value.eq_of_no_fields hv hwell hempty, Value.eq_of_no_fields hw hwell' (htype.trans hempty)]
  | _, _, _, .list h, hclear, hwell, hwell' => by
    rw [h.eq_of_clear (hclear.elements rfl) hwell hwell']
  | _, _, _, .set h, hclear, hwell, hwell' => by
    rw [h.eq_of_clear (hclear.elements rfl) hwell hwell']
  | _, _, _, .map h, hclear, hwell, hwell' => by
    have hvs := Value.entriesTyped_iff.mp hwell
    have hws := Value.entriesTyped_iff.mp hwell'
    rw [h.eq_of_clear (fun e he => ⟨(hvs e he).1 ▸ hclear.elements rfl, (hvs e he).2⟩)
      fun e he => (hws e he).2]
  | _, _, _, .object h, hclear, hwell, hwell' => by
    have hvs := Value.AttributesTyped.of_mem hwell
    have hws := Value.AttributesTyped.of_mem hwell'
    rw [h.eq_of_clear (fun e he => ⟨hclear.attributes _ (hvs e he).1, (hvs e he).2⟩)
      fun e he => (hws e he).2]

theorem AgreeItems.eq_of_clear : ∀ {path : String} {vs ws : List Value} {element : ValueType},
    AgreeItems entity path vs ws → entity.Clear path element → Value.ItemsTyped element vs →
    Value.ItemsTyped element ws → vs = ws
  | _, _, _, _, .nil, _, _, _ => rfl
  | _, _, _, _, .cons h hrest, hclear, hvs, hws => by
    rw [h.eq_of_clear (hvs.1 ▸ hclear) hvs.2.1 hws.2.1,
      hrest.eq_of_clear hclear hvs.2.2 hws.2.2]

theorem AgreeEntries.eq_of_clear : ∀ {path : String → String} {vs ws : ValueTable},
    AgreeEntries entity path vs ws →
    (∀ entry ∈ vs, entity.Clear (path entry.1) entry.2.type ∧ entry.2.WellTyped) →
    (∀ entry ∈ ws, entry.2.WellTyped) → vs = ws
  | _, _, _, .nil, _, _ => rfl
  | _, _, _, .cons h hrest, hvs, hws => by
    rw [List.forall_mem_cons] at hvs hws
    rw [h.eq_of_clear hvs.1.1 hvs.1.2 hws.1, hrest.eq_of_clear hvs.2 hws.2]
end

namespace Container

variable {depth : Nat} {name : String}

theorem dump_ok {c : Container} {text : String} :
    c.dump = .ok text ↔
      ∃ entity, c.entity? = some entity ∧ dumpTable entity 0 "" c.values = text := by
  simp [dump, entity_ok]

theorem dumpValue_of_sensitive (hpath : entity.isSensitive path = true) (v : Value) :
    dumpValue entity depth name path v =
      dumpLine depth name (flagNote (entity.classificationOf? path)) true v := by
  rw [Entity.isSensitive] at hpath
  cases v <;> simp [dumpValue, hpath]

theorem dumpValue_object {fields : List (String × ValueType)} {attributes : ValueTable}
    (hpath : entity.isSensitive path ≠ true) :
    dumpValue entity depth name path (.object fields attributes) =
      indentation depth ++ name ++ ": object" ++ flagNote (entity.classificationOf? path) ++ "\n" ++
        dumpTable entity (depth + 1) (path ++ ".") attributes := by
  rw [Entity.isSensitive] at hpath
  simp [dumpValue, hpath]

/-- Of a sensitive value a dump shows no more than its kind and whether it is known. -/
theorem dumpValue_eq_of_sensitive (hpath : entity.isSensitive path = true)
    (h : Agree entity path v w) :
    dumpValue entity depth name path v = dumpValue entity depth name path w := by
  rw [dumpValue_of_sensitive hpath, dumpValue_of_sensitive hpath]
  simp only [dumpLine, dumpText, Value.kind, h.type_eq, h.absent_eq, if_true]

theorem dumpValue_eq_of_quiet (h : Agree entity path v w)
    (hhides : entity.isSensitive path = true ∨ entity.Quiet path v.type) (hv : v.WellTyped)
    (hw : w.WellTyped) :
    dumpValue entity depth name path v = dumpValue entity depth name path w := by
  by_cases hpath : entity.isSensitive path = true
  · exact dumpValue_eq_of_sensitive hpath h
  · have hclear : entity.Clear path v.type :=
      ⟨fun hsensitive => absurd hsensitive hpath, hhides.resolve_left hpath⟩
    rw [h.eq_of_clear hclear hv hw]

mutual
/-- Where all that is sensitive is reached through objects, values that agree look the same. -/
theorem dumpValue_eq : ∀ {path name : String} {depth : Nat} {v w : Value},
    Agree entity path v w → entity.Hides path v.type → v.WellTyped → w.WellTyped →
    dumpValue entity depth name path v = dumpValue entity depth name path w
  | _, _, _, _, _, .same v, _, _, _ => rfl
  | _, _, _, _, _, .hidden hpath htype hv hw, _, _, _ =>
    dumpValue_eq_of_sensitive hpath (.hidden hpath htype hv hw)
  | _, _, _, _, _, .list h, hhides, hwell, hwell' =>
    dumpValue_eq_of_quiet (.list h) hhides hwell hwell'
  | _, _, _, _, _, .set h, hhides, hwell, hwell' =>
    dumpValue_eq_of_quiet (.set h) hhides hwell hwell'
  | _, _, _, _, _, .map h, hhides, hwell, hwell' =>
    dumpValue_eq_of_quiet (.map h) hhides hwell hwell'
  | path, _, _, _, _, .object h, hhides, hwell, hwell' => by
    by_cases hpath : entity.isSensitive path = true
    · exact dumpValue_eq_of_sensitive hpath (.object h)
    · have hvs := Value.AttributesTyped.of_mem hwell
      have hws := Value.AttributesTyped.of_mem hwell'
      have hparts := Entity.hidesFields_iff.mp (hhides.resolve_left hpath)
      rw [dumpValue_object hpath, dumpValue_object hpath, dumpTable_eq h
        (fun e he => ⟨hparts _ (hvs e he).1, (hvs e he).2⟩) fun e he => (hws e he).2]

theorem dumpTable_eq : ∀ {parent : String} {depth : Nat} {vs ws : ValueTable},
    AgreeEntries entity (fun name => parent ++ name) vs ws →
    (∀ entry ∈ vs, entity.Hides (parent ++ entry.1) entry.2.type ∧ entry.2.WellTyped) →
    (∀ entry ∈ ws, entry.2.WellTyped) →
    dumpTable entity depth parent vs = dumpTable entity depth parent ws
  | _, _, _, _, .nil, _, _ => rfl
  | _, _, _, _, .cons h hrest, hvs, hws => by
    rw [List.forall_mem_cons] at hvs hws
    rw [dumpTable, dumpTable, dumpValue_eq h hvs.1.1 hvs.1.2 hws.1, dumpTable_eq hrest hvs.2 hws.2]
end

end Container

/-- Of an entity that is shielded, a dump reveals nothing about sensitive values but whether they
are null, unknown or known. -/
theorem Entity.Shielded.dump_eq {c c' : Container} (h : entity.Shielded) (hc : c.Sound)
    (hc' : c'.Sound) (hentity : c.entity? = some entity) (hentity' : c'.entity? = some entity)
    (hagree : entity.Indistinct c c') : c.dump = c'.dump := by
  have hfits := hc.fits hentity
  have hvalues : AgreeEntries entity (fun name => "" ++ name) c.values c'.values := by
    simpa only [String.empty_append] using! hagree
  have htable : Container.dumpTable entity 0 "" c.values =
      Container.dumpTable entity 0 "" c'.values := by
    refine Container.dumpTable_eq hvalues (fun entry he => ⟨?_, (hfits entry he).wellTyped⟩)
      fun entry he => (hc'.fits hentity' entry he).wellTyped
    rw [String.empty_append]
    exact h _ _ (hfits entry he).own (hfits entry he).type
  have hdump' := Container.dump_ok.mpr ⟨entity, hentity', rfl⟩
  exact (Container.dump_ok.mpr ⟨entity, hentity, htable⟩).trans hdump'.symm

end EntityModel
