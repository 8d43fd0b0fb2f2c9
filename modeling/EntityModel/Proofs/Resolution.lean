import EntityModel.Path.Resolution
import EntityModel.Proofs.Typing

/-!
# Values along paths

One step into a well-typed value leads to a part of the type that the value declares for it, and a
part may be exchanged for another one of its type. Whatever both single steps keep is kept by a
change at the end of a path.

* `Value.child_key_typed`, `Value.child_index_typed`: the types of parts.
* `Value.change_keeps`: a property that single steps keep.
* `update_ok`: a change of a table is a change of one of its values.
-/

namespace EntityModel

namespace Value

/-! ## One step -/

theorem child_key_ok {value part : Value} {name : String} :
    value.child (.key name) = .ok part ↔
      ∃ fields attributes, value = .object fields attributes ∧
        Assoc.get? attributes name = some part := by
  cases value with
  | object fields attributes =>
    simp only [child]
    cases hget : Assoc.get? attributes name <;> simp [hget]
  | _ => simp [child]

theorem child_index_ok {value part : Value} {position : UInt64} :
    value.child (.index position) = .ok part ↔
      ∃ element items, (value = .list element items ∨ value = .set element items) ∧
        items[position.toNat]? = some part := by
  cases value with
  | list element items | set element items =>
    simp only [child]
    cases hitem : items[position.toNat]? <;> simp [hitem]
  | _ => simp [child]

/-- A name leads to an attribute of the type of its field. -/
theorem child_key_typed {value part : Value} {name : String} (hvalue : value.WellTyped)
    (h : value.child (.key name) = .ok part) :
    ∃ fields, value.type = .object fields ∧ Assoc.get? fields name = some part.type ∧
      part.WellTyped := by
  obtain ⟨fields, attributes, rfl, hget⟩ := child_key_ok.mp h
  have hattributes : AttributesTyped fields attributes := hvalue
  exact ⟨fields, rfl, hattributes.of_get? hget⟩

/-- An index leads to an item of the element type. -/
theorem child_index_typed {value part : Value} {position : UInt64} (hvalue : value.WellTyped)
    (h : value.child (.index position) = .ok part) :
    (value.type = .list part.type ∨ value.type = .set part.type) ∧ part.WellTyped := by
  obtain ⟨element, items, hcollection, hitem⟩ := child_index_ok.mp h
  have hitems : ItemsTyped element items := by
    rcases hcollection with rfl | rfl <;> exact hvalue
  obtain ⟨htype, hpart⟩ := itemsTyped_iff.mp hitems part (List.mem_of_getElem? hitem)
  refine ⟨?_, hpart⟩
  rcases hcollection with rfl | rfl
  · exact .inl (htype ▸ rfl)
  · exact .inr (htype ▸ rfl)

@[simp] theorem withChild_type (part value : Value) (segment : Segment) :
    (withChild part value segment).type = value.type := by
  unfold withChild
  split <;> rfl

theorem child_wellTyped {value part : Value} {segment : Segment} (hvalue : value.WellTyped)
    (h : value.child segment = .ok part) : part.WellTyped := by
  cases segment with
  | key name =>
    obtain ⟨-, -, -, hpart⟩ := child_key_typed hvalue h
    exact hpart
  | index position => exact (child_index_typed hvalue h).2

theorem withChild_wellTyped {value part new : Value} {segment : Segment}
    (hvalue : value.WellTyped) (h : value.child segment = .ok part) (hnew : new.WellTyped)
    (htype : new.type = part.type) : (withChild new value segment).WellTyped := by
  cases segment with
  | key name =>
    obtain ⟨fields, attributes, rfl, hget⟩ := child_key_ok.mp h
    have hattributes : AttributesTyped fields attributes := hvalue
    exact hattributes.replace hget htype hnew
  | index position =>
    obtain ⟨element, items, hcollection, hitem⟩ := child_index_ok.mp h
    have hitems : ItemsTyped element items := by
      rcases hcollection with rfl | rfl <;> exact hvalue
    have hset : ItemsTyped element (items.set position.toNat new) := by
      rw [itemsTyped_iff] at hitems ⊢
      intro item hmem
      rcases List.mem_or_eq_of_mem_set hmem with hmem | rfl
      · exact hitems item hmem
      · exact ⟨htype.trans (hitems part (List.mem_of_getElem? hitem)).1, hnew⟩
    rcases hcollection with rfl | rfl <;> exact hset

theorem child_ordered {value part : Value} {segment : Segment} (hvalue : value.Ordered)
    (h : value.child segment = .ok part) : part.Ordered := by
  cases segment with
  | key name =>
    obtain ⟨fields, attributes, rfl, hget⟩ := child_key_ok.mp h
    rw [Ordered, entriesOrdered_iff] at hvalue
    exact hvalue.2.2 _ (Assoc.mem_of_get? hget)
  | index position =>
    obtain ⟨element, items, hcollection, hitem⟩ := child_index_ok.mp h
    rcases hcollection with rfl | rfl <;>
    · rw [Ordered, itemsOrdered_iff] at hvalue
      exact hvalue.2 part (List.mem_of_getElem? hitem)

theorem withChild_ordered {value part new : Value} {segment : Segment} (hvalue : value.Ordered)
    (h : value.child segment = .ok part) (hnew : new.Ordered) :
    (withChild new value segment).Ordered := by
  cases segment with
  | key name =>
    obtain ⟨fields, attributes, rfl, -⟩ := child_key_ok.mp h
    rw [Ordered, entriesOrdered_iff] at hvalue
    rw [withChild, Ordered, entriesOrdered_iff]
    refine ⟨hvalue.1, Assoc.ascending_replace hvalue.2.1, fun entry hmem => ?_⟩
    rcases Assoc.mem_replace hmem with rfl | hmem
    · exact hnew
    · exact hvalue.2.2 entry hmem
  | index position =>
    obtain ⟨element, items, hcollection, -⟩ := child_index_ok.mp h
    rcases hcollection with rfl | rfl <;>
    · rw [Ordered, itemsOrdered_iff] at hvalue
      rw [withChild, Ordered, itemsOrdered_iff]
      refine ⟨hvalue.1, fun item hmem => ?_⟩
      rcases List.mem_or_eq_of_mem_set hmem with hmem | rfl
      · exact hvalue.2 item hmem
      · exact hnew

/-! ## Many steps -/

theorem follow_cons_ok {walked : Path} {value part : Value} {segment : Segment}
    {rest : List Segment} :
    follow walked value (segment :: rest) = .ok part ↔
      ∃ next, value.child segment = .ok next ∧
        follow (walked ++ [segment]) next rest = .ok part := by
  rw [follow]
  cases value.child segment <;> simp

section

variable {ε : Type} {refuse : ResolutionError → ε} {f : Value → Except ε Value}

theorem change_cons_ok {walked : Path} {value value' : Value} {segment : Segment}
    {rest : List Segment} :
    change refuse f walked value (segment :: rest) = .ok value' ↔
      ∃ part, value.child segment = .ok part ∧
        ∃ new, change refuse f (walked ++ [segment]) part rest = .ok new ∧
          withChild new value segment = value' := by
  rw [change]
  cases value.child segment <;> simp

/-- A change at the end of a path keeps what the change itself and single steps keep. -/
theorem change_keeps {P : Value → Prop}
    (hchild : ∀ {value part segment}, P value → value.child segment = .ok part → P part)
    (hwith : ∀ {value part new segment}, P value → value.child segment = .ok part → P new →
      new.type = part.type → P (withChild new value segment))
    (hf : ∀ {value new}, P value → f value = .ok new → P new ∧ new.type = value.type)
    {walked : Path} {value value' : Value} {segments : List Segment} (hvalue : P value)
    (h : change refuse f walked value segments = .ok value') :
    P value' ∧ value'.type = value.type := by
  induction segments generalizing walked value value' with
  | nil => exact hf hvalue h
  | cons segment rest ih =>
    obtain ⟨part, hpart, new, hnew, rfl⟩ := change_cons_ok.mp h
    obtain ⟨hkept, htype⟩ := ih (hchild hvalue hpart) hnew
    exact ⟨hwith hvalue hpart hkept htype, withChild_type new value segment⟩

end

end Value

/-! ## Tables -/

theorem entryAt_ok {table : ValueTable} {path : Path} {entry : String × Value × List Segment} :
    entryAt table path = .ok entry ↔
      path = .key entry.1 :: entry.2.2 ∧ Assoc.get? table entry.1 = some entry.2.1 := by
  obtain ⟨name, value, rest⟩ := entry
  match path with
  | [] => simp [entryAt]
  | .index position :: segments => simp [entryAt]
  | .key key :: segments =>
    rw [entryAt]
    cases hget : Assoc.get? table key with
    | none =>
      simp only [reduceCtorEq, false_iff, List.cons.injEq, Segment.key.injEq]
      rintro ⟨⟨rfl, -⟩, hsome⟩
      simp [hget] at hsome
    | some first =>
      simp only [Except.ok.injEq, Prod.mk.injEq, List.cons.injEq, Segment.key.injEq]
      constructor
      · rintro ⟨rfl, rfl, rfl⟩
        exact ⟨⟨rfl, rfl⟩, hget⟩
      · rintro ⟨⟨rfl, rfl⟩, hsome⟩
        rw [hget] at hsome
        exact ⟨rfl, Option.some.inj hsome, rfl⟩

theorem resolve_ok {table : ValueTable} {path : Path} {value : Value} :
    resolve table path = .ok value ↔
      ∃ name first rest, path = .key name :: rest ∧ Assoc.get? table name = some first ∧
        first.follow (.ofKey name) rest = .ok value := by
  simp only [resolve, bind_ok_iff, entryAt_ok, Prod.exists, and_assoc]

theorem update_ok {ε : Type} {refuse : ResolutionError → ε} {f : Value → Except ε Value}
    {table table' : ValueTable} {path : Path} :
    update refuse f table path = .ok table' ↔
      ∃ name first rest, path = .key name :: rest ∧ Assoc.get? table name = some first ∧
        ∃ new, first.change refuse f (.ofKey name) rest = .ok new ∧
          Assoc.replace name new table = table' := by
  simp only [update, bind_ok_iff, renamed_ok_iff, pure_ok_iff, entryAt_ok, Prod.exists, and_assoc]

end EntityModel
