import EntityModel.Proofs.Schema.Scope
import EntityModel.Proofs.SetsAsLists

/-!
# Hints about order

Two sets of hints that agree but for the sets that keep their order lead to the same table of an
entity, but for lists in place of sets in its types. Whatever is wrong with the schema or the other
hints is wrong under both.

* `Hints.SameButOrder`: hints that agree but for order.
* `Introspection.asLists`: the table with a list in place of every set.
* `introspect_asLists`: tables under such hints, read as lists, are the same.
-/

namespace EntityModel

open ValueType (fieldsAsLists)

/-! ## Hints -/

/-- Hints that agree but for the sets that keep their order. -/
def Hints.SameButOrder (hints other : Hints) : Prop :=
  ∀ list, list ≠ .preserveOrder → hints.paths list = other.paths list

theorem Hints.SameButOrder.mentions {hints other : Hints} (h : hints.SameButOrder other)
    {list : HintList} (hlist : list ≠ .preserveOrder) (path : String) :
    hints.mentions list path = other.mentions list path := by
  rw [Hints.mentions, Hints.mentions, h list hlist]

/-! ## Tables -/

/-- The field with a list in place of every set in its type. -/
def Field.asLists (field : Field) : Field := { field with type := field.type.asLists }

namespace Introspection

/-- The table with a list in place of every set in its types. -/
def asLists (i : Introspection) : Introspection := ⟨Assoc.mapValues Field.asLists i.fields⟩

theorem keys_asLists (i : Introspection) : Assoc.keys i.asLists.fields = Assoc.keys i.fields :=
  Assoc.keys_mapValues _ _

theorem field?_asLists (i : Introspection) (path : String) :
    i.asLists.field? path = (i.field? path).map Field.asLists :=
  Assoc.get?_mapValues _ _ _

theorem typeOf?_asLists (i : Introspection) (path : String) :
    i.asLists.typeOf? path = (i.typeOf? path).map ValueType.asLists := by
  rw [typeOf?, typeOf?, field?_asLists, Option.map_map, Option.map_map]
  rfl

theorem classificationOf?_asLists (i : Introspection) (path : String) :
    i.asLists.classificationOf? path = i.classificationOf? path := by
  rw [classificationOf?, classificationOf?, field?_asLists, Option.map_map]
  rfl

theorem topLevel_asLists (i : Introspection) : i.asLists.topLevel = fieldsAsLists i.topLevel := by
  rw [ValueType.fieldsAsLists_eq_mapValues, Assoc.mapValues, topLevel, topLevel, asLists,
    Assoc.mapValues, List.filter_map, List.map_map, List.map_map]
  rfl

end Introspection

/-! ## Introspection -/

theorem PlainShape.type_asLists (shape : PlainShape) (ordered other : Bool) :
    (shape.type ordered).asLists = (shape.type other).asLists := by
  cases shape <;> cases ordered <;> cases other <;> simp [PlainShape.type, ValueType.asLists]

theorem Nesting.type_asLists {object object' : ValueType} (h : object.asLists = object'.asLists)
    (nesting : Nesting) (ordered other : Bool) :
    (nesting.type ordered object).asLists = (nesting.type other object').asLists := by
  cases nesting <;> cases ordered <;> cases other <;> simp [Nesting.type, ValueType.asLists, h]

namespace Schema

variable {hints other : Hints}

mutual
theorem attributeType_asLists (h : hints.SameButOrder other) : ∀ (path : String) (a : Attribute),
    translate id ValueType.asLists (attributeType hints path a) =
      translate id ValueType.asLists (attributeType other path a)
  | path, .plain shape _ => by
    rw [attributeType, attributeType, translate, translate, shape.type_asLists]
  | path, .nested nesting children _ => by
    rw [attributeType, attributeType]
    split
    · rfl
    · refine translate_bind_congr (childTypes_asLists h path children) fun fields fields' heq => ?_
      refine congrArg Except.ok (nesting.type_asLists ?_ _ _)
      rw [ValueType.asLists, ValueType.asLists, heq]

theorem childTypes_asLists (h : hints.SameButOrder other) :
    ∀ (parent : String) (children : List (String × Attribute)),
      translate id fieldsAsLists (childTypes hints parent children) =
        translate id fieldsAsLists (childTypes other parent children)
  | _, [] => rfl
  | parent, (name, child) :: rest => by
    have hrest := childTypes_asLists h parent rest
    rw [childTypes, childTypes]
    refine translate_bind_same fun _ => ?_
    rw [h.mentions (by decide)]
    split
    · exact hrest
    · refine translate_bind_congr (attributeType_asLists h _ child) fun type type' htype => ?_
      refine translate_bind_congr hrest fun others others' hothers => congrArg Except.ok ?_
      rw [fieldsAsLists, fieldsAsLists, htype, hothers]
end

theorem classify_of_sameButOrder (h : hints.SameButOrder other) (path : String) (a : Attribute) :
    classify hints path a = classify other path a :=
  classify_congr fun _ _ horder => h.mentions horder path

mutual
theorem attributeFields_asLists (h : hints.SameButOrder other) :
    ∀ (path : String) (a : Attribute),
    translate id (Assoc.mapValues Field.asLists) (attributeFields hints path a) =
      translate id (Assoc.mapValues Field.asLists) (attributeFields other path a)
  | path, .plain shape d => by
    rw [attributeFields, attributeFields, classify_of_sameButOrder h]
    refine translate_bind_congr (attributeType_asLists h path _) fun type type' htype => ?_
    refine translate_bind_same fun c => congrArg Except.ok ?_
    rw [Assoc.mapValues_cons, Assoc.mapValues_cons, Field.asLists, Field.asLists, htype]
  | path, .nested nesting children d => by
    rw [attributeFields, attributeFields, classify_of_sameButOrder h]
    refine translate_bind_congr (attributeType_asLists h path _) fun type type' htype => ?_
    refine translate_bind_same fun c => ?_
    refine translate_bind_congr (fieldsBelow_asLists h path children) fun below below' hbelow => ?_
    refine congrArg Except.ok ?_
    rw [Assoc.mapValues_cons, Assoc.mapValues_cons, Field.asLists, Field.asLists, htype, hbelow]

theorem fieldsBelow_asLists (h : hints.SameButOrder other) :
    ∀ (parent : String) (attributes : List (String × Attribute)),
      translate id (Assoc.mapValues Field.asLists) (fieldsBelow hints parent attributes) =
        translate id (Assoc.mapValues Field.asLists) (fieldsBelow other parent attributes)
  | _, [] => rfl
  | parent, (name, a) :: rest => by
    have hrest := fieldsBelow_asLists h parent rest
    rw [fieldsBelow, fieldsBelow]
    refine translate_bind_same fun _ => ?_
    rw [h.mentions (by decide)]
    split
    · exact hrest
    · refine translate_bind_congr (attributeFields_asLists h _ a) fun own own' hown => ?_
      refine translate_bind_congr hrest fun others others' hothers => congrArg Except.ok ?_
      rw [Assoc.mapValues_append, Assoc.mapValues_append, hown, hothers]
end

theorem checkHints_of_sameButOrder (h : hints.SameButOrder other) :
    checkHints hints = checkHints other := by
  have hmentions : hints.mentions .optional = other.mentions .optional :=
    funext (h.mentions (by decide))
  rw [checkHints, checkHints, h .required (by decide), hmentions]

end Schema

/-- Hints about order change nothing in a table but sets to lists and lists to sets. -/
theorem introspect_asLists {hints other : Hints} (h : hints.SameButOrder other)
    (schema : EntitySchema) :
    translate id Introspection.asLists (introspect schema hints) =
      translate id Introspection.asLists (introspect schema other) := by
  rw [introspect, introspect, Schema.checkHints_of_sameButOrder h]
  refine translate_bind_same fun _ => ?_
  refine translate_bind_congr (Schema.fieldsBelow_asLists h "" schema.attributes) ?_
  intro fields fields' hfields
  refine congrArg Except.ok ?_
  rw [Introspection.asLists, Introspection.asLists, Assoc.mapValues_ofList,
    Assoc.mapValues_ofList, hfields]

end EntityModel
