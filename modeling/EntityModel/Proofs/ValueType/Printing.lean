import EntityModel.Proofs.ValueType.Grammar
import EntityModel.ValueType.Printer

/-!
# Reading printed types

A type is printed without blanks. Printing does not look at the names of fields, and a name that is
none in type expressions may be printed as something else: a field named `a:string,b` looks like two
fields. The types that come back from their print are exactly those that the grammar derives from
some text.

* `Derives.ordered_and_expressible`: what the types are that some text is.
* `derives_text`: an expressible type is derived from its print.
* `parse_render_round_trip`: the types that come back.
-/

namespace EntityModel.ValueType

mutual
/-- Every field of every object in a type has a name that can be written in type expressions. -/
def Expressible : ValueType → Prop
  | .list element | .set element | .map element => Expressible element
  | .object fields => FieldsExpressible fields
  | _ => True

def FieldsExpressible : List (String × ValueType) → Prop
  | [] => True
  | (name, type) :: rest => IsFieldName name ∧ Expressible type ∧ FieldsExpressible rest
end

theorem fieldsExpressible_iff {fields : List (String × ValueType)} :
    FieldsExpressible fields ↔
      ∀ field ∈ fields, IsFieldName field.1 ∧ field.2.Expressible := by
  induction fields with
  | nil => simp [FieldsExpressible]
  | cons field rest ih => simp [FieldsExpressible, ih, and_assoc]

/-! ## Types of texts -/

mutual
/-- A text names fields by names only, and its fields are collected in order. -/
theorem Derives.ordered_and_expressible : ∀ {text : List Char} {type : ValueType},
    Derives text type → type.Ordered ∧ type.Expressible
  | _, _, .scalar _ hword => by
    cases hword <;> exact ⟨trivial, trivial⟩
  | _, _, .collection _ hword _ helement _ => by
    have hparts := helement.ordered_and_expressible
    cases hword <;> exact hparts
  | _, _, .noFields .. => ⟨⟨List.Pairwise.nil, trivial⟩, trivial⟩
  | _, _, .object _ _ hlisted _ hascending hcollected => by
    have hparts := hlisted.ordered_and_expressible
    refine ⟨⟨hascending, fieldsOrdered_iff.mpr fun field hfield => ?_⟩,
      fieldsExpressible_iff.mpr fun field hfield => ?_⟩
    · exact (hparts field (hcollected.subset hfield)).2.1
    · obtain ⟨hname, -, hexpressible⟩ := hparts field (hcollected.subset hfield)
      exact ⟨hname, hexpressible⟩

theorem FieldsDerive.ordered_and_expressible : ∀ {text : List Char}
    {fields : List (String × ValueType)}, FieldsDerive text fields →
    ∀ field ∈ fields, IsFieldName field.1 ∧ field.2.Ordered ∧ field.2.Expressible
  | _, _, .one (.field _ hname _ htype) => by
    have hparts := htype.ordered_and_expressible
    exact List.forall_mem_singleton.mpr ⟨hname, hparts⟩
  | _, _, .more (.field _ hname _ htype) _ hrest => by
    have hparts := htype.ordered_and_expressible
    have hothers := hrest.ordered_and_expressible
    exact List.forall_mem_cons.mpr ⟨⟨hname, hparts⟩, hothers⟩
end

/-! ## Texts of types -/

@[simp] theorem text_list (element : ValueType) :
    text (.list element) = "list<".toList ++ text element ++ ['>'] := rfl

@[simp] theorem text_set (element : ValueType) :
    text (.set element) = "set<".toList ++ text element ++ ['>'] := rfl

@[simp] theorem text_map (element : ValueType) :
    text (.map element) = "map<".toList ++ text element ++ ['>'] := rfl

@[simp] theorem text_object (fields : List (String × ValueType)) :
    text (.object fields) = "object".toList ++ '\x7b' :: fieldsText fields ++ ['\x7d'] := rfl

mutual
theorem derives_text : ∀ {type : ValueType}, type.Ordered → type.Expressible →
    Derives type.text type
  | .string, _, _ => .scalar blanks_nil .string
  | .int64, _, _ => .scalar blanks_nil .int64
  | .float64, _, _ => .scalar blanks_nil .float64
  | .bool, _, _ => .scalar blanks_nil .bool
  | .list element, hordered, hexpressible => by
    have helement : Derives element.text element := derives_text hordered hexpressible
    simpa using Derives.collection blanks_nil .list blanks_nil helement blanks_nil
  | .set element, hordered, hexpressible => by
    have helement : Derives element.text element := derives_text hordered hexpressible
    simpa using Derives.collection blanks_nil .set blanks_nil helement blanks_nil
  | .map element, hordered, hexpressible => by
    have helement : Derives element.text element := derives_text hordered hexpressible
    simpa using Derives.collection blanks_nil .map blanks_nil helement blanks_nil
  | .object [], _, _ => by
    simpa [fieldsText] using Derives.noFields blanks_nil blanks_nil blanks_nil
  | .object (field :: rest), ⟨hascending, hordered⟩, hexpressible => by
    have hlisted := fieldsDerive_text (List.cons_ne_nil field rest) hordered hexpressible
    simpa using
      Derives.object blanks_nil blanks_nil hlisted blanks_nil hascending (List.Perm.refl _)

theorem fieldsDerive_text : ∀ {fields : List (String × ValueType)}, fields ≠ [] →
    FieldsOrdered fields → FieldsExpressible fields → FieldsDerive (fieldsText fields) fields
  | [], hne, _, _ => absurd rfl hne
  | [(_, _)], _, ⟨hordered, _⟩, ⟨hname, hexpressible, _⟩ => by
    have htype := derives_text hordered hexpressible
    simpa [fieldsText] using FieldsDerive.one (.field blanks_nil hname blanks_nil htype)
  | (_, _) :: second :: others, _, ⟨hordered, hrest⟩, ⟨hname, hexpressible, hothers⟩ => by
    have htype := derives_text hordered hexpressible
    have hlisted := fieldsDerive_text (List.cons_ne_nil second others) hrest hothers
    simpa [fieldsText] using
      FieldsDerive.more (.field blanks_nil hname blanks_nil htype) blanks_nil hlisted
end

/-! ## The round trip -/

variable {type : ValueType} {input : String}

theorem parse_render (hordered : type.Ordered) (hexpressible : type.Expressible) :
    parse (render type) = .ok type := by
  have hexpression : Expression (render type) type :=
    ⟨type.text, [], by simp [render], derives_text hordered hexpressible, blanks_nil⟩
  exact hexpression.parse_ok

theorem ordered_and_expressible_of_parse (h : parse input = .ok type) :
    type.Ordered ∧ type.Expressible := by
  obtain ⟨text, -, -, hderives, -⟩ := expression_of_parse h
  exact hderives.ordered_and_expressible

/-- Exactly the expressible types come back from their print; the fields of a type are in ascending
order by definition. So the print tells expressible types apart, and every type that was read comes
back. -/
theorem parse_render_round_trip :
    (∀ type : ValueType, parse (render type) = .ok type ↔ type.Ordered ∧ type.Expressible) ∧
    (∀ type other : ValueType, type.Ordered → type.Expressible → other.Ordered →
      other.Expressible → render type = render other → type = other) ∧
    ∀ (input : String) (type : ValueType), parse input = .ok type →
      parse (render type) = .ok type := by
  refine ⟨fun type => ⟨ordered_and_expressible_of_parse, fun h => parse_render h.1 h.2⟩,
    ?_, ?_⟩
  · intro type other htype htypeNames hother hotherNames hprint
    have hread := parse_render htype htypeNames
    rw [hprint, parse_render hother hotherNames] at hread
    exact (Except.ok.inj hread).symm
  · intro input type h
    obtain ⟨hordered, hexpressible⟩ := ordered_and_expressible_of_parse h
    exact parse_render hordered hexpressible

/-- Racks with a number and the states of their doors. -/
def racksType : ValueType := .list (.object [("doors-open", .set .bool), ("id", .int64)])

/-- A field whose name looks like a field and the name of another one. -/
def blurredType : ValueType := .object [("a:string,b", .bool)]

/-- However they are written, racks are read and come back from their print, and no other type is
printed like them. The blurred field is printed as two fields, so its type does not come back. -/
theorem racks_parse_render :
    parse "list< object{ id:int64, doors-open:set<bool> } >" = .ok racksType ∧
      parse (render racksType) = .ok racksType ∧ racksType.Ordered ∧ racksType.Expressible ∧
      (∀ other : ValueType, other.Ordered → other.Expressible →
        render racksType = render other → racksType = other) ∧
      parse (render blurredType) ≠ .ok blurredType := by
  obtain ⟨hiff, hinjective, hagain⟩ := parse_render_round_trip
  have hread : parse "list< object{ id:int64, doors-open:set<bool> } >" = .ok racksType := by
    decide +kernel
  have hback : parse (render racksType) = .ok racksType := hagain _ _ hread
  obtain ⟨hordered, hexpressible⟩ := (hiff racksType).mp hback
  refine ⟨hread, hback, hordered, hexpressible,
    fun other => hinjective racksType other hordered hexpressible, fun h => ?_⟩
  obtain ⟨-, ⟨-, hchars⟩, -⟩ := (hiff blurredType).mp h
  have hcolon := hchars ':' (by decide)
  rw [not_isNameChar_of_mem_marks ':' (by decide)] at hcolon
  cases hcolon

end EntityModel.ValueType
