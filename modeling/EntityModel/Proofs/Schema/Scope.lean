import EntityModel.Proofs.Schema.Table

/-!
# The scope of a hint

A hint names one path. Here two introspections of one schema are compared, the second with one more
path in one of the lists.

* `attributeType_congr`, `classify_congr`, `fieldsBelow_congr`: introspection asks the hints about
  the paths of declared attributes only, and each of its parts only about some of the lists.
* `included_add_iff`: what a new exclusion leaves out is the path and what is below it.
* `introspect_add`: what a new hint changes in the table, for every list.
-/

namespace EntityModel

namespace Hints

variable {hints : Hints} {list other : HintList} {p path : String}

theorem mentions_add_iff : (hints.add list [p]).mentions other path = true ↔
    hints.mentions other path = true ∨ other = list ∧ path = p := by
  by_cases h : other = list
  · subst h
    simp [mentions, add]
  · simp [mentions, add, paths_put_of_ne h, h]

theorem mentions_add_self : (hints.add list [p]).mentions list p = true :=
  mentions_add_iff.mpr (.inr ⟨rfl, rfl⟩)

/-- A hint says nothing of another path, and nothing in another list. -/
theorem mentions_add_of_ne (h : other = list → path ≠ p) :
    (hints.add list [p]).mentions other path = hints.mentions other path := by
  have hnew : ¬(other = list ∧ path = p) := fun ⟨hlist, hpath⟩ => h hlist hpath
  rw [Bool.eq_iff_iff, mentions_add_iff, or_iff_left hnew]

end Hints

namespace Schema

/-! ## What introspection asks -/

variable {hints other : Hints} {lists : List HintList} {parent name : String}
  {attributes rest : List (String × Attribute)} {names : List String} {a : Attribute}

/-- Hints that agree on what is left out below a path, and in some lists on what is kept. What is
nested in an attribute that is left out does not matter. -/
def AgreeBelow (hints other : Hints) (lists : List HintList) (parent : String)
    (attributes : List (String × Attribute)) : Prop :=
  ∀ names a, Leads attributes names a → Included hints parent names.dropLast →
    other.mentions .excluded (dotted parent names) =
        hints.mentions .excluded (dotted parent names) ∧
      (Included hints parent names → ∀ list ∈ lists,
        other.mentions list (dotted parent names) = hints.mentions list (dotted parent names))

namespace AgreeBelow

theorem excluded (h : AgreeBelow hints other lists parent ((name, a) :: rest)) :
    other.mentions .excluded (joinPath parent name) =
      hints.mentions .excluded (joinPath parent name) :=
  (h [name] a (.here List.mem_cons_self) included_nil).1

theorem own (h : AgreeBelow hints other lists parent ((name, a) :: rest))
    (hkept : hints.mentions .excluded (joinPath parent name) = false) :
    ∀ list ∈ lists, other.mentions list (joinPath parent name) =
      hints.mentions list (joinPath parent name) :=
  (h [name] a (.here List.mem_cons_self) included_nil).2
    (included_cons.mpr ⟨hkept, included_nil⟩)

theorem children (h : AgreeBelow hints other lists parent ((name, a) :: rest))
    (hkept : hints.mentions .excluded (joinPath parent name) = false) :
    AgreeBelow hints other lists (joinPath parent name) (a.children?.getD []) := by
  intro names b hleads hreached
  have hreached' : Included hints parent (name :: names).dropLast := by
    rw [List.dropLast_cons_of_ne_nil hleads.names_ne_nil]
    exact included_cons.mpr ⟨hkept, hreached⟩
  obtain ⟨hexcluded, hlists⟩ :=
    h (name :: names) b (.inside List.mem_cons_self hleads) hreached'
  exact ⟨hexcluded, fun hincluded => hlists (included_cons.mpr ⟨hkept, hincluded⟩)⟩

theorem tail (h : AgreeBelow hints other lists parent ((name, a) :: rest)) :
    AgreeBelow hints other lists parent rest :=
  fun names b hleads => h names b (hleads.mono (List.subset_cons_self _ _))

theorem mono {fewer : List HintList} (h : AgreeBelow hints other lists parent attributes)
    (hsub : fewer ⊆ lists) : AgreeBelow hints other fewer parent attributes := by
  intro names a hleads hreached
  obtain ⟨hexcluded, hlists⟩ := h names a hleads hreached
  exact ⟨hexcluded, fun hincluded list hlist => hlists hincluded list (hsub hlist)⟩

end AgreeBelow

mutual
theorem attributeType_congr : ∀ {a : Attribute} {path : String},
    other.mentions .preserveOrder path = hints.mentions .preserveOrder path →
    AgreeBelow hints other [.preserveOrder] path (a.children?.getD []) →
    attributeType other path a = attributeType hints path a
  | .plain shape d, path, hown, _ => by rw [attributeType, attributeType, hown]
  | .nested nesting children d, path, hown, hbelow => by
    have hchildren : childTypes other path children = childTypes hints path children :=
      childTypes_congr hbelow
    rw [attributeType, attributeType, hown, hchildren]

theorem childTypes_congr : ∀ {children : List (String × Attribute)} {parent : String},
    AgreeBelow hints other [.preserveOrder] parent children →
    childTypes other parent children = childTypes hints parent children
  | [], _, _ => rfl
  | (name, child) :: rest, parent, h => by
    have hrest : childTypes other parent rest = childTypes hints parent rest :=
      childTypes_congr h.tail
    simp only [childTypes, h.excluded, hrest]
    cases hkept : hints.mentions .excluded (joinPath parent name) with
    | true => rfl
    | false =>
      have hchild : attributeType other (joinPath parent name) child =
          attributeType hints (joinPath parent name) child :=
        attributeType_congr (h.own hkept _ List.mem_cons_self) (h.children hkept)
      rw [hchild]
end

/-- A classification depends on the twelve lists that are about classifications. -/
theorem classify_congr {path : String}
    (h : ∀ list, list ≠ .excluded → list ≠ .preserveOrder →
    other.mentions list path = hints.mentions list path) :
    classify other path a = classify hints path a := by
  have hoverlay : ∀ c, overlay other path c = overlay hints path c := by
    intro c
    simp [overlay, h]
  simp only [classify, hoverlay]

mutual
theorem attributeFields_congr : ∀ {a : Attribute} {path : String},
    (∀ list, other.mentions list path = hints.mentions list path) →
    AgreeBelow hints other HintList.all path (a.children?.getD []) →
    attributeFields other path a = attributeFields hints path a
  | .plain shape d, path, hown, hbelow => by
    have htype := attributeType_congr (hown _) (hbelow.mono (by simp [HintList.mem_all]))
    rw [attributeFields, attributeFields, htype, classify_congr fun list _ _ => hown list]
  | .nested nesting children d, path, hown, hbelow => by
    have htype := attributeType_congr (hown _) (hbelow.mono (by simp [HintList.mem_all]))
    have hchildren : fieldsBelow other path children = fieldsBelow hints path children :=
      fieldsBelow_congr hbelow
    rw [attributeFields, attributeFields, htype, classify_congr fun list _ _ => hown list,
      hchildren]

theorem fieldsBelow_congr : ∀ {attributes : List (String × Attribute)} {parent : String},
    AgreeBelow hints other HintList.all parent attributes →
    fieldsBelow other parent attributes = fieldsBelow hints parent attributes
  | [], _, _ => rfl
  | (name, a) :: rest, parent, h => by
    have hrest : fieldsBelow other parent rest = fieldsBelow hints parent rest :=
      fieldsBelow_congr h.tail
    simp only [fieldsBelow, h.excluded, hrest]
    cases hkept : hints.mentions .excluded (joinPath parent name) with
    | true => rfl
    | false =>
      have hfirst : attributeFields other (joinPath parent name) a =
          attributeFields hints (joinPath parent name) a :=
        attributeFields_congr (fun list => h.own hkept list (HintList.mem_all list))
          (h.children hkept)
      rw [hfirst]
end

/-! ## What is left out -/

variable {list : HintList} {p : String} {fields : List (String × Field)}

theorem Included.of_add (h : Included (hints.add list [p]) "" names) : Included hints "" names := by
  intro front hne hfront
  have hkept := h front hne hfront
  rw [Bool.eq_false_iff] at hkept ⊢
  exact fun hmentions => hkept (Hints.mentions_add_iff.mpr (.inl hmentions))

/-- Away from the path, a new hint leaves out nothing that was not left out before. -/
theorem included_add_iff (hleads : Leads attributes names a)
    (hfields : fieldsBelow hints "" attributes = .ok fields)
    (haway : list = .excluded → dotted "" names ≠ p ∧ ¬Below (dotted "" names) p) :
    Included (hints.add list [p]) "" names ↔ Included hints "" names := by
  refine ⟨Included.of_add, fun h front hne hfront => ?_⟩
  rw [Hints.mentions_add_of_ne]
  · exact h front hne hfront
  · rintro rfl rfl
    obtain ⟨hother, hbelow⟩ := haway rfl
    have hnotEmpty := hleads.front_ne_empty hne hfront hfields
    obtain ⟨back, rfl⟩ := hfront
    by_cases hback : back = []
    · subst hback
      exact hother (by rw [List.append_nil])
    · apply hbelow
      rw [dotted_append]
      exact below_dotted hnotEmpty hback

/-- An exclusion leaves out its path and everything below it. -/
theorem not_included_add (hleads : Leads attributes names a)
    (hfields : fieldsBelow (hints.add .excluded [p]) "" attributes = .ok fields)
    (hpath : dotted "" names = p ∨ Below (dotted "" names) p) :
    ¬Included (hints.add .excluded [p]) "" names := by
  intro hincluded
  obtain ⟨front, hne, hfront, heq⟩ :
      ∃ front, front ≠ [] ∧ front <+: names ∧ dotted "" front = p := by
    rcases hpath with heq | hbelow
    · exact ⟨names, hleads.names_ne_nil, List.prefix_rfl, heq⟩
    · have hnames := hleads.isName hincluded.reached hfields
      obtain ⟨front, back, rfl, hne, -, heq⟩ := exists_append_of_below hnames hbelow
      exact ⟨front, hne, List.prefix_append front back, heq⟩
  have hkept := hincluded front hne hfront
  rw [heq, Hints.mentions_add_self] at hkept
  cases hkept

end Schema

/-! ## Two tables -/

open Schema

section

variable {schema : EntitySchema} {hints : Hints} {list : HintList} {p path : String}
  {i j : Introspection}

theorem classificationOf?_add (hschema : schema.Ordered) (hi : introspect schema hints = .ok i)
    (hj : introspect schema (hints.add list [p]) = .ok j)
    (hne : list ≠ .preserveOrder → path ≠ p)
    (hbelow : list = .excluded → ¬Below path p) :
    j.classificationOf? path = i.classificationOf? path := by
  obtain ⟨-, fields, hfields, -⟩ := introspect_ok.mp hi
  ext c
  rw [classificationOf?_eq_some_iff hschema hj, classificationOf?_eq_some_iff hschema hi]
  refine exists_congr fun names => exists_congr fun a => and_congr_right fun hpath =>
    and_congr_right fun hleads => ?_
  have hincluded : Included (hints.add list [p]) "" names ↔ Included hints "" names := by
    refine included_add_iff hleads hfields fun hlist => ?_
    rw [hpath]
    exact ⟨hne (by simp [hlist]), hbelow hlist⟩
  have hclassify : classify (hints.add list [p]) path a = classify hints path a :=
    classify_congr fun other _ horder => Hints.mentions_add_of_ne fun heq => hne (heq ▸ horder)
  rw [hincluded, hclassify]

theorem typeOf?_add (hschema : schema.Ordered) (hi : introspect schema hints = .ok i)
    (hj : introspect schema (hints.add list [p]) = .ok j)
    (hne : list = .excluded ∨ list = .preserveOrder → path ≠ p ∧ ¬Below p path)
    (hbelow : list = .excluded → ¬Below path p) : j.typeOf? path = i.typeOf? path := by
  obtain ⟨-, fields, hfields, -⟩ := introspect_ok.mp hi
  ext type
  rw [typeOf?_eq_some_iff hschema hj, typeOf?_eq_some_iff hschema hi]
  refine exists_congr fun names => exists_congr fun a => and_congr_right fun hpath =>
    and_congr_right fun hleads => ?_
  have hincluded : Included (hints.add list [p]) "" names ↔ Included hints "" names := by
    refine included_add_iff hleads hfields fun hlist => ?_
    rw [hpath]
    exact ⟨(hne (.inl hlist)).1, hbelow hlist⟩
  have hnotEmpty : path ≠ "" :=
    hpath ▸ hleads.front_ne_empty hleads.names_ne_nil List.prefix_rfl hfields
  have htype : attributeType (hints.add list [p]) path a = attributeType hints path a := by
    apply attributeType_congr
    · exact Hints.mentions_add_of_ne fun heq => (hne (.inr heq.symm)).1
    · intro others b hothers _
      have hchild : Below (dotted path others) path := below_dotted hnotEmpty hothers.names_ne_nil
      have haway : list = .excluded ∨ list = .preserveOrder → dotted path others ≠ p := by
        rintro hlist rfl
        exact (hne hlist).2 hchild
      refine ⟨Hints.mentions_add_of_ne fun heq => haway (.inl heq.symm),
        fun _ other horder => ?_⟩
      obtain rfl := List.mem_singleton.mp horder
      exact Hints.mentions_add_of_ne fun heq => haway (.inr heq.symm)
  rw [hincluded, htype]

theorem typeOf?_add_excluded (hschema : schema.Ordered)
    (hj : introspect schema (hints.add .excluded [p]) = .ok j)
    (hpath : path = p ∨ Below path p) : j.typeOf? path = none := by
  obtain ⟨-, fields, hfields, -⟩ := introspect_ok.mp hj
  by_contra h
  obtain ⟨type, htype⟩ := Option.ne_none_iff_exists'.mp h
  obtain ⟨names, a, rfl, hleads, hincluded, -⟩ := (typeOf?_eq_some_iff hschema hj).mp htype
  exact not_included_add hleads hfields hpath hincluded

theorem introspect_congr {other : Hints} (hi : introspect schema hints = .ok i)
    (hj : introspect schema other = .ok j)
    (h : AgreeBelow hints other HintList.all "" schema.attributes) : j = i := by
  obtain ⟨-, fields, hfields, rfl⟩ := introspect_ok.mp hi
  obtain ⟨-, others, hothers, rfl⟩ := introspect_ok.mp hj
  rw [fieldsBelow_congr h, hfields] at hothers
  cases hothers
  rfl

/-- A hint about nothing that is kept: its path is not declared, or left out already. -/
theorem agreeBelow_add (h : ∀ names a, Leads schema.attributes names a →
    Included hints "" names → dotted "" names ≠ p) :
    AgreeBelow hints (hints.add list [p]) HintList.all "" schema.attributes := by
  intro names a hleads hreached
  refine ⟨?_, fun hincluded other _ => ?_⟩
  · by_cases heq : dotted "" names = p
    · have hout : hints.mentions .excluded (dotted "" names) = true := by
        by_contra hkept
        refine h names a hleads ?_ heq
        rw [← List.dropLast_append_getLast hleads.names_ne_nil] at hkept ⊢
        rw [dotted_append] at hkept
        exact included_concat.mpr ⟨hreached, Bool.eq_false_iff.mpr hkept⟩
      rw [hout]
      exact Hints.mentions_add_iff.mpr (.inl hout)
    · exact Hints.mentions_add_of_ne fun _ => heq
  · exact Hints.mentions_add_of_ne fun _ => h names a hleads hincluded

/-- One more path in one list. A list about classifications touches the classification of the path.
Keeping order touches the type of the path and those of the attributes around it, and an exclusion
takes away the path and what is below it, and so touches the types of the attributes around it. A
path that is not declared, or already left out, touches nothing. -/
theorem introspect_add (hschema : schema.Ordered) (hi : introspect schema hints = .ok i)
    (hj : introspect schema (hints.add list [p]) = .ok j) :
    (list ≠ .excluded → list ≠ .preserveOrder →
      (∀ path, j.typeOf? path = i.typeOf? path) ∧
      ∀ path, path ≠ p → j.classificationOf? path = i.classificationOf? path) ∧
    (list = .preserveOrder →
      (∀ path, j.classificationOf? path = i.classificationOf? path) ∧
      ∀ path, path ≠ p → ¬Below p path → j.typeOf? path = i.typeOf? path) ∧
    (list = .excluded →
      (∀ path, path = p ∨ Below path p →
        j.typeOf? path = none ∧ j.classificationOf? path = none) ∧
      (∀ path, path ≠ p → ¬Below path p →
        j.classificationOf? path = i.classificationOf? path ∧
          ((j.typeOf? path).isSome ↔ (i.typeOf? path).isSome)) ∧
      ∀ path, path ≠ p → ¬Below path p → ¬Below p path →
        j.typeOf? path = i.typeOf? path) ∧
    ((∀ names a, Leads schema.attributes names a → Included hints "" names →
      dotted "" names ≠ p) → j = i) := by
  refine ⟨?_, ?_, ?_, ?_⟩
  · intro hexcluded horder
    refine ⟨fun path => ?_, fun path hne => ?_⟩
    · exact typeOf?_add hschema hi hj (by simp [hexcluded, horder]) (by simp [hexcluded])
    · exact classificationOf?_add hschema hi hj (fun _ => hne) (by simp [hexcluded])
  · rintro rfl
    refine ⟨fun path => ?_, fun path hne habove => ?_⟩
    · exact classificationOf?_add hschema hi hj (by simp) (by simp)
    · exact typeOf?_add hschema hi hj (fun _ => ⟨hne, habove⟩) (by simp)
  · rintro rfl
    refine ⟨fun path hpath => ?_, fun path hne hbelow => ?_, fun path hne hbelow habove => ?_⟩
    · have htype := typeOf?_add_excluded hschema hj hpath
      refine ⟨htype, ?_⟩
      rw [← Option.not_isSome_iff_eq_none, ← isSome_typeOf?, htype]
      simp
    · have hc := classificationOf?_add hschema hi hj (fun _ => hne) fun _ => hbelow
      exact ⟨hc, by rw [isSome_typeOf?, isSome_typeOf?, hc]⟩
    · exact typeOf?_add hschema hi hj (fun _ => ⟨hne, habove⟩) fun _ => hbelow
  · intro hundeclared
    exact introspect_congr hi hj (agreeBelow_add hundeclared)

end

/-- The cluster when its pools are left out as well. -/
def clusterRest : Introspection where
  fields := [("spec", ⟨.object [("zone", .string)], { computed := true }⟩),
    ("spec.zone", ⟨.string, { computed := true }⟩)]

theorem cluster_without_pools :
    cluster.Ordered ∧ introspect cluster clusterHints = .ok clusterTable ∧
      introspect cluster (clusterHints.add .excluded ["spec.pools"]) = .ok clusterRest ∧
        clusterRest.typeOf? "spec.pools.name" = none ∧
        clusterRest.typeOf? "spec.zone" = clusterTable.typeOf? "spec.zone" ∧
        clusterRest.classificationOf? "spec" = clusterTable.classificationOf? "spec" := by
  have hrest : introspect cluster (clusterHints.add .excluded ["spec.pools"]) = .ok clusterRest :=
    rfl
  obtain ⟨-, -, hexcluded, -⟩ := introspect_add cluster_ordered introspect_cluster hrest
  obtain ⟨hgone, hkept, hsame⟩ := hexcluded rfl
  have hname : Below "spec.pools.name" "spec.pools" := ⟨"name", rfl⟩
  exact ⟨cluster_ordered, introspect_cluster, hrest, (hgone _ (.inr hname)).1,
    hsame _ (by decide) (by decide) (by decide), (hkept _ (by decide) (by decide)).1⟩

end EntityModel
