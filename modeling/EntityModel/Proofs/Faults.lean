import EntityModel.Path.Basic
import EntityModel.Proofs.Lifting
import Mathlib.Data.List.Lex

/-!
# The first fault

A type and a raw value are walked together: the items of a list or set, the entries of a map and the
declared fields of an object that are there are again a type and a raw value. A fault is a place on
this walk with a raw value, not null, that the type there takes in none of its forms, whatever the
parts hold. Lifting fails just if there is a fault, and reports the first one: a whole comes before
its parts, items in their order, entries and fields in the order of their names.

* `Site.Within`, `Site.Fault`: the sites of the walk, and those that lifting trips over.
* `error?_liftAt`: the error of a site is its own or the first one of its parts.
* `Trail.textFrom_eq_render`: where no map is passed, the reported path is the print of a path.
* `lift_reports_first_fault`: the whole statement.
-/

namespace EntityModel

/-! ## Sites -/

/-- Whether a type takes a raw value that is not null, as far as its outermost form goes. -/
def ValueType.takes : ValueType → Raw → Bool
  | .string, _ => true
  | .int64, .int _ => true
  | .int64, .float value => value.isWhole
  | .float64, .int _ | .float64, .float _ => true
  | .float64, .string text => (Decimal.read? (Text.trim text.toList)).isSome
  | .bool, .bool _ => true
  | .list _, .list _ | .set _, .list _ => true
  | .map _, .map _ | .object _, .map _ => true
  | _, _ => false

/-- A raw value and the type that it is read as. -/
structure Site where
  type : ValueType
  raw : Raw

namespace Site

/-- A step from a site to one of its parts. -/
inductive Step where
  | item (position : Nat)
  | entry (key : String)
  | field (name : String)

/-- The parts of a site. A field is one if it is declared and there is a value under its name. -/
inductive Part : Site → Step → Site → Prop
  | listItem {element items position raw} (h : items[position]? = some raw) :
    Part ⟨.list element, .list items⟩ (.item position) ⟨element, raw⟩
  | setItem {element items position raw} (h : items[position]? = some raw) :
    Part ⟨.set element, .list items⟩ (.item position) ⟨element, raw⟩
  | entry {element entries key raw} (h : (key, raw) ∈ entries) :
    Part ⟨.map element, .map entries⟩ (.entry key) ⟨element, raw⟩
  | field {fields entries name type raw} (htype : (name, type) ∈ fields)
    (hraw : Assoc.get? entries name = some raw) :
    Part ⟨.object fields, .map entries⟩ (.field name) ⟨type, raw⟩

/-- The steps from a site to one inside it. -/
abbrev Trail := List Step

/-- The sites inside a site, each at the end of a trail. -/
inductive Within : Site → Trail → Site → Prop
  | here {site} : Within site [] site
  | inside {site step part trail inner} (hpart : Part site step part)
    (hinner : Within part trail inner) : Within site (step :: trail) inner

/-- Not null and in no form that the type takes. -/
def Fault (site : Site) : Prop := site.raw.isNull = false ∧ site.type.takes site.raw = false

/-- The maps and the objects of a site have their entries and fields in ascending order. -/
def Ordered (site : Site) : Prop := site.type.Ordered ∧ site.raw.Ordered

instance (site : Site) : Decidable site.Fault := inferInstanceAs (Decidable (_ ∧ _))

/-! ## The order of the walk -/

namespace Step

/-- Items in their order, entries and fields in the order of their names. -/
def Before : Step → Step → Prop
  | .item i, .item j => i < j
  | .entry key, .entry other => key < other
  | .field name, .field other => name < other
  | _, _ => False

theorem Before.irrefl (step : Step) : ¬ step.Before step := by
  cases step with
  | item i => exact Nat.lt_irrefl i
  | entry key => exact String.lt_irrefl key
  | field name => exact String.lt_irrefl name

theorem Before.asymm {step other : Step} (h : step.Before other) : ¬ other.Before step := by
  cases step <;> cases other
  case item.item => exact Nat.lt_asymm h
  case entry.entry | field.field => exact fun h' => String.lt_irrefl _ (String.lt_trans h h')
  all_goals exact h.elim

/-- A path and one more step: `[3]`, `["key"]` or `.name`. A name that nothing stands before goes
without the point. -/
def extend (path : String) : Step → String
  | .item position => path ++ "[" ++ toString position ++ "]"
  | .entry key => path ++ "[" ++ Text.quote key ++ "]"
  | .field name => if path.isEmpty then name else path ++ "." ++ name

end Step

namespace Trail

/-- Depth first: what leads to a site comes before what leads on from there. -/
def Before (trail other : Trail) : Prop := List.Lex Step.Before trail other

/-- The path at the end of a trail, from the path at its beginning. -/
def textFrom (base : String) (trail : Trail) : String := trail.foldl Step.extend base

end Trail

/-! ## The parts in the order of the walk -/

/-- The parts of a site, in the order in which lifting takes them. -/
def parts : Site → List (Step × Site)
  | ⟨.list element, .list items⟩ | ⟨.set element, .list items⟩ =>
    items.zipIdx.map fun item => (.item item.2, ⟨element, item.1⟩)
  | ⟨.map element, .map entries⟩ => entries.map fun entry =>
    (.entry entry.1, ⟨element, entry.2⟩)
  | ⟨.object fields, .map entries⟩ => fields.filterMap fun field =>
    (Assoc.get? entries field.1).map fun raw => (.field field.1, ⟨field.2, raw⟩)
  | _ => []

theorem mem_parts {site part : Site} {step : Step} :
    (step, part) ∈ site.parts ↔ site.Part step part := by
  constructor
  · intro h
    unfold parts at h
    split at h
    · obtain ⟨item, hitem, heq⟩ := List.mem_map.mp h
      cases heq
      exact .listItem (List.mem_zipIdx_iff_getElem?.mp hitem)
    · obtain ⟨item, hitem, heq⟩ := List.mem_map.mp h
      cases heq
      exact .setItem (List.mem_zipIdx_iff_getElem?.mp hitem)
    · obtain ⟨entry, hentry, heq⟩ := List.mem_map.mp h
      cases heq
      exact .entry hentry
    · obtain ⟨field, hfield, heq⟩ := List.mem_filterMap.mp h
      obtain ⟨raw, hraw, heq⟩ := Option.map_eq_some_iff.mp heq
      cases heq
      exact .field hfield hraw
    · cases h
  · intro h
    cases h with
    | @listItem _ _ position raw h | @setItem _ _ position raw h =>
      exact List.mem_map.mpr ⟨(raw, position), List.mem_zipIdx_iff_getElem?.mpr h, rfl⟩
    | entry h => exact List.mem_map.mpr ⟨_, h, rfl⟩
    | field htype hraw => exact List.mem_filterMap.mpr ⟨_, htype, by rw [hraw]; rfl⟩

theorem Part.ordered {site part : Site} {step : Step} (h : site.Part step part)
    (hsite : site.Ordered) : part.Ordered := by
  obtain ⟨htype, hraw⟩ := hsite
  cases h with
  | listItem h | setItem h =>
    exact ⟨htype, Raw.itemsOrdered_iff.mp hraw _ (List.mem_of_getElem? h)⟩
  | entry h => exact ⟨htype, Raw.entriesOrdered_iff.mp hraw.2 _ h⟩
  | field h hget =>
    exact ⟨ValueType.fieldsOrdered_iff.mp htype.2 _ h,
      Raw.entriesOrdered_iff.mp hraw.2 _ (Assoc.mem_of_get? hget)⟩

/-- The walk ends, as parts have smaller types. -/
theorem Part.sizeOf_lt {site part : Site} {step : Step} (h : site.Part step part) :
    sizeOf part.type < sizeOf site.type := by
  cases h with
  | listItem | setItem | entry => simp
  | field h =>
    have hfield := Assoc.sizeOf_lt_of_mem h
    simp only [ValueType.object.sizeOf_spec] at hfield ⊢
    omega

theorem pairwise_items (items : List Raw) :
    items.zipIdx.Pairwise fun item other => item.2 < other.2 := by
  have hpositions : (items.zipIdx.map Prod.snd).Pairwise (· < ·) := by
    rw [List.zipIdx_map_snd]
    exact List.pairwise_lt_range'
  exact List.pairwise_map.mp hpositions

theorem parts_pairwise {site : Site} (h : site.Ordered) :
    site.parts.Pairwise fun part other => part.1.Before other.1 := by
  obtain ⟨htype, hraw⟩ := h
  unfold parts
  split
  · exact List.pairwise_map.mpr (pairwise_items _)
  · exact List.pairwise_map.mpr (pairwise_items _)
  · exact List.pairwise_map.mpr hraw.1
  · refine List.Pairwise.filterMap _ ?_ htype.1
    intro field other hlt part hpart next hnext
    obtain ⟨raw, -, rfl⟩ := Option.map_eq_some_iff.mp hpart
    obtain ⟨raw', -, rfl⟩ := Option.map_eq_some_iff.mp hnext
    exact hlt
  · exact List.Pairwise.nil

end Site

/-! ## Errors -/

section

variable {α β γ : Type}

theorem findSome?_cons_or (f : α → Option β) (a : α) (rest : List α) :
    (a :: rest).findSome? f = (f a).or (rest.findSome? f) := by
  rw [List.findSome?_cons]
  cases f a <;> rfl

theorem findSome?_filterMap (f : α → Option β) (g : β → Option γ) (items : List α) :
    (items.filterMap f).findSome? g = items.findSome? fun item => (f item).bind g := by
  induction items with
  | nil => rfl
  | cons item rest ih =>
    rw [List.filterMap_cons, findSome?_cons_or, ← ih]
    cases f item with
    | none => rfl
    | some b => exact findSome?_cons_or g b _

end

section

variable {liftPart : Raw → String → Except ConversionError Value} {path : String}

theorem error?_liftItems {items : List Raw} {position : Nat} :
    error? (liftItems liftPart path position items) = (items.zipIdx position).findSome? fun item =>
      error? (liftPart item.1 (itemPath path item.2)) := by
  induction items generalizing position with
  | nil => rfl
  | cons item rest ih => rw [liftItems, error?_both, ih, List.zipIdx_cons, findSome?_cons_or]

theorem error?_liftEntries {entries : Record} :
    error? (liftEntries liftPart path entries) = entries.findSome? fun entry =>
      error? (liftPart entry.2 (entryPath path entry.1)) := by
  induction entries with
  | nil => rfl
  | cons entry rest ih => rw [liftEntries, error?_both, ih, findSome?_cons_or]

theorem error?_liftFields {fields : List (String × ValueType)} {entries : Record} :
    error? (liftFields fields entries path) = fields.findSome? fun field =>
      (Assoc.get? entries field.1).bind fun raw =>
        error? (liftAt field.2 raw (fieldPath path field.1)) := by
  induction fields with
  | nil => rfl
  | cons field rest ih =>
    rw [liftFields, findSome?_cons_or, ← ih]
    cases Assoc.get? entries field.1 with
    | none => exact error?_both _ _ _
    | some raw => exact error?_both _ _ _

end

namespace Site

variable {site : Site} {e : ConversionError}

theorem liftScalar?_isSome {type : ValueType} (hscalar : type.isPrimitive = true) (raw : Raw) :
    (liftScalar? type raw).isSome = type.takes raw := by
  cases type with
  | list _ | set _ | map _ | object _ => cases hscalar
  | _ => cases raw <;> simp [liftScalar?, ValueType.takes, Binary64.isWhole]

theorem error?_liftAt_scalar {type : ValueType} (hscalar : type.isPrimitive = true) (raw : Raw)
    (path : String) :
    error? (liftAt type raw path) =
      if Fault ⟨type, raw⟩ then some (.mismatch path type raw.kind) else none := by
  by_cases hnull : raw = .null
  · subst hnull
    rw [liftAt_null, if_neg (by simp [Fault, Raw.isNull])]
    rfl
  · have hnull' : raw.isNull = false := by cases raw <;> simp [Raw.isNull] at hnull ⊢
    have htakes := liftScalar?_isSome hscalar raw
    rw [liftAt_scalar hscalar hnull]
    cases hvalue : liftScalar? type raw with
    | some value => simp [error?, Fault, ← htakes, hvalue]
    | none => simp [error?, Fault, hnull', ← htakes, hvalue]

/-- The error of a site: its own if it is a fault, else the first one of its parts. -/
theorem error?_liftAt (site : Site) (path : String) :
    error? (liftAt site.type site.raw path) =
      if site.Fault then some (.mismatch path site.type site.raw.kind)
      else site.parts.findSome? fun part =>
        error? (liftAt part.2.type part.2.raw (part.1.extend path)) := by
  obtain ⟨type, raw⟩ := site
  cases type with
  | list element | set element =>
    cases raw with
    | list items =>
      rw [if_neg (by simp [Fault, ValueType.takes]), liftAt, error?_return, error?_liftItems, parts,
        List.findSome?_map]
      rfl
    | _ => simp [liftAt, liftScalar?, error?, Fault, ValueType.takes, Raw.isNull, parts]
  | map element =>
    cases raw with
    | map entries =>
      rw [if_neg (by simp [Fault, ValueType.takes]), liftAt, error?_return, error?_liftEntries,
        parts, List.findSome?_map]
      rfl
    | _ => simp [liftAt, liftScalar?, error?, Fault, ValueType.takes, Raw.isNull, parts]
  | object fields =>
    cases raw with
    | map entries =>
      rw [if_neg (by simp [Fault, ValueType.takes]), liftAt, error?_return, error?_liftFields,
        parts, findSome?_filterMap]
      simp only [Option.bind_map]
      rfl
    | _ => simp [liftAt, liftScalar?, error?, Fault, ValueType.takes, Raw.isNull, parts]
  | string | int64 | float64 | bool => exact error?_liftAt_scalar rfl raw path

/-! ## The first fault -/

theorem Within.fault_free {trail : Trail} {inner : Site} (h : Within site trail inner)
    (base : String) : error? (liftAt site.type site.raw base) = none → ¬ inner.Fault := by
  induction h generalizing base with
  | here =>
    intro hnone hfault
    rw [error?_liftAt, if_pos hfault] at hnone
    cases hnone
  | @inside site step part trail inner hpart _ ih =>
    intro hnone
    rw [error?_liftAt] at hnone
    split at hnone
    · cases hnone
    · exact ih _ (List.findSome?_eq_none_iff.mp hnone _ (mem_parts.mpr hpart))

/-- A step leads to one part only. -/
theorem Part.unique {step : Step} {part other : Site} (hsite : site.Ordered)
    (hpart : site.Part step part) (hother : site.Part step other) : part = other := by
  have hnodup : (site.parts.map Prod.fst).Nodup := by
    refine List.pairwise_map.mpr ((parts_pairwise hsite).imp ?_)
    intro first second hlt heq
    exact Step.Before.irrefl _ (heq ▸ hlt)
  have heq := List.inj_on_of_nodup_map hnodup (mem_parts.mpr hpart) (mem_parts.mpr hother) rfl
  exact congrArg Prod.snd heq

/-- What comes before a part in the walk stands before it in the list. -/
theorem Part.mem_before {step other : Step} {part next : Site} {before after : List (Step × Site)}
    (hsite : site.Ordered) (hparts : site.parts = before ++ (step, part) :: after)
    (hpart : site.Part other next) (hlt : other.Before step) : (other, next) ∈ before := by
  have hpairwise := parts_pairwise hsite
  have hmem := mem_parts.mpr hpart
  rw [hparts, List.pairwise_append, List.pairwise_cons] at hpairwise
  rw [hparts, List.mem_append, List.mem_cons] at hmem
  rcases hmem with hmem | heq | hmem
  · exact hmem
  · cases heq
    exact absurd hlt (Step.Before.irrefl _)
  · exact absurd hlt (hpairwise.2.1.1 _ hmem).asymm

/-- The end of a trail is a fault, and no end of a trail before it is. -/
structure FirstFault (site : Site) (trail : Trail) (inner : Site) : Prop where
  within : Within site trail inner
  fault : inner.Fault
  first : ∀ earlier other, Within site earlier other → earlier.Before trail → ¬ other.Fault

theorem FirstFault.here (h : site.Fault) : FirstFault site [] site where
  within := .here
  fault := h
  first _ _ _ hlt := absurd hlt List.not_lex_nil

theorem FirstFault.inside {step : Step} {part inner : Site} {trail : Trail}
    {before after : List (Step × Site)} (hsite : site.Ordered) (hfault : ¬ site.Fault)
    (hparts : site.parts = before ++ (step, part) :: after)
    (hbefore : ∀ other ∈ before, ∀ trail inner, Within other.2 trail inner → ¬ inner.Fault)
    (h : FirstFault part trail inner) : FirstFault site (step :: trail) inner := by
  have hpart : site.Part step part := mem_parts.mp (by simp [hparts])
  refine ⟨.inside hpart h.within, h.fault, fun earlier other hother hlt => ?_⟩
  -- An earlier trail ends here, takes an earlier step, or goes into the same part.
  cases hother with
  | here => exact hfault
  | @inside _ step' part' rest _ hpart' hinner =>
    cases hlt with
    | rel hlt => exact hbefore _ (hpart'.mem_before hsite hparts hlt) _ _ hinner
    | cons hlt =>
      obtain rfl := hpart.unique hsite hpart'
      exact h.first _ _ hinner hlt

theorem exists_firstFault {site : Site} {base : String} (hsite : site.Ordered)
    (h : error? (liftAt site.type site.raw base) = some e) : ∃ trail inner,
      FirstFault site trail inner ∧
        e = .mismatch (trail.textFrom base) inner.type inner.raw.kind := by
  rw [error?_liftAt] at h
  split at h
  · next hfault =>
    cases h
    exact ⟨[], site, .here hfault, rfl⟩
  · next hfault =>
    obtain ⟨before, ⟨step, part⟩, after, hparts, hpart, hbefore⟩ :=
      List.findSome?_eq_some_iff.mp h
    have hmem : site.Part step part := mem_parts.mp (by simp [hparts])
    have hsmaller := hmem.sizeOf_lt
    obtain ⟨trail, inner, hfirst, rfl⟩ := exists_firstFault (hmem.ordered hsite) hpart
    refine ⟨step :: trail, inner, .inside hsite hfault hparts ?_ hfirst, rfl⟩
    exact fun other hother trail inner hinner => hinner.fault_free _ (hbefore other hother)
termination_by sizeOf site.type

end Site

/-! ## Reported paths as paths -/

namespace Site

/-- The segment that is a step, if one is. -/
def Step.segment? : Step → Option Segment
  | .item position => some (.index (UInt64.ofNat position))
  | .entry _ => none
  | .field name => some (.key name)

/-- The path of the names and positions of a trail. -/
def Trail.path (trail : Trail) : Path := trail.filterMap Step.segment?

/-- Steps that a segment can stand for: to an item at a position of 64 bits, or to a field with a
name that is not empty. -/
def Step.Plain : Step → Prop
  | .item position => position < UInt64.size
  | .entry _ => False
  | .field name => name ≠ ""

def Trail.Plain (trail : Trail) : Prop := ∀ step ∈ trail, step.Plain

variable {trail : Trail} {step : Step}

theorem Step.extend_item {position : Nat} (hposition : position < UInt64.size) (path : String) :
    (Step.item position).extend path =
      path ++ String.ofList (Path.innerText (.index (UInt64.ofNat position))) := by
  rw [Step.extend, Path.innerText, Path.indexText, UInt64.toNat_ofNat', Nat.mod_eq_of_lt hposition]
  apply String.toList_inj.mp
  simp [Nat.repr]

theorem Step.extend_field {path : String} (hpath : path ≠ "") (name : String) :
    (Step.field name).extend path = path ++ String.ofList (Path.innerText (.key name)) := by
  rw [Step.extend, Path.innerText]
  apply String.toList_inj.mp
  simp [hpath]

theorem Step.Plain.extend (h : step.Plain) {path : String} (hpath : path ≠ "") :
    ∃ segment, step.segment? = some segment ∧
      step.extend path = path ++ String.ofList (Path.innerText segment) := by
  cases step with
  | item position => exact ⟨_, rfl, Step.extend_item h path⟩
  | entry key => exact h.elim
  | field name => exact ⟨_, rfl, Step.extend_field hpath name⟩

theorem Step.Plain.extend_empty (h : step.Plain) : step.extend "" ≠ "" ∧
    ∃ segment, step.segment? = some segment ∧ step.extend "" = Path.render [segment] := by
  cases step with
  | item position =>
    have hitem := Step.extend_item h ""
    refine ⟨?_, _, rfl, ?_⟩
    · rw [hitem]
      simp [Path.innerText, Path.indexText]
    · rw [hitem]
      simp [Path.innerText, Path.render, Path.text]
  | entry key => exact h.elim
  | field name =>
    have hfield : (Step.field name).extend "" = name := rfl
    refine ⟨?_, _, rfl, ?_⟩
    · rw [hfield]
      exact h
    · rw [hfield]
      simp [Path.render, Path.text]

theorem Trail.textFrom_append {path : String} (hpath : path ≠ "") (h : trail.Plain) :
    trail.textFrom path = path ++ String.ofList (trail.path.flatMap Path.innerText) := by
  induction trail generalizing path with
  | nil => simp [textFrom, Trail.path]
  | cons step rest ih =>
    obtain ⟨hstep, hrest⟩ := List.forall_mem_cons.mp h
    obtain ⟨segment, hsegment, hextend⟩ := hstep.extend hpath
    have hne : step.extend path ≠ "" := by simp [hextend, hpath]
    calc Trail.textFrom path (step :: rest)
      _ = Trail.textFrom (step.extend path) rest := rfl
      _ = step.extend path ++ String.ofList ((Trail.path rest).flatMap Path.innerText) :=
        ih hne hrest
      _ = path ++ String.ofList ((Trail.path (step :: rest)).flatMap Path.innerText) := by
        rw [hextend, Trail.path, Trail.path, List.filterMap_cons_some hsegment, List.flatMap_cons,
          String.ofList_append, String.append_assoc]

/-- From nowhere, a trail reads as the path of its names and positions is printed. -/
theorem Trail.textFrom_eq_render (h : trail.Plain) : trail.textFrom "" = trail.path.render := by
  cases trail with
  | nil => rfl
  | cons step rest =>
    obtain ⟨hstep, hrest⟩ := List.forall_mem_cons.mp h
    obtain ⟨hne, segment, hsegment, hextend⟩ := hstep.extend_empty
    calc Trail.textFrom "" (step :: rest)
      _ = Trail.textFrom (step.extend "") rest := rfl
      _ = Path.render [segment] ++ String.ofList ((Trail.path rest).flatMap Path.innerText) := by
        rw [textFrom_append hne hrest, hextend]
      _ = Path.render (segment :: Trail.path rest) := by
        cases segment <;> simp [Path.render, Path.text]
      _ = Path.render (Trail.path (step :: rest)) := by
        rw [Trail.path, Trail.path, List.filterMap_cons_some hsegment]

end Site

/-! ## The whole statement -/

section

variable {type : ValueType} {raw : Raw}

/-- Lifting fails just if some site of the walk is a fault. It then reports a fault with none before
it: the type there, the form of the raw value there, and the steps that lead there behind the path
that it started from. From nowhere, and through no map, these steps are printed as a path is. -/
theorem lift_reports_first_fault (base : String) (htype : type.Ordered) (hraw : raw.Ordered) :
    ((∃ e, liftAt type raw base = .error e) ↔
      ∃ trail inner, Site.Within ⟨type, raw⟩ trail inner ∧ inner.Fault) ∧
    ∀ e, liftAt type raw base = .error e → ∃ trail inner,
      Site.Within ⟨type, raw⟩ trail inner ∧ inner.Fault ∧
      (∀ earlier other, Site.Within ⟨type, raw⟩ earlier other → earlier.Before trail →
        ¬ other.Fault) ∧
      e = .mismatch (trail.textFrom base) inner.type inner.raw.kind ∧
      e.expectedText = inner.type.render ∧
      (base = "" → trail.Plain → e.path = trail.path.render) := by
  have hsite : Site.Ordered ⟨type, raw⟩ := ⟨htype, hraw⟩
  have hreport : ∀ e, liftAt type raw base = .error e → _ :=
    fun e he => Site.exists_firstFault hsite (error?_eq_some.mpr he)
  refine ⟨⟨?_, ?_⟩, ?_⟩
  · rintro ⟨e, he⟩
    obtain ⟨trail, inner, hfirst, -⟩ := hreport e he
    exact ⟨trail, inner, hfirst.within, hfirst.fault⟩
  · rintro ⟨trail, inner, hinner, hfault⟩
    cases hrun : liftAt type raw base with
    | ok value =>
      have hnone : error? (liftAt type raw base) = none := by rw [hrun, error?]
      exact absurd hfault (hinner.fault_free base hnone)
    | error e => exact ⟨e, rfl⟩
  · intro e he
    obtain ⟨trail, inner, hfirst, rfl⟩ := hreport e he
    refine ⟨trail, inner, hfirst.within, hfirst.fault, hfirst.first, rfl, rfl, ?_⟩
    rintro rfl hplain
    exact Site.Trail.textFrom_eq_render hplain

end

def machinesType : ValueType := .list (.object [("cpu", .int64), ("on", .bool)])

/-- The first machine has a null and a key that is not declared; the second one has two faults. -/
def machines : Raw :=
  .list [.map [("cpu", .null), ("disk", .string "sda")],
    .map [("cpu", .string "two"), ("on", .int 1)]]

theorem machines_first_fault :
    machinesType.Ordered ∧ machines.Ordered ∧
      ∃ e, liftAt machinesType machines "" = .error e ∧ e.path = "[1].cpu" ∧
        ∃ trail inner, Site.Within ⟨machinesType, machines⟩ trail inner ∧ inner.Fault ∧
          (∀ earlier other, Site.Within ⟨machinesType, machines⟩ earlier other →
            earlier.Before trail → ¬ other.Fault) ∧
          e = .mismatch (trail.textFrom "") inner.type inner.raw.kind ∧
          e.expectedText = inner.type.render ∧
          (trail.Plain → e.path = trail.path.render) := by
  have htype : machinesType.Ordered := ⟨by decide, trivial, trivial, trivial⟩
  have hraw : machines.Ordered :=
    ⟨⟨by decide, trivial, trivial, trivial⟩,
      ⟨by decide, trivial, trivial, trivial⟩, trivial⟩
  have hrun : liftAt machinesType machines "" = .error (.mismatch "[1].cpu" .int64 .string) := rfl
  obtain ⟨trail, inner, hwithin, hfault, hfirst, hreport, htext, hpath⟩ :=
    (lift_reports_first_fault "" htype hraw).2 _ hrun
  exact ⟨htype, hraw, _, hrun, rfl, trail, inner, hwithin, hfault, hfirst, hreport, htext,
    hpath rfl⟩

end EntityModel
