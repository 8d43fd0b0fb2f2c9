import EntityModel.Container.Request
import EntityModel.Proofs.Container.Projection
import EntityModel.Proofs.Difference.Convergence

/-!
# Records that are sent

A record that goes into a request holds known values of a container, those of the fields that a
property selects. It starts from a projection, and then entries are left out or added, another
record is merged in, or another one is taken in its place. What each of these steps does to the
record is told by the property that it selects by and by the form in which it sends a value.

* `Sends`: the entries of a record that is sent.
* `sends_iff`: the same in terms of look-ups.
* `filtered_sends`, `Sends.erase`, `Sends.addKnown`, `Sends.merge`, `Sends.orElse`: the steps.
-/

namespace EntityModel

theorem Assoc.mem_erase {α : Type} {entries : Assoc α} {key name : String} {value : α} :
    (name, value) ∈ erase key entries ↔ name ≠ key ∧ (name, value) ∈ entries := by
  rw [erase, List.mem_filter, decide_eq_true_eq, and_comm]

namespace Container

variable {c : Container} {entity : Entity} {name : String} {params others : Record}
  {form form' : String → Value → Raw} {p q : String → Prop}

/-- A record holds the known values that a property selects, each in the form of its name. -/
structure Sends (c : Container) (form : String → Value → Raw) (p : String → Prop)
    (params : Record) : Prop where
  ascending : Assoc.Ascending params
  entries : ∀ name raw, (name, raw) ∈ params ↔
    p name ∧ ∃ value, c.known? name = some value ∧ form name value = raw

/-- The same for the form without nulls. -/
abbrev SendsPruned (c : Container) (p : String → Prop) (params : Record) : Prop :=
  c.Sends (fun _ value => (lower value).prune) p params

theorem Sends.mem_keys (h : c.Sends form p params) :
    name ∈ Assoc.keys params ↔ p name ∧ c.Knows name := by
  rw [knows_iff]
  constructor
  · intro hkey
    obtain ⟨⟨key, raw⟩, hentry, rfl⟩ := List.mem_map.mp hkey
    obtain ⟨hp, value, hvalue, -⟩ := (h.entries key raw).mp hentry
    exact ⟨hp, value, hvalue⟩
  · rintro ⟨hp, value, hvalue⟩
    exact List.mem_map_of_mem (f := Prod.fst) ((h.entries name _).mpr ⟨hp, value, hvalue, rfl⟩)

/-- A record that selects known fields has no entries if there is nothing to select. -/
theorem Sends.eq_nil_iff (h : c.Sends form p params) (hp : ∀ name, p name → c.Knows name) :
    params = [] ↔ ∀ name, ¬ p name := by
  rw [Assoc.eq_nil_iff]
  refine forall_congr' fun name => not_congr ?_
  rw [h.mem_keys]
  exact and_iff_left_of_imp (hp name)

/-- Only what the property says about known fields matters, and only the forms of those. -/
theorem Sends.congr (h : c.Sends form p params)
    (hpq : ∀ name, c.Knows name → (p name ↔ q name))
    (hform : ∀ name value, q name → c.known? name = some value →
      form name value = form' name value) : c.Sends form' q params := by
  refine ⟨h.ascending, fun name raw => ?_⟩
  rw [h.entries]
  constructor
  · rintro ⟨hp, value, hvalue, rfl⟩
    have hq := (hpq name (knows_iff.mpr ⟨value, hvalue⟩)).mp hp
    exact ⟨hq, value, hvalue, (hform name value hq hvalue).symm⟩
  · rintro ⟨hq, value, hvalue, rfl⟩
    have hp := (hpq name (knows_iff.mpr ⟨value, hvalue⟩)).mpr hq
    exact ⟨hp, value, hvalue, hform name value hq hvalue⟩

theorem Sends.of_knows_and (h : c.Sends form p params)
    (hq : ∀ name, q name ↔ c.Knows name ∧ p name) : c.Sends form q params :=
  h.congr (fun name hknows => by rw [hq, and_iff_right hknows]) fun _ _ _ _ => rfl

/-- The raw value that is sent of a field depends on the field and the form alone. -/
theorem Sends.raw_eq {raw raw' : Raw} (h : c.Sends form p params) (hothers : c.Sends form q others)
    (hraw : (name, raw) ∈ params) (hraw' : (name, raw') ∈ others) : raw = raw' := by
  obtain ⟨-, value, hvalue, rfl⟩ := (h.entries name raw).mp hraw
  obtain ⟨-, value', hvalue', rfl⟩ := (hothers.entries name raw').mp hraw'
  cases hvalue.symm.trans hvalue'
  rfl

theorem sends_iff [DecidablePred p] (hascending : Assoc.Ascending params) :
    c.Sends form p params ↔ ∀ name, Assoc.get? params name =
      if p name then (c.known? name).map (form name) else none := by
  have hmem : ∀ name raw, (name, raw) ∈ params ↔ Assoc.get? params name = some raw :=
    fun _ _ => ⟨hascending.get?_of_mem, Assoc.mem_of_get?⟩
  constructor
  · intro h name
    ext raw
    rw [← hmem, h.entries, Option.ite_none_right_eq_some, Option.map_eq_some_iff]
  · intro h
    refine ⟨hascending, fun name raw => ?_⟩
    rw [hmem, h, Option.ite_none_right_eq_some, Option.map_eq_some_iff]

/-! ## The steps -/

theorem filtered_sends (hc : c.Sound) (hentity : c.entity? = some entity)
    (combination : Combination) (set : Option FieldSet) (filters : List FieldFilter)
    (hfilters : filters.contains .includeEmpty = false) :
    ∃ params, c.filtered combination set filters = .ok params ∧
      c.SendsPruned (fun name => selects entity combination set filters name = true) params := by
  obtain ⟨params, hparams, hascending, hmem⟩ :=
    filtered_entries hc hentity combination set filters
  refine ⟨params, hparams, hascending, fun name raw => ?_⟩
  rw [hmem, hfilters]
  simp [shown, known?_eq_some, and_assoc]

theorem Sends.erase (h : c.Sends form p params) (key : String) :
    c.Sends form (fun name => name ≠ key ∧ p name) (Assoc.erase key params) := by
  refine ⟨h.ascending.of_sublist (List.filter_sublist.map Prod.fst), fun name raw => ?_⟩
  rw [Assoc.mem_erase, h.entries, and_assoc]

theorem addKnown_cons (first : String) (rest : List String) :
    c.addKnown (first :: rest) params = c.addKnown rest
      (match c.known? first with
        | some value => Assoc.insert first (lower value) params
        | none => params) := by
  rw [addKnown, List.foldl_cons, addKnown, known?]
  cases Assoc.get? c.values first with
  | none => rfl
  | some value => cases hknown : value.isKnown <;> simp [Option.filter, hknown]

theorem get?_addKnown (names : List String) :
    Assoc.get? (c.addKnown names params) name =
      (if name ∈ names then (c.known? name).map lower else none).or (Assoc.get? params name) := by
  induction names generalizing params with
  | nil => simp [addKnown]
  | cons first rest ih =>
    rw [addKnown_cons, ih]
    by_cases hname : name = first
    · subst hname
      cases c.known? name with
      | none => simp
      | some value => by_cases hmem : name ∈ rest <;> simp [hmem, Assoc.get?_insert]
    · cases c.known? first <;> simp [hname, Assoc.get?_insert]

theorem ascending_addKnown (h : Assoc.Ascending params) (names : List String) :
    Assoc.Ascending (c.addKnown names params) := by
  induction names generalizing params with
  | nil => exact h
  | cons first rest ih =>
    rw [addKnown_cons]
    refine ih ?_
    split
    · exact Assoc.ascending_insert h
    · exact h

/-- Fields that are added take the place of what was there, and nulls are not left out of them. -/
theorem Sends.addKnown (h : c.Sends form p params) (names : List String) :
    c.Sends (fun name value => if name ∈ names then lower value else form name value)
      (fun name => p name ∨ name ∈ names) (c.addKnown names params) := by
  classical
  rw [sends_iff (ascending_addKnown h.ascending names)]
  intro name
  rw [get?_addKnown, (sends_iff h.ascending).mp h]
  by_cases hmem : name ∈ names <;> by_cases hp : p name <;> cases c.known? name <;>
    simp [hmem, hp]

/-- A record that is merged into another one matters only where the other one has nothing. -/
theorem Sends.merge (h : c.Sends form p params) (hothers : c.Sends form' q others)
    (hform : ∀ name value, ¬ p name → c.known? name = some value →
      form' name value = form name value) :
    c.Sends form (fun name => p name ∨ q name) (params.merge others false) := by
  classical
  rw [sends_iff (Record.ascending_merge h.ascending)]
  intro name
  rw [Record.get?_merge_keeping, (sends_iff h.ascending).mp h,
    (sends_iff hothers.ascending).mp hothers]
  cases hvalue : c.known? name with
  | none => simp
  | some value =>
    by_cases hp : p name
    · simp [hp]
    · simp [hp, hform name value hp hvalue]

/-- A record, or another one if it has no entries. -/
def orElse (first second : Record) : Record := if first.isEmpty then second else first

/-- A record of known fields gives way to another one only if it selects nothing. -/
theorem Sends.orElse (h : c.Sends form p params) (hp : ∀ name, p name → c.Knows name)
    (hothers : (∀ name, ¬ p name) → c.Sends form q others) :
    c.Sends form (fun name => p name ∨ (∀ other, ¬ p other) ∧ q name)
      (orElse params others) := by
  rw [Container.orElse]
  by_cases hnil : params = []
  · have hnone := (h.eq_nil_iff hp).mp hnil
    rw [if_pos (List.isEmpty_iff.mpr hnil)]
    exact (hothers hnone).congr (fun name _ => by simp [hnone]) fun _ _ _ _ => rfl
  · have hsome : ¬ ∀ name, ¬ p name := fun hnone => hnil ((h.eq_nil_iff hp).mpr hnone)
    rw [if_neg fun hempty => hnil (List.isEmpty_iff.mp hempty)]
    exact h.congr (fun name _ => by simp [hsome]) fun _ _ _ _ => rfl

end Container

end EntityModel
