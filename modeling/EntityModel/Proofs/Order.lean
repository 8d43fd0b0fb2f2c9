import EntityModel.Conversion
import EntityModel.Proofs.Outcome
import EntityModel.Schema.Introspection
import Mathlib.Data.List.Perm.Subperm
import Mathlib.Data.List.Permutation
import Mathlib.Data.List.Sort

/-!
# Order at every depth

Whatever holds entries under keys holds them in ascending order, in values as in their types, in raw
values, in JSON values and in declarations. The predicates `Ordered` say so at every depth.

* `Assoc.Ascending.keys_eq`: ascending entries of as many keys have the same keys.
* `Raw.ofJson_ordered`: the raw value of an ordered JSON value is ordered.
-/

namespace EntityModel

/-! ## Ascending entries -/

namespace Assoc

variable {α β : Type}

theorem ascending_iff {entries : Assoc α} :
    Ascending entries ↔ (keys entries).Pairwise (· < ·) := by
  rw [keys, List.pairwise_map]
  rfl

instance (entries : Assoc α) : Decidable (Ascending entries) :=
  inferInstanceAs (Decidable (entries.Pairwise fun a b => a.1 < b.1))

@[simp] theorem ascending_singleton (entry : String × α) : Ascending [entry] :=
  List.pairwise_singleton _ entry

/-- The order is a matter of the keys alone, and leaving some out does not disturb it. -/
theorem Ascending.of_sublist {entries : Assoc α} {others : Assoc β} (h : Ascending entries)
    (hsub : (keys others).Sublist (keys entries)) : Ascending others :=
  ascending_iff.mpr ((ascending_iff.mp h).sublist hsub)

theorem Ascending.of_keys {entries : Assoc α} {others : Assoc β} (h : Ascending entries)
    (hkeys : keys others = keys entries) : Ascending others :=
  h.of_sublist (hkeys ▸ List.Sublist.refl _)

theorem Ascending.keys_ext {as : Assoc α} {bs : Assoc β} (has : Ascending as) (hbs : Ascending bs)
    (hkeys : ∀ key, key ∈ keys as ↔ key ∈ keys bs) : keys as = keys bs := by
  have hirrefl : Std.Irrefl fun a b : String => a < b := ⟨String.lt_irrefl⟩
  have hantisymm : Std.Antisymm fun a b : String => a < b :=
    ⟨fun a b hab hba => absurd (String.lt_trans hab hba) (String.lt_irrefl a)⟩
  exact (ascending_iff.mp has).eq_of_mem_iff (ascending_iff.mp hbs) hkeys

theorem ascending_replace {key : String} {value : α} {entries : Assoc α} (h : Ascending entries) :
    Ascending (replace key value entries) :=
  h.of_keys (keys_replace key value entries)

/-- In ascending entries a look-up finds every entry. -/
theorem Ascending.get?_of_mem {entries : Assoc α} (h : Ascending entries) {key : String}
    {value : α} (hmem : (key, value) ∈ entries) : get? entries key = some value := by
  induction entries with
  | nil => cases hmem
  | cons entry rest ih =>
    obtain ⟨name, first⟩ := entry
    obtain ⟨hfirst, hrest⟩ := List.pairwise_cons.mp h
    rw [get?_cons]
    rcases List.mem_cons.mp hmem with heq | hmem
    · cases heq
      rw [if_pos rfl]
    · have hne : key ≠ name := fun heq => String.lt_irrefl name (heq ▸ hfirst _ hmem)
      rw [if_neg hne]
      exact ih hrest hmem

/-- Entries are larger than the value of any of them, so that recursion may go into the values. -/
theorem sizeOf_lt_of_mem [SizeOf α] {entries : Assoc α} {entry : String × α}
    (h : entry ∈ entries) : sizeOf entry.2 < sizeOf entries := by
  obtain ⟨key, value⟩ := entry
  have hentry := List.sizeOf_lt_of_mem h
  rw [Prod.mk.sizeOf_spec] at hentry
  simp only
  omega

/-- Ascending entries under some of the keys of others, and no fewer, have the same keys. -/
theorem Ascending.keys_eq {entries : Assoc α} {others : Assoc β} (h : Ascending entries)
    (hothers : Ascending others) (hsub : ∀ key ∈ keys entries, key ∈ keys others)
    (hlength : others.length ≤ entries.length) : keys entries = keys others := by
  have hnodup : (keys entries).Nodup := (ascending_iff.mp h).imp fun hlt => String.ne_of_lt hlt
  have hperm : (keys entries).Perm (keys others) :=
    (List.subperm_of_subset hnodup hsub).perm_of_length_le (by simpa [keys] using hlength)
  refine hperm.eq_of_pairwise ?_ (ascending_iff.mp h) (ascending_iff.mp hothers)
  exact fun a b _ _ hab hba => absurd (String.lt_trans hab hba) (String.lt_irrefl a)

theorem eq_nil_iff {entries : Assoc α} : entries = [] ↔ ∀ key, key ∉ keys entries := by
  rw [← List.eq_nil_iff_forall_not_mem, keys, List.map_eq_nil_iff]

theorem mem_of_get? {entries : Assoc α} {key : String} {value : α}
    (h : get? entries key = some value) : (key, value) ∈ entries := by
  induction entries with
  | nil => cases h
  | cons entry rest ih =>
    obtain ⟨name, first⟩ := entry
    rw [get?_cons] at h
    split at h
    · next heq =>
      cases h
      rw [heq]
      exact List.mem_cons_self
    · exact List.mem_cons_of_mem _ (ih h)

/-- Ascending entries are determined by which they are. -/
theorem Ascending.eq_of_mem_iff {as bs : Assoc α} (has : Ascending as) (hbs : Ascending bs)
    (h : ∀ entry, entry ∈ as ↔ entry ∈ bs) : as = bs := by
  have hirrefl : Std.Irrefl fun a b : String × α => a.1 < b.1 :=
    ⟨fun a => String.lt_irrefl a.1⟩
  have hantisymm : Std.Antisymm fun a b : String × α => a.1 < b.1 :=
    ⟨fun a b hab hba => absurd (String.lt_trans hab hba) (String.lt_irrefl a.1)⟩
  exact List.Pairwise.eq_of_mem_iff has hbs h

/-- Ascending entries are determined by what look-ups find. -/
theorem Ascending.ext {as bs : Assoc α} (has : Ascending as) (hbs : Ascending bs)
    (h : ∀ key, get? as key = get? bs key) : as = bs := by
  refine has.eq_of_mem_iff hbs fun entry => ?_
  constructor
  · intro hmem
    exact mem_of_get? ((h entry.1).symm.trans (has.get?_of_mem hmem))
  · intro hmem
    exact mem_of_get? ((h entry.1).trans (hbs.get?_of_mem hmem))

theorem get?_mapValues (f : α → β) (entries : Assoc α) (key : String) :
    get? (mapValues f entries) key = (get? entries key).map f := by
  induction entries with
  | nil => rfl
  | cons entry rest ih =>
    obtain ⟨name, value⟩ := entry
    rw [mapValues, List.map_cons, ← mapValues, get?_cons, get?_cons, ih]
    split <;> rfl

theorem mapValues_cons (f : α → β) (key : String) (value : α) (rest : Assoc α) :
    mapValues f ((key, value) :: rest) = (key, f value) :: mapValues f rest := rfl

theorem mapValues_append (f : α → β) (entries others : Assoc α) :
    mapValues f (entries ++ others) = mapValues f entries ++ mapValues f others :=
  List.map_append

@[simp] theorem keys_mapValues (f : α → β) (entries : Assoc α) :
    keys (mapValues f entries) = keys entries := by
  rw [keys, keys, mapValues, List.map_map]
  rfl

theorem mapValues_insert (f : α → β) (key : String) (value : α) (entries : Assoc α) :
    mapValues f (insert key value entries) = insert key (f value) (mapValues f entries) := by
  induction entries with
  | nil => rfl
  | cons entry rest ih =>
    obtain ⟨name, old⟩ := entry
    rw [mapValues_cons, insert, insert]
    split
    · rfl
    · split
      · rfl
      · rw [mapValues_cons, ih]

theorem mapValues_ofList (f : α → β) (list : List (String × α)) :
    mapValues f (ofList list) = ofList (mapValues f list) := by
  have general : ∀ (entries : List (String × α)) (done : Assoc α),
      mapValues f (entries.foldl (fun done e => insert e.1 e.2 done) done) =
        (mapValues f entries).foldl (fun done e => insert e.1 e.2 done) (mapValues f done) := by
    intro entries
    induction entries with
    | nil => exact fun _ => rfl
    | cons entry rest ih =>
      intro done
      rw [List.foldl_cons, ih, mapValues_insert]
      rfl
  exact general list []

theorem mem_keys_insert {key other : String} {value : α} {entries : Assoc α} :
    other ∈ keys (insert key value entries) ↔ other = key ∨ other ∈ keys entries := by
  rw [mem_keys_iff, mem_keys_iff, get?_insert]
  split <;> simp [*]

/-- Under a new key an insertion adds one entry. -/
theorem insert_perm {key : String} {value : α} {entries : Assoc α} (h : key ∉ keys entries) :
    (insert key value entries).Perm ((key, value) :: entries) := by
  induction entries with
  | nil => exact List.Perm.refl _
  | cons entry rest ih =>
    obtain ⟨name, old⟩ := entry
    obtain ⟨hne, hrest⟩ : key ≠ name ∧ key ∉ keys rest := by simpa [keys] using h
    rw [insert, if_neg hne]
    split
    · exact List.Perm.refl _
    · exact ((ih hrest).cons _).trans (List.Perm.swap _ _ _)

theorem insert_eq_of_perm {key : String} {value : α} {entries others : Assoc α}
    (h : key ∉ keys entries) (hentries : Ascending entries) (hothers : Ascending others)
    (hperm : others.Perm ((key, value) :: entries)) : insert key value entries = others :=
  (ascending_insert hentries).eq_of_mem_iff hothers fun _ =>
    ((insert_perm h).trans hperm.symm).mem_iff

theorem mem_replace {key : String} {value : α} {entries : Assoc α} {entry : String × α}
    (h : entry ∈ replace key value entries) : entry = (key, value) ∨ entry ∈ entries := by
  induction entries with
  | nil => cases h
  | cons first rest ih =>
    rw [replace] at h
    split at h
    · exact (List.mem_cons.mp h).imp_right (List.mem_cons_of_mem _)
    · rcases List.mem_cons.mp h with rfl | h
      · exact .inr List.mem_cons_self
      · exact (ih h).imp_right (List.mem_cons_of_mem _)

theorem mem_of_mem_ofList {list : List (String × α)} {entry : String × α}
    (h : entry ∈ ofList list) : entry ∈ list := by
  have general : ∀ (entries : List (String × α)) (done : Assoc α),
      entry ∈ entries.foldl (fun done e => insert e.1 e.2 done) done →
        entry ∈ done ∨ entry ∈ entries := by
    intro entries
    induction entries with
    | nil => exact fun _ h => .inl h
    | cons first rest ih =>
      intro done hmem
      rcases ih _ hmem with hmem | hmem
      · exact (mem_insert hmem).elim (fun heq => .inr (heq ▸ List.mem_cons_self)) .inl
      · exact .inr (List.mem_cons_of_mem _ hmem)
  exact (general list [] h).resolve_left (by simp)

theorem mem_keys_ofList {list : List (String × α)} {key : String} :
    key ∈ keys (ofList list) ↔ key ∈ list.map Prod.fst := by
  have general : ∀ (entries : List (String × α)) (done : Assoc α),
      key ∈ keys (entries.foldl (fun done e => insert e.1 e.2 done) done) ↔
        key ∈ keys done ∨ key ∈ entries.map Prod.fst := by
    intro entries
    induction entries with
    | nil => simp
    | cons first rest ih =>
      intro done
      rw [List.foldl_cons, ih, mem_keys_insert, List.map_cons, List.mem_cons]
      tauto
  exact (general list []).trans (by simp [keys])

/-- Entries that are collected under the keys they come from. A key may be there several times, as
the entries of one key are the same. -/
theorem mem_ofList_filterMap {f : String → Option (String × α)} {names : List String}
    {entry : String × α} (hf : ∀ {key e}, f key = some e → e.1 = key) :
    entry ∈ ofList (names.filterMap f) ↔ entry.1 ∈ names ∧ f entry.1 = some entry := by
  constructor
  · intro hmem
    obtain ⟨name, hname, hentry⟩ := List.mem_filterMap.mp (mem_of_mem_ofList hmem)
    rw [hf hentry]
    exact ⟨hname, hentry⟩
  · rintro ⟨hname, hentry⟩
    have hlisted : entry ∈ names.filterMap f :=
      List.mem_filterMap.mpr ⟨entry.1, hname, hentry⟩
    have hkey := mem_keys_ofList.mpr (List.mem_map_of_mem hlisted)
    obtain ⟨other, hother, heq⟩ := List.mem_map.mp hkey
    obtain ⟨name, -, hfirst⟩ := List.mem_filterMap.mp (mem_of_mem_ofList hother)
    rw [← hf hfirst, heq, hentry] at hfirst
    rw [Option.some.inj hfirst]
    exact hother

/-- What is made of ascending entries under their own keys is ascending. -/
theorem Ascending.filterMap {entries : Assoc α} (h : Ascending entries)
    {f : String × α → Option (String × β)}
    (hf : ∀ {entry e}, f entry = some e → e.1 = entry.1) :
    Ascending (entries.filterMap f) := by
  refine List.Pairwise.filterMap f (fun a b hab a' ha' b' hb' => ?_) h
  rwa [hf ha', hf hb']

theorem insert_of_last {key : String} {value : α} {entries : Assoc α}
    (h : ∀ entry ∈ entries, entry.1 < key) :
    insert key value entries = entries ++ [(key, value)] := by
  induction entries with
  | nil => rfl
  | cons first rest ih =>
    obtain ⟨name, old⟩ := first
    obtain ⟨hfirst, hrest⟩ := List.forall_mem_cons.mp h
    rw [insert, if_neg (String.ne_of_lt hfirst).symm, if_neg (String.lt_asymm hfirst), ih hrest]
    rfl

/-- Entries that are in order already are collected as they stand. -/
theorem Ascending.ofList_eq {entries : Assoc α} (h : Ascending entries) :
    ofList entries = entries := by
  have general : ∀ done : Assoc α, Ascending (done ++ entries) →
      entries.foldl (fun done entry => insert entry.1 entry.2 done) done = done ++ entries := by
    clear h
    induction entries with
    | nil => simp
    | cons entry rest ih =>
      intro done hdone
      have hlast : ∀ other ∈ done, other.1 < entry.1 := fun other hother =>
        (List.pairwise_append.mp hdone).2.2 other hother entry List.mem_cons_self
      rw [List.foldl_cons, insert_of_last hlast, ih _ (by simpa using hdone)]
      simp
  exact general [] h

end Assoc

/-! ## The predicates -/

namespace ValueType

mutual
/-- The objects in a type have their fields in ascending order. -/
def Ordered : ValueType → Prop
  | .list element | .set element | .map element => Ordered element
  | .object fields => Assoc.Ascending fields ∧ FieldsOrdered fields
  | _ => True

def FieldsOrdered : List (String × ValueType) → Prop
  | [] => True
  | (_, type) :: rest => Ordered type ∧ FieldsOrdered rest
end

end ValueType

namespace Value

mutual
/-- A value has its entries and attributes in ascending order, and so have their types. -/
def Ordered : Value → Prop
  | .null type | .unknown type => type.Ordered
  | .list element items | .set element items => element.Ordered ∧ ItemsOrdered items
  | .map element entries => element.Ordered ∧ Assoc.Ascending entries ∧ EntriesOrdered entries
  | .object fields attributes =>
    (ValueType.object fields).Ordered ∧ Assoc.Ascending attributes ∧ EntriesOrdered attributes
  | _ => True

def ItemsOrdered : List Value → Prop
  | [] => True
  | item :: rest => Ordered item ∧ ItemsOrdered rest

def EntriesOrdered : List (String × Value) → Prop
  | [] => True
  | (_, value) :: rest => Ordered value ∧ EntriesOrdered rest
end

end Value

namespace Raw

mutual
/-- A raw value has the entries of its maps in ascending order. -/
def Ordered : Raw → Prop
  | .list items => ItemsOrdered items
  | .map entries => Assoc.Ascending entries ∧ EntriesOrdered entries
  | _ => True

def ItemsOrdered : List Raw → Prop
  | [] => True
  | item :: rest => Ordered item ∧ ItemsOrdered rest

def EntriesOrdered : List (String × Raw) → Prop
  | [] => True
  | (_, value) :: rest => Ordered value ∧ EntriesOrdered rest
end

end Raw

/-- A record is ordered as the map of its entries is. -/
def Record.Ordered (record : Record) : Prop := (Raw.map record).Ordered

namespace Json

mutual
/-- A JSON value has the entries of its objects in ascending order. -/
def Ordered : Json → Prop
  | .array items => ItemsOrdered items
  | .object entries => Assoc.Ascending entries ∧ EntriesOrdered entries
  | _ => True

def ItemsOrdered : List Json → Prop
  | [] => True
  | item :: rest => Ordered item ∧ ItemsOrdered rest

def EntriesOrdered : List (String × Json) → Prop
  | [] => True
  | (_, value) :: rest => Ordered value ∧ EntriesOrdered rest
end

end Json

namespace Attribute

mutual
/-- An attribute has its children in ascending order, and ordered types where it has none. -/
def Ordered : Attribute → Prop
  | .plain shape _ => (shape.type false).Ordered
  | .nested _ children _ => Assoc.Ascending children ∧ ChildrenOrdered children

def ChildrenOrdered : List (String × Attribute) → Prop
  | [] => True
  | (_, child) :: rest => Ordered child ∧ ChildrenOrdered rest
end

end Attribute

/-- A schema has its attributes in ascending order, at every depth. -/
def EntitySchema.Ordered (schema : EntitySchema) : Prop :=
  Assoc.Ascending schema.attributes ∧ Attribute.ChildrenOrdered schema.attributes

/-! ## All parts at once -/

theorem ValueType.fieldsOrdered_iff {fields : List (String × ValueType)} :
    FieldsOrdered fields ↔ ∀ field ∈ fields, field.2.Ordered := by
  induction fields with
  | nil => simp [FieldsOrdered]
  | cons field rest ih => simp [FieldsOrdered, ih]

theorem Value.itemsOrdered_iff {items : List Value} :
    ItemsOrdered items ↔ ∀ item ∈ items, item.Ordered := by
  induction items with
  | nil => simp [ItemsOrdered]
  | cons item rest ih => simp [ItemsOrdered, ih]

theorem Value.entriesOrdered_iff {entries : ValueTable} :
    EntriesOrdered entries ↔ ∀ entry ∈ entries, entry.2.Ordered := by
  induction entries with
  | nil => simp [EntriesOrdered]
  | cons entry rest ih => simp [EntriesOrdered, ih]

theorem Raw.itemsOrdered_iff {items : List Raw} :
    ItemsOrdered items ↔ ∀ item ∈ items, item.Ordered := by
  induction items with
  | nil => simp [ItemsOrdered]
  | cons item rest ih => simp [ItemsOrdered, ih]

theorem Raw.entriesOrdered_iff {entries : List (String × Raw)} :
    EntriesOrdered entries ↔ ∀ entry ∈ entries, entry.2.Ordered := by
  induction entries with
  | nil => simp [EntriesOrdered]
  | cons entry rest ih => simp [EntriesOrdered, ih]

/-- The type of an ordered value is ordered, as every value carries its type. -/
theorem Value.Ordered.type_ordered {value : Value} (h : value.Ordered) : value.type.Ordered := by
  cases value with
  | null type | unknown type => exact h
  | string | int64 | float64 | bool => simp [Value.type, ValueType.Ordered]
  | list | set | map | object =>
    rw [Value.Ordered] at h
    exact h.1

/-! ## Raw values of JSON values -/

namespace Raw

theorem keys_recordOfJson (entries : List (String × Json)) :
    Assoc.keys (recordOfJson entries) = Assoc.keys entries := by
  induction entries with
  | nil => rfl
  | cons entry rest ih =>
    obtain ⟨key, value⟩ := entry
    simpa [recordOfJson, Assoc.keys] using ih

mutual
theorem ofJson_ordered : ∀ {json : Json}, json.Ordered → (ofJson json).Ordered
  | .null, _ | .bool _, _ | .float _, _ | .string _, _ => by simp [ofJson, Ordered]
  | .int value, _ => by
    rw [ofJson]
    split <;> trivial
  | .array items, h => by
    rw [Json.Ordered] at h
    rw [ofJson, Ordered]
    exact listOfJson_ordered h
  | .object entries, h => by
    rw [Json.Ordered] at h
    rw [ofJson, Ordered]
    exact ⟨h.1.of_keys (keys_recordOfJson entries), recordOfJson_ordered h.2⟩

theorem listOfJson_ordered : ∀ {items : List Json},
    Json.ItemsOrdered items → ItemsOrdered (listOfJson items)
  | [], _ => trivial
  | _ :: _, h => ⟨ofJson_ordered h.1, listOfJson_ordered h.2⟩

theorem recordOfJson_ordered : ∀ {entries : List (String × Json)},
    Json.EntriesOrdered entries → EntriesOrdered (recordOfJson entries)
  | [], _ => trivial
  | (_, _) :: _, h => ⟨ofJson_ordered h.1, recordOfJson_ordered h.2⟩
end

end Raw

theorem recordOf_ordered {json : Json} {record : Record} (hjson : json.Ordered)
    (h : recordOf json = .ok record) : record.Ordered := by
  have hraw := Raw.ofJson_ordered hjson
  unfold recordOf at h
  split at h
  · next entries heq =>
    cases h
    rwa [heq] at hraw
  · cases h

end EntityModel
