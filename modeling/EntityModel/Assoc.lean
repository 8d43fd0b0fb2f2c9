/-!
# Entries under keys

Records, objects and tables are lists of entries, each a key and a value, with the keys in
ascending order of their code points. The operations below keep that order (`Ascending`), so a
list built by them holds every key once and prints in one way only.

* `get?_insert`, `get?_replace`: what a look-up finds after a change.
* `ascending_insert`, `ascending_ofList`: the order is kept.
-/

namespace EntityModel

/-- Entries under keys. The operations in the namespace `Assoc` keep them in ascending order. -/
abbrev Assoc (α : Type) := List (String × α)

namespace Assoc

variable {α β : Type}

/-- The keys, in the order of the entries. -/
def keys (entries : Assoc α) : List String := entries.map Prod.fst

/-- The value under a key. -/
def get? : Assoc α → String → Option α
  | [], _ => none
  | (name, value) :: rest, key => if key = name then some value else get? rest key

/-- Whether an entry has the key. -/
def has (entries : Assoc α) (key : String) : Bool := (get? entries key).isSome

/-- Puts a value under a key, in place of the value that was there. -/
def insert (key : String) (value : α) : Assoc α → Assoc α
  | [] => [(key, value)]
  | (name, old) :: rest =>
    if key = name then (key, value) :: rest
    else if key < name then (key, value) :: (name, old) :: rest
    else (name, old) :: insert key value rest

/-- Puts another value under a key that is there; without such a key nothing changes. -/
def replace (key : String) (value : α) : Assoc α → Assoc α
  | [] => []
  | (name, old) :: rest =>
    if key = name then (key, value) :: rest else (name, old) :: replace key value rest

/-- The entries without those under the key. -/
def erase (key : String) (entries : Assoc α) : Assoc α :=
  entries.filter fun entry => entry.1 ≠ key

/-- The entries of a list in ascending order; of two entries with one key the later counts. -/
def ofList (entries : List (String × α)) : Assoc α :=
  entries.foldl (fun done entry => insert entry.1 entry.2 done) []

/-- The entries with a function applied to every value. -/
def mapValues (f : α → β) (entries : Assoc α) : Assoc β :=
  entries.map fun entry => (entry.1, f entry.2)

/-- Keys in strictly ascending order, hence each of them once. -/
def Ascending (entries : Assoc α) : Prop := entries.Pairwise fun a b => a.1 < b.1

/-! ## What look-ups find -/

@[simp] theorem get?_nil (key : String) : get? ([] : Assoc α) key = none := rfl

theorem get?_cons (name key : String) (value : α) (rest : Assoc α) :
    get? ((name, value) :: rest) key = if key = name then some value else get? rest key := rfl

theorem get?_insert (key other : String) (value : α) (entries : Assoc α) :
    get? (insert key value entries) other =
      if other = key then some value else get? entries other := by
  induction entries with
  | nil => simp [insert, get?]
  | cons entry rest ih =>
    obtain ⟨name, old⟩ := entry
    by_cases hname : key = name
    · subst hname
      simp only [insert, if_true, get?_cons]
      split <;> rfl
    · simp only [insert, hname, if_false]
      split
      · simp [get?_cons]
      · simp only [get?_cons, ih]
        by_cases hother : other = name
        · simp [hother]
          exact fun h => absurd h.symm hname
        · simp [hother]

theorem get?_replace (key other : String) (value : α) (entries : Assoc α) :
    get? (replace key value entries) other =
      if other = key then (get? entries key).map (fun _ => value) else get? entries other := by
  induction entries with
  | nil => simp [replace]
  | cons entry rest ih =>
    obtain ⟨name, old⟩ := entry
    by_cases hname : key = name
    · subst hname
      simp only [replace, if_true, get?_cons]
      split <;> simp
    · simp only [replace, hname, if_false, get?_cons, ih]
      by_cases hother : other = name
      · simp [hother, Ne.symm hname]
      · simp [hother]

theorem keys_replace (key : String) (value : α) (entries : Assoc α) :
    keys (replace key value entries) = keys entries := by
  induction entries with
  | nil => rfl
  | cons entry rest ih =>
    simp only [replace]
    split
    · next h => simp [keys, h]
    · simpa [keys] using ih

theorem mem_keys_iff {entries : Assoc α} {key : String} :
    key ∈ keys entries ↔ (get? entries key).isSome := by
  induction entries with
  | nil => simp [keys]
  | cons entry rest ih =>
    obtain ⟨name, value⟩ := entry
    simp only [keys, List.map_cons, List.mem_cons, get?_cons] at ih ⊢
    by_cases h : key = name <;> simp [h, ih]

theorem has_iff {entries : Assoc α} {key : String} :
    has entries key = true ↔ key ∈ keys entries := by
  rw [mem_keys_iff, has]

/-! ## The order -/

theorem mem_insert {key : String} {value : α} {entries : Assoc α} {entry : String × α}
    (h : entry ∈ insert key value entries) : entry = (key, value) ∨ entry ∈ entries := by
  induction entries with
  | nil => simpa [insert] using h
  | cons first rest ih =>
    simp only [insert] at h
    split at h
    · rcases List.mem_cons.1 h with h | h
      · exact .inl h
      · exact .inr (List.mem_cons_of_mem _ h)
    · split at h
      · exact List.mem_cons.1 h
      · rcases List.mem_cons.1 h with h | h
        · exact .inr (h ▸ List.mem_cons_self)
        · rcases ih h with h | h
          · exact .inl h
          · exact .inr (List.mem_cons_of_mem _ h)

theorem ascending_insert {key : String} {value : α} {entries : Assoc α}
    (h : Ascending entries) : Ascending (insert key value entries) := by
  induction entries with
  | nil => simp [Ascending, insert]
  | cons first rest ih =>
    obtain ⟨hfirst, hrest⟩ := List.pairwise_cons.1 h
    simp only [insert]
    split
    · next heq => exact List.pairwise_cons.2 ⟨fun e he => heq ▸ hfirst e he, hrest⟩
    · split
      · next hlt =>
        refine List.pairwise_cons.2 ⟨fun e he => ?_, h⟩
        rcases List.mem_cons.1 he with rfl | he
        · exact hlt
        · exact String.lt_trans hlt (hfirst e he)
      · next hne hnlt =>
        refine List.pairwise_cons.2 ⟨fun e he => ?_, ih hrest⟩
        rcases mem_insert he with rfl | he
        · exact Std.lt_of_le_of_ne (Std.not_lt.1 hnlt) (Ne.symm hne)
        · exact hfirst e he

theorem ascending_ofList (entries : List (String × α)) : Ascending (ofList entries) := by
  have general : ∀ done : Assoc α, Ascending done →
      Ascending (entries.foldl (fun done entry => insert entry.1 entry.2 done) done) := by
    induction entries with
    | nil => exact fun _ h => h
    | cons entry rest ih => exact fun done h => ih _ (ascending_insert h)
  exact general [] List.Pairwise.nil

end Assoc

end EntityModel
