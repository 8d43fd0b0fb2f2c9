/-!
# Edit scripts

A script says how a list of lines turns into another one: runs of lines that stay, that go and that
come. `Script.find` finds one by a greedy search from both ends: where no common line is left at
either end, the two searches advance on their diagonals until they meet, and the parts before and
after the meeting point are treated alike.

* `Script.Spells`: a script speaks of two given lists.
* `Script.spells_find`: the script that is found speaks of the lists it was made for, wherever the
  two searches meet.
-/

namespace EntityModel

/-- A run of lines of an edit script. -/
inductive Edit (α : Type) where
  | keep (lines : List α)
  | delete (lines : List α)
  | insert (lines : List α)
deriving DecidableEq, Repr

namespace Edit

variable {α : Type}

/-- The lines of the old list that a run covers. -/
def old : Edit α → List α
  | .keep lines | .delete lines => lines
  | .insert _ => []

/-- The lines of the new list that a run covers. -/
def new : Edit α → List α
  | .keep lines | .insert lines => lines
  | .delete _ => []

end Edit

namespace Script

variable {α : Type}

/-- The old list of a script. -/
def oldLines (script : List (Edit α)) : List α := script.flatMap Edit.old

/-- The new list of a script. -/
def newLines (script : List (Edit α)) : List α := script.flatMap Edit.new

@[simp] theorem oldLines_append (a b : List (Edit α)) :
    oldLines (a ++ b) = oldLines a ++ oldLines b := by simp [oldLines]

@[simp] theorem newLines_append (a b : List (Edit α)) :
    newLines (a ++ b) = newLines a ++ newLines b := by simp [newLines]

@[simp] theorem oldLines_cons (edit : Edit α) (script : List (Edit α)) :
    oldLines (edit :: script) = edit.old ++ oldLines script := rfl

@[simp] theorem newLines_cons (edit : Edit α) (script : List (Edit α)) :
    newLines (edit :: script) = edit.new ++ newLines script := rfl

@[simp] theorem oldLines_nil : oldLines ([] : List (Edit α)) = [] := rfl

@[simp] theorem newLines_nil : newLines ([] : List (Edit α)) = [] := rfl

/-- The script speaks of two lists. -/
def Spells (script : List (Edit α)) (old new : List α) : Prop :=
  oldLines script = old ∧ newLines script = new

theorem Spells.append {a b : List (Edit α)} {old new old' new' : List α}
    (h : Spells a old new) (h' : Spells b old' new') :
    Spells (a ++ b) (old ++ old') (new ++ new') := by
  simp [Spells, h.1, h.2, h'.1, h'.2]

/-- The lines that stay, unless there are none. -/
def kept (lines : List α) : List (Edit α) := if lines.isEmpty then [] else [.keep lines]

theorem spells_kept (lines : List α) : Spells (kept lines) lines lines := by
  cases lines <;> simp [kept, Spells, Edit.old, Edit.new]

variable [DecidableEq α]

/-! ## Common ends -/

/-- How many lines two lists have in common at their beginning. -/
def commonHead : List α → List α → Nat
  | a :: as, b :: bs => if a = b then commonHead as bs + 1 else 0
  | _, _ => 0

/-- How many lines two lists have in common at their end. -/
def commonTail (as bs : List α) : Nat := commonHead as.reverse bs.reverse

theorem take_commonHead (as bs : List α) :
    as.take (commonHead as bs) = bs.take (commonHead as bs) := by
  fun_induction commonHead as bs <;> simp_all

theorem drop_commonTail (as bs : List α) :
    as.drop (as.length - commonTail as bs) = bs.drop (bs.length - commonTail as bs) := by
  have h := congrArg List.reverse (take_commonHead as.reverse bs.reverse)
  simpa [commonTail, List.reverse_take] using h

/-! ## Where the two searches meet -/

/-- The farthest old lines reached on each diagonal, forwards and backwards. Diagonal `k` is at the
place `k + shift`. The two tables serve all searches of one script and are never cleared. -/
structure Frontiers where
  shift : Int
  forward : Array Nat
  backward : Array Nat

def Frontiers.start (oldCount newCount : Nat) : Frontiers where
  shift := oldCount + newCount + 2
  forward := Array.replicate (2 * (oldCount + newCount) + 5) 0
  backward := Array.replicate (2 * (oldCount + newCount) + 5) 0

def Frontiers.reach (table : Array Nat) (shift k : Int) : Nat := table.getD (k + shift).toNat 0

def Frontiers.set (table : Array Nat) (shift k : Int) (x : Nat) : Array Nat :=
  table.setIfInBounds (k + shift).toNat x

/-- The step onto diagonal `k` in round `d`: from the diagonal beside it that got farther. -/
def stepOnto (table : Array Nat) (shift : Int) (d : Nat) (k : Int) : Nat :=
  let above := Frontiers.reach table shift (k + 1)
  let below := Frontiers.reach table shift (k - 1)
  if k = -d || (k ≠ d && below < above) then above else below + 1

/-- How far equal lines go on from a point; a point outside of the lists has none. -/
def slide (old new : List α) (x : Nat) (y : Int) : Nat :=
  if 0 ≤ y then commonHead (old.drop x) (new.drop y.toNat) else 0

/-- The diagonals of a round, from the highest to the lowest. -/
def diagonals (d : Nat) : List Int := (List.range (d + 1)).map fun (i : Nat) => (d : Int) - 2 * i

/-- One round of the forward search: the tables afterwards, or the point where it met the other
search. -/
def forwardRound (old new : List α) (d : Nat) (delta : Int) :
    List Int → Frontiers → Frontiers × Option (Nat × Int)
  | [], f => (f, none)
  | k :: ks, f =>
    let x := stepOnto f.forward f.shift d k
    let y : Int := x - k
    let reached := x + slide old new x y
    let f := { f with forward := Frontiers.set f.forward f.shift k reached }
    if delta % 2 ≠ 0 && (k - delta).natAbs < d &&
        old.length ≤ reached + Frontiers.reach f.backward f.shift (delta - k) then
      (f, some (x, y))
    else forwardRound old new d delta ks f

/-- One round of the backward search, on the reversed lists. -/
def backwardRound (old new : List α) (d : Nat) (delta : Int) :
    List Int → Frontiers → Frontiers × Option (Nat × Int)
  | [], f => (f, none)
  | k :: ks, f =>
    let x := stepOnto f.backward f.shift d k
    let y : Int := x - k
    let run := slide old new x y
    let f := { f with backward := Frontiers.set f.backward f.shift k (x + run) }
    if delta % 2 = 0 && (k - delta).natAbs ≤ d &&
        old.length ≤ x + run + Frontiers.reach f.forward f.shift (delta - k) then
      (f, some (old.length - (x + run), new.length - (y + run)))
    else backwardRound old new d delta ks f

/-- Rounds of both searches from round `d` on, until they meet or the rounds are used up. -/
def meet (old new oldBack newBack : List α) (delta : Int) :
    (rounds : Nat) → (d : Nat) → Frontiers → Frontiers × Option (Nat × Int)
  | 0, _, f => (f, none)
  | rounds + 1, d, f =>
    match forwardRound old new d delta (diagonals d) f with
    | (f, some point) => (f, some point)
    | (f, none) =>
      match backwardRound oldBack newBack d delta (diagonals d) f with
      | (f, some point) => (f, some point)
      | (f, none) => meet old new oldBack newBack delta rounds (d + 1) f

/-- The point at which two lists without common ends are cut. -/
def cut (old new : List α) (f : Frontiers) : Frontiers × Option (Nat × Int) :=
  let f := { f with
    forward := Frontiers.set f.forward f.shift 1 0
    backward := Frontiers.set f.backward f.shift 1 0 }
  meet old new old.reverse new.reverse (old.length - new.length)
    ((old.length + new.length + 1) / 2 + 1) 0 f

/-! ## The script -/

/-- The script for two lists without common ends; `between` treats the parts of a cut. -/
def core (between : List α → List α → Frontiers → List (Edit α) × Frontiers)
    (old new : List α)
    (f : Frontiers) : List (Edit α) × Frontiers :=
  if old.isEmpty && new.isEmpty then ([], f)
  else if new.isEmpty then ([.delete old], f)
  else if old.isEmpty then ([.insert new], f)
  else
    match cut old new f with
    | (f, some (x, y)) =>
      let first := between (old.take x) (new.take y.toNat) f
      let second := between (old.drop x) (new.drop y.toNat) first.2
      (first.1 ++ second.1, second.2)
    | (f, none) => ([.delete old, .insert new], f)

/-- The script for two lists; `fuel` bounds the depth of the cuts. -/
def between : (fuel : Nat) → (old new : List α) → Frontiers → List (Edit α) × Frontiers
  | 0, old, new, f => ([.delete old, .insert new], f)
  | fuel + 1, old, new, f =>
    let head := commonHead old new
    let oldRest := old.drop head
    let newRest := new.drop head
    let tail := commonTail oldRest newRest
    let middle := core (between fuel) (oldRest.take (oldRest.length - tail))
      (newRest.take (newRest.length - tail)) f
    (kept (old.take head) ++ middle.1 ++ kept (oldRest.drop (oldRest.length - tail)), middle.2)

/-- The script for two lists, as the search finds it. -/
def find (old new : List α) : List (Edit α) :=
  (between (old.length + new.length + 1) old new (.start old.length new.length)).1

/-! ## It speaks of the two lists -/

theorem spells_core {between : List α → List α → Frontiers → List (Edit α) × Frontiers}
    (h : ∀ old new f, Spells (between old new f).1 old new) (old new : List α) (f : Frontiers) :
    Spells (core between old new f).1 old new := by
  unfold core
  split
  · next hempty => simp_all [Spells]
  · split
    · simp_all [Spells, Edit.old, Edit.new]
    · split
      · simp_all [Spells, Edit.old, Edit.new]
      · split
        · next x y _ =>
          simpa using (h (old.take x) (new.take y.toNat) _).append
            (h (old.drop x) (new.drop y.toNat) _)
        · simp [Spells, Edit.old, Edit.new]

theorem spells_between (fuel : Nat) (old new : List α) (f : Frontiers) :
    Spells (between fuel old new f).1 old new := by
  induction fuel generalizing old new f with
  | zero => simp [between, Spells, Edit.old, Edit.new]
  | succ fuel ih =>
    simp only [between]
    generalize hhead : commonHead old new = head
    have heads : old.take head = new.take head := hhead ▸ take_commonHead old new
    generalize htail : commonTail (old.drop head) (new.drop head) = tail
    have tails := htail ▸ drop_commonTail (old.drop head) (new.drop head)
    have middle := spells_core ih
      ((old.drop head).take ((old.drop head).length - tail))
      ((new.drop head).take ((new.drop head).length - tail)) f
    have whole := ((spells_kept (old.take head)).append middle).append
      (spells_kept ((old.drop head).drop ((old.drop head).length - tail)))
    refine ⟨whole.1.trans ?_, whole.2.trans ?_⟩
    · rw [List.append_assoc, List.take_append_drop, List.take_append_drop]
    · rw [List.append_assoc, tails, List.take_append_drop, heads, List.take_append_drop]

/-- The script that is found speaks of the two lists. -/
theorem spells_find (old new : List α) : Spells (find old new) old new :=
  spells_between _ _ _ _

end Script

end EntityModel
