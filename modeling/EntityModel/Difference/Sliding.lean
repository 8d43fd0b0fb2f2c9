import EntityModel.Difference.Script

/-!
# Sliding the runs of a script

A script can often say the same with its runs in other places: an insertion behind a line that
equals its own last line may as well stand in front of it. `slideAll` moves every run of one kind
first up and then down as far as it goes; runs of the same kind that meet become one. The lists that
a script speaks of stay what they are (`spells_settle`).
-/

namespace EntityModel.Script

variable {α : Type}

/-! ## Kept lines beside a run -/

/-- Puts kept lines in front of the runs that follow. -/
def keepBefore (lines : List α) (after : List (Edit α)) : List (Edit α) :=
  match lines, after with
  | [], after => after
  | lines, .keep more :: after => .keep (lines ++ more) :: after
  | lines, after => .keep lines :: after

/-- Puts kept lines behind the runs that come before, the nearest of which is the first. -/
def keepAfter (lines : List α) (before : List (Edit α)) : List (Edit α) :=
  match lines, before with
  | [], before => before
  | lines, .keep more :: before => .keep (more ++ lines) :: before
  | lines, before => .keep lines :: before

theorem oldLines_keepBefore (lines : List α) (after : List (Edit α)) :
    oldLines (keepBefore lines after) = lines ++ oldLines after := by
  unfold keepBefore
  split <;> simp [Edit.old]

theorem newLines_keepBefore (lines : List α) (after : List (Edit α)) :
    newLines (keepBefore lines after) = lines ++ newLines after := by
  unfold keepBefore
  split <;> simp [Edit.new]

theorem oldLines_keepAfter (lines : List α) (before : List (Edit α)) :
    oldLines (keepAfter lines before).reverse = oldLines before.reverse ++ lines := by
  unfold keepAfter
  split <;> simp [Edit.old]

theorem newLines_keepAfter (lines : List α) (before : List (Edit α)) :
    newLines (keepAfter lines before).reverse = newLines before.reverse ++ lines := by
  unfold keepAfter
  split <;> simp [Edit.new]

variable [DecidableEq α]

/-! ## One insertion along one kept run -/

/-- Moves an insertion up along kept lines, both in reversed order, as long as the last lines agree:
what is left of the kept lines, the insertion, and the kept lines that now follow it. -/
def slideUp : (kept inserted passed : List α) → List α × List α × List α
  | line :: kept, last :: inserted, passed =>
    if line = last then slideUp kept (inserted ++ [line]) (line :: passed)
    else (line :: kept, last :: inserted, passed)
  | kept, inserted, passed => (kept, inserted, passed)

/-- Moves an insertion down along kept lines as long as the first lines agree. -/
def slideDown : (kept inserted passed : List α) → List α × List α × List α
  | line :: kept, first :: inserted, passed =>
    if line = first then slideDown kept (inserted ++ [line]) (passed ++ [line])
    else (line :: kept, first :: inserted, passed)
  | kept, inserted, passed => (kept, inserted, passed)

/-! ## One run through the script -/

/-- A place in a script: the runs before it, nearest first, the run at it and the runs after it. -/
structure Place (α : Type) where
  before : List (Edit α)
  this : Edit α
  after : List (Edit α)

/-- The whole script around a place. -/
def Place.script (p : Place α) : List (Edit α) := p.before.reverse ++ p.this :: p.after

/-- Moves a run up as far as it goes. -/
def moveUp : (before : List (Edit α)) → Edit α → (after : List (Edit α)) → Place α
  | .keep lines :: before, .insert new, after =>
    let (kept, inserted, passed) := slideUp lines.reverse new.reverse []
    let after := keepBefore passed after
    if kept.isEmpty then moveUp before (.insert inserted.reverse) after
    else ⟨.keep kept.reverse :: before, .insert inserted.reverse, after⟩
  | .insert lines :: before, .insert new, after => moveUp before (.insert (lines ++ new)) after
  | .delete lines :: before, .delete old, after => moveUp before (.delete (lines ++ old)) after
  | .delete lines :: before, .insert new, after =>
    moveUp before (.insert new) (.delete lines :: after)
  | .insert lines :: before, .delete old, after =>
    moveUp before (.delete old) (.insert lines :: after)
  | before, this, after => ⟨before, this, after⟩

/-- Moves a run down as far as it goes. -/
def moveDown : (after : List (Edit α)) → Edit α → (before : List (Edit α)) → Place α
  | .keep lines :: after, .insert new, before =>
    let (kept, inserted, passed) := slideDown lines new []
    let before := keepAfter passed before
    if kept.isEmpty then moveDown after (.insert inserted) before
    else ⟨before, .insert inserted, .keep kept :: after⟩
  | .insert lines :: after, .insert new, before => moveDown after (.insert (new ++ lines)) before
  | .delete lines :: after, .delete old, before => moveDown after (.delete (old ++ lines)) before
  | .delete lines :: after, .insert new, before =>
    moveDown after (.insert new) (.delete lines :: before)
  | .insert lines :: after, .delete old, before =>
    moveDown after (.delete old) (.insert lines :: before)
  | after, this, before => ⟨before, this, after⟩

/-! ## All runs of a kind -/

/-- Moves every run that `moves` selects, from the first to the last; `fuel` bounds the runs that
are visited. -/
def slideAll (moves : Edit α → Bool) : (fuel : Nat) → (before after : List (Edit α)) →
    List (Edit α)
  | 0, before, after => before.reverse ++ after
  | _ + 1, before, [] => before.reverse
  | fuel + 1, before, this :: after =>
    if moves this then
      let up := moveUp before this after
      let down := moveDown up.after up.this up.before
      slideAll moves fuel (down.this :: down.before) down.after
    else slideAll moves fuel (this :: before) after

/-- How many lines and runs a script has; more runs than that are never visited. -/
def extent (script : List (Edit α)) : Nat :=
  script.foldl (fun n edit => n + edit.old.length + edit.new.length + 1) 1

def isDeletion : Edit α → Bool
  | .delete _ => true
  | _ => false

def isInsertion : Edit α → Bool
  | .insert _ => true
  | _ => false

/-- Slides first the deletions and then the insertions. -/
def settle (script : List (Edit α)) : List (Edit α) :=
  let script := slideAll isDeletion (extent script) [] script
  slideAll isInsertion (extent script) [] script

/-! ## The script still speaks of the same lists -/

theorem slideUp_old (kept inserted passed : List α) :
    (slideUp kept inserted passed).1.reverse ++ (slideUp kept inserted passed).2.2 =
      kept.reverse ++ passed := by
  fun_induction slideUp kept inserted passed <;> simp_all

theorem slideUp_new (kept inserted passed : List α) :
    (slideUp kept inserted passed).1.reverse ++ ((slideUp kept inserted passed).2.1.reverse ++
      (slideUp kept inserted passed).2.2) = kept.reverse ++ (inserted.reverse ++ passed) := by
  fun_induction slideUp kept inserted passed <;> simp_all

theorem slideDown_old (kept inserted passed : List α) :
    (slideDown kept inserted passed).2.2 ++ (slideDown kept inserted passed).1 =
      passed ++ kept := by
  fun_induction slideDown kept inserted passed <;> simp_all

theorem slideDown_new (kept inserted passed : List α) :
    (slideDown kept inserted passed).2.2 ++ ((slideDown kept inserted passed).2.1 ++
      (slideDown kept inserted passed).1) = passed ++ (inserted ++ kept) := by
  fun_induction slideDown kept inserted passed <;> simp_all

theorem spells_moveUp (before : List (Edit α)) (this : Edit α) (after : List (Edit α)) :
    Spells (moveUp before this after).script (oldLines (before.reverse ++ this :: after))
      (newLines (before.reverse ++ this :: after)) := by
  fun_induction moveUp before this after with
  | case1 lines before new after kept inserted passed hslide after' hkept ih =>
    have hold := slideUp_old lines.reverse new.reverse []
    have hnew := slideUp_new lines.reverse new.reverse []
    rw [List.isEmpty_iff] at hkept
    subst hkept
    simp only [hslide, List.reverse_nil, List.nil_append, List.reverse_reverse,
      List.append_nil] at hold hnew
    subst hold
    have shifted : ∀ rest, inserted.reverse ++ (passed ++ rest) = passed ++ (new ++ rest) := by
      intro rest
      rw [← List.append_assoc, hnew, List.append_assoc]
    simp [Spells, Edit.old, Edit.new, after', oldLines_keepBefore, newLines_keepBefore] at ih ⊢
    simp [ih, shifted]
  | case2 lines before new after kept inserted passed hslide after' hkept =>
    have hold := slideUp_old lines.reverse new.reverse []
    have hnew := slideUp_new lines.reverse new.reverse []
    simp only [hslide, List.reverse_reverse, List.append_nil] at hold hnew
    subst hold
    have shifted : inserted.reverse ++ passed = passed ++ new := by simpa using hnew
    simp [Place.script, Spells, Edit.old, Edit.new, after', oldLines_keepBefore,
      newLines_keepBefore]
    rw [← List.append_assoc, shifted, List.append_assoc]
  | case3 lines before new after ih => simp_all [Spells, Edit.old, Edit.new]
  | case4 lines before old after ih => simp_all [Spells, Edit.old, Edit.new]
  | case5 lines before new after ih => simp_all [Spells, Edit.old, Edit.new]
  | case6 lines before old after ih => simp_all [Spells, Edit.old, Edit.new]
  | case7 => exact ⟨rfl, rfl⟩

theorem spells_moveDown (before : List (Edit α)) (this : Edit α) (after : List (Edit α)) :
    Spells (moveDown after this before).script (oldLines (before.reverse ++ this :: after))
      (newLines (before.reverse ++ this :: after)) := by
  fun_induction moveDown after this before with
  | case1 lines after new before kept inserted passed hslide before' hkept ih =>
    have hold := slideDown_old lines new []
    have hnew := slideDown_new lines new []
    rw [List.isEmpty_iff] at hkept
    subst hkept
    simp only [hslide, List.nil_append, List.append_nil] at hold hnew
    subst hold
    have shifted : ∀ rest, passed ++ (inserted ++ rest) = new ++ (passed ++ rest) := by
      intro rest
      rw [← List.append_assoc, hnew, List.append_assoc]
    simp [Spells, Edit.old, Edit.new, before', oldLines_keepAfter, newLines_keepAfter] at ih ⊢
    simp [ih, shifted]
  | case2 lines after new before kept inserted passed hslide before' hkept =>
    have hold := slideDown_old lines new []
    have hnew := slideDown_new lines new []
    simp only [hslide, List.nil_append] at hold hnew
    subst hold
    have shifted : ∀ rest,
        passed ++ (inserted ++ (kept ++ rest)) = new ++ (passed ++ (kept ++ rest)) := by
      intro rest
      have h := congrArg (· ++ rest) hnew
      simpa using h
    simp [Place.script, Spells, Edit.old, Edit.new, before', oldLines_keepAfter,
      newLines_keepAfter]
    simp [shifted]
  | case3 lines after new before ih => simp_all [Spells, Edit.old, Edit.new]
  | case4 lines after old before ih => simp_all [Spells, Edit.old, Edit.new]
  | case5 lines after new before ih => simp_all [Spells, Edit.old, Edit.new]
  | case6 lines after old before ih => simp_all [Spells, Edit.old, Edit.new]
  | case7 => exact ⟨rfl, rfl⟩

theorem spells_slideAll (moves : Edit α → Bool) (fuel : Nat) (before after : List (Edit α)) :
    Spells (slideAll moves fuel before after) (oldLines (before.reverse ++ after))
      (newLines (before.reverse ++ after)) := by
  induction fuel generalizing before after with
  | zero => exact ⟨rfl, rfl⟩
  | succ fuel ih =>
    cases after with
    | nil => simp [slideAll, Spells]
    | cons this after =>
      simp only [slideAll]
      split
      · have up := spells_moveUp before this after
        generalize moveUp before this after = up' at up
        have down := spells_moveDown up'.before up'.this up'.after
        generalize moveDown up'.after up'.this up'.before = down' at down
        have rest := ih (down'.this :: down'.before) down'.after
        simp only [Spells, Place.script, List.reverse_cons, List.append_assoc,
          List.singleton_append] at up down rest ⊢
        exact ⟨rest.1.trans (down.1.trans up.1), rest.2.trans (down.2.trans up.2)⟩
      · simpa using ih (this :: before) after

/-- Sliding the runs of a script changes neither of its lists. -/
theorem spells_settle (script : List (Edit α)) :
    Spells (settle script) (oldLines script) (newLines script) := by
  have first := spells_slideAll isDeletion (extent script) [] script
  have second := spells_slideAll isInsertion
    (extent (slideAll isDeletion (extent script) [] script)) []
    (slideAll isDeletion (extent script) [] script)
  exact ⟨second.1.trans first.1, second.2.trans first.2⟩

end EntityModel.Script
