import EntityModel.Proofs.Container.Filling
import EntityModel.Proofs.Difference.Convergence

/-!
# Filling twice

Filling from one record and then from another comes to the same as filling once from the two
merged, where the later record is asked first. It makes no difference which of them is merged into
the other, as long as the later one prevails. A record that has filled a container fills it with
the same values again.

* `Record.merge_comm_of_prevailing`, `Record.Ordered.merge`: merged records.
* `fills_merge`, `Filled.merge`: what a merged record sets.
* `Filled.values_eq`, `Filled.again`: filled containers are determined by the record.
* `fill_ok_iff`: when filling succeeds.
* `fill_fill`: two fillings as one.
-/

namespace EntityModel

/-! ## Merged records -/

namespace Record

variable {first second : Record}

/-- The record that prevails may be merged in or merged into. -/
theorem merge_comm_of_prevailing (hfirst : Assoc.Ascending first)
    (hsecond : Assoc.Ascending second) : second.merge first false = first.merge second true := by
  refine (ascending_merge hsecond).ext (ascending_merge hfirst) fun key => ?_
  rw [get?_merge_keeping, get?_merge hsecond]

theorem Ordered.merge (hfirst : first.Ordered) (hsecond : second.Ordered) :
    (first.merge second true).Ordered := by
  have hmerged : Assoc.Ascending (first.merge second true) := ascending_merge hfirst.1
  refine ⟨hmerged, Raw.entriesOrdered_iff.mpr fun entry hentry => ?_⟩
  have hget := hmerged.get?_of_mem hentry
  rw [get?_merge hsecond.1, Option.or_eq_some_iff] at hget
  rcases hget with hget | ⟨-, hget⟩
  · exact Raw.entriesOrdered_iff.mp hsecond.2 _ (Assoc.mem_of_get? hget)
  · exact Raw.entriesOrdered_iff.mp hfirst.2 _ (Assoc.mem_of_get? hget)

end Record

namespace Container

variable {c c₁ c₂ : Container} {entity : Entity} {name : String} {raw : Raw} {type : ValueType}
  {record first second : Record}

/-! ## What filling sets -/

/-- A merged record sets what the later record sets, and what the earlier one sets where the later
one has no entry. -/
theorem fills_merge (hsecond : Assoc.Ascending second) :
    Fills entity (first.merge second true) name raw type ↔
      Fills entity second name raw type ∨
        Assoc.get? second name = none ∧ Fills entity first name raw type := by
  rw [fills_iff, fills_iff, fills_iff, Record.get?_merge hsecond, Option.or_eq_some_iff,
    or_and_right, and_assoc]

/-- A record that has an entry for a field of another record's sets the field, too. -/
theorem Fills.of_entry {other : Raw} (h : Fills entity first name raw type)
    (hentry : Assoc.get? second name = some other) : Fills entity second name other type :=
  ⟨hentry, h.type, h.own, h.computed⟩

/-- Filled by one record and then by another, a container is filled by the two merged. -/
theorem Filled.merge (hsecond : Assoc.Ascending second) (h₁ : Filled entity first c c₁)
    (h₂ : Filled entity second c₁ c₂) : Filled entity (first.merge second true) c c₂ := by
  constructor
  · intro name raw type hfills
    rcases (fills_merge hsecond).mp hfills with hlater | ⟨hnone, hearlier⟩
    · exact h₂.set hlater
    · obtain ⟨value, hvalue, hget⟩ := h₁.set hearlier
      have hkept : Assoc.get? c₂.values name = Assoc.get? c₁.values name := by
        apply h₂.rest
        intro raw type hlater
        rw [hlater.entry] at hnone
        cases hnone
      exact ⟨value, hvalue, hkept.trans hget⟩
  · intro name hnone
    have hlater : ∀ raw type, ¬ Fills entity second name raw type := fun raw type hfills =>
      hnone raw type ((fills_merge hsecond).mpr (.inl hfills))
    have hearlier : ∀ raw type, ¬ Fills entity first name raw type := by
      intro raw type hfills
      cases hentry : Assoc.get? second name with
      | none => exact hnone raw type ((fills_merge hsecond).mpr (.inr ⟨hentry, hfills⟩))
      | some other => exact hlater other type (hfills.of_entry hentry)
    rw [h₂.rest hlater, h₁.rest hearlier]

/-- What a record has set it sets to the same values again. -/
theorem Filled.again (h : Filled entity record c c₁) : Filled entity record c₁ c₁ :=
  ⟨h.set, fun _ => rfl⟩

/-- A record leaves one way only to fill a container. -/
theorem Filled.values_eq (h₁ : Filled entity record c c₁) (h₂ : Filled entity record c c₂)
    (hascending₁ : Assoc.Ascending c₁.values) (hascending₂ : Assoc.Ascending c₂.values) :
    c₁.values = c₂.values := by
  refine hascending₁.ext hascending₂ fun name => ?_
  by_cases hfills : ∃ raw type, Fills entity record name raw type
  · obtain ⟨raw, type, hfills⟩ := hfills
    obtain ⟨value, hvalue, hget₁⟩ := h₁.set hfills
    obtain ⟨other, hother, hget₂⟩ := h₂.set hfills
    cases hvalue.symm.trans hother
    rw [hget₁, hget₂]
  · have hnone : ∀ raw type, ¬ Fills entity record name raw type := fun raw type hsets =>
      hfills ⟨raw, type, hsets⟩
    rw [h₁.rest hnone, h₂.rest hnone]

/-! ## Runs -/

theorem fill_filled (hentity : c.entity? = some entity) (hrecord : Assoc.Ascending record)
    (h : (c.fill record).2 = .ok ()) : Filled entity record c (c.fill record).1 := by
  apply fillEntries_filled hrecord
  rw [← fill_eq hentity, ← h]

/-- Filling succeeds just if every field that the record sets can be read. -/
theorem fill_ok_iff (hentity : c.entity? = some entity) (hrecord : Assoc.Ascending record) :
    (c.fill record).2 = .ok () ↔
      ∀ name raw type, Fills entity record name raw type →
        ∃ value, lift type raw = .ok value := by
  constructor
  · intro h name raw type hfills
    obtain ⟨value, hvalue, -⟩ := (fill_filled hentity hrecord h).set hfills
    exact ⟨value, hvalue⟩
  · intro hread
    cases h : (c.fill record).2 with
    | ok => rfl
    | error e =>
      have hrun : fillEntries entity c record = ((c.fill record).1, .error e) := by
        rw [← fill_eq hentity, ← h]
      obtain ⟨before, name, raw, after, type, fault, rfl, htype, hfault, -⟩ :=
        fillEntries_error hrun
      have hentry := hrecord.get?_of_mem (List.mem_append_right before List.mem_cons_self)
      obtain ⟨value, hvalue⟩ := hread name raw type (fills_iff.mpr ⟨hentry, htype⟩)
      cases hfault.symm.trans (liftAt_path name hvalue)

theorem eq_of_values (hentity : c₁.entity? = c₂.entity?) (hvalues : c₁.values = c₂.values) :
    c₁ = c₂ := by
  obtain ⟨values₁, entity₁⟩ := c₁
  obtain ⟨values₂, entity₂⟩ := c₂
  cases hentity
  cases hvalues
  rfl

/-- Whatever container the record has filled, that is where a run that succeeds ends. -/
theorem fill_eq_of_filled (hc : c.Sound) (hc₁ : c₁.Sound) (hentity : c.entity? = some entity)
    (hentity₁ : c₁.entity? = some entity) (hrecord : record.Ordered)
    (hfilled : Filled entity record c c₁) : c.fill record = (c₁, .ok ()) := by
  have hok : (c.fill record).2 = .ok () := (fill_ok_iff hentity hrecord.1).mpr
    fun name raw type hfills => (hfilled.set hfills).imp fun value hvalue => hvalue.1
  have hsame : (c.fill record).1.entity? = some entity :=
    (fill_extends c record).entity.trans hentity
  have hvalues : (c.fill record).1.values = c₁.values :=
    (fill_filled hentity hrecord.1 hok).values_eq hfilled
      ((fill_sound hc hrecord).ascending hsame) (hc₁.ascending hentity₁)
  exact Prod.ext (eq_of_values (hsame.trans hentity₁.symm) hvalues) hok

/-- If filling from one record succeeds and then from another, filling once from the merged record
succeeds with the same container, whichever record is merged into the other. After a record has
filled a container, filling from it again succeeds and changes nothing. -/
theorem fill_fill (hc : c.Reachable) (hentity : c.entity? = some entity) (hfirst : first.Ordered)
    (hsecond : second.Ordered) (hok₁ : (c.fill first).2 = .ok ())
    (hok₂ : ((c.fill first).1.fill second).2 = .ok ()) :
    c.fill (first.merge second true) = (((c.fill first).1.fill second).1, .ok ()) ∧
      c.fill (second.merge first false) = (((c.fill first).1.fill second).1, .ok ()) ∧
      (c.fill first).1.fill first = ((c.fill first).1, .ok ()) := by
  have hsound₁ : (c.fill first).1.Sound := fill_sound hc.sound hfirst
  have hentity₁ : (c.fill first).1.entity? = some entity :=
    (fill_extends c first).entity.trans hentity
  have hsound₂ : ((c.fill first).1.fill second).1.Sound := fill_sound hsound₁ hsecond
  have hentity₂ : ((c.fill first).1.fill second).1.entity? = some entity :=
    (fill_extends _ second).entity.trans hentity₁
  have hfilled₁ : Filled entity first c (c.fill first).1 := fill_filled hentity hfirst.1 hok₁
  have hfilled₂ : Filled entity second (c.fill first).1 ((c.fill first).1.fill second).1 :=
    fill_filled hentity₁ hsecond.1 hok₂
  have hmerged : c.fill (first.merge second true) = (((c.fill first).1.fill second).1, .ok ()) :=
    fill_eq_of_filled hc.sound hsound₂ hentity hentity₂ (hfirst.merge hsecond)
      (hfilled₁.merge hsecond.1 hfilled₂)
  refine ⟨hmerged, ?_, ?_⟩
  · rw [Record.merge_comm_of_prevailing hfirst.1 hsecond.1, hmerged]
  · exact fill_eq_of_filled hsound₁ hsound₁ hentity₁ hentity₁ hfirst hfilled₁.again

/-- What a host reports at first. -/
def firstReport : Record := [("cpu", .int 4), ("ram", .int 16)]

/-- What it reports later: nothing about its processors, and a rack, which is not declared. -/
def laterReport : Record := [("cpu", .null), ("rack", .string "r1")]

/-- The container of the host then. -/
def hostReported : Container := ⟨[("cpu", .null .int64), ("ram", .int64 16)], some host⟩

/-- The processors that were reported first give way to a null, and the memory stays. -/
theorem host_fill_fill :
    (hostOf 2 8).Reachable ∧ firstReport.Ordered ∧ laterReport.Ordered ∧
      (hostOf 2 8).fill firstReport = (hostOf 4 16, .ok ()) ∧
      (hostOf 4 16).fill laterReport = (hostReported, .ok ()) ∧
      (hostOf 2 8).fill (firstReport.merge laterReport true) = (hostReported, .ok ()) ∧
      (hostOf 2 8).fill (laterReport.merge firstReport false) = (hostReported, .ok ()) ∧
      (hostOf 4 16).fill firstReport = (hostOf 4 16, .ok ()) := by
  have hfirst : firstReport.Ordered := hostRecord_ordered trivial trivial
  have hlater : laterReport.Ordered :=
    ⟨by decide, by simp [laterReport, Raw.EntriesOrdered, Raw.Ordered]⟩
  have hmerged := fill_fill (hostOf_reachable 2 8) rfl hfirst hlater rfl rfl
  exact ⟨hostOf_reachable 2 8, hfirst, hlater, rfl, rfl, hmerged⟩

end Container

end EntityModel
