import EntityModel.Proofs.Schema.Declared

/-!
# Where flags come from

A classification starts from the declaration of the attribute, and the hints are laid over it. Four
flags are no part of a declaration: they come from the hints alone, so the classification of a field
carries them just if the list of that flag mentions the path.

* `flags_of_classify`: the four flags of a classification.
* `Entity.Bound.mem_editOrDeleteOnly`: the paths that are no part of create requests, in terms of
  the table.
-/

namespace EntityModel

namespace Schema

variable {hints : Hints} {path : String} {a : Attribute} {c : Classification}

theorem classify_ok :
    classify hints path a = .ok c ↔
      (a.declaration.required && a.declaration.optional) = false ∧
        overlay hints path (.declared a.declaration) = c ∧ c.validate path = .ok () := by
  unfold classify
  dsimp only
  by_cases hboth : (a.declaration.required && a.declaration.optional) = true
  · simp [hboth]
  · rw [if_neg hboth]
    simp only [bind_ok_iff, exists_unit_iff, pure_ok_iff]
    constructor
    · rintro ⟨hvalid, rfl⟩
      exact ⟨Bool.eq_false_iff.mpr hboth, rfl, hvalid⟩
    · rintro ⟨-, rfl, hvalid⟩
      exact ⟨hvalid, rfl⟩

theorem flags_of_classify (h : classify hints path a = .ok c) :
    c.searchable = hints.mentions .searchable path ∧
      c.readOnly = hints.mentions .readOnly path ∧ c.editOnly = hints.mentions .editOnly path ∧
      c.deleteOnly = hints.mentions .deleteOnly path := by
  obtain ⟨-, rfl, -⟩ := classify_ok.mp h
  unfold overlay
  dsimp only
  -- the lines before the last change `required`, `optional` and `computed` only
  refine ⟨?_, ?_, ?_, ?_⟩
  · simp [apply_ite Classification.searchable, Classification.declared]
  · simp [apply_ite Classification.readOnly, Classification.declared]
  · simp [apply_ite Classification.editOnly, Classification.declared]
  · simp [apply_ite Classification.deleteOnly, Classification.declared]

end Schema

namespace Entity

variable {entity : Entity} {path : String} {field : Field}

theorem Bound.classify_of_field (h : entity.Bound)
    (hfield : entity.introspection.field? path = some field) :
    ∃ a, Schema.classify entity.hints path a = .ok field.classification := by
  obtain ⟨names, a, -, -, -, hown⟩ := h.records hfield
  exact ⟨a, hown.classification⟩

theorem Bound.mem_editOrDeleteOnly (h : entity.Bound)
    (hfield : entity.introspection.field? path = some field) :
    path ∈ entity.hints.editOrDeleteOnly ↔
      field.classification.editOnly = true ∨ field.classification.deleteOnly = true := by
  obtain ⟨a, hclassify⟩ := h.classify_of_field hfield
  obtain ⟨-, -, hedit, hdelete⟩ := Schema.flags_of_classify hclassify
  rw [hedit, hdelete, Hints.editOrDeleteOnly, List.mem_append, Hints.mentions, Hints.mentions,
    List.contains_iff_mem, List.contains_iff_mem]

end Entity

end EntityModel
