import EntityModel.Proofs.Container.PathTypes
import EntityModel.Proofs.Lens
import EntityModel.Proofs.Path.Spelling

/-!
# Setting one value

A value of a container is set in two ways: a whole field is looked up among the declarations and put
under its name, and whatever lies deeper is changed in place. In a container that holds what its
entity declares both come to the same: the value at the path gives way to the raw value, read as a
value of the old one's type.

* `Sound.set_eq`: both ways in one equation.
* `Sound.set_ok_iff`: when a value is set, and what the container holds then.
* `Sound.write_outcome`, `Sound.write_comm`: writes at paths that part do not interfere.
* `set_one_place`: setting writes one place or nothing.
-/

namespace EntityModel.Container

variable {c c' : Container} {entity : Entity} {path other : String} {raw raw' : Raw}
  {steps others : Path}

theorem isTopLevel_iff : steps.isTopLevel = true ↔ ∃ name, steps = [.key name] := by
  constructor
  · intro h
    unfold Path.isTopLevel at h
    split at h
    · exact ⟨_, rfl⟩
    · cases h
  · rintro ⟨name, rfl⟩
    rfl

theorem get_eq (hentity : c.entity? = some entity) (hsteps : Path.parse path = .ok steps) :
    c.get path = (resolve c.values steps).mapError .resolution := by
  have hc : c.entity = .ok entity := entity_ok.mpr hentity
  have hpath : parsePath path = .ok steps := parsePath_ok.mpr hsteps
  rw [get, hc, hpath]
  rfl

/-! ## One write -/

/-- Why a value cannot be set at a path that leads nowhere. -/
def refusal (path : String) (steps : Path) (e : ResolutionError) : ContainerError :=
  if steps.isTopLevel then .undeclared path else .resolution e

/-- A field that a sound container holds has the type that its entity declares. -/
theorem Sound.typeOf?_of_get? (hc : c.Sound) (hentity : c.entity? = some entity) {old : Value}
    (hget : Assoc.get? c.values path = some old) : entity.typeOf? path = some old.type :=
  (hc.fits hentity _ (Assoc.mem_of_get? hget)).type

/-- The declared types of the fields that a sound container holds are the types of their values. -/
theorem Sound.heldType?_eq (hc : c.Sound) (hentity : c.entity? = some entity) (name : String) :
    ((entity.typeOf? name).filter fun _ => Assoc.has c.values name) =
      (Assoc.get? c.values name).map Value.type := by
  cases hget : Assoc.get? c.values name with
  | none =>
    rw [Option.map_none, Option.filter_eq_none_iff]
    intro type _
    simp [Assoc.has, hget]
  | some old =>
    rw [hc.typeOf?_of_get? hentity hget, Option.filter_some, Assoc.has, hget, Option.isSome_some,
      if_pos rfl, Option.map_some]

theorem Sound.put_eq (hc : c.Sound) (hentity : c.entity? = some entity) {name : String}
    {old : Value} (hget : Assoc.get? c.values name = some old) (value : Value) :
    c.put name value = c.withValues (replaceAt c.values [.key name] value) := by
  have hkey : name ∈ Assoc.keys c.values := by
    rw [Assoc.mem_keys_iff, hget, Option.isSome_some]
  rw [Container.put, Assoc.insert_eq_replace (hc.ascending hentity) hkey, replaceAt, hget]
  rfl

theorem resolve_name (table : ValueTable) (name : String) :
    resolve table [.key name] =
      match Assoc.get? table name with
      | some old => .ok old
      | none => .error ⟨[.key name], .keyNotFound⟩ := by
  rw [resolve, entryAt]
  cases Assoc.get? table name <;> rfl

theorem Sound.set_eq (hc : c.Sound) (hentity : c.entity? = some entity)
    (hsteps : Path.parse path = .ok steps) (raw : Raw) :
    c.set path raw = (do
      let old ← (resolve c.values steps).mapError (refusal path steps)
      let new ← liftFor path raw old.type
      return c.withValues (replaceAt c.values steps new)) := by
  have hbound : c.entity = .ok entity := entity_ok.mpr hentity
  have hpath : parsePath path = .ok steps := parsePath_ok.mpr hsteps
  rw [set, hbound, hpath, ok_bind, ok_bind]
  by_cases htop : steps.isTopLevel = true
  · obtain ⟨name, rfl⟩ := isTopLevel_iff.mp htop
    obtain rfl := Path.eq_of_parse_key hsteps
    rw [if_pos htop, hc.heldType?_eq hentity, resolve_name]
    cases hget : Assoc.get? c.values path with
    | none =>
      rw [renamed_error, error_bind, refusal, if_pos htop]
      rfl
    | some old =>
      rw [renamed_ok, ok_bind]
      simp only [Option.map_some, hc.put_eq hentity hget]
  · have hrefusal : refusal path steps = .resolution := by
      funext e
      rw [refusal, if_neg htop]
    rw [if_neg htop, update_eq, hrefusal]
    simp only [bind_assoc, pure_bind]

theorem Sound.set_ok_iff (hc : c.Sound) (hentity : c.entity? = some entity)
    (hsteps : Path.parse path = .ok steps) :
    c.set path raw = .ok c' ↔ ∃ old new, resolve c.values steps = .ok old ∧
      lift old.type raw = .ok new ∧ c.withValues (replaceAt c.values steps new) = c' := by
  rw [hc.set_eq hentity hsteps]
  simp only [bind_ok_iff, renamed_ok_iff, liftFor_ok, pure_ok_iff, ← lift_ok_iff,
    exists_and_left]

theorem Sound.exists_set_iff (hc : c.Sound) (hentity : c.entity? = some entity) :
    (∃ c', c.set path raw = .ok c') ↔
      ∃ old new, c.get path = .ok old ∧ lift old.type raw = .ok new := by
  constructor
  · rintro ⟨c', h⟩
    obtain ⟨-, -, steps, hsteps, -⟩ := set_ok.mp h
    obtain ⟨old, new, hold, hnew, -⟩ := (hc.set_ok_iff hentity hsteps).mp h
    exact ⟨old, new, get_ok.mpr ⟨entity, hentity, steps, hsteps, hold⟩, hnew⟩
  · rintro ⟨old, new, hold, hnew⟩
    obtain ⟨-, -, steps, hsteps, hresolve⟩ := get_ok.mp hold
    exact ⟨_, (hc.set_ok_iff hentity hsteps).mpr ⟨old, new, hresolve, hnew, rfl⟩⟩

/-- The value of a whole field is of the type that is declared for it. -/
theorem Sound.typeOf_topLevel (hc : c.Sound) (hentity : c.entity? = some entity)
    (hsteps : Path.parse path = .ok steps) (htop : steps.isTopLevel = true) {old : Value}
    (hold : resolve c.values steps = .ok old) : c.typeOf path = .ok old.type := by
  obtain ⟨name, rfl⟩ := isTopLevel_iff.mp htop
  obtain rfl := Path.eq_of_parse_key hsteps
  obtain ⟨name, first, rest, hpath, hget, hfollow⟩ := resolve_ok.mp hold
  cases hpath
  cases hfollow
  have hkey : Path.schemaKey [.key path] = path := by
    rw [Path.schemaKey_of_parse hsteps]
    rfl
  refine typeOf_ok.mpr ⟨_, hsteps, entity, hentity, ?_⟩
  rw [hkey]
  exact hc.typeOf?_of_get? hentity hget

/-- What is asked for at paths that part from a written one is answered as before. -/
theorem get_withValues_of_diverges (hentity : c.entity? = some entity) (new : Value)
    (h : ∀ others, Path.parse other = .ok others → steps.Diverges others) :
    (c.withValues (replaceAt c.values steps new)).get other = c.get other := by
  cases hother : Path.parse other with
  | error e =>
    have hbound : c.entity = .ok entity := entity_ok.mpr hentity
    have hbound' : (c.withValues (replaceAt c.values steps new)).entity = .ok entity := hbound
    rw [get, get, hbound, hbound', parsePath, hother]
    rfl
  | ok others =>
    have hentity' : (c.withValues (replaceAt c.values steps new)).entity? = some entity := hentity
    rw [get_eq hentity hother, get_eq hentity' hother]
    exact congrArg _ (resolve_replaceAt_of_diverges (h others hother) c.values new)

/-! ## Two writes -/

/-- A container after a value is set, with the outcome. Where setting fails it stays as it was. -/
def write (c : Container) (path : String) (raw : Raw) : Container × Except ContainerError Unit :=
  ((c.set path raw).toOption.getD c, (c.set path raw).map fun _ => ())

/-- In a session, setting a value is such a write. -/
theorem step_set (session : Session) (target : Nat) (path : String) (raw : Raw) :
    session.step (.set target path raw) = session.modify target fun c => (c.write path raw).1 := rfl

theorem modify_of_fixed {session : Session} {target : Nat} {f : Container → Container}
    (hc : session[target]? = some c) (hf : f c = c) : session.modify target f = session := by
  apply List.ext_getElem?
  intro position
  rw [List.getElem?_modify]
  by_cases heq : target = position
  · subst heq
    simp [hc, hf]
  · simp [heq]

theorem write_of_error {e : ContainerError} (h : c.set path raw = .error e) :
    c.write path raw = (c, .error e) := by
  rw [write, h]
  rfl

theorem write_of_ok (h : c.set path raw = .ok c') : c.write path raw = (c', .ok ()) := by
  rw [write, h]
  rfl

theorem write_unchanged {e : ContainerError} (h : (c.write path raw).2 = .error e) :
    (c.write path raw).1 = c := by
  cases hset : c.set path raw with
  | error e' => rw [write_of_error hset]
  | ok c' =>
    rw [write_of_ok hset] at h
    cases h

/-- A write has the outcome that it would have without a write that parts from it. -/
theorem Sound.write_outcome (hc : c.Sound) (hentity : c.entity? = some entity)
    (hsteps : Path.parse path = .ok steps) (hothers : Path.parse other = .ok others)
    (h : steps.Diverges others) (hraw : raw.Ordered) (raw' : Raw) :
    ((c.write path raw).1.write other raw').2 = (c.write other raw').2 := by
  cases hset : c.set path raw with
  | error e => rw [write_of_error hset]
  | ok c' =>
    have hc' := set_sound hc hraw hset
    obtain ⟨old, new, -, -, rfl⟩ := (hc.set_ok_iff hentity hsteps).mp hset
    have hresolve := resolve_replaceAt_of_diverges h c.values new
    rw [write_of_ok hset]
    dsimp only [write]
    rw [hc.set_eq hentity hothers, hc'.set_eq hentity hothers]
    show ((resolve (replaceAt c.values steps new) others).mapError _ >>= _).map _ = _
    rw [hresolve]
    cases resolve c.values others with
    | error e => rfl
    | ok found =>
      simp only [renamed_ok, ok_bind]
      cases liftFor other raw' found.type <;> rfl

/-- What a write leaves behind that parts from a later one does not depend on their order. -/
theorem Sound.write_comm (hc : c.Sound) (hentity : c.entity? = some entity)
    (hsteps : Path.parse path = .ok steps) (hothers : Path.parse other = .ok others)
    (h : steps.Diverges others) (hraw : raw.Ordered) (hraw' : raw'.Ordered) :
    ((c.write path raw).1.write other raw').1 = ((c.write other raw').1.write path raw).1 := by
  cases hfirst : c.set path raw with
  | error e =>
    -- the first write fails in either order, so only the second one counts
    have hoff := hc.write_outcome hentity hothers hsteps h.symm hraw' raw
    rw [write_of_error hfirst] at hoff ⊢
    exact (write_unchanged hoff).symm
  | ok c₁ =>
    cases hsecond : c.set other raw' with
    | error e =>
      have hoff := hc.write_outcome hentity hsteps hothers h hraw raw'
      rw [write_of_error hsecond] at hoff ⊢
      exact write_unchanged hoff
    | ok c₂ =>
      have hc₁ := set_sound hc hraw hfirst
      have hc₂ := set_sound hc hraw' hsecond
      obtain ⟨old, new, hold, hnew, rfl⟩ := (hc.set_ok_iff hentity hsteps).mp hfirst
      obtain ⟨old', new', hold', hnew', rfl⟩ := (hc.set_ok_iff hentity hothers).mp hsecond
      have hresolve := (resolve_replaceAt_of_diverges h c.values new).trans hold'
      have hresolve' := (resolve_replaceAt_of_diverges h.symm c.values new').trans hold
      rw [write_of_ok hfirst, write_of_ok hsecond,
        write_of_ok ((hc₁.set_ok_iff hentity hothers).mpr ⟨old', new', hresolve, hnew', rfl⟩),
        write_of_ok ((hc₂.set_ok_iff hentity hsteps).mpr ⟨old, new, hresolve', hnew, rfl⟩)]
      exact congrArg c.withValues (replaceAt_comm h new new' c.values)

/-- Setting writes one place or nothing. Where it fails, no container of a session changes. It
succeeds just where the path leads to a value and the raw value is read as one of that value's type,
which for a whole field is the declared one; then the path leads to the value that was read, no key
comes or goes, and all that is asked for at paths that part from this one is answered as before. So
two such writes have the same outcomes and leave the same values in either order. -/
theorem set_one_place (hc : c.Reachable) (hentity : c.entity? = some entity) :
    (∀ path raw e, c.set path raw = .error e → ∀ (session : Session) (target : Nat),
      session[target]? = some c → session.step (.set target path raw) = session) ∧
    (∀ path raw, (∃ c', c.set path raw = .ok c') ↔
      ∃ old new, c.get path = .ok old ∧ lift old.type raw = .ok new) ∧
    (∀ path raw c', c.set path raw = .ok c' →
      ∃ steps old new, Path.parse path = .ok steps ∧ c.get path = .ok old ∧
        (steps.isTopLevel = true → c.typeOf path = .ok old.type) ∧
        lift old.type raw = .ok new ∧ c'.get path = .ok new ∧
        Assoc.keys c'.values = Assoc.keys c.values ∧
        ∀ other, (∀ others, Path.parse other = .ok others → steps.Diverges others) →
          c'.get other = c.get other) ∧
    ∀ path other raw raw' steps others, Path.parse path = .ok steps →
      Path.parse other = .ok others → steps.Diverges others → raw.Ordered → raw'.Ordered →
      ((c.write path raw).1.write other raw').2 = (c.write other raw').2 ∧
        ((c.write other raw').1.write path raw).2 = (c.write path raw).2 ∧
        ((c.write path raw).1.write other raw').1 = ((c.write other raw').1.write path raw).1 := by
  have hsound := hc.sound
  refine ⟨?_, fun path raw => hsound.exists_set_iff hentity, ?_, ?_⟩
  · intro path raw e h session target hc
    rw [step_set]
    exact modify_of_fixed hc (congrArg Prod.fst (write_of_error h))
  · intro path raw c' h
    obtain ⟨-, -, steps, hsteps, -⟩ := set_ok.mp h
    obtain ⟨old, new, hold, hnew, rfl⟩ := (hsound.set_ok_iff hentity hsteps).mp h
    have hfound := resolve_replaceAt_self hold new
    refine ⟨steps, old, new, hsteps, get_ok.mpr ⟨entity, hentity, steps, hsteps, hold⟩,
      fun htop => hsound.typeOf_topLevel hentity hsteps htop hold, hnew,
      get_ok.mpr ⟨entity, hentity, steps, hsteps, hfound⟩, keys_replaceAt _ _ _, ?_⟩
    intro other hother
    exact get_withValues_of_diverges hentity new hother
  · intro path other raw raw' steps others hsteps hothers h hraw hraw'
    exact ⟨hsound.write_outcome hentity hsteps hothers h hraw raw',
      hsound.write_outcome hentity hothers hsteps h.symm hraw' raw,
      hsound.write_comm hentity hsteps hothers h hraw hraw'⟩

/-- The token of a vault's rule becomes a number, read as a text; its name is left alone. -/
theorem vault_set_one_place :
    (vaultOf "s3").Reachable ∧ (vaultOf "s3").entity? = some vault ∧
      (∃ c', (vaultOf "s3").set "rules[0].token" (.int 7) = .ok c' ∧
        c'.get "rules[0].token" = .ok (.string "7") ∧
        c'.get "name" = (vaultOf "s3").get "name") ∧
      (((vaultOf "s3").write "name" .null).1.write "rules[0].token" (.int 7)).1 =
        (((vaultOf "s3").write "rules[0].token" (.int 7)).1.write "name" .null).1 := by
  have hc := vaultOf_reachable "s3"
  have hentity : (vaultOf "s3").entity? = some vault := rfl
  obtain ⟨-, hsucceeds, hone, htwo⟩ := set_one_place hc hentity
  have htoken : Path.parse "rules[0].token" = .ok [.key "rules", .index 0, .key "token"] := by
    decide +kernel
  have hname : Path.parse "name" = .ok [.key "name"] := by decide +kernel
  have hparts : Path.Diverges [.key "rules", .index 0, .key "token"] [.key "name"] := by decide
  have hget : (vaultOf "s3").get "rules[0].token" = .ok (.string "s3") :=
    get_ok.mpr ⟨vault, rfl, _, htoken, rfl⟩
  have hlift : lift .string (.int 7) = .ok (.string "7") := rfl
  obtain ⟨c', hset⟩ := (hsucceeds "rules[0].token" (.int 7)).mpr ⟨_, _, hget, hlift⟩
  obtain ⟨steps, old, new, hsteps, hold, -, hnew, hfound, -, hothers⟩ := hone _ _ c' hset
  cases hget.symm.trans hold
  cases hlift.symm.trans hnew
  cases htoken.symm.trans hsteps
  refine ⟨hc, hentity, ⟨c', hset, hfound, hothers "name" ?_⟩, ?_⟩
  · intro others h
    cases hname.symm.trans h
    exact hparts
  · exact (htwo "name" "rules[0].token" .null (.int 7) _ _ hname htoken hparts.symm trivial
      trivial).2.2

end EntityModel.Container
