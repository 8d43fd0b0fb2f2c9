import EntityModel.Proofs.Order
import EntityModel.Schema.Registry

/-!
# Building a registry

A registry is built from registrations one after the other. The first one whose name has been taken,
or whose schema cannot be introspected, ends the build with its fault. A registry that comes about
does not depend on the order of the registrations: each entity is bound from its own registration
alone, and the names are kept in ascending order.

* `enter`, `enter_ok`, `enter_error`: one registration.
* `exists_register`, `register_entries`, `register_error`: registrations one after the other.
* `Buildable`, `Holds`, `StopsAt`: when a build succeeds, with what, and where it ends otherwise.
* `build_of_registrations`: the three of them describe every build.
-/

namespace EntityModel

variable {registration : Registration} {registrations before others : List Registration}
  {entity : Entity} {registry : Registry} {done next all : Assoc Entity} {name : String}
  {e : SchemaError}

namespace Entity

theorem bind_ok :
    bind registration = .ok entity ↔
      ∃ i, introspect registration.schema registration.hints = .ok i ∧
        ⟨registration.schema, registration.hints, i⟩ = entity := by
  simp [bind]

theorem bind_error :
    bind registration = .error e ↔
      introspect registration.schema registration.hints = .error e :=
  bind_pure_error_iff

end Entity

/-- The entry of a registry that a registration makes. -/
def Registration.Makes (registration : Registration) (entry : String × Entity) : Prop :=
  entry.1 = registration.schema.name ∧ Entity.bind registration = .ok entry.2

namespace Registry

/-! ## One registration -/

/-- The entities after one more registration. -/
def enter (done : Assoc Entity) (registration : Registration) :
    Except SchemaError (Assoc Entity) :=
  if Assoc.has done registration.schema.name then
    .error (.duplicateEntity registration.schema.name)
  else return Assoc.insert registration.schema.name (← Entity.bind registration) done

theorem enter_ok :
    enter done registration = .ok next ↔ registration.schema.name ∉ Assoc.keys done ∧
      ∃ entity, Entity.bind registration = .ok entity ∧
        Assoc.insert registration.schema.name entity done = next := by
  rw [enter, ← Assoc.has_iff]
  split
  · next htaken => simp [htaken]
  · next hfree => simp [hfree]

theorem enter_error :
    enter done registration = .error e ↔
      (registration.schema.name ∈ Assoc.keys done ∧
        e = .duplicateEntity registration.schema.name) ∨
      registration.schema.name ∉ Assoc.keys done ∧
        introspect registration.schema registration.hints = .error e := by
  rw [enter, ← Assoc.has_iff, ← Entity.bind_error]
  split
  · next htaken => simp [htaken, eq_comm]
  · next hfree =>
    rw [bind_pure_error_iff]
    simp [hfree]

/-- A registration that is entered adds the entry that it makes. -/
theorem enter_entries (hdone : Assoc.Ascending done) (h : enter done registration = .ok next) :
    Assoc.Ascending next ∧
      ∀ entry, entry ∈ next ↔ registration.Makes entry ∨ entry ∈ done := by
  obtain ⟨hfree, entity, hbind, rfl⟩ := enter_ok.mp h
  refine ⟨Assoc.ascending_insert hdone, fun entry => ?_⟩
  rw [(Assoc.insert_perm hfree).mem_iff, List.mem_cons]
  refine or_congr_left ?_
  obtain ⟨name, own⟩ := entry
  rw [Registration.Makes, hbind, Except.ok.injEq, Prod.mk.injEq, @eq_comm _ own]

/-! ## Registrations one after the other -/

theorem register_cons (done : Assoc Entity) (registration : Registration)
    (rest : List Registration) :
    register done (registration :: rest) =
      enter done registration >>= fun next => register next rest := by
  rw [register, enter]
  split
  · rfl
  · cases Entity.bind registration <;> rfl

theorem exists_enter :
    (∃ next, enter done registration = .ok next) ↔
      registration.schema.name ∉ Assoc.keys done ∧
        ∃ entity, Entity.bind registration = .ok entity := by
  simp [enter_ok]

/-- All registrations are entered if their names are free and apart and all can be bound. -/
theorem exists_register :
    (∃ all, register done registrations = .ok all) ↔
      (registrations.map (·.schema.name)).Nodup ∧
      (∀ registration ∈ registrations, registration.schema.name ∉ Assoc.keys done) ∧
      ∀ registration ∈ registrations, ∃ entity, Entity.bind registration = .ok entity := by
  induction registrations generalizing done with
  | nil => simp [register]
  | cons registration rest ih =>
    -- a name that is free once the first one is taken was free before, and is another one
    have hkeys : ∀ {next other}, enter done registration = .ok next →
        (other ∉ Assoc.keys next ↔
          other ≠ registration.schema.name ∧ other ∉ Assoc.keys done) := by
      intro next other hnext
      obtain ⟨-, entity, -, rfl⟩ := enter_ok.mp hnext
      rw [Assoc.mem_keys_insert, not_or]
    rw [List.map_cons, List.nodup_cons, List.forall_mem_cons, List.forall_mem_cons]
    constructor
    · rintro ⟨all, h⟩
      rw [register_cons, bind_ok_iff] at h
      obtain ⟨next, hnext, hall⟩ := h
      obtain ⟨hapart, hfree, hbound⟩ := ih.mp ⟨all, hall⟩
      obtain ⟨hfirst, hbind⟩ := exists_enter.mp ⟨next, hnext⟩
      simp only [hkeys hnext] at hfree
      refine ⟨⟨?_, hapart⟩, ⟨hfirst, fun other hother => (hfree other hother).2⟩,
        hbind, hbound⟩
      rw [List.mem_map]
      rintro ⟨other, hother, heq⟩
      exact (hfree other hother).1 heq
    · rintro ⟨⟨hnew, hapart⟩, ⟨hfirst, hfree⟩, hbind, hbound⟩
      obtain ⟨next, hnext⟩ := exists_enter.mpr ⟨hfirst, hbind⟩
      have hrest : ∀ other ∈ rest, other.schema.name ∉ Assoc.keys next := by
        intro other hother
        rw [hkeys hnext]
        exact ⟨fun heq => hnew (heq ▸ List.mem_map_of_mem hother), hfree other hother⟩
      obtain ⟨all, hall⟩ := ih.mpr ⟨hapart, hrest, hbound⟩
      exact ⟨all, by rw [register_cons, hnext, ok_bind, hall]⟩

/-- Registrations that are all entered add the entries that they make. -/
theorem register_entries (hdone : Assoc.Ascending done)
    (h : register done registrations = .ok all) :
    Assoc.Ascending all ∧
      ∀ entry, entry ∈ all ↔
        (∃ registration ∈ registrations, registration.Makes entry) ∨ entry ∈ done := by
  induction registrations generalizing done with
  | nil =>
    cases h
    exact ⟨hdone, by simp⟩
  | cons registration rest ih =>
    rw [register_cons, bind_ok_iff] at h
    obtain ⟨next, hnext, hall⟩ := h
    obtain ⟨hascending, hfirst⟩ := enter_entries hdone hnext
    obtain ⟨hall, hrest⟩ := ih hascending hall
    refine ⟨hall, fun entry => ?_⟩
    rw [hrest, hfirst, List.exists_mem_cons_iff, or_left_comm, or_assoc]

/-- A run that fails has entered all registrations before the one that it fails at. -/
theorem register_error :
    register done registrations = .error e ↔
      ∃ before registration after all, registrations = before ++ registration :: after ∧
        register done before = .ok all ∧ enter all registration = .error e := by
  induction registrations generalizing done with
  | nil => simp [register]
  | cons first rest ih =>
    rw [register_cons, bind_error_iff]
    constructor
    · rintro (hfirst | ⟨next, hnext, hrest⟩)
      · exact ⟨[], first, rest, done, rfl, rfl, hfirst⟩
      · obtain ⟨before, registration, after, all, rfl, hbefore, hfault⟩ := ih.mp hrest
        refine ⟨first :: before, registration, after, all, rfl, ?_, hfault⟩
        rw [register_cons, hnext, ok_bind, hbefore]
    · rintro ⟨before, registration, after, all, hsplit, hbefore, hfault⟩
      cases before with
      | nil =>
        cases hbefore
        cases hsplit
        exact .inl hfault
      | cons other before =>
        cases hsplit
        rw [register_cons, bind_ok_iff] at hbefore
        obtain ⟨next, hnext, hbefore⟩ := hbefore
        exact .inr
          ⟨next, hnext, ih.mpr ⟨before, registration, after, all, rfl, hbefore, hfault⟩⟩

/-! ## A whole build -/

/-- Registrations with names apart, each of which can be introspected. -/
structure Buildable (registrations : List Registration) : Prop where
  apart : (registrations.map (·.schema.name)).Nodup
  introspected : ∀ registration ∈ registrations,
    ∃ i, introspect registration.schema registration.hints = .ok i

/-- A registry holds registrations: its names are theirs in ascending order, and under a name it has
the registered schema and hints with what introspection makes of these alone. -/
structure Holds (registry : Registry) (registrations : List Registration) : Prop where
  ascending : registry.names.Pairwise (· < ·)
  names : registry.names.Perm (registrations.map (·.schema.name))
  get : ∀ registration ∈ registrations,
    ∃ i, introspect registration.schema registration.hints = .ok i ∧
      registry.get registration.schema.name =
        .ok ⟨registration.schema, registration.hints, i⟩
  unknown : ∀ name, name ∉ registrations.map (·.schema.name) →
    registry.get name = .error (.unknownEntity name)

/-- The fault at which a build ends: of all registrations before this one there is none, and the
name of this one is taken, or it is not and the schema cannot be introspected. -/
structure StopsAt (before : List Registration) (registration : Registration)
    (e : SchemaError) : Prop where
  buildable : Buildable before
  fault : (registration.schema.name ∈ before.map (·.schema.name) ∧
      e = .duplicateEntity registration.schema.name) ∨
    registration.schema.name ∉ before.map (·.schema.name) ∧
      introspect registration.schema registration.hints = .error e

theorem build_ok : build registrations = .ok registry ↔
    register [] registrations = .ok registry.entities := by
  obtain ⟨entities⟩ := registry
  simp [build]

theorem buildable_iff :
    Buildable registrations ↔ ∃ all, register [] registrations = .ok all := by
  have hbound : (∀ registration ∈ registrations,
      ∃ i, introspect registration.schema registration.hints = .ok i) ↔
        ∀ registration ∈ registrations, ∃ entity, Entity.bind registration = .ok entity :=
    forall₂_congr fun registration _ => by simp [Entity.bind_ok]
  rw [exists_register, ← hbound]
  exact ⟨fun h => ⟨h.apart, by simp [Assoc.keys], h.introspected⟩,
    fun h => ⟨h.1, h.2.2⟩⟩

theorem mem_of_build (h : build registrations = .ok registry) (entry : String × Entity) :
    entry ∈ registry.entities ↔
      ∃ registration ∈ registrations, registration.Makes entry := by
  rw [(register_entries List.Pairwise.nil (build_ok.mp h)).2]
  simp

theorem ascending_of_build (h : build registrations = .ok registry) :
    Assoc.Ascending registry.entities :=
  (register_entries List.Pairwise.nil (build_ok.mp h)).1

theorem buildable_of_build (h : build registrations = .ok registry) : Buildable registrations :=
  buildable_iff.mpr ⟨_, build_ok.mp h⟩

/-- Every registration has its entry in the registry. -/
theorem entry_of_build (h : build registrations = .ok registry)
    (hregistration : registration ∈ registrations) :
    ∃ i, introspect registration.schema registration.hints = .ok i ∧
      (registration.schema.name, ⟨registration.schema, registration.hints, i⟩) ∈
        registry.entities := by
  obtain ⟨i, hi⟩ := (buildable_of_build h).introspected registration hregistration
  have hbind := Entity.bind_ok.mpr ⟨i, hi, rfl⟩
  exact ⟨i, hi, (mem_of_build h (_, _)).mpr ⟨registration, hregistration, rfl, hbind⟩⟩

theorem mem_names_of_build (h : build registrations = .ok registry) :
    name ∈ registry.names ↔ name ∈ registrations.map (·.schema.name) := by
  rw [names, Assoc.keys, List.mem_map, List.mem_map]
  constructor
  · rintro ⟨entry, hentry, rfl⟩
    obtain ⟨registration, hregistration, hmakes⟩ := (mem_of_build h entry).mp hentry
    exact ⟨registration, hregistration, hmakes.1.symm⟩
  · rintro ⟨registration, hregistration, rfl⟩
    obtain ⟨i, -, hentry⟩ := entry_of_build h hregistration
    exact ⟨_, hentry, rfl⟩

theorem names_perm_of_build (h : build registrations = .ok registry) :
    registry.names.Perm (registrations.map (·.schema.name)) := by
  have hascending := Assoc.ascending_iff.mp (ascending_of_build h)
  have hnodup : registry.names.Nodup := hascending.imp fun hlt => String.ne_of_lt hlt
  exact (List.perm_ext_iff_of_nodup hnodup (buildable_of_build h).apart).mpr
    fun _ => mem_names_of_build h

theorem holds_of_build (h : build registrations = .ok registry) :
    registry.Holds registrations where
  ascending := Assoc.ascending_iff.mp (ascending_of_build h)
  names := names_perm_of_build h
  get := by
    intro registration hregistration
    obtain ⟨i, hi, hentry⟩ := entry_of_build h hregistration
    refine ⟨i, hi, ?_⟩
    rw [get, (ascending_of_build h).get?_of_mem hentry]
  unknown := by
    intro name hname
    rw [← mem_names_of_build h, names, Assoc.mem_keys_iff, Option.not_isSome_iff_eq_none] at hname
    rw [get, hname]

theorem build_perm (h : build registrations = .ok registry) (hperm : others.Perm registrations) :
    build others = .ok registry := by
  have hbuildable : Buildable others := by
    obtain ⟨hapart, hintrospected⟩ := buildable_of_build h
    refine ⟨(hperm.map _).nodup_iff.mpr hapart, fun registration hregistration => ?_⟩
    exact hintrospected registration (hperm.mem_iff.mp hregistration)
  obtain ⟨all, hall⟩ := buildable_iff.mp hbuildable
  have hothers : build others = .ok ⟨all⟩ := build_ok.mpr hall
  have hsame : all = registry.entities := by
    refine (ascending_of_build hothers).eq_of_mem_iff (ascending_of_build h) fun entry => ?_
    rw [mem_of_build hothers, mem_of_build h]
    simp only [hperm.mem_iff]
  rw [hothers, hsame]

/-- What is taken when a registration is entered are the names of those before it. -/
theorem enter_error_of_build (h : build before = .ok registry) :
    enter registry.entities registration = .error e ↔
      (registration.schema.name ∈ before.map (·.schema.name) ∧
        e = .duplicateEntity registration.schema.name) ∨
      registration.schema.name ∉ before.map (·.schema.name) ∧
        introspect registration.schema registration.hints = .error e := by
  rw [enter_error, ← mem_names_of_build h]
  rfl

theorem build_error :
    build registrations = .error e ↔ ∃ before registration after,
      registrations = before ++ registration :: after ∧ StopsAt before registration e := by
  rw [build, bind_pure_error_iff, register_error]
  constructor
  · rintro ⟨before, registration, after, all, hsplit, hbefore, hfault⟩
    have hbuild : build before = .ok ⟨all⟩ := build_ok.mpr hbefore
    exact ⟨before, registration, after, hsplit, buildable_of_build hbuild,
      (enter_error_of_build hbuild).mp hfault⟩
  · rintro ⟨before, registration, after, hsplit, hbuildable, hfault⟩
    obtain ⟨all, hbefore⟩ := buildable_iff.mp hbuildable
    have hbuild : build before = .ok ⟨all⟩ := build_ok.mpr hbefore
    exact ⟨before, registration, after, all, hsplit, hbefore,
      (enter_error_of_build hbuild).mpr hfault⟩

/-- A build succeeds just if the names of the registrations are apart and every one of them can be
introspected. The registry then holds the registrations, and comes about from them in any order.
Otherwise the error is the fault of the first registration that has one. -/
theorem build_of_registrations (registrations : List Registration) :
    ((∃ registry, build registrations = .ok registry) ↔ Buildable registrations) ∧
    (∀ registry, build registrations = .ok registry → registry.Holds registrations ∧
      ∀ others : List Registration, others.Perm registrations → build others = .ok registry) ∧
    ∀ e, build registrations = .error e ↔ ∃ before registration after,
      registrations = before ++ registration :: after ∧ StopsAt before registration e := by
  refine ⟨⟨?_, fun h => ?_⟩, fun registry h => ?_, fun e => build_error⟩
  · rintro ⟨registry, h⟩
    exact buildable_of_build h
  · obtain ⟨all, hall⟩ := buildable_iff.mp h
    exact ⟨⟨all⟩, build_ok.mpr hall⟩
  · exact ⟨holds_of_build h, fun others => build_perm h⟩

/-! ## A registry of two entities -/

/-- Users have a name and, later, a number. -/
def userRegistration : Registration where
  schema :=
    { name := "user"
      attributes := [("id", .plain .int64 { computed := true }),
        ("name", .plain .string { required := true })] }
  hints := Hints.none

/-- Groups are looked up by their number. -/
def groupRegistration : Registration where
  schema := { name := "group", attributes := [("gid", .plain .int64 { optional := true })] }
  hints := Hints.none.put .searchable ["gid"]

/-- Users again, with a name that is both required and optional. -/
def brokenRegistration : Registration where
  schema :=
    { name := "user"
      attributes := [("name", .plain .string { required := true, optional := true })] }
  hints := Hints.none

def directory : Registry where
  entities := [
    ("group", ⟨groupRegistration.schema, groupRegistration.hints,
      ⟨[("gid", ⟨.int64, { optional := true, searchable := true }⟩)]⟩⟩),
    ("user", ⟨userRegistration.schema, userRegistration.hints,
      ⟨[("id", ⟨.int64, { computed := true }⟩),
        ("name", ⟨.string, { required := true }⟩)]⟩⟩)]

/-- Both orders make the same registry. A third registration under a name that is taken is refused
for the name, though its schema has a fault of its own. -/
theorem directory_of_registrations :
    build [userRegistration, groupRegistration] = .ok directory ∧
      directory.Holds [userRegistration, groupRegistration] ∧
      build [groupRegistration, userRegistration] = .ok directory ∧
      build [userRegistration, groupRegistration, brokenRegistration] =
        .error (.duplicateEntity "user") := by
  have hbuild : build [userRegistration, groupRegistration] = .ok directory := rfl
  obtain ⟨hbuildable, hholds, -⟩ := build_of_registrations [userRegistration, groupRegistration]
  obtain ⟨hdirectory, hperm⟩ := hholds directory hbuild
  refine ⟨hbuild, hdirectory, hperm _ (.swap _ _ _), ?_⟩
  rw [(build_of_registrations _).2.2]
  exact ⟨_, brokenRegistration, [], rfl, hbuildable.mp ⟨_, hbuild⟩,
    .inl ⟨by decide, rfl⟩⟩

end Registry

end EntityModel
