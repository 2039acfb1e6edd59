import Discography.Config.Builder
import Discography.Proofs.Outcome

/-!
# Databases in memory

A database in memory is private to the connection that opened it, so a configuration that puts the
database there has one connection. Whether a handle is in memory is told from its URL, which has the
path of a database in a file. A path may name the database in memory too, and no check looks for
that.

## Main definitions

* `Config.Accepted`: what the checks ask for
* `Location.NamesMemory`: a file whose path makes the URL one of a database in memory

## Main results

* `Config.validate_eq_ok_iff`: the checks accept what they ask for
* `Config.exists_build_of_namesMemory`: paths that get a database in memory with several connections
* `Config.isInMemory_iff_of_accepted`: in all other cases one connection is all there is
-/

namespace Discography

theorem Text.occursIn_iff_isInfix {pattern text : List Char} :
    Text.occursIn pattern text ↔ pattern <:+: text := by
  induction text with
  | nil => simp [occursIn]
  | cons c text ih => simp [occursIn, ih, List.infix_cons_iff]

/-- A file whose path has the name of a database in memory, or begins with what comes behind the
colon in that name. -/
def Location.NamesMemory (location : Location) : Prop :=
  ∃ path, location = .file path ∧
    (":memory:".toList <:+: path.toList ∨ "memory:".toList <+: path.toList)

theorem Location.NamesMemory.ne_empty {path : String} (h : (Location.file path).NamesMemory) :
    path ≠ "" := by
  rintro rfl
  obtain ⟨_, ⟨⟩, h⟩ := h
  simp at h

/-- The scheme in front of the path ends with a colon, so the name may begin there. -/
theorem DatabaseConfig.isInMemory_file {path : String} :
    (DatabaseConfig.file path).isInMemory ↔ (Location.file path).NamesMemory := by
  have hname : memoryName.toList = ':' :: "memory:".toList := rfl
  have hurl : (file path).url.toList =
      's' :: 'q' :: 'l' :: 'i' :: 't' :: 'e' :: ':' :: path.toList := by
    simp [file]
  have hscheme : memoryName.toList <:+: (file path).url.toList ↔
      "memory:".toList <+: path.toList ∨ memoryName.toList <:+: path.toList := by
    rw [hurl, hname]
    simp [List.infix_cons_iff, List.cons_prefix_cons]
  rw [isInMemory, Text.occursIn_iff_isInfix, hscheme, or_comm]
  simp [Location.NamesMemory, memoryName]

namespace Config

/-! ### Accepted configurations -/

/-- What the checks of a configuration ask for. -/
structure Accepted (c : Config) : Prop where
  path : c.location ≠ .file ""
  connections : c.maxConnections ≠ 0
  bounds : c.minConnections ≤ c.maxConnections
  memory : c.location = .inMemory → c.maxConnections ≤ 1
  timeout : c.acquireTimeoutSecs ≠ 0
  cache : c.cacheCapacity ≠ some 0

theorem refuseIf_eq_ok {b : Bool} {cause : ConfigError} :
    refuseIf b cause = .ok () ↔ b = false := by
  cases b <;> simp [refuseIf]

theorem refuseIf_bind_eq_ok {α : Type} {b : Bool} {cause : ConfigError}
    {next : Unit → Except ConfigError α} {a : α} :
    (refuseIf b cause >>= next) = .ok a ↔ b = false ∧ next () = .ok a := by
  cases b <;> simp [refuseIf, bind, Except.bind]

theorem validate_eq_ok_iff {c : Config} : c.validate = .ok () ↔ c.Accepted := by
  simp only [validate, refuseIf_bind_eq_ok, refuseIf_eq_ok, decide_eq_false_iff_not,
    Bool.and_eq_false_imp, decide_eq_true_eq, UInt32.not_lt]
  constructor
  · rintro ⟨hpath, hconnections, hbounds, hmemory, htimeout, hcache⟩
    exact ⟨hpath, hconnections, hbounds, hmemory, htimeout, hcache⟩
  · rintro ⟨hpath, hconnections, hbounds, hmemory, htimeout, hcache⟩
    exact ⟨hpath, hconnections, hbounds, hmemory, htimeout, hcache⟩

/-- Settings lead to a configuration if they name a location and the checks accept the rest. -/
theorem Builder.build_eq_ok_iff {b : Builder} {c : Config} :
    b.build = .ok c ↔ ∃ location, b.location = some location ∧
      b.assemble location = c ∧ c.Accepted := by
  rw [build]
  cases b.location with
  | none => simp
  | some location =>
    simp only [Outcome.bind_eq_ok, Outcome.pure_eq_ok, Option.some.injEq, exists_eq_left',
      ← validate_eq_ok_iff]
    constructor
    · rintro ⟨_, hvalidate, rfl⟩
      exact ⟨rfl, hvalidate⟩
    · rintro ⟨rfl, hvalidate⟩
      exact ⟨(), hvalidate, rfl⟩

/-! ### Connections -/

theorem database_isInMemory_iff (c : Config) :
    c.database.isInMemory ↔ c.location = .inMemory ∨ c.location.NamesMemory := by
  cases hlocation : c.location with
  | inMemory =>
    have hurl : c.database.isInMemory = DatabaseConfig.inMemory.isInMemory := by
      simp [database, hlocation, Location.path?, DatabaseConfig.isInMemory]
    rw [hurl]
    simp only [true_or, iff_true]
    decide
  | file path =>
    have hurl : c.database.isInMemory = (DatabaseConfig.file path).isInMemory := by
      simp [database, hlocation, Location.path?, DatabaseConfig.isInMemory]
    rw [hurl, DatabaseConfig.isInMemory_file]
    simp

/-- A path that names the database in memory gets one with any number of connections. -/
theorem exists_build_of_namesMemory {path : String} (hpath : (Location.file path).NamesMemory)
    {connections : UInt32} (hconnections : connections ≠ 0) :
    ∃ c, (Builder.ofList [.databasePath path, .maxConnections connections]).build = .ok c ∧
      c.database.isInMemory ∧ c.database.maxConnections = connections := by
  have haccepted : Accepted {
      location := .file path
      minConnections := min 1 connections
      maxConnections := connections
      acquireTimeoutSecs := 30
      cacheCapacity := some standardCapacity
      flavor := .sqlite
      logSql := false
      createSchema := true
      logging := none } :=
    { path := by simpa using Location.NamesMemory.ne_empty hpath
      connections := hconnections
      bounds := Std.min_le_right
      memory := nofun
      timeout := by simp
      cache := by simp [standardCapacity] }
  refine ⟨_, Builder.build_eq_ok_iff.mpr ⟨.file path, rfl, rfl, haccepted⟩, ?_, rfl⟩
  exact (database_isInMemory_iff _).mpr (.inr hpath)

/-- **Connections to databases in memory.** The handle of an accepted configuration is in memory if
the configuration says so, which allows one connection, or if the path of its file names a database
in memory. -/
theorem isInMemory_iff_of_accepted {c : Config}
    (h : c.validate = .ok () ∨ ∃ settings, (Builder.ofList settings).build = .ok c) :
    (c.database.isInMemory ↔ c.location = .inMemory ∨ c.location.NamesMemory) ∧
    (c.database.isInMemory → ¬ c.location.NamesMemory → c.database.maxConnections = 1) := by
  have hc : c.Accepted := by
    rcases h with hvalidate | ⟨settings, hbuild⟩
    · exact validate_eq_ok_iff.mp hvalidate
    · obtain ⟨-, -, -, hc⟩ := Builder.build_eq_ok_iff.mp hbuild
      exact hc
  refine ⟨c.database_isInMemory_iff, fun hmemory hpath => ?_⟩
  have hlocation := (c.database_isInMemory_iff.mp hmemory).resolve_right hpath
  have hle := hc.memory hlocation
  have hne := hc.connections
  change c.maxConnections = 1
  grind

/-- The last location counts, and so does the last number of connections. -/
theorem isInMemory_iff_of_accepted_overwritten :
    ∃ c, (Builder.ofList [.databasePath ":memory:", .maxConnections 8, .inMemory,
        .maxConnections 1]).build = .ok c ∧
      ¬ c.location.NamesMemory ∧ c.database.isInMemory ∧ c.database.maxConnections = 1 := by
  obtain ⟨c, hbuild, hlocation⟩ : ∃ c, (Builder.ofList [.databasePath ":memory:",
      .maxConnections 8, .inMemory, .maxConnections 1]).build = .ok c ∧ c.location = .inMemory :=
    ⟨_, rfl, rfl⟩
  obtain ⟨hiff, hone⟩ := isInMemory_iff_of_accepted (.inr ⟨_, hbuild⟩)
  have hpath : ¬ c.location.NamesMemory := by
    rintro ⟨path, hfile, -⟩
    rw [hlocation] at hfile
    cases hfile
  have hmemory := hiff.mpr (.inl hlocation)
  exact ⟨c, hbuild, hpath, hmemory, hone hmemory hpath⟩

/-- The name of the database in memory as a path: it is accepted as a file, with five connections to
a handle in memory. -/
theorem pool_of_memory_path :
    ∃ c, (Builder.ofList [.databasePath ":memory:"]).build = .ok c ∧ c.validate = .ok () ∧
      c.location ≠ .inMemory ∧ c.database.isInMemory ∧ c.database.maxConnections = 5 :=
  ⟨_, rfl, rfl, nofun, by decide, rfl⟩

end Config

end Discography
