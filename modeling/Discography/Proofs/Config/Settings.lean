import Discography.Proofs.Config.Memory
import Mathlib.Data.List.Induction

/-!
# The settings that count

Settings are made in any order, and of those about one matter only the last one counts: the location
of the database is one matter, whether it is a path or the memory, and so is the cache of prepared
statements, whether it has a capacity or is switched off. What is not given has a default, which for
the connections depends on the location and on what else is given.

## Main definitions

* `Config.Matter`: what a setting is about, with the values that it can give
* `Config.last`, `Config.given`: the last setting about a matter, and what it gives
* `Config.greatest`, `Config.least`: the numbers of connections, given or not
* `Config.Acceptable`: what settings lead to a configuration

## Main results

* `Config.Builder.ofList_eq`: what has been set is what was given last
* `Config.Builder.ofList_eq_of_last_eq`: only the last setting about each matter counts
* `Config.Builder.accepted_assemble_iff`: what the checks ask of the settings
* `Config.build_of_settings`: which settings lead to a configuration, and to which
-/

namespace Discography.Config

/-! ### The last settings -/

/-- What a setting is about. A later setting about the same matter replaces it. -/
inductive Matter where
  | location
  | minConnections
  | maxConnections
  | acquireTimeout
  | cache
  | flavor
  | logSql
  | createSchema
  | logging
  deriving DecidableEq

/-- What can be given about a matter. A cache that is switched off has no capacity. -/
abbrev Matter.Value : Matter → Type
  | location => Location
  | minConnections | maxConnections => UInt32
  | acquireTimeout => UInt64
  | cache => Option UInt64
  | flavor => Flavor
  | logSql | createSchema => Bool
  | logging => Log.Config

namespace Setting

/-- The matter of a setting. -/
def matter : Setting → Matter
  | databasePath _ | inMemory => .location
  | minConnections _ => .minConnections
  | maxConnections _ => .maxConnections
  | acquireTimeoutSecs _ => .acquireTimeout
  | cacheCapacity _ | noCache => .cache
  | flavor _ => .flavor
  | logSql _ => .logSql
  | createSchema _ => .createSchema
  | logging _ => .logging

/-- What a setting gives. -/
def value : (s : Setting) → s.matter.Value
  | databasePath path => Location.file path
  | inMemory => Location.inMemory
  | minConnections n | maxConnections n | acquireTimeoutSecs n => n
  | cacheCapacity n => some n
  | noCache => none
  | flavor f => f
  | logSql b | createSchema b => b
  | logging c => c

/-- What a setting gives about a matter, if that is its matter. -/
def about (m : Matter) (s : Setting) : Option m.Value :=
  if h : s.matter = m then some (h ▸ s.value) else none

end Setting

/-- The last setting about a matter. -/
def last (m : Matter) (settings : List Setting) : Option Setting :=
  settings.reverse.find? (·.matter = m)

/-- What is given about a matter last. -/
def given (m : Matter) (settings : List Setting) : Option m.Value :=
  settings.reverse.findSome? (·.about m)

variable {settings other : List Setting}

@[simp] theorem given_nil (m : Matter) : given m [] = none := rfl

/-- A further setting is the last one about its matter. -/
@[simp] theorem given_concat (m : Matter) (settings : List Setting) (s : Setting) :
    given m (settings ++ [s]) = (s.about m).or (given m settings) := by
  rw [given, List.reverse_concat, List.findSome?_cons]
  cases s.about m <;> rfl

theorem given_eq_bind_last (m : Matter) (settings : List Setting) :
    given m settings = (last m settings).bind (·.about m) := by
  rw [given, last]
  induction settings.reverse with
  | nil => rfl
  | cons s rest ih =>
    rw [List.findSome?_cons, List.find?_cons]
    by_cases hs : s.matter = m
    · subst hs
      simp [Setting.about]
    · have habout : s.about m = none := dif_neg hs
      simp [hs, habout, ih]

namespace Builder

/-- What has been set is what was given last. -/
theorem ofList_eq (settings : List Setting) :
    ofList settings =
      { location := given .location settings
        minConnections := given .minConnections settings
        maxConnections := given .maxConnections settings
        acquireTimeoutSecs := given .acquireTimeout settings
        cacheCapacity := given .cache settings
        flavor := (given .flavor settings).getD .sqlite
        logSql := (given .logSql settings).getD false
        createSchema := given .createSchema settings
        logging := given .logging settings } := by
  induction settings using List.reverseRecOn with
  | nil => rfl
  | append_singleton settings s ih =>
    have hset : ofList (settings ++ [s]) = (ofList settings).set s := by
      rw [ofList, List.foldl_append]
      rfl
    rw [hset, ih]
    simp only [given_concat]
    cases s <;> rfl

/-- Only the last setting about each matter counts. -/
theorem ofList_eq_of_last_eq (h : ∀ m, last m other = last m settings) :
    ofList other = ofList settings := by
  have hgiven (m : Matter) : given m other = given m settings := by
    rw [given_eq_bind_last, given_eq_bind_last, h]
  simp only [ofList_eq, hgiven]

end Builder

/-! ### Configurations -/

/-- The greatest number of connections. -/
def greatest (location : Location) (settings : List Setting) : UInt32 :=
  (given .maxConnections settings).getD
    (match location with
      | .inMemory => 1
      | .file _ => 5)

/-- The least number of connections. -/
def least (location : Location) (settings : List Setting) : UInt32 :=
  (given .minConnections settings).getD (min 1 (greatest location settings))

/-- The settings lead to a configuration for a database at that location. -/
structure Acceptable (location : Location) (settings : List Setting) : Prop where
  path : location ≠ .file ""
  connections : 1 ≤ greatest location settings
  bounds : least location settings ≤ greatest location settings
  memory : location = .inMemory → greatest location settings ≤ 1
  timeout : 1 ≤ (given .acquireTimeout settings).getD 30
  cache : given .cache settings ≠ some (some 0)

namespace Builder

/-- The configuration before the checks, for settings in any order. -/
theorem assemble_ofList (settings : List Setting) (location : Location) :
    (ofList settings).assemble location =
      { location
        minConnections := least location settings
        maxConnections := greatest location settings
        acquireTimeoutSecs := (given .acquireTimeout settings).getD 30
        cacheCapacity := (given .cache settings).getD (some standardCapacity)
        flavor := (given .flavor settings).getD .sqlite
        logSql := (given .logSql settings).getD false
        createSchema := (given .createSchema settings).getD true
        logging := (given .logging settings).map fun log =>
          { log with sql := (given .logSql settings).getD false } } := by
  rw [ofList_eq]
  cases location <;> rfl

/-- The checks ask the same of a configuration as of the settings that it is made from. -/
theorem accepted_assemble_iff {location : Location} :
    ((ofList settings).assemble location).Accepted ↔ Acceptable location settings := by
  rw [assemble_ofList]
  have hpos32 (n : UInt32) : n ≠ 0 ↔ 1 ≤ n := by
    rw [ne_eq, ← UInt32.toNat_inj, UInt32.le_iff_toNat_le]
    exact Nat.one_le_iff_ne_zero.symm
  have hpos64 (n : UInt64) : n ≠ 0 ↔ 1 ≤ n := by
    rw [ne_eq, ← UInt64.toNat_inj, UInt64.le_iff_toNat_le]
    exact Nat.one_le_iff_ne_zero.symm
  have hcache : (given .cache settings).getD (some standardCapacity) ≠ some 0 ↔
      given .cache settings ≠ some (some 0) := by
    cases given .cache settings with
    | none => simp [standardCapacity]
    | some capacity => simp
  constructor
  · rintro ⟨hpath, hconnections, hbounds, hmemory, htimeout, hcapacity⟩
    exact ⟨hpath, (hpos32 _).mp hconnections, hbounds, hmemory, (hpos64 _).mp htimeout,
      hcache.mp hcapacity⟩
  · rintro ⟨hpath, hconnections, hbounds, hmemory, htimeout, hcapacity⟩
    exact ⟨hpath, (hpos32 _).mpr hconnections, hbounds, hmemory, (hpos64 _).mpr htimeout,
      hcache.mpr hcapacity⟩

theorem build_ofList_eq_ok_iff {c : Config} :
    (ofList settings).build = .ok c ↔ ∃ location, given .location settings = some location ∧
      (ofList settings).assemble location = c ∧ Acceptable location settings := by
  have hlocation : (ofList settings).location = given .location settings := by rw [ofList_eq]
  rw [build_eq_ok_iff, hlocation]
  constructor
  · rintro ⟨location, hgiven, rfl, haccepted⟩
    exact ⟨location, hgiven, rfl, accepted_assemble_iff.mp haccepted⟩
  · rintro ⟨location, hgiven, rfl, hacceptable⟩
    exact ⟨location, hgiven, rfl, accepted_assemble_iff.mpr hacceptable⟩

end Builder

/-- **Configurations from settings.** The outcome depends on the last setting about each matter
only. There is a configuration if a location was given and the last settings are acceptable for it.
The configuration passes the checks, the handle gets the numbers of connections that the settings
give, and whether statements are logged is taken over into the logging, wherever it was set. -/
theorem build_of_settings (settings : List Setting) :
    (∀ other, (∀ m, last m other = last m settings) →
      (Builder.ofList other).build = (Builder.ofList settings).build) ∧
    ((∃ c, (Builder.ofList settings).build = .ok c) ↔
      ∃ location, given .location settings = some location ∧ Acceptable location settings) ∧
    ∀ c, (Builder.ofList settings).build = .ok c →
      c.validate = .ok () ∧ given .location settings = some c.location ∧
      c.database.minConnections = least c.location settings ∧
      c.database.maxConnections = greatest c.location settings ∧
      c.logging = (given .logging settings).map fun log =>
        { log with sql := (given .logSql settings).getD false } := by
  refine ⟨fun other h => by rw [Builder.ofList_eq_of_last_eq h], ?_, fun c hc => ?_⟩
  · simp only [Builder.build_ofList_eq_ok_iff]
    constructor
    · rintro ⟨-, location, hgiven, -, hacceptable⟩
      exact ⟨location, hgiven, hacceptable⟩
    · rintro ⟨location, hgiven, hacceptable⟩
      exact ⟨_, location, hgiven, rfl, hacceptable⟩
  · obtain ⟨location, hgiven, rfl, hacceptable⟩ := Builder.build_ofList_eq_ok_iff.mp hc
    have hvalidate := validate_eq_ok_iff.mpr (Builder.accepted_assemble_iff.mpr hacceptable)
    rw [Builder.assemble_ofList] at hvalidate ⊢
    exact ⟨hvalidate, hgiven, rfl, rfl, rfl⟩

/-- Settings that were overwritten, and the same ones in another order without them. -/
theorem build_of_settings_reordered :
    let settings : List Setting := [.logging {}, .inMemory, .maxConnections 0, .cacheCapacity 0,
      .databasePath "music.db", .logSql true, .maxConnections 3, .noCache]
    let other : List Setting := [.noCache, .logSql true, .databasePath "music.db",
      .maxConnections 3, .logging {}]
    (Builder.ofList other).build = (Builder.ofList settings).build ∧
      ∃ c, (Builder.ofList settings).build = .ok c ∧ c.validate = .ok () ∧
        c.database.minConnections = 1 ∧ c.database.maxConnections = 3 ∧
        c.logging.map (·.sql) = some true := by
  intro settings other
  obtain ⟨horder, hiff, hconfig⟩ := build_of_settings settings
  have hacceptable : Acceptable (.file "music.db") settings :=
    ⟨by decide, by decide, by decide, nofun, by decide, by decide⟩
  obtain ⟨c, hc⟩ := hiff.mpr ⟨.file "music.db", rfl, hacceptable⟩
  obtain ⟨hvalidate, hlocation, hleast, hgreatest, hlogging⟩ := hconfig c hc
  have hfile : c.location = .file "music.db" := (Option.some.inj hlocation).symm
  rw [hfile] at hleast hgreatest
  refine ⟨horder other fun m => by cases m <;> rfl, c, hc, hvalidate, hleast, hgreatest, ?_⟩
  rw [hlogging]
  rfl

end Discography.Config
