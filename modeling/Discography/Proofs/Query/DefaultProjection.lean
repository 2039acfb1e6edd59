import Discography.Proofs.Query.Acceptable
import Discography.Proofs.Query.Reachable
import Discography.Proofs.Query.ScopedSteps

/-!
# Projections that were not given

A projection is checked when it is given: no object in it is empty, none has a key twice, and its
columns are in scope. Without one the statement and the records of a query follow the columns of its
tables, which nobody checked. That is the same as long as the tables could be selected themselves.

## Main definitions

* `Table.Selectable`: tables whose columns can be selected under their names

## Main results

* `Projection.valid_table_iff`: the columns of a table make a valid projection if it is selectable
* `Query.checkProjection_eq_ok_iff`: what is accepted is what is valid
* `Query.valid_projection_of_apply`: a projection that was given stays valid
* `Query.Reachable.effectiveProjection_valid_iff`: when the projection of a query is valid
* `Query.select_effectiveProjection_of_reachable`: selecting the projection that a query has anyway
-/

namespace Discography

/-- There are columns, and their names are distinct. -/
structure Table.Selectable (t : Table) : Prop where
  ne_nil : t.attributes ≠ []
  nodup : (t.attributes.map (·.name)).Nodup

/-! ### Valid projections -/

namespace Projection

variable {scope more : List Table} {p : Projection}

theorem Valid.mono (h : p.Valid scope) (hsubset : scope ⊆ more) : p.Valid more := by
  induction h with
  | column inScope => exact .column (inScope.mono hsubset)
  | object ne_nil nodup _ ih => exact .object ne_nil nodup ih

/-- A valid projection has a column. -/
theorem Valid.leaves_ne_nil (h : p.Valid scope) : p.leaves ≠ [] := by
  induction h with
  | column _ => exact List.cons_ne_nil _ _
  | @object fields ne_nil _ _ ih =>
    obtain ⟨⟨key, first⟩, rest, rfl⟩ := List.exists_cons_of_ne_nil ne_nil
    rw [leaves, fieldLeaves]
    simpa using fun hnil => absurd hnil (ih (key, first) List.mem_cons_self)

/-- An object without objects inside is valid if it has columns under distinct keys, all of them in
scope. -/
theorem valid_columns_iff {columns : List (String × Column)} :
    (object (columns.map fun (key, c) => (key, column c))).Valid scope ↔
      columns ≠ [] ∧ (columns.map Prod.fst).Nodup ∧ ∀ leaf ∈ columns, leaf.2.InScope scope := by
  have hkeys : (columns.map fun (key, c) => (key, column c)).map Prod.fst =
      columns.map Prod.fst := by
    rw [List.map_map]
    rfl
  constructor
  · rintro (_ | ⟨hne, hnodup, hinside⟩)
    rw [hkeys] at hnodup
    refine ⟨by simpa using hne, hnodup, fun leaf hleaf => ?_⟩
    obtain ⟨hcolumn⟩ := hinside _ (List.mem_map_of_mem hleaf)
    exact hcolumn
  · rintro ⟨hne, hnodup, hinside⟩
    refine .object (by simpa using hne) (by rwa [hkeys]) ?_
    exact List.forall_mem_map.mpr fun leaf hleaf => .column (hinside leaf hleaf)

theorem valid_table_iff {t : Table} (ht : t ∈ scope) : (table t).Valid scope ↔ t.Selectable := by
  have htable : table t = object ((t.columns.map fun c => (c.name, c)).map
      fun (key, c) => (key, column c)) := by
    rw [List.map_map]
    rfl
  have hinScope : ∀ leaf ∈ t.columns.map fun c => (c.name, c), leaf.2.InScope scope := by
    simp only [Table.columns, List.forall_mem_map]
    exact fun a ha => ⟨t, ht, rfl, a, ha, rfl⟩
  have hnames : (t.columns.map fun c => (c.name, c)).map Prod.fst =
      t.attributes.map (·.name) := by
    rw [Table.columns, List.map_map, List.map_map]
    rfl
  rw [htable, valid_columns_iff, hnames]
  constructor
  · rintro ⟨hne, hnodup, -⟩
    exact ⟨by simpa [Table.columns] using hne, hnodup⟩
  · rintro ⟨hne, hnodup⟩
    exact ⟨by simpa [Table.columns] using hne, hnodup, hinScope⟩

end Projection

namespace Query

variable {d : Dialect} {q r : Query}

/-! ### Projections that were given -/

mutual

/-- A projection that a query accepts is valid. -/
theorem valid_of_checkProjection : ∀ {p : Projection}, q.checkProjection p = .ok () →
    p.Valid q.tables
  | .column _, h => .column (inScope_of_ensureInScope h)
  | .object [], h => by cases h
  | .object (field :: fields), h => by
    rw [checkProjection] at h
    obtain ⟨hnodup, -, -⟩ := distinctKeys_of_checkFields h
    exact .object (List.cons_ne_nil _ _) hnodup (valid_of_checkFields h)

theorem valid_of_checkFields : ∀ {fields : List (String × Projection)} {seen : List String},
    q.checkFields seen fields = .ok () → ∀ field ∈ fields, field.2.Valid q.tables
  | [], _, _ => nofun
  | (key, p) :: rest, seen, h => by
    rw [checkFields] at h
    split at h
    · cases h
    · obtain ⟨_, hp, hrest⟩ := Outcome.bind_eq_ok.mp h
      exact List.forall_mem_cons.mpr ⟨valid_of_checkProjection hp, valid_of_checkFields hrest⟩

end

theorem checkProjection_eq_ok_iff (hnodup : (q.tables.map (·.aliasName)).Nodup)
    {p : Projection} : q.checkProjection p = .ok () ↔ p.Valid q.tables :=
  ⟨valid_of_checkProjection, checkProjection_of_valid hnodup⟩

/-- What queries of tables have and operations keep, reachable queries have. -/
theorem Reachable.preserves {P : Query → Prop} (htable : ∀ t, P (Query.ofTable d t))
    (hstep : ∀ {q r : Query} {s : Step}, P q → q.apply s = .ok r → P r) (hq : q.Reachable d) :
    P q :=
  @Reachable.rec d (fun q _ => P q) (fun _ _ => True) (fun _ _ => htable _)
    (fun _ _ h hq _ => hstep hq h) (fun _ _ _ => trivial) (fun _ _ _ => trivial)
    (fun _ _ _ => trivial) q hq

theorem Reachable.invariant (hq : q.Reachable d) : q.Invariant :=
  hq.preserves (fun _ => invariant_ofTable _ _) fun hq h => hq.apply h

/-- A valid projection stays valid until a valid one replaces it. -/
theorem valid_projection_of_apply {s : Step} (hq : ∀ p ∈ q.projection, p.Valid q.tables)
    (h : q.apply s = .ok r) : ∀ p ∈ r.projection, p.Valid r.tables := by
  intro p hp
  rw [(apply_frame h).2]
  rcases projection_of_apply h with hsame | ⟨p', hcheck, hselected⟩
  · exact (hq p (hsame ▸ hp)).mono (List.subset_append_left _ _)
  · obtain rfl := Option.some.inj (hselected.symm.trans hp)
    exact (valid_of_checkProjection hcheck).mono (List.subset_append_left _ _)

theorem valid_projection_of_run {t : Table} {steps : List Step}
    (h : (ofTable d t).run steps = .ok q) : ∀ p ∈ q.projection, p.Valid q.tables :=
  run_preserves (P := fun q => ∀ p ∈ q.projection, p.Valid q.tables)
    (fun _ hs hq => valid_projection_of_apply hq hs) h nofun

theorem Reachable.valid_projection (hq : q.Reachable d) : ∀ p ∈ q.projection, p.Valid q.tables :=
  hq.preserves (P := fun q => ∀ p ∈ q.projection, p.Valid q.tables)
    (fun _ => by simp [Query.ofTable]) fun hq h => valid_projection_of_apply hq h

/-! ### Projections that queries have -/

/-- The projection of a query is valid if it was given, or if its tables could be selected. A table
that was joined has columns. -/
theorem Reachable.effectiveProjection_valid_iff (hq : q.Reachable d) :
    q.effectiveProjection.Valid q.tables ↔ q.projection.isSome ∨
      q.primary.attributes ≠ [] ∧ ∀ t ∈ q.tables, (t.attributes.map (·.name)).Nodup := by
  rw [effectiveProjection]
  cases hprojection : q.projection with
  | some p => simpa using hq.valid_projection p hprojection
  | none =>
    simp only [Option.isSome_none, Bool.false_eq_true, false_or]
    split
    · rename_i hjoins
      have htables : q.tables = [q.primary] := by simp_all [tables]
      have hprimary : q.primary ∈ q.tables := List.mem_cons_self
      rw [Projection.valid_table_iff hprimary, htables, List.forall_mem_singleton]
      exact ⟨fun h => ⟨h.ne_nil, h.nodup⟩, fun h => ⟨h.1, h.2⟩⟩
    · have hinside : (∀ t ∈ q.tables, (Projection.table t).Valid q.tables) ↔
          ∀ t ∈ q.tables, t.Selectable :=
        forall₂_congr fun t ht => Projection.valid_table_iff ht
      have hkeys : (q.tables.map fun t => (t.aliasName, Projection.table t)).map Prod.fst =
          q.tables.map (·.aliasName) := by
        rw [List.map_map]
        rfl
      constructor
      · rintro (_ | ⟨-, -, hvalid⟩)
        rw [List.forall_mem_map, hinside] at hvalid
        exact ⟨(hvalid q.primary List.mem_cons_self).ne_nil, fun t ht => (hvalid t ht).nodup⟩
      · rintro ⟨hprimary, hnodup⟩
        have hne : ∀ t ∈ q.tables, t.attributes ≠ [] := by
          refine List.forall_mem_cons.mpr ⟨hprimary, List.forall_mem_map.mpr ?_⟩
          exact hq.invariant.attributes_ne_nil
        refine .object (by simp [tables]) (hkeys ▸ hq.invariant.nodup_aliases) ?_
        rw [List.forall_mem_map, hinside]
        exact fun t ht => ⟨hne t ht, hnodup t ht⟩

/-- The `SELECT` list of a query is empty if no projection was given and the only table has no
columns. -/
theorem Reachable.leaves_eq_nil_iff (hq : q.Reachable d) :
    q.effectiveProjection.leaves = [] ↔
      q.projection = none ∧ q.joins = [] ∧ q.primary.attributes = [] := by
  cases hprojection : q.projection with
  | some p =>
    have heffective : q.effectiveProjection = p := by rw [effectiveProjection, hprojection]
    simpa [heffective] using (hq.valid_projection p hprojection).leaves_ne_nil
  | none =>
    by_cases hjoins : q.joins = []
    · have heffective : q.effectiveProjection = .table q.primary := by
        simp [effectiveProjection, hprojection, hjoins]
      rw [heffective, ← List.length_eq_zero_iff, Projection.length_leaves_table]
      simp [hjoins]
    · obtain ⟨j, rest, hcons⟩ := List.exists_cons_of_ne_nil hjoins
      have hj := hq.invariant.attributes_ne_nil j (by simp [hcons])
      rw [effectiveProjection_of_joins hprojection hjoins, Projection.leaves_tables]
      simp [tables, Table.columns, hcons, hj]

/-- Selecting the projection that a query has anyway leaves out its order and its limits only. -/
theorem select_effectiveProjection_eq_ok (hq : q.Invariant) :
    q.select q.effectiveProjection = .ok r ↔ q.stage ≠ .joining ∧
      q.effectiveProjection.Valid q.tables ∧
      r = { q with projection := some q.effectiveProjection, order := [], limit := none,
                   offset := none, stage := .shaping } := by
  rw [select_eq_ok, checkProjection_eq_ok_iff hq.nodup_aliases]

theorem render_of_select_effectiveProjection (h : q.select q.effectiveProjection = .ok r)
    {s : Rendered} (hs : q.render = .ok s) :
    ∃ s' : Rendered, r.render = .ok s' ∧ s'.mapper = s.mapper ∧
      s.sql = s'.sql ++ q.orderSql ++ q.limitSql := by
  obtain ⟨-, -, rfl⟩ := select_eq_ok.mp h
  obtain ⟨-, hsql, hmapper⟩ := render_eq_ok.mp hs
  simp only [selectSql, Outcome.bind_eq_ok, Outcome.pure_eq_ok] at hsql
  obtain ⟨source, hsource, hsql⟩ := hsql
  refine ⟨⟨.word "SELECT" :: .space ::
    Sql.commas (q.effectiveProjection.leaves.map leafSql) ++ source, q.mapper⟩,
    render_eq_ok.mpr ⟨by simp, ?_, rfl⟩, hmapper.symm, hsql.symm⟩
  simp only [selectSql, Outcome.bind_eq_ok, Outcome.pure_eq_ok]
  exact ⟨source, hsource, by simp [effectiveProjection, orderSql, limitSql]⟩

/-- The table of a query is selectable if the projection of the query is valid. -/
theorem selectable_iff_of_asTable (hq : q.Invariant) {aliasName : String} {t : Table}
    (h : q.asTable aliasName = .ok t) :
    t.Selectable ↔ q.effectiveProjection.Valid q.tables := by
  obtain ⟨-, columns, hflat, sql, -, rfl⟩ := asTable_eq_ok.mp h
  have hinScope : ∀ leaf ∈ columns, leaf.2.InScope q.tables := by
    have hleaves := hq.leaves_inScope
    rw [leaves_of_flat? hflat] at hleaves
    exact fun leaf hleaf => hleaves _ (List.mem_map_of_mem hleaf)
  have hnames : (columns.map (derivedAttribute q.optionalAliases)).map (·.name) =
      columns.map Prod.fst := by
    rw [List.map_map]
    exact List.map_congr_left fun _ _ => rfl
  rw [eq_columns_of_flat? hflat, Projection.valid_columns_iff]
  constructor
  · rintro ⟨hne, hnodup⟩
    exact ⟨by simpa using hne, by rwa [hnames] at hnodup, hinScope⟩
  · rintro ⟨hne, hnodup, -⟩
    exact ⟨by simpa using hne, by rwa [hnames]⟩

/-- **Projections of queries.** What a query returns is as valid as what can be selected if it was
given, or if the first table has columns and no table names two of its columns alike. In these cases
it can be selected, which changes neither the mapper nor anything in front of the order, and the
table of the query can be selected from in turn. In the others it cannot, and then the list of
columns is empty for a table without columns only. -/
theorem select_effectiveProjection_of_reachable (hq : q.Reachable d) (hstage : q.stage ≠ .joining) :
    (q.effectiveProjection.Valid q.tables ↔ q.projection.isSome ∨
      q.primary.attributes ≠ [] ∧ ∀ t ∈ q.tables, (t.attributes.map (·.name)).Nodup) ∧
    ((∃ r, q.select q.effectiveProjection = .ok r) ↔ q.effectiveProjection.Valid q.tables) ∧
    (∀ r, q.select q.effectiveProjection = .ok r →
      r.effectiveProjection = q.effectiveProjection ∧
      ∀ s : Rendered, q.render = .ok s → ∃ s' : Rendered, r.render = .ok s' ∧
        s'.mapper = s.mapper ∧ s.sql = s'.sql ++ q.orderSql ++ q.limitSql) ∧
    (q.effectiveProjection.leaves = [] ↔
      q.projection = none ∧ q.joins = [] ∧ q.primary.attributes = []) ∧
    ∀ (aliasName : String) (t : Table), q.asTable aliasName = .ok t →
      (t.Selectable ↔ q.effectiveProjection.Valid q.tables) := by
  have hselect := fun r => select_effectiveProjection_eq_ok (r := r) hq.invariant
  refine ⟨hq.effectiveProjection_valid_iff, ⟨?_, ?_⟩, fun r hr => ⟨?_, ?_⟩,
    hq.leaves_eq_nil_iff, fun aliasName t ht => selectable_iff_of_asTable hq.invariant ht⟩
  · rintro ⟨r, hr⟩
    exact ((hselect r).mp hr).2.1
  · exact fun hvalid => ⟨_, (hselect _).mpr ⟨hstage, hvalid, rfl⟩⟩
  · obtain ⟨-, -, rfl⟩ := (hselect r).mp hr
    rfl
  · exact fun s hs => render_of_select_effectiveProjection hr hs

/-- A table under another alias, joined to the rows of a query. -/
theorem select_effectiveProjection_of_reachable_derived :
    ∃ q r : Query, q.Reachable .sqlite ∧ q.stage = .joinFiltered ∧
      q.effectiveProjection.Valid q.tables ∧ q.select q.effectiveProjection = .ok r := by
  let a : Table := ⟨"a", .path ["a"], [{ name := "x", type := .number }]⟩
  let page : Query := { ofTable .sqlite a with limit := some 3, stage := .shaping }
  have ha : a.Available .sqlite := .ofPath _ _ _
  have hpage : page.Reachable .sqlite := (Reachable.ofTable ha).apply (s := .take 3) nofun rfl
  have htop : page.asTable "top" =
      .ok ⟨"top", .subquery _, [{ name := "x", type := .number }]⟩ := rfl
  have hjoined : Reachable .sqlite _ :=
    (Reachable.ofTable (ha.withAlias "b")).apply (s := .join .left _)
      (fun _ h => Option.mem_some.mp h ▸ .asTable hpage htop) rfl
  have hq : Reachable .sqlite _ := hjoined.apply (s := .joinOn (.pattern [])) nofun rfl
  obtain ⟨hiff, hselect, -⟩ := select_effectiveProjection_of_reachable hq nofun
  have hvalid := hiff.mpr (.inr ⟨by decide, by decide⟩)
  obtain ⟨r, hr⟩ := hselect.mpr hvalid
  exact ⟨_, r, hq, rfl, hvalid, hr⟩

/-- A table without columns has a statement with an empty list, and one with a repeated name has a
record with a repeated key; neither projection can be selected. -/
theorem select_effectiveProjection_refused :
    (∃ q : Query, q.Reachable .sqlite ∧ q.stage ≠ .joining ∧
      (∃ s : Rendered, q.render = .ok s ∧ s.mapper.width = 0) ∧
      q.effectiveProjection.leaves = [] ∧
      q.select q.effectiveProjection = .error (.misuse .emptyProjection)) ∧
    ∃ q : Query, q.Reachable .sqlite ∧ q.stage ≠ .joining ∧
      (∃ s : Rendered, q.render = .ok s ∧ s.mapper.width = 2) ∧
      q.select q.effectiveProjection = .error (.misuse (.repeatedKey "a")) := by
  have hempty : (Table.mk "foo" (.path ["foo"]) []).Available .sqlite := .ofPath _ _ _
  have hrepeated : (Table.mk "foo" (.path ["foo"])
      [{ name := "a", type := .string }, { name := "a", type := .number }]).Available .sqlite :=
    .ofPath _ _ _
  exact ⟨⟨_, .ofTable hempty, nofun, ⟨_, rfl, rfl⟩, rfl, rfl⟩,
    ⟨_, .ofTable hrepeated, nofun, ⟨_, rfl, rfl⟩, rfl⟩⟩

end Query

end Discography
