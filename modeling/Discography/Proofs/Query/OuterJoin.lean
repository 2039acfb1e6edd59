import Discography.Proofs.Query.Invariant
import Discography.Proofs.Sql.Truth
import Mathlib.Logic.Function.Basic

/-!
# Rows of joined tables

What joins make of the rows of tables, from the left to the right. A pair of rows is kept if the
condition of the join is true of it. A left join also keeps the rows so far that match no row of the
new table, and a right join also keeps the rows of the new table that match none of those so far;
the tables that have no row there are left out.

Whatever the tables hold and whatever the conditions are, a query knows which of its tables can be
left out: these, and no others.

## Main definitions

* `JoinedRow`: what each table contributes to a row
* `Database`: what tables hold, and the truth of conditions
* `Database.joined`: the rows of the tables and joins of a query

## Main results

* `Database.mem_optionalAliases_of_leftOut`: a table that is left out may be left out
* `Database.exists_leftOut`: every table that may be left out is left out somewhere
* `Database.mem_rows_of_mem_joined`: what a table contributes is one of its rows
-/

namespace Discography

open Function (update)

/-- What each table contributes to a row, by its alias. A table that a join left out contributes
nothing. -/
abbrev JoinedRow := String → Option Row

/-- The row to which no table contributes. -/
def JoinedRow.empty : JoinedRow := fun _ => none

/-- What the tables of a query hold, and the truth of its join conditions for each row so far and
each row of the new table. -/
structure Database where
  rows : Table → List Row
  on : Join → JoinedRow → Row → Truth
  width : ∀ t, ∀ row ∈ rows t, row.length = t.attributes.length

theorem Query.map_aliasName_tables (q : Query) :
    q.tables.map (·.aliasName) = q.primary.aliasName :: q.joins.map (·.table.aliasName) := by
  simp [tables, Function.comp_def]

namespace Database

/-- The rows after one more join. -/
def join (db : Database) (earlier : List JoinedRow) (j : Join) : List JoinedRow :=
  let added := db.rows j.table
  let aliasName := j.table.aliasName
  let pairs := earlier.flatMap fun row =>
    (added.filter fun new => db.on j row new = .holds).map fun new =>
      update row aliasName (some new)
  match j.kind with
  | .inner => pairs
  | .left =>
    pairs ++ (earlier.filter fun row => added.all fun new => db.on j row new ≠ .holds).map
      fun row => update row aliasName none
  | .right =>
    pairs ++ (added.filter fun new => earlier.all fun row => db.on j row new ≠ .holds).map
      fun new => update JoinedRow.empty aliasName (some new)

/-- The rows of the first table of a query. -/
def primaryRows (db : Database) (q : Query) : List JoinedRow :=
  (db.rows q.primary).map fun row => update JoinedRow.empty q.primary.aliasName (some row)

/-- The rows of the tables and joins of a query. -/
def joined (db : Database) (q : Query) : List JoinedRow := q.joins.foldl db.join (db.primaryRows q)

variable {db : Database} {rows : List JoinedRow} {row : JoinedRow} {j : Join} {q : Query}

/-- Where a row behind a join comes from. -/
theorem mem_join : row ∈ db.join rows j ↔
    (∃ old ∈ rows, ∃ new ∈ db.rows j.table, db.on j old new = .holds ∧
      row = update old j.table.aliasName (some new)) ∨
    (j.kind = .left ∧ ∃ old ∈ rows, (∀ new ∈ db.rows j.table, db.on j old new ≠ .holds) ∧
      row = update old j.table.aliasName none) ∨
    (j.kind = .right ∧ ∃ new ∈ db.rows j.table, (∀ old ∈ rows, db.on j old new ≠ .holds) ∧
      row = update JoinedRow.empty j.table.aliasName (some new)) := by
  have hpairs : (row ∈ rows.flatMap fun old =>
      ((db.rows j.table).filter fun new => db.on j old new = .holds).map fun new =>
        update old j.table.aliasName (some new)) ↔
      ∃ old ∈ rows, ∃ new ∈ db.rows j.table, db.on j old new = .holds ∧
        row = update old j.table.aliasName (some new) := by
    simp only [List.mem_flatMap, List.mem_map, List.mem_filter, decide_eq_true_eq, and_assoc,
      eq_comm (b := row)]
  rw [← hpairs, join]
  cases j.kind with
  | inner => simp
  | left => simp [eq_comm (b := row), and_assoc]
  | right => simp [eq_comm (b := row), and_assoc]

/-! ### Tables that are left out may be left out -/

/-- The tables that may be left out after one more join. -/
def optionalAfter (earlier optional : List String) (j : Join) : List String :=
  match j.kind with
  | .inner => optional
  | .left => optional ++ [j.table.aliasName]
  | .right => optional ++ earlier

theorem optionalFrom_cons (earlier optional : List String) (joins : List Join) :
    Query.optionalFrom earlier optional (j :: joins) =
      Query.optionalFrom (earlier ++ [j.table.aliasName]) (optionalAfter earlier optional j)
        joins := rfl

theorem mem_optionalAfter {earlier optional : List String} {aliasName : String} :
    aliasName ∈ optionalAfter earlier optional j ↔ aliasName ∈ optional ∨
      (j.kind = .left ∧ aliasName = j.table.aliasName) ∨
      (j.kind = .right ∧ aliasName ∈ earlier) := by
  rw [optionalAfter]
  cases j.kind <;> simp

/-- Of the tables `earlier`, a row leaves out none but the optional ones. -/
def Covers (earlier optional : List String) (rows : List JoinedRow) : Prop :=
  ∀ row ∈ rows, ∀ aliasName ∈ earlier, row aliasName = none → aliasName ∈ optional

/-- One join leaves out what it makes optional, and nothing else. -/
theorem Covers.join {earlier optional : List String} (h : Covers earlier optional rows)
    (j : Join) : Covers (earlier ++ [j.table.aliasName]) (optionalAfter earlier optional j)
      (db.join rows j) := by
  intro row hrow aliasName halias hnone
  rw [mem_optionalAfter]
  have hearlier : aliasName ≠ j.table.aliasName → aliasName ∈ earlier := by
    intro hne
    rcases List.mem_append.1 halias with hmem | hmem
    · exact hmem
    · exact absurd (List.mem_singleton.1 hmem) hne
  rcases mem_join.1 hrow with ⟨old, hold, new, -, -, rfl⟩ | ⟨hkind, old, hold, -, rfl⟩ |
      ⟨hkind, new, -, -, rfl⟩
  · by_cases heq : aliasName = j.table.aliasName
    · rw [heq, Function.update_self] at hnone
      cases hnone
    · rw [Function.update_of_ne heq] at hnone
      exact .inl (h old hold aliasName (hearlier heq) hnone)
  · by_cases heq : aliasName = j.table.aliasName
    · exact .inr (.inl ⟨hkind, heq⟩)
    · rw [Function.update_of_ne heq] at hnone
      exact .inl (h old hold aliasName (hearlier heq) hnone)
  -- a right join may leave out every table before it, so nothing has to be known of the row
  · by_cases heq : aliasName = j.table.aliasName
    · rw [heq, Function.update_self] at hnone
      cases hnone
    · exact .inr (.inr ⟨hkind, hearlier heq⟩)

theorem Covers.foldl_join {earlier optional : List String} (h : Covers earlier optional rows)
    (joins : List Join) : Covers (earlier ++ joins.map (·.table.aliasName))
      (Query.optionalFrom earlier optional joins) (joins.foldl db.join rows) := by
  induction joins generalizing earlier optional rows with
  | nil => simpa [Query.optionalFrom] using h
  | cons j joins ih => simpa [optionalFrom_cons] using ih (h.join j)

/-- A table that is left out of a row is one that may be left out. -/
theorem mem_optionalAliases_of_leftOut {t : Table} (hrow : row ∈ db.joined q) (ht : t ∈ q.tables)
    (hnone : row t.aliasName = none) : t.aliasName ∈ q.optionalAliases := by
  have hprimary : Covers [q.primary.aliasName] [] (db.primaryRows q) := by
    intro row hrow aliasName halias hnone
    obtain ⟨cells, -, rfl⟩ := List.mem_map.1 hrow
    rw [List.mem_singleton.1 halias, Function.update_self] at hnone
    cases hnone
  have halias : t.aliasName ∈ q.tables.map (·.aliasName) := List.mem_map_of_mem ht
  rw [q.map_aliasName_tables] at halias
  exact hprimary.foldl_join q.joins row hrow t.aliasName halias hnone

/-! ### Every table that may be left out is left out somewhere -/

/-- A table becomes optional by a left join of itself or by a right join behind it. -/
theorem mem_optionalFrom {earlier optional : List String} {joins : List Join} {aliasName : String}
    (h : aliasName ∈ Query.optionalFrom earlier optional joins) : aliasName ∈ optional ∨
      ∃ before j behind, joins = before ++ j :: behind ∧
        (j.kind = .left ∧ aliasName = j.table.aliasName ∨
          j.kind = .right ∧ aliasName ∈ earlier ++ before.map (·.table.aliasName)) := by
  induction joins generalizing earlier optional with
  | nil => exact .inl h
  | cons j joins ih =>
    rw [optionalFrom_cons] at h
    rcases ih h with hmem | ⟨before, j', behind, rfl, hj'⟩
    · rcases mem_optionalAfter.1 hmem with hmem | hmem | hmem
      · exact .inl hmem
      · exact .inr ⟨[], j, joins, rfl, .inl hmem⟩
      · exact .inr ⟨[], j, joins, rfl, .inr (by simpa using hmem)⟩
    · exact .inr ⟨j :: before, j', behind, rfl, by simpa using hj'⟩

/-- Every table holds one row, all of whose cells are the same, and all conditions are true but that
of the join of one table. -/
def unmatched (aliasName : String) (cell : Cell) : Database where
  rows t := [List.replicate t.attributes.length cell]
  on j _ _ := if j.table.aliasName = aliasName then .fails else .holds
  width := by simp

theorem primaryRows_unmatched (aliasName : String) (cell : Cell) (q : Query) :
    (unmatched aliasName cell).primaryRows q = [update JoinedRow.empty q.primary.aliasName
      (some (List.replicate q.primary.attributes.length cell))] := rfl

/-- As long as conditions are true there is one row, to which every table contributes. -/
theorem foldl_join_unmatched {aliasName : String} {joins : List Join} (cell : Cell)
    (h : aliasName ∉ joins.map (·.table.aliasName)) (row : JoinedRow) :
    ∃ last, joins.foldl (unmatched aliasName cell).join [row] = [last] ∧
      ∀ other ∉ joins.map (·.table.aliasName), last other = row other := by
  induction joins generalizing row with
  | nil => exact ⟨row, rfl, fun _ _ => rfl⟩
  | cons j joins ih =>
    rw [List.map_cons, List.mem_cons, not_or] at h
    have hj : (unmatched aliasName cell).join [row] j =
        [update row j.table.aliasName (some (List.replicate j.table.attributes.length cell))] := by
      cases hkind : j.kind <;> simp [Database.join, unmatched, hkind, Ne.symm h.1]
    obtain ⟨last, hlast, hother⟩ := ih h.2
      (update row j.table.aliasName (some (List.replicate j.table.attributes.length cell)))
    refine ⟨last, by rw [List.foldl_cons, hj, hlast], fun other hmem => ?_⟩
    rw [List.map_cons, List.mem_cons, not_or] at hmem
    rw [hother other hmem.2, Function.update_of_ne hmem.1]

/-- Every table that may be left out is left out of some row, for some contents and conditions. -/
theorem exists_leftOut (hnodup : (q.tables.map (·.aliasName)).Nodup) {aliasName : String}
    (h : aliasName ∈ q.optionalAliases) :
    ∃ (db : Database) (row : JoinedRow), row ∈ db.joined q ∧ row aliasName = none := by
  rcases mem_optionalFrom h with hmem | ⟨before, j, behind, hjoins, hj⟩
  · cases hmem
  -- the condition of the join that makes the table optional is the one that fails
  refine ⟨unmatched j.table.aliasName (.integer 0), ?_⟩
  have haliases : q.tables.map (·.aliasName) = q.primary.aliasName ::
      (before.map (·.table.aliasName) ++ j.table.aliasName ::
        behind.map (·.table.aliasName)) := by
    simp [q.map_aliasName_tables, hjoins]
  rw [haliases, ← List.cons_append, List.nodup_append, List.nodup_cons (a := j.table.aliasName)]
    at hnodup
  obtain ⟨-, ⟨hbehind, -⟩, hdisjoint⟩ := hnodup
  have hbefore : j.table.aliasName ∉ before.map (·.table.aliasName) := fun hmem =>
    hdisjoint _ (List.mem_cons_of_mem _ hmem) _ List.mem_cons_self rfl
  obtain ⟨old, hold, -⟩ := foldl_join_unmatched (.integer 0) hbefore
    (update JoinedRow.empty q.primary.aliasName
      (some (List.replicate q.primary.attributes.length (.integer 0))))
  obtain ⟨middle, hmiddle, hnone⟩ : ∃ middle,
      (unmatched j.table.aliasName (.integer 0)).join [old] j = [middle] ∧
        middle aliasName = none := by
    rcases hj with ⟨hkind, rfl⟩ | ⟨hkind, hmem⟩
    · exact ⟨update old j.table.aliasName none, by simp [Database.join, unmatched, hkind],
        Function.update_self ..⟩
    · have hne : aliasName ≠ j.table.aliasName :=
        hdisjoint _ (by simpa using hmem) _ List.mem_cons_self
      exact ⟨_, by simp [Database.join, unmatched, hkind]; rfl, Function.update_of_ne hne ..⟩
  obtain ⟨last, hlast, hother⟩ := foldl_join_unmatched (.integer 0) hbehind middle
  have hrows : (unmatched j.table.aliasName (.integer 0)).joined q = [last] := by
    rw [joined, hjoins, List.foldl_append, List.foldl_cons, primaryRows_unmatched, hold, hmiddle,
      hlast]
  refine ⟨last, by simp [hrows], ?_⟩
  -- no join behind it joins the same table again
  have hmem : aliasName ∉ behind.map (·.table.aliasName) := by
    rcases hj with ⟨-, rfl⟩ | ⟨-, hmem⟩
    · exact hbehind
    · exact fun hmem' => hdisjoint _ (by simpa using hmem) _ (List.mem_cons_of_mem _ hmem') rfl
  rw [hother aliasName hmem, hnone]

/-! ### What tables contribute -/

/-- What the given tables contribute is theirs. -/
def Contributes (db : Database) (tables : List Table) (rows : List JoinedRow) : Prop :=
  ∀ row ∈ rows, ∀ t ∈ tables, ∀ cells, row t.aliasName = some cells → cells ∈ db.rows t

theorem Contributes.join {tables : List Table} (h : db.Contributes tables rows)
    (hfresh : j.table.aliasName ∉ tables.map (·.aliasName)) :
    db.Contributes (tables ++ [j.table]) (db.join rows j) := by
  -- the alias of the new table is no one else's
  have hupdate : ∀ (old : JoinedRow) (part : Option Row),
      (∀ t ∈ tables, ∀ cells, old t.aliasName = some cells → cells ∈ db.rows t) →
      (∀ cells, part = some cells → cells ∈ db.rows j.table) →
      ∀ t ∈ tables ++ [j.table], ∀ cells,
        update old j.table.aliasName part t.aliasName = some cells → cells ∈ db.rows t := by
    intro old part hold hpart t ht cells hcells
    rcases List.mem_append.1 ht with ht | ht
    · have hne : t.aliasName ≠ j.table.aliasName := fun heq =>
        hfresh (heq ▸ List.mem_map_of_mem ht)
      rw [Function.update_of_ne hne] at hcells
      exact hold t ht cells hcells
    · obtain rfl := List.mem_singleton.1 ht
      rw [Function.update_self] at hcells
      exact hpart cells hcells
  intro row hrow
  rcases mem_join.1 hrow with ⟨old, hold, new, hnew, -, rfl⟩ | ⟨-, old, hold, -, rfl⟩ |
      ⟨-, new, hnew, -, rfl⟩
  · exact hupdate old _ (h old hold) fun _ heq => Option.some.inj heq ▸ hnew
  · exact hupdate old _ (h old hold) (by simp)
  · exact hupdate JoinedRow.empty _ (by simp [JoinedRow.empty])
      fun _ heq => Option.some.inj heq ▸ hnew

theorem Contributes.foldl_join {tables : List Table} (h : db.Contributes tables rows)
    {joins : List Join}
    (hnodup : ((tables ++ joins.map (·.table)).map (·.aliasName)).Nodup) :
    db.Contributes (tables ++ joins.map (·.table)) (joins.foldl db.join rows) := by
  induction joins generalizing tables rows with
  | nil => simpa using h
  | cons j joins ih =>
    have hsplit : tables ++ (j :: joins).map (·.table) =
        (tables ++ [j.table]) ++ joins.map (·.table) := by simp
    rw [hsplit] at hnodup ⊢
    refine ih (h.join ?_) hnodup
    rw [List.map_append, List.map_append, List.nodup_append, List.nodup_append] at hnodup
    exact fun hmem => hnodup.1.2.2 _ hmem _ (by simp) rfl

/-- What a table of a query contributes to a row is one of its rows. -/
theorem mem_rows_of_mem_joined (hnodup : (q.tables.map (·.aliasName)).Nodup)
    (hrow : row ∈ db.joined q) {t : Table} (ht : t ∈ q.tables) {cells : Row}
    (hcells : row t.aliasName = some cells) : cells ∈ db.rows t := by
  have hprimary : db.Contributes [q.primary] (db.primaryRows q) := by
    intro row hrow t ht cells hcells
    obtain ⟨first, hfirst, rfl⟩ := List.mem_map.1 hrow
    obtain rfl := List.mem_singleton.1 ht
    rw [Function.update_self] at hcells
    exact Option.some.inj hcells ▸ hfirst
  exact hprimary.foldl_join hnodup row hrow t ht cells hcells

end Database

end Discography
