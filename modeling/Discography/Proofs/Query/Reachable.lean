import Discography.Proofs.Query.Steps
import Discography.Proofs.Query.Tokens

/-!
# Reachable queries

The queries that callers can build in a dialect: they start from a table, and a table is one of the
database or a query built before, to any depth. Whatever its names and literals are, the statement
of every such query can be read.

## Main definitions

* `Query.Reachable`, `Table.Available`: the queries and tables of callers

## Main results

* `Query.Reachable.sound`, `Table.Available.sound`: their statements can be read
-/

namespace Discography

mutual

/-- The queries that operations lead to in a dialect. -/
inductive Query.Reachable (d : Dialect) : Query → Prop
  | ofTable {t : Table} : t.Available d → (Query.ofTable d t).Reachable d
  | apply {q r : Query} {s : Query.Step} :
    q.Reachable d → (∀ t ∈ s.table?, t.Available d) → q.apply s = .ok r → r.Reachable d

/-- The tables that queries in a dialect are built on. -/
inductive Table.Available (d : Dialect) : Table → Prop
  | ofPath (aliasName : String) (segments : List String) (attributes : List Attribute) :
    Table.Available d ⟨aliasName, .path segments, attributes⟩
  | withAlias {t : Table} (aliasName : String) :
    t.Available d → (t.withAlias aliasName).Available d
  | asTable {q : Query} {t : Table} {aliasName : String} :
    q.Reachable d → q.asTable aliasName = .ok t → t.Available d

end

namespace Query

variable {d : Dialect} {q r : Query}

/-- A query stays reachable as long as its operations are accepted and join available tables. -/
theorem Reachable.run {steps : List Step} (hq : q.Reachable d)
    (htables : ∀ s ∈ steps, ∀ t ∈ s.table?, t.Available d) (h : q.run steps = .ok r) :
    r.Reachable d := by
  induction steps generalizing q with
  | nil =>
    obtain rfl := Except.ok.inj h
    exact hq
  | cons s steps ih =>
    obtain ⟨q', hs, hrest⟩ := run_cons.1 h
    exact ih (hq.apply (htables s (by simp)) hs) (fun s' hs' => htables s' (by simp [hs'])) hrest

theorem Sound.apply {s : Step} (hq : q.Sound) (h : q.apply s = .ok r)
    (hs : ∀ t ∈ s.table?, t.origin.Sound q.dialect.style) : r.Sound := by
  obtain ⟨hdialect, htables⟩ := apply_frame h
  refine ⟨hdialect ▸ hq.lexical, ?_⟩
  rw [hdialect, htables]
  intro t ht
  rcases List.mem_append.1 ht with ht | ht
  · exact hq.origins t ht
  · exact hs t (by simpa using ht)

end Query

mutual

/-- A reachable query has the dialect that it was started with, and can be read. -/
theorem Query.Reachable.sound {d : Dialect} (hd : d.Lexical) :
    ∀ {q : Query}, q.Reachable d → q.dialect = d ∧ q.Sound
  | _, .ofTable ht => ⟨rfl, hd, by simpa [Query.tables, Query.ofTable] using ht.sound hd⟩
  | _, .apply hq hs h => by
    obtain ⟨hdialect, hsound⟩ := hq.sound hd
    refine ⟨(Query.apply_frame h).1.trans hdialect, hsound.apply h fun t ht => ?_⟩
    rw [hdialect]
    exact (hs t ht).sound hd

/-- The origin of an available table can be read. -/
theorem Table.Available.sound {d : Dialect} (hd : d.Lexical) :
    ∀ {t : Table}, t.Available d → t.origin.Sound d.style
  | _, .ofPath _ _ _ => trivial
  | _, .withAlias _ ht => by
    have horigin := ht.sound hd
    exact horigin
  | _, .asTable hq h => by
    obtain ⟨hdialect, hsound⟩ := hq.sound hd
    obtain ⟨-, _, -, sql, hsql, rfl⟩ := Query.asTable_eq_ok.1 h
    -- the text of the inner query is in place already, so it has to be read there
    exact hdialect ▸ (Query.writes_selectSql hsound hsql).separated

end

end Discography
