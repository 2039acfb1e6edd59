import Discography.Proofs.Filter.Mentions
import Discography.Proofs.Query.Invariant
import Mathlib.Data.List.Nodup

/-!
# Scopes of statements

Every clause `FROM` or `JOIN` of a statement introduces a table under an alias. The columns of the
table are those that it was declared with, or those that the statement in parentheses in its place
names. A statement is well scoped if every column that it mentions is the only one of its name in
the only table of its alias, and no condition of a join is about a table that is joined later.

## Main definitions

* `Source`, `Nested.Introduces`: the tables that clauses introduce
* `Nested.WellScoped`: the mentions of a statement itself, without those of the statements inside it
* `Nested.IsPart`: some clauses of a well-scoped statement
* `Table.Scoped`: tables that well-scoped statements can be about

## Main results

* `Nested.IsPart.append`, `Nested.isPart_clause`: parts are made of clauses
* `Column.InScope.resolves`: a mention of a column in scope resolves
-/

namespace Discography

open Token

/-- A table in the scope of a statement. -/
structure Source where
  aliasName : String
  columns : List String

/-- A table as it is introduced into the scope of a statement. -/
def Table.source (t : Table) : Source := ⟨t.aliasName, t.attributes.map (·.name)⟩

/-- One table in scope has the alias, and one of its columns has the name. -/
def Mention.Resolves (scope : List Source) (m : Mention) : Prop :=
  ∃ s, scope.filter (·.aliasName = m.aliasName) = [s] ∧ s.columns.count m.column = 1

/-- The clause introduces a table. -/
def Clause.introduces (c : Clause) : Bool := c.word = "FROM" || c.word = "JOIN"

namespace Nested

/-- Trees in the place of a table, and the columns that it has: a table is declared with its
columns, and a statement names them. -/
inductive Offers (declared : Table → Prop) : List Nested → List String → Prop
  | path {t : Table} {segments : List String} (h : declared t)
    (origin : t.origin = .path segments) :
    Offers declared ((Token.path segments).map .token) (t.attributes.map (·.name))
  | subquery {inside : List Nested} (h : isStatement inside) :
    Offers declared [.parens inside] (outputs inside)

/-- The trees of a clause introduce the table. -/
def Introduces (declared : Table → Prop) (body : List Nested) (s : Source) : Prop :=
  ∃ origin, Offers declared origin s.columns ∧
    body = origin ++ [.token (keyword "AS"), .token (name s.aliasName)]

/-- The clauses that introduce tables. -/
def introductions (cs : List Clause) : List Clause := cs.filter Clause.introduces

/-- A statement over the tables of a scope mentions columns of these tables. -/
structure WellScoped (declared : Table → Prop) (scope : List Source) (ts : List Nested) : Prop where
  sources : List.Forall₂ (Introduces declared)
    ((introductions (clauses ts)).map Clause.body) scope
  resolved : ∀ c ∈ clauses ts, c.introduces = false → ∀ m ∈ mentions c.body, m.Resolves scope
  /-- The condition of a join is about tables that are introduced in front of it. -/
  earlier : ∀ before body behind, clauses ts = before ++ ⟨"ON", body⟩ :: behind →
    ∀ m ∈ mentions body,
      m.aliasName ∈ (scope.take (introductions before).length).map (·.aliasName)

/-- All statements inside the trees are well scoped. -/
def InnerWellScoped (declared : Table → Prop) (ts : List Nested) : Prop :=
  ∀ statement ∈ ts.flatMap statements, ∃ scope, WellScoped declared scope statement

/-! ### Parts of statements -/

/-- Tokens that are clauses of a statement over a scope. They introduce some of its tables, behind
those that are introduced before. -/
structure IsPart (declared : Table → Prop) (scope front : List Source) (tokens : List Token)
    (introduced : List Source) (ts : List Nested) (cs : List Clause) : Prop where
  nests : Nests tokens ts
  begins : BeginsClause ts
  clauses_append : ∀ behind, BeginsClause behind → clauses (ts ++ behind) = cs ++ clauses behind
  sources : List.Forall₂ (Introduces declared) ((introductions cs).map Clause.body) introduced
  resolved : ∀ c ∈ cs, c.introduces = false → ∀ m ∈ mentions c.body, m.Resolves scope
  earlier : ∀ before body behind, cs = before ++ ⟨"ON", body⟩ :: behind → ∀ m ∈ mentions body,
    m.aliasName ∈
      (front ++ introduced.take (introductions before).length).map (·.aliasName)
  inner : InnerWellScoped declared ts

variable {declared : Table → Prop} {scope front introduced more : List Source}
  {s t : List Token} {ts us : List Nested} {cs ds : List Clause}

theorem InnerWellScoped.append (ht : InnerWellScoped declared ts)
    (hu : InnerWellScoped declared us) : InnerWellScoped declared (ts ++ us) := by
  rw [InnerWellScoped, List.flatMap_append]
  exact List.forall_mem_append.mpr ⟨ht, hu⟩

theorem introductions_append (cs ds : List Clause) :
    introductions (cs ++ ds) = introductions cs ++ introductions ds :=
  List.filter_append _ _

theorem IsPart.clauses_eq (h : IsPart declared scope front s introduced ts cs) :
    clauses ts = cs := by
  simpa [clauses] using h.clauses_append [] beginsClause_nil

theorem IsPart.wellScoped (h : IsPart declared scope [] s scope ts cs) :
    WellScoped declared scope ts := by
  have hclauses := h.clauses_eq
  constructor
  · rw [hclauses]
    exact h.sources
  · rw [hclauses]
    exact h.resolved
  · rw [hclauses]
    exact h.earlier

theorem isPart_nil : IsPart declared scope front [] [] [] [] where
  nests := nests_nil
  begins := beginsClause_nil
  clauses_append _ _ := rfl
  sources := .nil
  resolved := nofun
  earlier before body behind h := by simp at h
  inner := nofun

/-- More clauses come behind those of a part. -/
theorem IsPart.append (hs : IsPart declared scope front s introduced ts cs)
    (ht : IsPart declared scope (front ++ introduced) t more us ds) :
    IsPart declared scope front (s ++ t) (introduced ++ more) (ts ++ us) (cs ++ ds) where
  nests := hs.nests.append ht.nests
  begins := hs.begins.append ht.begins
  clauses_append behind hbehind := by
    rw [List.append_assoc, hs.clauses_append _ (ht.begins.append hbehind),
      ht.clauses_append behind hbehind, List.append_assoc]
  sources := by
    rw [introductions_append, List.map_append]
    exact List.rel_append hs.sources ht.sources
  resolved := List.forall_mem_append.mpr ⟨hs.resolved, ht.resolved⟩
  earlier before body behind h m hm := by
    have hlength : (introductions cs).length = introduced.length := by
      simpa using hs.sources.length_eq
    obtain ⟨before', rfl, hds⟩ | ⟨behind', hcs, hbehind⟩ := List.append_eq_append_iff.mp h
    · -- the condition is one of the clauses behind, and all of the part is in front of it
      have hin := ht.earlier before' body behind hds m hm
      rw [introductions_append, List.length_append, hlength, List.take_length_add_append]
      simpa [List.append_assoc] using hin
    cases behind' with
    | nil =>
      have hin := ht.earlier [] body behind hbehind.symm m hm
      rw [List.append_nil] at hcs
      rw [← hcs, hlength, List.take_left]
      simpa [introductions] using hin
    | cons c behind' =>
      obtain ⟨rfl, -⟩ := List.cons_eq_cons.mp hbehind
      have hin := hs.earlier before body behind' hcs m hm
      have hle : (introductions before).length ≤ introduced.length := by
        rw [← hlength, hcs, introductions_append, List.length_append]
        exact Nat.le_add_right _ _
      rwa [List.take_append_of_le_length hle]
  inner := hs.inner.append ht.inner

/-- A single clause. -/
theorem isPart_clause {word : String} (hword : word ∈ clauseWords) (hs : Nests s ts)
    (hplain : IsPlain ts) (hinner : InnerWellScoped declared ts)
    (hintroduced : List.Forall₂ (Introduces declared)
      ((introductions [⟨word, ts⟩]).map Clause.body) introduced)
    (hresolved : Clause.introduces ⟨word, ts⟩ = false → ∀ m ∈ mentions ts, m.Resolves scope)
    (hearlier : word = "ON" → ∀ m ∈ mentions ts, m.aliasName ∈ front.map (·.aliasName)) :
    IsPart declared scope front (keyword word :: s) introduced (.token (keyword word) :: ts)
      [⟨word, ts⟩] where
  nests := (nests_token (isInner_keyword word)).append hs
  begins := by
    rintro _ ⟨⟩
    rw [clauseWord?, if_pos hword]
    rfl
  clauses_append behind hbehind := clauses_cons_append hword hplain hbehind
  sources := hintroduced
  resolved := List.forall_mem_singleton.mpr hresolved
  earlier before body behind h m hm := by
    cases before with
    | nil =>
      obtain ⟨hclause, -⟩ := List.cons_eq_cons.mp h
      obtain ⟨rfl, rfl⟩ := Clause.mk.inj hclause
      simpa [introductions] using hearlier rfl m hm
    | cons c before => simp at h
  inner := by
    rw [InnerWellScoped, List.flatMap_cons, statements_token, List.nil_append]
    exact hinner

/-- A clause without tables. -/
theorem isPart_of_isFragment {word : String} {ms : List Mention} (hword : word ∈ clauseWords)
    (hother : word ≠ "FROM" ∧ word ≠ "JOIN") (hs : IsFragment s ts ms)
    (hresolved : ∀ m ∈ ms, m.Resolves scope)
    (hearlier : word = "ON" → ∀ m ∈ ms, m.aliasName ∈ front.map (·.aliasName)) :
    IsPart declared scope front (keyword word :: s) [] (.token (keyword word) :: ts)
      [⟨word, ts⟩] := by
  have hclause : Clause.introduces ⟨word, ts⟩ = false := by simp [Clause.introduces, hother]
  refine isPart_clause hword hs.nests hs.plain ?_ ?_ (fun _ => hs.mentions ▸ hresolved)
    (hs.mentions ▸ hearlier)
  · rw [InnerWellScoped, hs.statements]
    exact nofun
  · rw [introductions, List.filter_cons_of_neg (by simp [hclause])]
    exact .nil

/-- A clause without tables that is no condition of a join. -/
theorem isPart_fragment {word : String} {ms : List Mention} (hword : word ∈ clauseWords)
    (hother : word ∉ ["FROM", "JOIN", "ON"]) (hs : IsFragment s ts ms)
    (hresolved : ∀ m ∈ ms, m.Resolves scope) :
    IsPart declared scope front (keyword word :: s) [] (.token (keyword word) :: ts)
      [⟨word, ts⟩] := by
  simp only [List.mem_cons, List.not_mem_nil, or_false, not_or] at hother
  exact isPart_of_isFragment hword ⟨hother.1, hother.2.1⟩ hs hresolved fun h =>
    absurd h hother.2.2

end Nested

/-! ### Tables -/

/-- The columns of a table are distinct, they are those that the trees in its place offer, and the
statements in these trees are well scoped. -/
structure Table.Scoped (declared : Table → Prop) (t : Table) : Prop where
  nodup : (t.attributes.map (·.name)).Nodup
  origin : ∃ ts, Nests t.origin.tokens ts ∧ Nested.IsPlain ts ∧
    Nested.Offers declared ts (t.attributes.map (·.name)) ∧ Nested.InnerWellScoped declared ts

open Nested

variable {declared : Table → Prop} {scope front : List Source}

/-- A clause with a table. -/
theorem Table.Scoped.exists_isPart {t : Table} (ht : t.Scoped declared) {word : String}
    (hword : word = "FROM" ∨ word = "JOIN") :
    ∃ ts cs, IsPart declared scope front (keyword word :: t.sourceTokens) [t.source] ts cs := by
  obtain ⟨ts, hnests, hplain, hoffers, hinner⟩ := ht.origin
  have halias : IsFragment [keyword "AS", name t.aliasName] _ _ :=
    (isFragment_keyword (w := "AS") (by decide)).append (isFragment_name t.aliasName)
  have hclause : ∀ ts, Clause.introduces ⟨word, ts⟩ = true := by
    intro ts
    simpa [Clause.introduces] using hword
  refine ⟨_, _, isPart_clause ?_ (hnests.append halias.nests) ?_ (hinner.append ?_) ?_ ?_ ?_⟩
  · rcases hword with rfl | rfl <;> decide
  · exact List.forall_mem_append.mpr ⟨hplain, halias.plain⟩
  · rw [InnerWellScoped, halias.statements]
    exact nofun
  · rw [introductions, List.filter_cons_of_pos (hclause _)]
    exact .cons ⟨ts, hoffers, rfl⟩ .nil
  · intro h
    rw [hclause] at h
    cases h
  · rcases hword with rfl | rfl <;> exact nofun

/-! ### Columns in scope -/

theorem Column.InScope.mono {tables more : List Table} {c : Column} (h : c.InScope tables)
    (hsubset : tables ⊆ more) : c.InScope more := by
  obtain ⟨t, ht, hc⟩ := h
  exact ⟨t, hsubset ht, hc⟩

/-- A column in scope is the only one of its name, and its table the only one of its alias. -/
theorem Column.InScope.resolves {tables : List Table} {c : Column} (h : c.InScope tables)
    (haliases : (tables.map (·.aliasName)).Nodup)
    (htables : ∀ t ∈ tables, (t.attributes.map (·.name)).Nodup) :
    c.mention.Resolves (tables.map Table.source) := by
  obtain ⟨t, ht, halias, a, ha, hname⟩ := h
  have hmem : c.name ∈ t.attributes.map (·.name) := List.mem_map.mpr ⟨a, ha, hname⟩
  refine ⟨t.source, ?_, List.count_eq_one_of_mem (htables t ht) hmem⟩
  have hfilter := filter_aliasName_eq haliases ht
  rw [halias] at hfilter
  rw [List.filter_map]
  exact congrArg (List.map Table.source) hfilter

end Discography
