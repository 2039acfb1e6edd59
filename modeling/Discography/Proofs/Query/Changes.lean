import Discography.Proofs.Query.Tokens

/-!
# When changes of a table are accepted

For every change of a table, when a query accepts it and which commands it consists of then.

## Main results

* `Query.insertMany_eq_ok`, `Query.update_eq_ok`, `Query.delete_eq_ok`, `Query.truncate_eq_ok`
* `Statement.writes_ofCommands`: what is written for a change is read as its commands prescribe
-/

namespace Discography

variable {d : Dialect}

theorem Statement.ofCommands_eq_ok {commands : List Command} {s : Statement} :
    Statement.ofCommands d commands = .ok s ↔ commands.mapM (Command.sql d) = .ok s.batch := by
  obtain ⟨batch⟩ := s
  simp [ofCommands]

/-- A single command is a single text. -/
theorem Statement.ofCommands_singleton_eq_ok {command : Command} {s : Statement} :
    Statement.ofCommands d [command] = .ok s ↔ ∃ sql, command.sql d = .ok sql ∧ s = ⟨[sql]⟩ := by
  obtain ⟨batch⟩ := s
  rw [ofCommands_eq_ok, List.mapM_cons]
  simp only [List.mapM_nil, Outcome.bind_eq_ok, Outcome.pure_eq_ok, exists_eq_left',
    Statement.mk.injEq, eq_comm (a := batch)]

/-- What is written for the commands of a change is read as their tokens, one after the other. -/
theorem Statement.writes_ofCommands (hd : d.Lexical) {commands : List Command} {s : Statement}
    (ho : ∀ command ∈ commands, command.origin.Sound d.style)
    (h : Statement.ofCommands d commands = .ok s) :
    List.Forall₂ (fun command sql => Sql.Writes d.style sql (command.tokens d)) commands
      s.batch := by
  have hsql := Outcome.mapM_eq_ok.1 (ofCommands_eq_ok.1 h)
  -- the induction runs over commands and their texts side by side
  clear h
  generalize s.batch = batch at hsql
  induction hsql with
  | nil => exact .nil
  | @cons command sql commands batch hcommand hrest ih =>
    exact .cons (Command.writes_sql hd (ho command (by simp)) hcommand)
      (ih fun command hc => ho command (by simp [hc]))

/-- The texts of a change are read as the tokens of its commands. -/
theorem Statement.map_lex_texts {commands : List Command} {s : Statement}
    (h : List.Forall₂ (fun command sql => Sql.Writes d.style sql (command.tokens d)) commands
      s.batch) :
    s.texts.map (Lexer.lex d.style) = commands.map fun command => some (command.tokens d) := by
  rw [texts, List.map_map]
  generalize s.batch = batch at h
  induction h with
  | nil => rfl
  | cons hwrites hrest ih =>
    rw [List.map_cons, List.map_cons, ih]
    exact congrArg (· :: _) hwrites.lex_text

namespace Query

variable {q : Query} {s : Statement}

theorem ensureTarget_eq_ok {op : Operation} {u : Unit} :
    q.ensureTarget op = .ok u ↔ q.primary.origin.isSubquery = false := by
  rw [ensureTarget]
  split <;> simp_all

theorem ensureAssignable_eq_ok {column : String} {u : Unit} :
    q.ensureAssignable column = .ok u ↔ (q.primary.column? column).isSome := by
  rw [ensureAssignable]
  cases q.primary.column? column <;> simp

/-- The rows are inserted into a table of the database that has the assigned columns. -/
theorem insertMany_eq_ok {rows : List Assignments} :
    q.insertMany rows = .ok s ↔ q.stage = .rooted ∧ q.primary.origin.isSubquery = false ∧
      rows ≠ [] ∧
      (∀ column ∈ rows.flatMap Assignments.columns, (q.primary.column? column).isSome) ∧
        Statement.ofCommands q.dialect (q.insertCommands rows) = .ok s := by
  rw [insertMany]
  by_cases hstage : q.stage = .rooted
  -- an insertion of no rows is refused behind the checks of stage and table
  · cases rows with
    | nil => simp [hstage, ensureTarget_eq_ok]
    | cons row rows =>
      simp only [hstage, ne_eq, not_true_eq_false, if_false, List.isEmpty_cons, Bool.false_eq_true,
        Outcome.bind_eq_ok, ensureTarget_eq_ok, Outcome.forM_eq_ok, ensureAssignable_eq_ok]
      simp
  · simp [hstage, illegal]

theorem ensureFilteredTarget_eq_ok {op : Operation} {u : Unit} :
    q.ensureFilteredTarget op = .ok u ↔ q.stage ≠ .joining ∧ q.stage ≠ .shaping ∧ q.joins = [] ∧
      q.primary.origin.isSubquery = false := by
  rw [ensureFilteredTarget]
  by_cases hjoins : q.joins = []
  · cases hstage : q.stage <;> simp [hjoins, illegal, ensureTarget_eq_ok]
  · cases hstage : q.stage <;> simp [hjoins, illegal]

theorem update_eq_ok {assignments : Assignments} :
    q.update assignments = .ok s ↔ (q.stage ≠ .joining ∧ q.stage ≠ .shaping ∧ q.joins = [] ∧
      q.primary.origin.isSubquery = false) ∧ assignments.isEmpty = false ∧
        Statement.ofCommands q.dialect [.update q.primary assignments q.filter] = .ok s := by
  rw [update]
  cases hempty : assignments.isEmpty <;> simp [ensureFilteredTarget_eq_ok]

theorem delete_eq_ok :
    q.delete = .ok s ↔ (q.stage ≠ .joining ∧ q.stage ≠ .shaping ∧ q.joins = [] ∧
      q.primary.origin.isSubquery = false) ∧
        Statement.ofCommands q.dialect [.delete q.primary q.filter] = .ok s := by
  simp [delete, ensureFilteredTarget_eq_ok]

theorem truncate_eq_ok :
    q.truncate = .ok s ↔ q.stage = .rooted ∧ q.primary.origin.isSubquery = false ∧
      Statement.ofCommands q.dialect [.truncate q.primary.origin] = .ok s := by
  rw [truncate]
  by_cases hstage : q.stage = .rooted
  · simp [hstage, ensureTarget_eq_ok]
  · simp [hstage, illegal]

/-- Every command of an insertion is about the table of the query. -/
theorem origin_of_mem_insertCommands {rows : List Assignments} {command : Command}
    (h : command ∈ q.insertCommands rows) : command.origin = q.primary.origin := by
  -- a group makes one command, or one for each of its rows if they assign nothing
  have hgroup : ∀ (columns : List String) (rows : List Assignments),
      command ∈ q.insertGroup columns rows → command.origin = q.primary.origin := by
    intro columns rows hmem
    rw [insertGroup] at hmem
    split at hmem
    · obtain ⟨row, -, rfl⟩ := List.mem_map.1 hmem
      rfl
    · obtain rfl := List.mem_singleton.1 hmem
      rfl
  rw [insertCommands] at h
  split at h
  · exact hgroup _ _ h
  · obtain ⟨⟨columns, members⟩, -, hmem⟩ := List.mem_flatMap.1 h
    exact hgroup _ _ hmem

end Query

end Discography
