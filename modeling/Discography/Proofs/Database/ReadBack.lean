import Discography.Proofs.Catalogue.Statements
import Discography.Proofs.Database.Store
import Discography.Proofs.Identifier.Encodings
import Discography.Proofs.Json.Canonical
import Discography.Proofs.Query.JoinedRecord
import Discography.Proofs.Query.LegalCalls

/-!
# Rows that are read back

On its way into a row and back a value takes five forms: a literal, the text of a literal, the cell
that is kept of it, a field of a record, and a member of a document. Identifiers become bytes and
then lists of numbers, and truth values become integers that only the type of a column turns back.
A table whose columns are those of the rows that are written to it, in the same order, gives back
what the rows were made of.

## Main definitions

* `ReadBack`: the values of a type are read back from columns of a type
* `Table.Keeps`: a table keeps the values of a type in rows
* `Table.ReadsBack`: values that are inserted are read back

## Main results

* `ReadBack.identifier`, `ReadBack.text`, `ReadBack.integer`, `ReadBack.boolean`,
  `ReadBack.optionalInteger`: the types of columns
* `Query.mapRow_table`: the record of a row of a table
* `Table.Keeps.readsBack`: what is inserted is read back
-/

namespace Discography

/-! ### Values -/

/-- The document for the cell that a column of a type has kept of a literal. -/
def Value.document (v : Value) (type : ColumnType) : Json := (v.stored.toValue type).json

/-- The values of a type are read back from columns of a type: what a column has kept of the literal
of a value is decoded to that value. -/
def ReadBack (α : Type) [ToValue α] [FromJson α] (type : ColumnType) : Prop :=
  ∀ a : α, fromJson ((toValue a).document type).canonical = .ok a

namespace ReadBack

/-- Identifiers are kept as their bytes, which are an array of numbers in documents. -/
theorem identifier : ReadBack Identifier .binary := by
  intro id
  have hitems : Json.canonicalItems (id.bytes.map toJson) = id.bytes.map toJson := by
    rw [Json.canonicalItems_eq_map, List.map_map]
    exact List.map_congr_left fun b _ => rfl
  change fromJson (Json.array (Json.canonicalItems (id.bytes.map toJson))) = _
  rw [hitems]
  exact id.fromJson_bytes

theorem text : ReadBack String .string := fun _ => rfl

theorem integer : ReadBack Int64 .number := by
  intro i
  have hbounds : Int64.minValue.toInt ≤ i.toInt ∧ i.toInt ≤ Int64.maxValue.toInt :=
    ⟨i.minValue_le_toInt, i.toInt_le⟩
  change (Json.boundedInteger _ _ "i64" (.integer i.toInt)).map Int64.ofInt = _
  rw [Json.boundedInteger, if_pos hbounds, Except.map, Int64.ofInt_toInt]

/-- Truth values are kept as integers, which are truth values again in a column of their type. -/
theorem boolean : ReadBack Bool .boolean := by
  intro b
  cases b <;> rfl

theorem optionalInteger : ReadBack (Option Int64) .number := by
  intro i
  cases i with
  | none => rfl
  | some i => exact congrArg (Except.map some) (integer i)

end ReadBack

/-! ### Rows -/

theorem Record.decode_eq_ok {α : Type} [FromJson α] {r : Record} {a : α} :
    r.decode = .ok a ↔ fromJson r.json.canonical = .ok a :=
  Outcome.mapError_eq_ok

namespace Assignments

/-- The literals of a row, in the order in which they were assigned. -/
def literals (row : Assignments) : List Value := row.entries.map Prod.snd

/-- The cells that are kept of a row, in the same order. -/
def cells (row : Assignments) : Row := row.literals.map Value.stored

/-- The row that is kept. -/
def kept (row : Assignments) : Tuple := fun column => (row.get? column).elim .null Value.stored

/-- The columns of a row have its literals in order. -/
theorem map_get?_columns (row : Assignments) :
    row.columns.map row.get? = row.literals.map some := by
  rw [columns, literals, List.map_map, List.map_map]
  refine List.map_congr_left fun e he => ?_
  simpa [get?] using lookup_map_of_nodup Prod.fst (f := Prod.snd) row.nodup_columns he

theorem map_kept_columns (row : Assignments) : row.columns.map row.kept = row.cells := by
  have hkept : row.kept = (fun v => v.elim .null Value.stored) ∘ row.get? := rfl
  rw [hkept, ← List.map_map, map_get?_columns, List.map_map, cells]
  rfl

end Assignments

/-- The document for the row of a table has a member for each column. -/
theorem Table.json_fields (t : Table) (row : Assignments) :
    (Record.object (t.fields row.cells)).json = .object
      (List.zipWith (fun a e => (a.name, e.2.document a.type)) t.attributes row.entries) := by
  rw [Record.json, Table.fields, Assignments.cells, Assignments.literals, List.map_map]
  congr 1
  generalize row.entries = entries
  induction t.attributes generalizing entries with
  | nil => rfl
  | cons a attributes ih =>
    cases entries with
    | nil => rfl
    | cons e entries => exact congrArg (List.cons _) (ih entries)

/-- A table keeps the values of a type in rows: a row assigns the columns of the table in order, and
what the table has for it is decoded to the value. -/
structure Table.Keeps (t : Table) {α : Type} [FromJson α] (row : α → Assignments) : Prop where
  columns : ∀ a, (row a).columns = t.attributes.map (·.name)
  decode : ∀ a, (Record.object (t.fields (row a).cells)).decode = .ok a

/-! ### Insertions -/

/-- Values that are written to a table are read back. Their insertion is one text, which gives
literals to the columns that a query of the table selects, in the same order, and the records of the
cells that are kept of the literals are decoded to the values. -/
def Table.ReadsBack (t : Table) (d : Dialect) {α : Type} [FromJson α] (row : α → Assignments)
    (items : List α) : Prop :=
  ∃ (sql : Sql) (literals : List (List Value)) (rendered : Rendered),
    (Query.ofTable d t).insertMany (items.map row) = .ok ⟨[sql]⟩ ∧
    Insertion.read d sql.text = some (.values t.origin.tokens
      ((Query.ofTable d t).effectiveProjection.leaves.map (·.2.name))
      (literals.map fun values => values.map some)) ∧
    (Query.ofTable d t).render = .ok rendered ∧
    (literals.mapM fun values =>
      rendered.mapper.mapRow (values.map Value.stored) >>= Record.decode) = .ok items

theorem Projection.map_name_leaves_table (t : Table) :
    (Projection.table t).leaves.map (·.2.name) = t.attributes.map (·.name) := by
  rw [leaves_table, Table.columns, List.map_map, List.map_map]
  rfl

/-- A query for all columns of a table makes the object of the table of each row. -/
theorem Query.mapRow_table {q : Query} {t : Table} (hq : q.effectiveProjection = .table t)
    {cells : Row} (h : cells.length = t.attributes.length) :
    q.mapper.mapRow cells = .ok (.object (t.fields cells)) := by
  have hleaves := Projection.length_leaves_table t
  rw [mapper, hq, RowMapper.mapRow_ofProjection _ _ _ (h.trans hleaves.symm),
    Projection.table, Projection.record, if_neg (by simp), Projection.recordFields_table h]

namespace Table.Keeps

variable {t : Table} {α : Type} [FromJson α] {row : α → Assignments}

theorem length_cells (h : t.Keeps row) (a : α) : (row a).cells.length = t.attributes.length := by
  have hlength := congrArg List.length (h.columns a)
  simpa [Assignments.columns, Assignments.cells, Assignments.literals] using hlength

/-- The columns of the table have the cells in order. -/
theorem map_kept (h : t.Keeps row) (a : α) :
    t.attributes.map (fun x => (row a).kept x.name) = (row a).cells := by
  rw [← Assignments.map_kept_columns, h.columns, List.map_map]
  rfl

/-- What is written to a table that keeps it is read back. -/
theorem readsBack (h : t.Keeps row) {d : Dialect} (hd : d.Lexical) {segments : List String}
    (horigin : t.origin = .path segments) {items : List α}
    (hitems : Query.Uniform t (t.attributes.map (·.name)) (items.map row)) :
    t.ReadsBack d row items := by
  obtain ⟨sql, hsql⟩ := hitems.exists_insertMany d
  obtain ⟨rendered, hrendered⟩ := (Query.exists_render_iff
    (Query.finiteConditions_ofTable d t)).2 (nofun : Stage.rooted ≠ .joining)
  have hread := hitems.read_insertMany_values hd horigin hsql
  have hselected : (Query.ofTable d t).effectiveProjection.leaves.map (·.2.name) =
      t.attributes.map (·.name) := Projection.map_name_leaves_table t
  have hliterals : (items.map row).map (fun r => (t.attributes.map (·.name)).map r.get?) =
      (items.map fun a => (row a).literals).map fun values => values.map some := by
    rw [List.map_map, List.map_map]
    refine List.map_congr_left fun a _ => ?_
    rw [Function.comp_apply, ← h.columns a, Assignments.map_get?_columns]
    rfl
  rw [hliterals, ← hselected] at hread
  refine ⟨sql, _, rendered, hsql, hread.trans (by rw [horigin]; rfl), hrendered, ?_⟩
  -- each row is mapped and decoded on its own
  refine Outcome.mapM_eq_ok.2 (List.forall₂_map_left_iff.2 (List.forall₂_same.2 fun a _ => ?_))
  have hrow : (Query.ofTable d t).mapper.mapRow (row a).cells = _ :=
    Query.mapRow_table rfl (h.length_cells a)
  rw [Assignments.cells] at hrow
  rw [(Query.render_eq_ok.1 hrendered).2.2, hrow]
  exact h.decode a

end Table.Keeps

end Discography
