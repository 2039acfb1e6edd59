import Discography.Query.Projection
import Discography.Record

/-!
# Shapes of records

A projection is compiled once into a shape, which says for every leaf of a record which cell of a
row it holds. The record of a row is built by taking one cell after the other out of the row. An
object inside the record whose columns all come from one table that an outer join may leave out is
null when all its cells are null.

## Main definitions

* `Shape`: which cell stands where
* `Shape.compile`: the shape of a projection
* `Shape.build?`: the record of a row
* `RowMapper`: a shape for rows of a known length
-/

namespace Discography

/-- Which cell of a row stands where in a record. -/
inductive Shape where
  | leaf (index : Nat) (type : ColumnType)
  /-- An object; it is null when the listed cells are. -/
  | object (fields : List (String × Shape)) (nullWhenEmpty : Option (List Nat))

/-- The cells of a row, but for those that were taken. -/
abbrev Remaining := List (Option Cell)

namespace Shape

mutual

/-- The cells of the leaves in depth-first order. -/
def leafIndexes : Shape → List Nat
  | leaf index _ => [index]
  | object fields _ => fieldIndexes fields

/-- The cells of the leaves of the fields of an object. -/
def fieldIndexes : List (String × Shape) → List Nat
  | [] => []
  | (_, s) :: rest => s.leafIndexes ++ fieldIndexes rest

end

mutual

/-- The shape of a projection whose first column is the cell `next`, and the cell behind its last
column. Only objects inside others can be null. -/
def compile (optional : List String) (root : Bool) : Projection → Nat → Shape × Nat
  | .column c, next => (leaf next c.declared.type, next + 1)
  | .object fields, next =>
    let (shapes, behind) := compileFields optional fields next
    let collapses := !root && Projection.collapses optional (.object fields)
    (object shapes (if collapses then some (fieldIndexes shapes) else none), behind)

/-- The shapes of the fields of an object, and the cell behind their last column. -/
def compileFields (optional : List String) :
    List (String × Projection) → Nat → List (String × Shape) × Nat
  | [], next => ([], next)
  | (key, p) :: rest, next =>
    let (shape, behind) := compile optional false p next
    let (shapes, last) := compileFields optional rest behind
    ((key, shape) :: shapes, last)

end

/-- Whether the listed cells are null, as the cells are that were taken; none when there is no such
cell. -/
def allNull? (indexes : List Nat) (cells : Remaining) : Option Bool :=
  indexes.allM fun index => cells[index]?.map fun cell => cell.all Cell.isNull

mutual

/-- The record of a row, and the cells that remain; none when it looks at a cell outside the row. -/
def build? : Shape → Remaining → Option (Record × Remaining)
  | leaf index type, cells => do
    let cell ← cells[index]?
    return (.value ((cell.getD .null).toValue type), cells.set index none)
  | object fields nullWhenEmpty, cells => do
    if ← nullWhenEmpty.elim (some false) (allNull? · cells) then
      return (.value .null, cells)
    else
      let (records, cells) ← buildFields? fields cells
      return (.object records, cells)

/-- The fields of a record, and the cells that remain. -/
def buildFields? : List (String × Shape) → Remaining → Option (List (String × Record) × Remaining)
  | [], cells => some ([], cells)
  | (key, s) :: rest, cells => do
    let (record, cells) ← build? s cells
    let (records, cells) ← buildFields? rest cells
    return ((key, record) :: records, cells)

end

/-! ### Cells inside the row -/

mutual

/-- Every cell that a shape looks at is one of the first `width` cells. -/
def InRange (width : Nat) : Shape → Prop
  | leaf index _ => index < width
  | object fields nullWhenEmpty =>
    (∀ indexes ∈ nullWhenEmpty, ∀ index ∈ indexes, index < width) ∧ FieldsInRange width fields

/-- Every cell that the fields of an object look at is one of the first `width` cells. -/
def FieldsInRange (width : Nat) : List (String × Shape) → Prop
  | [] => True
  | (_, s) :: rest => s.InRange width ∧ FieldsInRange width rest

end

theorem allNull?_isSome {indexes : List Nat} {cells : Remaining}
    (h : ∀ index ∈ indexes, index < cells.length) : ∃ b, allNull? indexes cells = some b := by
  induction indexes with
  | nil => exact ⟨true, rfl⟩
  | cons index indexes ih =>
    have hindex : index < cells.length := h index (by simp)
    obtain ⟨b, hb⟩ := ih fun i hi => h i (by simp [hi])
    rw [allNull?] at hb ⊢
    cases hcell : cells[index].all Cell.isNull with
    | false => exact ⟨false, by simp [List.allM, hindex, hcell]⟩
    | true => exact ⟨b, by simp [List.allM, hindex, hcell, hb]⟩

mutual

/-- A shape whose cells are in the row has a record, and taking cells keeps their number. -/
theorem build?_isSome : ∀ (s : Shape) (cells : Remaining), s.InRange cells.length →
    ∃ record rest, s.build? cells = some (record, rest) ∧ rest.length = cells.length
  | leaf index type, cells, h => by
    have hindex : index < cells.length := h
    exact ⟨_, _, by simp [build?, hindex]; exact ⟨rfl, rfl⟩, List.length_set⟩
  | object fields nullWhenEmpty, cells, h => by
    obtain ⟨hindexes, hfields⟩ := h
    have hempty : ∃ b, nullWhenEmpty.elim (some false) (allNull? · cells) = some b := by
      cases nullWhenEmpty with
      | none => exact ⟨false, rfl⟩
      | some indexes => exact allNull?_isSome (hindexes indexes rfl)
    obtain ⟨b, hb⟩ := hempty
    obtain ⟨records, rest, hrecords, hlength⟩ := buildFields?_isSome fields cells hfields
    cases b with
    | true => exact ⟨.value .null, cells, by simp [build?, hb], rfl⟩
    | false => exact ⟨.object records, rest, by simp [build?, hb, hrecords], hlength⟩

theorem buildFields?_isSome : ∀ (fields : List (String × Shape)) (cells : Remaining),
    FieldsInRange cells.length fields →
      ∃ records rest, buildFields? fields cells = some (records, rest) ∧ rest.length = cells.length
  | [], cells, _ => ⟨[], cells, rfl, rfl⟩
  | (key, s) :: fields, cells, h => by
    obtain ⟨record, rest, hrecord, hlength⟩ := build?_isSome s cells h.1
    obtain ⟨records, last, hrecords, hlength'⟩ :=
      buildFields?_isSome fields rest (by rw [hlength]; exact h.2)
    exact ⟨(key, record) :: records, last, by simp [buildFields?, hrecord, hrecords],
      hlength'.trans hlength⟩

end

mutual

/-- The leaves of a compiled shape are the cells from `next` on, one for each column. -/
theorem leafIndexes_compile (optional : List String) :
    ∀ (root : Bool) (p : Projection) (next : Nat),
      (compile optional root p next).1.leafIndexes = List.range' next p.leaves.length ∧
        (compile optional root p next).2 = next + p.leaves.length
  | _, .column _, _ => ⟨rfl, rfl⟩
  | _, .object fields, next => fieldIndexes_compileFields optional fields next

theorem fieldIndexes_compileFields (optional : List String) :
    ∀ (fields : List (String × Projection)) (next : Nat),
      fieldIndexes (compileFields optional fields next).1 =
          List.range' next (Projection.fieldLeaves fields).length ∧
        (compileFields optional fields next).2 = next + (Projection.fieldLeaves fields).length
  | [], _ => ⟨rfl, rfl⟩
  | (key, p) :: rest, next => by
    obtain ⟨hleaves, hbehind⟩ := leafIndexes_compile optional false p next
    obtain ⟨hfields, hlast⟩ := fieldIndexes_compileFields optional rest (next + p.leaves.length)
    simp only [compileFields, fieldIndexes, hbehind, hleaves, hfields, hlast,
      Projection.fieldLeaves, List.length_append, List.length_map, List.range'_append_1,
      Nat.add_assoc, and_self]

end

mutual

/-- A compiled shape looks at the cells of its own columns only. -/
theorem inRange_compile (optional : List String) :
    ∀ (root : Bool) (p : Projection) (next width : Nat),
      next + p.leaves.length ≤ width → (compile optional root p next).1.InRange width
  | _, .column _, _, _, h => h
  | root, .object fields, next, width, h => by
    refine ⟨fun indexes hindexes index hindex => ?_,
      fieldsInRange_compile optional fields next width h⟩
    have hlisted : indexes = fieldIndexes (compileFields optional fields next).1 := by
      rw [Option.mem_def] at hindexes
      split at hindexes
      · exact (Option.some.inj hindexes).symm
      · cases hindexes
    rw [hlisted, (fieldIndexes_compileFields optional fields next).1, List.mem_range'_1] at hindex
    exact Nat.lt_of_lt_of_le hindex.2 h

theorem fieldsInRange_compile (optional : List String) :
    ∀ (fields : List (String × Projection)) (next width : Nat),
      next + (Projection.fieldLeaves fields).length ≤ width →
        FieldsInRange width (compileFields optional fields next).1
  | [], _, _, _ => trivial
  | (key, p) :: rest, next, width, h => by
    have hlength : (Projection.fieldLeaves ((key, p) :: rest)).length =
        p.leaves.length + (Projection.fieldLeaves rest).length := by
      simp [Projection.fieldLeaves]
    have hbehind := (leafIndexes_compile optional false p next).2
    refine ⟨inRange_compile optional false p next width (by omega), ?_⟩
    exact fieldsInRange_compile optional rest _ width (by rw [hbehind]; omega)

end

end Shape

/-- How the rows of a query become records. -/
structure RowMapper where
  dialect : String
  shape : Shape
  /-- The number of cells of a row. -/
  width : Nat
  inRange : shape.InRange width

namespace RowMapper

/-- The mapper for the rows of a projection, in which the tables with the given aliases may be left
out. -/
def ofProjection (dialect : String) (p : Projection) (optional : List String) : RowMapper where
  dialect := dialect
  shape := (Shape.compile optional true p 0).1
  width := p.leaves.length
  inRange := Shape.inRange_compile optional true p 0 p.leaves.length (by simp)

/-- No cell outside a row is looked at. -/
theorem build?_isSome (m : RowMapper) {row : Row} (h : row.length = m.width) :
    (m.shape.build? (row.map some)).isSome := by
  obtain ⟨record, rest, hrecord, -⟩ := m.shape.build?_isSome (row.map some)
    (by simpa [h] using m.inRange)
  simp [hrecord]

/-- The record of a row. -/
def mapRow (m : RowMapper) (row : Row) : Result Record :=
  if h : row.length = m.width then .ok ((m.shape.build? (row.map some)).get (m.build?_isSome h)).1
  else .error (.decode (.rowWidth row.length m.width))

/-- The records of rows. -/
def mapRows (m : RowMapper) (rows : List Row) : Result (List Record) := rows.mapM m.mapRow

/-- The form that diagnostic output shows. -/
def describe (m : RowMapper) : String :=
  "RowMapper \x7b dialect: " ++ Text.quote m.dialect ++ ", width: " ++ toString m.width ++ " \x7d"

end RowMapper

end Discography
