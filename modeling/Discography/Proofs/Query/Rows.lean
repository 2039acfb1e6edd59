import Discography.Proofs.Query.Record
import Discography.Proofs.Query.Steps

/-!
# Rows of queries

The columns of the `SELECT` list are the columns of the projection with their keys, and a row of as
many cells becomes the record that has every cell under the keys of its column. Only null may take
the place of cells, all of them null, and only for an object inside the record whose columns all
come from one table that a join may leave out.

## Main definitions

* `Projection.LeftOut`: null takes the place of the object under a chain of keys
* `Projection.Describes`: a record has the cells of a row where the projection has their columns

## Main results

* `Projection.describes_record`: the record of a row does
* `Query.selectList_describes_rows`: the `SELECT` list and the records of the rows agree
-/

namespace Discography

namespace Projection

/-- Null takes the place of the object under a chain of keys: the object is inside the record, it
has columns, they all come from one table that may be left out, and all their cells are null. -/
structure LeftOut (optional : List String) (p : Projection) (row : Row) (keys : List String) :
    Prop where
  inside : keys ≠ []
  isObject : ∃ fields, p.at? keys = some (object fields)
  hasColumn : ∃ leaf ∈ p.leaves, keys <+: leaf.1
  fromOptional : ∃ aliasName ∈ optional, ∀ leaf ∈ p.leaves, keys <+: leaf.1 →
    leaf.2.aliasName = aliasName
  allNull : ∀ (i : Nat) (leaf : List String × Column) (cell : Cell), p.leaves[i]? = some leaf →
    keys <+: leaf.1 → row[i]? = some cell → cell.isNull = true

/-- Null takes the place of no object around the part under a chain of keys. -/
def Shown (optional : List String) (p : Projection) (row : Row) (keys : List String) : Prop :=
  ∀ outer, outer <+: keys → outer ≠ keys → ¬ LeftOut optional p row outer

/-- A record has the cells of a row where the projection has their columns. -/
structure Describes (optional : List String) (p : Projection) (row : Row) (record : Record) :
    Prop where
  /-- A cell that is not null is under the keys of its column. -/
  cell : ∀ (i : Nat) (keys : List String) (c : Column) (cell : Cell),
    p.leaves[i]? = some (keys, c) → row[i]? = some cell → cell.isNull = false →
      record.path? keys = some (.value (cell.toValue c.declared.type))
  /-- So is one that is null, except inside an object that null takes the place of. -/
  shown : ∀ (i : Nat) (keys : List String) (c : Column) (cell : Cell),
    p.leaves[i]? = some (keys, c) → row[i]? = some cell → Shown optional p row keys →
      record.path? keys = some (.value (cell.toValue c.declared.type))
  /-- The objects list their keys in order, and null takes the place of the others. -/
  object : ∀ (keys : List String) (fields : List (String × Projection)),
    p.at? keys = some (object fields) → Shown optional p row keys →
      (record.path? keys = some (.value .null) ↔ LeftOut optional p row keys) ∧
      (¬ LeftOut optional p row keys → ∃ records, record.path? keys = some (.object records) ∧
        records.map Prod.fst = fields.map Prod.fst)
  /-- There is no other value in the record. -/
  only : ∀ (keys : List String) (v : Value), record.path? keys = some (.value v) →
    Shown optional p row keys ∧
    ((∃ (i : Nat) (c : Column) (cell : Cell), p.leaves[i]? = some (keys, c) ∧
        row[i]? = some cell ∧ v = cell.toValue c.declared.type) ∨
      LeftOut optional p row keys ∧ v = .null)

variable {optional : List String} {p part : Projection} {row : Row} {keys : List String}
  {start i : Nat}

theorem at?_eq_some : p.at? keys = some part ↔ ∃ start, part? keys p = some (start, part) := by
  simp [at?]

theorem getElem?_cellsFrom {cells : List Cell} {cell : Cell} :
    (cellsFrom start part cells)[i]? = some cell ↔
      i < part.leaves.length ∧ cells[start + i]? = some cell := by
  rw [cellsFrom, List.getElem?_take, List.getElem?_drop]
  split <;> simp [*]

/-- The cells that decide about an object are those of its columns. -/
theorem leftOut_iff_nullAt (hp : p.DistinctKeys) :
    LeftOut optional p row keys ↔ NullAt optional false p row keys := by
  constructor
  · rintro ⟨hinside, ⟨fields, hobject⟩, ⟨leaf, hleaf, hprefix⟩, ⟨aliasName, hmem, halias⟩, hnull⟩
    obtain ⟨start, hpart⟩ := at?_eq_some.1 hobject
    have hcolumns : (object fields).leaves ≠ [] := by
      obtain ⟨i, hi⟩ := List.mem_iff_getElem?.1 hleaf
      obtain ⟨m, _, -, -, hm⟩ := exists_getElem?_leaves_part hp hpart hi hprefix
      exact List.ne_nil_of_mem (List.mem_of_getElem? hm)
    -- columns of the part are columns of the projection, with the keys of the part in front
    have hcollapses : collapses optional (object fields) = true := by
      refine collapses_iff.2 ⟨hcolumns, aliasName, hmem, fun (path, c) hleaf => ?_⟩
      obtain ⟨m, hm⟩ := List.mem_iff_getElem?.1 hleaf
      have houter := getElem?_leaves_of_part? hpart hm
      exact halias (keys ++ path, c) (List.mem_of_getElem? houter) (List.prefix_append _ _)
    have hcells : (cellsFrom start (object fields) row).all Cell.isNull = true := by
      rw [List.all_eq_true]
      intro cell hcell
      obtain ⟨m, hm⟩ := List.mem_iff_getElem?.1 hcell
      obtain ⟨hlt, hcell⟩ := getElem?_cellsFrom.1 hm
      have houter := getElem?_leaves_of_part? hpart (List.getElem?_eq_getElem hlt)
      exact hnull _ _ _ houter (List.prefix_append _ _) hcell
    refine ⟨start, fields, hpart, ?_⟩
    simp [hinside, hcollapses, hcells]
  · rintro ⟨start, fields, hpart, hnull⟩
    simp only [Bool.false_or, Bool.and_eq_true, Bool.not_eq_true', List.isEmpty_eq_false_iff,
      List.all_eq_true] at hnull
    obtain ⟨⟨hinside, hcollapses⟩, hcells⟩ := hnull
    obtain ⟨hcolumns, aliasName, hmem, halias⟩ := collapses_iff.1 hcollapses
    refine ⟨hinside, ⟨fields, at?_eq_some.2 ⟨start, hpart⟩⟩, ?_, ⟨aliasName, hmem, ?_⟩, ?_⟩
    · obtain ⟨leaf, hleaf⟩ := List.exists_mem_of_ne_nil _ hcolumns
      obtain ⟨m, hm⟩ := List.mem_iff_getElem?.1 hleaf
      exact ⟨_, List.mem_of_getElem? (getElem?_leaves_of_part? hpart hm), List.prefix_append _ _⟩
    -- a column whose keys begin with those of the part is a column of the part
    · rintro ⟨path, c⟩ hleaf hprefix
      obtain ⟨i, hi⟩ := List.mem_iff_getElem?.1 hleaf
      obtain ⟨m, rest, -, -, hm⟩ := exists_getElem?_leaves_part hp hpart hi hprefix
      exact halias (rest, c) (List.mem_of_getElem? hm)
    · intro i leaf cell hi hprefix hcell
      obtain ⟨m, _, rfl, -, hm⟩ := exists_getElem?_leaves_part hp hpart hi hprefix
      have hlt := (List.getElem?_eq_some_iff.1 hm).1
      exact hcells cell (List.mem_of_getElem? (getElem?_cellsFrom.2 ⟨hlt, hcell⟩))

/-- A cell that is not null is inside no object that null takes the place of. -/
theorem shown_of_cell {c : Column} {cell : Cell} (hleaf : p.leaves[i]? = some (keys, c))
    (hcell : row[i]? = some cell) (hnull : cell.isNull = false) : Shown optional p row keys := by
  intro outer hprefix _ hout
  have := hout.allNull i (keys, c) cell hleaf hprefix hcell
  rw [hnull] at this
  cases this

/-- What stands under a chain of keys in the record of a row. -/
theorem path?_record_of_part {record : Record} (hp : p.DistinctKeys)
    (hrow : row.length = p.leaves.length) :
    (p.record optional false row).path? keys = some record ↔
      Shown optional p row keys ∧ ∃ start part, part? keys p = some (start, part) ∧
        record = part.record optional (!keys.isEmpty) (cellsFrom start part row) := by
  rw [path?_record_eq_some (Nat.le_of_eq hrow), Shown]
  simp only [leftOut_iff_nullAt hp, Bool.false_or]

theorem record_column {c : Column} {cell : Cell} (inner : Bool) (h : row[i]? = some cell) :
    record optional inner (column c) (cellsFrom i (column c) row) =
      .value (cell.toValue c.declared.type) := by
  have hcell : (cellsFrom i (column c) row)[0]? = some cell :=
    getElem?_cellsFrom.2 ⟨Nat.one_pos, h⟩
  rw [record, List.head?_eq_getElem?, hcell, Option.getD_some]

theorem map_fst_recordFields (fields : List (String × Projection)) (cells : List Cell) :
    (recordFields optional fields cells).map Prod.fst = fields.map Prod.fst := by
  induction fields generalizing cells with
  | nil => rfl
  | cons field rest ih => rw [recordFields, List.map_cons, ih, List.map_cons]

/-- The record of an object is null if it is left out, and has a record for every field if not. -/
theorem record_object {fields : List (String × Projection)} (row : Row) (hp : p.DistinctKeys)
    (hpart : part? keys p = some (start, object fields)) :
    (LeftOut optional p row keys ∧
      record optional (!keys.isEmpty) (object fields) (cellsFrom start (object fields) row) =
        .value .null) ∨
    (¬ LeftOut optional p row keys ∧
      record optional (!keys.isEmpty) (object fields) (cellsFrom start (object fields) row) =
        .object (recordFields optional fields (cellsFrom start (object fields) row))) := by
  rw [record, leftOut_iff_nullAt hp]
  split
  · rename_i hnull
    exact .inl ⟨⟨start, fields, hpart, by simpa using hnull⟩, rfl⟩
  · rename_i hnull
    refine .inr ⟨?_, rfl⟩
    rintro ⟨_, _, hpart', hnull'⟩
    -- there is one part under the keys
    cases hpart.symm.trans hpart'
    exact hnull (by simpa using hnull')

/-- The record of the cells of a projection has them where the projection has their columns. -/
theorem describes_record (optional : List String) (hp : p.DistinctKeys)
    (hrow : row.length = p.leaves.length) :
    Describes optional p row (p.record optional false row) := by
  have hshown : ∀ (i : Nat) (keys : List String) (c : Column) (cell : Cell),
      p.leaves[i]? = some (keys, c) → row[i]? = some cell → Shown optional p row keys →
        (p.record optional false row).path? keys =
          some (.value (cell.toValue c.declared.type)) := by
    intro i keys c cell hleaf hcell hshown
    have hpart := part?_eq_of_leaf hp hleaf
    exact (path?_record_of_part hp hrow).2
      ⟨hshown, i, column c, hpart, (record_column _ hcell).symm⟩
  refine ⟨fun i keys c cell hleaf hcell hnull => ?_, hshown, fun keys fields hat houter => ?_,
    fun keys v hv => ?_⟩
  · exact hshown i keys c cell hleaf hcell (shown_of_cell hleaf hcell hnull)
  · obtain ⟨start, hpart⟩ := at?_eq_some.1 hat
    have hpath := (path?_record_of_part hp hrow).2 ⟨houter, start, _, hpart, rfl⟩
    rcases record_object row hp hpart with ⟨hout, hrecord⟩ | ⟨hout, hrecord⟩
    · rw [hrecord] at hpath
      exact ⟨⟨fun _ => hout, fun _ => hpath⟩, fun h => absurd hout h⟩
    · rw [hrecord] at hpath
      refine ⟨⟨fun h => ?_, fun h => absurd h hout⟩, fun _ => ⟨_, hpath, map_fst_recordFields _ _⟩⟩
      cases hpath.symm.trans h
  -- a value in the record is that of a column, or the null of an object
  · obtain ⟨houter, start, part, hpart, hrecord⟩ := (path?_record_of_part hp hrow).1 hv
    refine ⟨houter, ?_⟩
    cases part with
    | column c =>
      have hself : (Projection.column c).leaves[0]? = some ([], c) := rfl
      have hleaf : p.leaves[start]? = some (keys, c) := by
        simpa using getElem?_leaves_of_part? hpart hself
      have hlt : start < row.length := by
        rw [hrow]
        exact (List.getElem?_eq_some_iff.1 hleaf).1
      have hcell : row[start]? = some row[start] := List.getElem?_eq_getElem hlt
      rw [record_column _ hcell] at hrecord
      cases hrecord
      exact .inl ⟨start, c, row[start], hleaf, hcell, rfl⟩
    | object fields =>
      rcases record_object row hp hpart with ⟨hout, hnull⟩ | ⟨hout, hobject⟩
      · rw [hnull] at hrecord
        cases hrecord
        exact .inr ⟨hout, rfl⟩
      · rw [hobject] at hrecord
        cases hrecord

end Projection

namespace RowMapper

/-- A row of as many cells as there are columns becomes the record of its cells. -/
theorem mapRow_ofProjection (dialect : String) (p : Projection) (optional : List String) {row : Row}
    (h : row.length = p.leaves.length) :
    (ofProjection dialect p optional).mapRow row = .ok (p.record optional false row) := by
  obtain ⟨rest, -, hbuild⟩ := Shape.build?_compile optional true p [] row [] h
  have hwidth : row.length = (ofProjection dialect p optional).width := h
  rw [List.nil_append, List.append_nil] at hbuild
  have hshape : (ofProjection dialect p optional).shape.build? (row.map some) =
      some (p.record optional false row, [] ++ (rest ++ [])) := hbuild
  simp only [mapRow, dif_pos hwidth, hshape, Option.get_some]

end RowMapper

namespace Query

variable {q : Query} {r : Rendered}

/-- The `SELECT` list stands in front of the tables. -/
theorem selectSql_selectList {sql : Sql} (h : q.selectSql = .ok sql) :
    ∃ behind, sql = .word "SELECT" :: .space ::
      Sql.commas (q.effectiveProjection.leaves.map leafSql) ++
        (.space :: .word "FROM" :: behind) := by
  simp only [selectSql, sourceSql, Outcome.bind_eq_ok, Outcome.pure_eq_ok] at h
  obtain ⟨source, ⟨joins, hjoins, filter, hfilter, rfl⟩, rfl⟩ := h
  exact ⟨_, by simp [Sql.clause]; rfl⟩

/-- The columns of the `SELECT` list are those of the projection, each row has a cell for each of
them, and the record of a row has every cell that is not null under the keys of its column. -/
theorem selectList_describes_rows (h : q.render = .ok r)
    (hkeys : q.effectiveProjection.DistinctKeys) :
    (∃ behind, r.sql = .word "SELECT" :: .space ::
      Sql.commas (q.effectiveProjection.leaves.map leafSql) ++ (.space :: .word "FROM" :: behind)) ∧
    r.mapper.width = (q.effectiveProjection.leaves.map leafSql).length ∧
    (q.effectiveProjection.leaves.map Prod.fst).Nodup ∧
    ∀ row : Row,
      (row.length ≠ r.mapper.width →
        r.mapper.mapRow row = .error (.decode (.rowWidth row.length r.mapper.width))) ∧
      (row.length = r.mapper.width →
        (r.mapper.shape.build? (row.map some)).isSome ∧
          ∃ record, r.mapper.mapRow row = .ok record ∧
            q.effectiveProjection.Describes q.optionalAliases row record) := by
  obtain ⟨-, hsql, hmapper⟩ := render_eq_ok.1 h
  have hwidth : r.mapper.width = q.effectiveProjection.leaves.length := by rw [hmapper]; rfl
  refine ⟨selectSql_selectList hsql, by rw [hwidth, List.length_map],
    Projection.nodup_paths hkeys, fun row => ⟨fun hne => ?_, fun heq => ⟨?_, ?_⟩⟩⟩
  · rw [RowMapper.mapRow, dif_neg hne]
  · exact r.mapper.build?_isSome heq
  · rw [hwidth] at heq
    refine ⟨_, ?_, Projection.describes_record q.optionalAliases hkeys heq⟩
    rw [hmapper, mapper, RowMapper.mapRow_ofProjection _ _ _ heq]

/-- The object of the columns of a table that a left join leaves out is null. -/
theorem selectList_describes_rows_left_join :
    ∃ r : Rendered, render {
        dialect := .sqlite
        primary := ⟨"a", .path ["a"], [{ name := "x", type := .number }]⟩
        joins := [⟨.left, ⟨"b", .path ["b"], [{ name := "y", type := .string }]⟩,
          some (.literal true)⟩]
        projection := some (.object [
          ("k", .column ⟨.path ["a"], "a", { name := "x", type := .number }⟩),
          ("in", .object [("m", .column ⟨.path ["b"], "b", { name := "y", type := .string }⟩)])])
        stage := .shaping } = .ok r ∧
      (r.mapper.mapRow [.integer 7] = .error (.decode (.rowWidth 1 r.mapper.width)) ∧
        ∃ record, r.mapper.mapRow [.integer 7, .null] = .ok record ∧
          record.path? ["k"] = some (.value (.integer 7)) ∧
          record.path? ["in"] = some (.value .null)) ∧ r.mapper.width = 2 := by
  refine Outcome.exists_ok_and (by decide +kernel) fun r h => ?_
  have hkeys : (Projection.object [
      ("k", .column ⟨.path ["a"], "a", { name := "x", type := .number }⟩),
      ("in", .object [
        ("m", .column ⟨.path ["b"], "b", { name := "y", type := .string }⟩)])]).DistinctKeys := by
    refine .object (by decide) fun field hfield => ?_
    rcases List.mem_pair.1 hfield with rfl | rfl
    · exact .column _
    · refine .object (by decide) fun field hfield => ?_
      obtain rfl := List.mem_singleton.1 hfield
      exact .column _
  obtain ⟨-, hwidth, -, hrows⟩ := selectList_describes_rows h hkeys
  have hwidth : r.mapper.width = 2 := hwidth
  refine ⟨(hrows _).1 (by rw [hwidth]; decide), ?_⟩
  obtain ⟨record, hrecord, hdescribes⟩ := ((hrows [.integer 7, .null]).2 hwidth.symm).2
  refine ⟨record, hrecord, hdescribes.cell 0 _ _ _ rfl rfl rfl, ?_⟩
  refine (hdescribes.object ["in"] _ rfl fun outer hprefix hne hout => ?_).1.2 ?_
  · have hlength : outer.length < 1 :=
      Nat.lt_of_le_of_ne hprefix.length_le (mt hprefix.eq_of_length hne)
    exact hout.inside (List.length_eq_zero_iff.1 (Nat.lt_one_iff.1 hlength))
  · exact (Projection.leftOut_iff_nullAt hkeys).2 ⟨1, _, rfl, by decide⟩

end Query

end Discography
