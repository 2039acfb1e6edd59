import Discography.Proofs.Query.Parts
import Discography.Query.Shape

/-!
# Records of rows

A projection is compiled into a shape by counting its columns, the shape lists the cells of its
objects, and the record is built by taking cells out of the row; all of these number the columns as
the `SELECT` list does. So the record of a row is what one gets by giving every field the cells of
its own columns, and what stands under a chain of keys is the record of the part of the projection
there.

## Main definitions

* `Projection.record`: the record of the cells of a projection
* `Projection.NullAt`: whether null takes the place of the object under a chain of keys

## Main results

* `Shape.build?_compile`: a compiled shape builds this record
* `Projection.path?_record_eq_some`: the record under a chain of keys
-/

namespace Discography

namespace Projection

mutual

/-- The record for the cells of the columns of a projection. Inside the record, an object of columns
of one table that may be left out is null when all its cells are. -/
def record (optional : List String) (inner : Bool) : Projection → List Cell → Record
  | column c, cells => .value ((cells.head?.getD .null).toValue c.declared.type)
  | object fields, cells =>
    if inner && collapses optional (object fields) && cells.all Cell.isNull then .value .null
    else .object (recordFields optional fields cells)

/-- The fields of a record; each field has the cells of its own columns. -/
def recordFields (optional : List String) :
    List (String × Projection) → List Cell → List (String × Record)
  | [], _ => []
  | (key, p) :: rest, cells =>
    (key, record optional true p (cells.take p.leaves.length)) ::
      recordFields optional rest (cells.drop p.leaves.length)

end

/-- In an object of columns, every cell stands under its key as a value of the type there. -/
theorem recordFields_columns (optional : List String) (columns : List (String × Column))
    {cells : List Cell} (h : cells.length = columns.length) :
    recordFields optional (columns.map fun (key, c) => (key, column c)) cells =
      List.zipWith (fun (key, c) cell => (key, .value (cell.toValue c.declared.type))) columns
        cells := by
  induction columns generalizing cells with
  | nil => rfl
  | cons entry columns ih =>
    obtain ⟨cell, cells, rfl⟩ := List.exists_cons_of_length_eq_add_one h
    have hrest : cells.length = columns.length := by simpa using h
    rw [List.map_cons, List.zipWith_cons_cons, ← ih hrest]
    rfl

/-- The cells of a part among those of a projection. -/
def cellsFrom (start : Nat) (part : Projection) (cells : List Cell) : List Cell :=
  (cells.drop start).take part.leaves.length

/-- Whether null takes the place of the object under a chain of keys, in the record of a projection
that stands inside another one or does not. -/
def NullAt (optional : List String) (inner : Bool) (p : Projection) (cells : List Cell)
    (keys : List String) : Prop :=
  ∃ start fields, part? keys p = some (start, object fields) ∧
    ((inner || !keys.isEmpty) && collapses optional (object fields) &&
      (cellsFrom start (object fields) cells).all Cell.isNull) = true

end Projection

/-! ### Compiled shapes -/

namespace Shape

open Projection

/-- The cells of an object are null when none of those in its place holds anything. -/
theorem allNull?_range' (before : Remaining) (cells : List Cell) (behind : Remaining) :
    allNull? (List.range' before.length cells.length) (before ++ (cells.map some ++ behind)) =
      some (cells.all Cell.isNull) := by
  induction cells generalizing before with
  | nil => rfl
  | cons cell cells ih =>
    have hcell : (before ++ (some cell :: (cells.map some ++ behind)))[before.length]? =
        some (some cell) := by
      simp
    -- the cell that has been looked at joins those in front
    have hrest := ih (before ++ [some cell])
    simp only [List.length_append, List.length_singleton, List.append_assoc, List.singleton_append]
      at hrest
    rw [allNull?] at hrest
    rw [allNull?, List.length_cons, List.range'_succ, List.map_cons, List.cons_append, List.allM,
      hcell]
    cases hnull : cell.isNull with
    | false => simp [hnull]
    | true => simpa [hnull] using hrest

mutual

/-- A compiled shape builds the record of the cells in its place, and touches no other cell. -/
theorem build?_compile (optional : List String) :
    ∀ (root : Bool) (p : Projection) (before : Remaining) (cells : List Cell) (behind : Remaining),
      cells.length = p.leaves.length →
        ∃ rest : Remaining, rest.length = p.leaves.length ∧
          (compile optional root p before.length).1.build? (before ++ (cells.map some ++ behind)) =
            some (p.record optional (!root) cells, before ++ (rest ++ behind))
  | _, .column c, before, cells, behind, h => by
    obtain ⟨cell, rfl⟩ := List.length_eq_one_iff.1 h
    exact ⟨[none], rfl, by simp [compile, build?, record]⟩
  | root, .object fields, before, cells, behind, h => by
    have hlength : (fieldLeaves fields).length = cells.length := h.symm
    have hindexes := (fieldIndexes_compileFields optional fields before.length).1
    rw [hlength] at hindexes
    obtain ⟨rest, hrest, hfields⟩ :=
      buildFields?_compileFields optional fields before cells behind h
    -- the object looks at its cells before any of its fields takes one
    have hnull : (if !root && collapses optional (.object fields) then
          some (List.range' before.length cells.length) else none).elim (some false)
        (allNull? · (before ++ (cells.map some ++ behind))) =
          some (!root && collapses optional (.object fields) && cells.all Cell.isNull) := by
      split
      · rename_i hcollapses
        rw [hcollapses, Option.elim_some, allNull?_range', Bool.true_and]
      · rename_i hcollapses
        simp [hcollapses]
    cases hempty : !root && collapses optional (.object fields) && cells.all Cell.isNull with
    | false =>
      refine ⟨rest, hrest, ?_⟩
      rw [hempty] at hnull
      simp only [compile, build?, hindexes, record, hempty]
      rw [hnull]
      simp [hfields]
    | true =>
      -- The cells of an object that is null stay in the row, where nothing looks for them.
      refine ⟨cells.map some, by rw [List.length_map, h], ?_⟩
      rw [hempty] at hnull
      simp only [compile, build?, hindexes, record, hempty]
      rw [hnull]
      simp

theorem buildFields?_compileFields (optional : List String) :
    ∀ (fields : List (String × Projection)) (before : Remaining) (cells : List Cell)
      (behind : Remaining), cells.length = (fieldLeaves fields).length →
        ∃ rest : Remaining, rest.length = (fieldLeaves fields).length ∧
          buildFields? (compileFields optional fields before.length).1
              (before ++ (cells.map some ++ behind)) =
            some (recordFields optional fields cells, before ++ (rest ++ behind))
  | [], before, cells, behind, h => by
    obtain rfl := List.length_eq_zero_iff.1 h
    exact ⟨[], rfl, rfl⟩
  | (key, p) :: fields, before, cells, behind, h => by
    have hwidth : (fieldLeaves ((key, p) :: fields)).length =
        p.leaves.length + (fieldLeaves fields).length := by
      simp [fieldLeaves]
    rw [hwidth] at h ⊢
    -- the cells of the first field come before those of the others
    have hcells : cells.map some ++ behind = (cells.take p.leaves.length).map some ++
        ((cells.drop p.leaves.length).map some ++ behind) := by
      rw [← List.append_assoc, ← List.map_append, List.take_append_drop]
    obtain ⟨taken, htaken, hrecord⟩ := build?_compile optional false p before
      (cells.take p.leaves.length) ((cells.drop p.leaves.length).map some ++ behind)
      (by rw [List.length_take]; omega)
    -- What the first field leaves behind is in front of the other fields.
    obtain ⟨rest, hrest, hrecords⟩ := buildFields?_compileFields optional fields (before ++ taken)
      (cells.drop p.leaves.length) behind (by rw [List.length_drop]; omega)
    have hbehind : (compile optional false p before.length).2 = (before ++ taken).length := by
      rw [(leafIndexes_compile optional false p before.length).2, List.length_append, htaken]
    refine ⟨taken ++ rest, by rw [List.length_append, htaken, hrest], ?_⟩
    rw [List.append_assoc] at hrecords
    simp only [compileFields, buildFields?, hcells, hrecord, hbehind, hrecords, recordFields,
      Bool.not_false, Option.bind_eq_bind, Option.bind_some, Option.pure_def, List.append_assoc]

end

end Shape

/-! ### Chains of keys -/

namespace Projection

variable {optional : List String} {inner : Bool} {p part : Projection} {cells : List Cell}
  {fields : List (String × Projection)} {key : String} {keys : List String} {start : Nat}

theorem cellsFrom_zero (h : cells.length ≤ p.leaves.length) : cellsFrom 0 p cells = cells := by
  rw [cellsFrom, List.drop_zero, List.take_of_length_le h]

theorem cellsFrom_cellsFrom {before : Nat} {outer : Projection}
    (h : start + part.leaves.length ≤ outer.leaves.length) :
    cellsFrom start part (cellsFrom before outer cells) =
      cellsFrom (before + start) part cells := by
  rw [cellsFrom, cellsFrom, cellsFrom, List.drop_take, List.take_take, List.drop_drop,
    Nat.min_eq_left (by omega)]

/-- The record under a key is that of the field with the key. -/
theorem lookup_recordFields :
    (recordFields optional fields cells).lookup key =
      (field? key fields).map fun (start, p) =>
        record optional true p (cellsFrom start p cells) := by
  induction fields generalizing cells with
  | nil => rfl
  | cons field rest ih =>
    obtain ⟨k, p⟩ := field
    -- the first field with the key counts, in the record as in the projection
    by_cases hkey : key = k
    · simp [recordFields, field?, hkey, cellsFrom]
    · rw [recordFields, List.lookup_cons, beq_false_of_ne hkey, ih, field?, if_neg hkey,
        Option.map_map]
      simp [Function.comp_def, cellsFrom, List.drop_drop]

/-- Null takes the place of a part of a field exactly if it does so in the record of the field. -/
theorem nullAt_cons {before : Nat} (hfield : field? key fields = some (before, p)) :
    NullAt optional inner (object fields) cells (key :: keys) ↔
      NullAt optional true p (cellsFrom before p cells) keys := by
  constructor
  · rintro ⟨start, inside, hpart, hnull⟩
    obtain ⟨_, before', p', start', heq, hfield', hinner, rfl⟩ := part?_cons_eq_some.1 hpart
    cases heq
    cases hfield.symm.trans hfield'
    refine ⟨start', inside, hinner, ?_⟩
    rw [cellsFrom_cellsFrom (part?_inside hinner)]
    simpa using hnull
  · rintro ⟨start, inside, hpart, hnull⟩
    refine ⟨before + start, inside,
      part?_cons_eq_some.2 ⟨fields, before, p, start, rfl, hfield, hpart, rfl⟩, ?_⟩
    rw [cellsFrom_cellsFrom (part?_inside hpart)] at hnull
    simpa using hnull

theorem nullAt_nil (hcells : cells.length ≤ (object fields).leaves.length) :
    NullAt optional inner (object fields) cells [] ↔
      (inner && collapses optional (object fields) && cells.all Cell.isNull) = true := by
  rw [NullAt]
  constructor
  · rintro ⟨_, _, hpart, hnull⟩
    cases hpart
    rw [cellsFrom_zero hcells] at hnull
    simpa using hnull
  · intro hnull
    refine ⟨0, fields, rfl, ?_⟩
    rw [cellsFrom_zero hcells]
    simpa using hnull

/-- Unless null takes its place, the record of an object has the records of its fields. -/
theorem get?_record_eq_some {r : Record} (hcells : cells.length ≤ (object fields).leaves.length) :
    (record optional inner (object fields) cells).get? key = some r ↔
      ¬ NullAt optional inner (object fields) cells [] ∧
        ∃ start p, field? key fields = some (start, p) ∧
          r = record optional true p (cellsFrom start p cells) := by
  rw [nullAt_nil hcells, record]
  -- an object that is null has no fields to look into
  split
  · rename_i hnull
    simp [Record.get?, hnull]
  · rename_i hnull
    simp only [Record.get?, lookup_recordFields, Option.map_eq_some_iff, Prod.exists]
    constructor
    · rintro ⟨start, p, hfield, rfl⟩
      exact ⟨hnull, start, p, hfield, rfl⟩
    · rintro ⟨-, start, p, hfield, rfl⟩
      exact ⟨start, p, hfield, rfl⟩

/-- What stands under a chain of keys is the record of the part there, with the cells of the part;
nothing does behind an object that is null. -/
theorem path?_record_eq_some {r : Record} (hcells : cells.length ≤ p.leaves.length) :
    (record optional inner p cells).path? keys = some r ↔
      (∀ outer, outer <+: keys → outer ≠ keys → ¬ NullAt optional inner p cells outer) ∧
        ∃ start part, part? keys p = some (start, part) ∧
          r = record optional (inner || !keys.isEmpty) part (cellsFrom start part cells) := by
  -- the induction follows the keys into the record, and the cells of the part go with them
  induction keys generalizing inner p cells with
  | nil =>
    constructor
    · intro h
      cases h
      refine ⟨fun outer hprefix hne => absurd (List.prefix_nil.1 hprefix) hne, 0, p, rfl, ?_⟩
      simp [cellsFrom_zero hcells]
    · rintro ⟨-, _, _, hpart, rfl⟩
      cases hpart
      simp [Record.path?, cellsFrom_zero hcells]
  | cons key keys ih =>
    have hpath : (record optional inner p cells).path? (key :: keys) =
        ((record optional inner p cells).get? key).bind (·.path? keys) := rfl
    have hinside : ∀ (before : Nat) (q : Projection),
        (cellsFrom before q cells).length ≤ q.leaves.length := fun before q =>
      List.length_take_le _ _
    rw [hpath]
    cases p with
    | column c => simp [record, Record.get?, part?]
    | object fields =>
      constructor
      · intro h
        obtain ⟨_, hget, hrest⟩ := Option.bind_eq_some_iff.1 h
        obtain ⟨hroot, before, p, hfield, rfl⟩ := (get?_record_eq_some hcells).1 hget
        obtain ⟨houter, start, part, hpart, rfl⟩ := (ih (hinside before p)).1 hrest
        refine ⟨fun outer hprefix hne => ?_, before + start, part,
          part?_cons_eq_some.2 ⟨fields, before, p, start, rfl, hfield, hpart, rfl⟩, ?_⟩
        -- no keys are the object itself, others lead into the field
        · cases outer with
          | nil => exact hroot
          | cons k outer =>
            obtain ⟨rfl, hrest⟩ := List.cons_prefix_cons.1 hprefix
            rw [nullAt_cons hfield]
            exact houter outer hrest fun heq => hne (by rw [heq])
        · rw [cellsFrom_cellsFrom (part?_inside hpart)]
          simp
      · rintro ⟨houter, _, part, hpart, rfl⟩
        obtain ⟨_, before, p, start, heq, hfield, hinner, rfl⟩ := part?_cons_eq_some.1 hpart
        cases heq
        have hroot := houter [] List.nil_prefix (List.cons_ne_nil _ _).symm
        refine Option.bind_eq_some_iff.2
          ⟨_, (get?_record_eq_some hcells).2 ⟨hroot, before, p, hfield, rfl⟩, ?_⟩
        refine (ih (hinside before p)).2 ⟨fun outer hprefix hne => ?_, start, part, hinner, ?_⟩
        · rw [← nullAt_cons hfield]
          refine houter (key :: outer) (List.cons_prefix_cons.2 ⟨rfl, hprefix⟩) fun heq => ?_
          exact hne (List.cons.inj heq).2
        · rw [cellsFrom_cellsFrom (part?_inside hinner)]
          simp

end Projection

end Discography
