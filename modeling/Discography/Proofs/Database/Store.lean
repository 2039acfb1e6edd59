import Discography.Host.Basic
import Discography.Schema.Table
import Discography.Value

/-!
# Stores that keep to a schema

The contents of a database are rows of relations, and a row has a cell for each column. A schema
tells for each relation which columns may be null, which ones are its key, and which ones refer to
rows of other relations. A change that would break the schema is refused as a whole. Where the
schema says so, the rows that refer to deleted rows are deleted with them. The types of the columns
are not looked at.

## Main definitions

* `Tuple`, `Contents`: what is kept
* `Relation`: a table with its key
* `Relation.Holds`: the contents keep to the declaration of a relation
* `Store`: contents that keep to a schema
* `Store.insert`, `Store.delete`, `Store.update`: the changes

## Main results

* `Relation.Holds.set_append_iff`: when a relation takes a row
* `Store.accept_eq_ok`: when a change is accepted
-/

namespace Discography

/-- A row, with its cell for each column. -/
abbrev Tuple := String → Cell

/-- The rows of each relation, in the order of their insertion. -/
abbrev Contents := String → List Tuple

/-- The cell that is kept for a literal. A list is no cell, and nothing is kept of it. -/
def Value.stored : Value → Cell
  | .null | .list _ => .null
  | .boolean b => .integer (if b then 1 else 0)
  | .integer i => .integer i
  | .real x => .real x
  | .text s => .text s
  | .blob bytes => .blob bytes

namespace Contents

/-- The contents with other rows in one relation. -/
def set (db : Contents) (relation : String) (rows : List Tuple) : Contents :=
  fun name => if name = relation then rows else db name

@[simp] theorem set_self (db : Contents) (relation : String) (rows : List Tuple) :
    db.set relation rows relation = rows := if_pos rfl

theorem set_of_ne (db : Contents) {relation name : String} (rows : List Tuple)
    (h : name ≠ relation) : db.set relation rows name = db name := if_neg h

/-- If the column refers to others, the row refers to one that is there, or to none. -/
def Refers (db : Contents) (a : Attribute) (row : Tuple) : Prop :=
  ∀ ref ∈ a.references, row a.name = .null ∨ ∃ row' ∈ db ref.table, row' ref.column = row a.name

instance (db : Contents) (a : Attribute) (row : Tuple) : Decidable (db.Refers a row) :=
  inferInstanceAs (Decidable (∀ _ ∈ _, _))

theorem refers_set_iff {db : Contents} {relation : String} {rows : List Tuple} {a : Attribute}
    {row : Tuple} (h : ∀ ref ∈ a.references, ref.table ≠ relation) :
    (db.set relation rows).Refers a row ↔ db.Refers a row := by
  refine forall₂_congr fun ref href => ?_
  rw [set_of_ne db rows (h ref href)]

end Contents

/-- A table of a database with what is declared beside its columns. -/
structure Relation where
  table : Table
  /-- No two rows agree in all columns of the primary key. -/
  key : List String
  /-- The columns whose rows are deleted together with the rows that they refer to. -/
  cascading : List String := []
  /-- The cells of columns for which an insertion has no literal; null in the others. -/
  defaults : List (String × Cell) := []

namespace Relation

variable (r : Relation) (db : Contents)

/-- The name of the relation. -/
def name : String := r.table.aliasName

/-- The row that is kept for literals. -/
def tuple (values : String → Option Value) : Tuple := fun column =>
  (values column).elim ((r.defaults.lookup column).getD .null) Value.stored

/-- The rows of the relation keep to its declaration. -/
structure Holds : Prop where
  required : ∀ row ∈ db r.name, ∀ a ∈ r.table.attributes, a.nullable = false → row a.name ≠ .null
  key : ((db r.name).map fun row => r.key.map row).Nodup
  references : ∀ row ∈ db r.name, ∀ a ∈ r.table.attributes, db.Refers a row

instance : Decidable (r.Holds db) :=
  decidable_of_iff
    ((∀ row ∈ db r.name, ∀ a ∈ r.table.attributes, a.nullable = false → row a.name ≠ .null) ∧
      ((db r.name).map fun row => r.key.map row).Nodup ∧
      ∀ row ∈ db r.name, ∀ a ∈ r.table.attributes, db.Refers a row)
    ⟨fun h => ⟨h.1, h.2.1, h.2.2⟩, fun h => ⟨h.required, h.key, h.references⟩⟩

/-- The row does not go with any other: what it refers to by a cascading column is there. -/
def Stays (row : Tuple) : Prop :=
  ∀ a ∈ r.table.attributes, a.name ∈ r.cascading → db.Refers a row

instance (row : Tuple) : Decidable (r.Stays db row) := inferInstanceAs (Decidable (∀ _ ∈ _, _))

/-- The contents without the rows that go with others. -/
def prune : Contents := db.set r.name ((db r.name).filter (r.Stays db))

variable {r db}

theorem prune_apply_self : r.prune db r.name = (db r.name).filter (r.Stays db) :=
  Contents.set_self ..

theorem prune_of_cascading_eq_nil (h : r.cascading = []) : r.prune db = db := by
  funext name
  by_cases hname : name = r.name
  · rw [hname, prune_apply_self]
    refine List.filter_eq_self.2 fun row _ => ?_
    simp [Stays, h]
  · exact Contents.set_of_ne _ _ hname

/-- Nothing changes for a relation that is not concerned. -/
theorem Holds.set_of_ne (h : r.Holds db) {relation : String} {rows : List Tuple}
    (hname : r.name ≠ relation)
    (hrefs : ∀ a ∈ r.table.attributes, ∀ ref ∈ a.references, ref.table ≠ relation) :
    r.Holds (db.set relation rows) := by
  have hrows : db.set relation rows r.name = db r.name := Contents.set_of_ne _ _ hname
  constructor
  · rw [hrows]
    exact h.required
  · rw [hrows]
    exact h.key
  · rw [hrows]
    exact fun row hrow a ha => (Contents.refers_set_iff (hrefs a ha)).2 (h.references row hrow a ha)

/-- A relation that does not refer to itself takes a row if its columns are filled, what it refers
to is there, and its key is new. -/
theorem Holds.set_append_iff (h : r.Holds db) (row : Tuple)
    (hrefs : ∀ a ∈ r.table.attributes, ∀ ref ∈ a.references, ref.table ≠ r.name) :
    r.Holds (db.set r.name (db r.name ++ [row])) ↔
      (∀ a ∈ r.table.attributes, a.nullable = false → row a.name ≠ .null) ∧
      (∀ a ∈ r.table.attributes, db.Refers a row) ∧
      r.key.map row ∉ (db r.name).map fun row => r.key.map row := by
  constructor
  · rintro ⟨hrequired, hkey, hreferences⟩
    rw [Contents.set_self] at hrequired hkey hreferences
    rw [List.map_append, List.map_singleton] at hkey
    have hlast : row ∈ db r.name ++ [row] := List.mem_append_right _ (List.mem_singleton_self row)
    refine ⟨hrequired row hlast, fun a ha => ?_, fun hmem => ?_⟩
    · exact (Contents.refers_set_iff (hrefs a ha)).1 (hreferences row hlast a ha)
    · exact (List.nodup_append.1 hkey).2.2 _ hmem _ (List.mem_singleton_self _) rfl
  · rintro ⟨hrequired, hreferences, hkey⟩
    constructor
    · rw [Contents.set_self, List.forall_mem_append, List.forall_mem_singleton]
      exact ⟨h.required, hrequired⟩
    · rw [Contents.set_self, List.map_append, List.map_singleton]
      refine List.nodup_append.2 ⟨h.key, by simp, ?_⟩
      rintro k hk _ hlast rfl
      exact hkey (List.mem_singleton.1 hlast ▸ hk)
    · rw [Contents.set_self, List.forall_mem_append, List.forall_mem_singleton]
      exact ⟨fun row hrow a ha =>
        (Contents.refers_set_iff (hrefs a ha)).2 (h.references row hrow a ha),
        fun a ha => (Contents.refers_set_iff (hrefs a ha)).2 (hreferences a ha)⟩

end Relation

/-- The contents without the rows that go with others. Relations refer to those before them. -/
def Contents.sweep (schema : List Relation) (db : Contents) : Contents :=
  schema.foldl (fun db r => r.prune db) db

/-- Contents that keep to a schema. -/
structure Store (schema : List Relation) where
  contents : Contents
  holds : ∀ r ∈ schema, r.Holds contents

namespace Store

variable {schema : List Relation}

/-- The store without rows. -/
def empty (schema : List Relation) : Store schema where
  contents _ := []
  holds _ _ := ⟨by simp, by simp, by simp⟩

/-- The store that a change of some rows leads to, if it keeps to the schema. -/
def accept (schema : List Relation) (db : Contents) (affected : Nat) :
    Except HostError (Outcome × Store schema) :=
  if h : ∀ r ∈ schema, r.Holds db then .ok ({ rowsAffected := UInt64.ofNat affected }, ⟨db, h⟩)
  else .error (.databaseError "constraint failed")

/-- Inserts rows behind those that are there. -/
def insert (s : Store schema) (relation : String) (rows : List Tuple) :
    Except HostError (Outcome × Store schema) :=
  accept schema (s.contents.set relation (s.contents relation ++ rows)) rows.length

/-- Deletes rows, and the rows that go with them. -/
def delete (s : Store schema) (relation : String) (p : Tuple → Bool) :
    Except HostError (Outcome × Store schema) :=
  accept schema
    ((s.contents.set relation ((s.contents relation).filter fun row => !p row)).sweep schema)
    ((s.contents relation).filter p).length

/-- Assigns cells to columns of rows. -/
def update (s : Store schema) (relation : String) (p : Tuple → Bool)
    (assigned : List (String × Cell)) : Except HostError (Outcome × Store schema) :=
  accept schema
    (s.contents.set relation ((s.contents relation).map fun row =>
      if p row then fun column => (assigned.lookup column).getD (row column) else row))
    ((s.contents relation).filter p).length

variable {s s' : Store schema} {relation : String} {o : Outcome}

theorem accept_eq_ok {db : Contents} {affected : Nat} :
    accept schema db affected = .ok (o, s') ↔
      o = { rowsAffected := UInt64.ofNat affected } ∧ s'.contents = db := by
  obtain ⟨db', hdb'⟩ := s'
  rw [accept]
  constructor
  · intro h
    split at h
    · cases h
      exact ⟨rfl, rfl⟩
    · cases h
  · rintro ⟨rfl, rfl⟩
    exact dif_pos hdb'

end Store

end Discography
