import Discography.Catalogue.Store
import Discography.Proofs.Query.InsertedRows

/-!
# The statements of the catalogue

Every statement that the catalogue needs for a change can be written, in every dialect, and is a
single text: rows that assign the same columns are inserted by one command, and a deletion is one
command anyway. So nothing about the statements of a change can fail once its arguments were
accepted, and no change of the catalogue asks for a transaction inside its own.

## Main definitions

* `Query.Uniform`: rows that one text inserts

## Main results

* `Query.Uniform.exists_insertMany`, `Query.Uniform.read_insertMany`: the text and what it is read
  as
* `Catalogue.uniform_artist`, `Catalogue.uniform_album`, `Catalogue.uniform_tracks`,
  `Catalogue.uniform_playlist`, `Catalogue.uniform_entry`: the rows of the catalogue
* `Catalogue.exists_delete_tracks`, `Catalogue.exists_delete_album`, `Catalogue.exists_count`:
  deletions and counts
-/

namespace Discography

namespace Query

/-- Rows that assign the same columns, all of which the table has. -/
structure Uniform (t : Table) (columns : List String) (rows : List Assignments) : Prop where
  table : t.origin.isSubquery = false
  ne : rows ≠ []
  assigned : columns ≠ []
  same : ∀ row ∈ rows, row.columns = columns
  exist : ∀ column ∈ columns, (t.column? column).isSome
  finite : ∀ row ∈ rows, ∀ e ∈ row.entries, e.2.IsFinite

namespace Uniform

variable {t : Table} {columns : List String} {rows : List Assignments}

theorem mem_assignedColumns (h : Uniform t columns rows) {column : String} :
    column ∈ assignedColumns rows ↔ column ∈ columns := by
  rw [Query.mem_assignedColumns]
  constructor
  · rintro ⟨row, hrow, hcolumn⟩
    rwa [h.same row hrow] at hcolumn
  · intro hcolumn
    obtain ⟨row, hrow⟩ := List.exists_mem_of_ne_nil rows h.ne
    exact ⟨row, hrow, by rwa [h.same row hrow]⟩

theorem assigns (h : Uniform t columns rows) {row : Assignments} (hrow : row ∈ rows)
    {column : String} (hcolumn : column ∈ assignedColumns rows) : row.assigns column := by
  rw [Assignments.assigns_iff, h.same row hrow]
  exact h.mem_assignedColumns.1 hcolumn

theorem isEmpty_assignedColumns (h : Uniform t columns rows) :
    (assignedColumns rows).isEmpty = false := by
  obtain ⟨column, hcolumn⟩ := List.exists_mem_of_ne_nil columns h.assigned
  rw [List.isEmpty_eq_false_iff]
  exact List.ne_nil_of_mem (h.mem_assignedColumns.2 hcolumn)

/-- The rows are inserted by a single command. -/
theorem insertGroup_eq (h : Uniform t columns rows) (d : Dialect) :
    (ofTable d t).insertGroup (assignedColumns rows) rows = [.insert t.origin (assignedColumns rows)
      (rows.map fun row => (assignedColumns rows).map row.get?)] := by
  rw [insertGroup, h.isEmpty_assignedColumns]
  rfl

theorem insertCommands_eq (h : Uniform t columns rows) (d : Dialect) :
    (ofTable d t).insertCommands rows = [.insert t.origin (assignedColumns rows)
      (rows.map fun row => (assignedColumns rows).map row.get?)] := by
  have hcomplete : rows.all fun row => (assignedColumns rows).all row.assigns := by
    simp only [List.all_eq_true]
    exact fun row hrow column => h.assigns hrow
  rw [insertCommands, hcomplete, h.isEmpty_assignedColumns, if_pos (by simp), h.insertGroup_eq]

theorem exists_insertMany (h : Uniform t columns rows) (d : Dialect) :
    ∃ sql, (ofTable d t).insertMany rows = .ok ⟨[sql]⟩ := by
  obtain ⟨sql, hsql⟩ := exists_sql_of_mem_insertGroup h.finite
    (by rw [h.insertGroup_eq d]; exact List.mem_singleton_self _) d
  refine ⟨sql, insertMany_eq_ok.2 ⟨rfl, h.table, h.ne, fun column hcolumn => ?_, ?_⟩⟩
  · obtain ⟨row, hrow, hcolumn⟩ := List.mem_flatMap.1 hcolumn
    rw [h.same row hrow] at hcolumn
    exact h.exist column hcolumn
  · rw [h.insertCommands_eq]
    exact Statement.ofCommands_singleton_eq_ok.2 ⟨sql, hsql, rfl⟩

theorem nodup_columns (h : Uniform t columns rows) : columns.Nodup := by
  obtain ⟨row, hrow⟩ := List.exists_mem_of_ne_nil rows h.ne
  rw [← h.same row hrow]
  exact row.nodup_columns

/-- The rows assign their columns in the order of each of them. -/
theorem assignedColumns_eq (h : Uniform t columns rows) : assignedColumns rows = columns := by
  obtain ⟨first, rest, rfl⟩ := List.exists_cons_of_ne_nil h.ne
  have hrest : ∀ column ∈ rest.flatMap Assignments.columns, column ∈ columns := by
    intro column hcolumn
    obtain ⟨row, hrow, hcolumn⟩ := List.mem_flatMap.1 hcolumn
    rwa [h.same row (List.mem_cons_of_mem _ hrow)] at hcolumn
  -- what the other rows assign was assigned by the first one
  have hnone : (rest.flatMap Assignments.columns).removeAll columns = [] := by
    rw [List.removeAll, List.filter_eq_nil_iff]
    intro column hcolumn
    simp [hrest column hcolumn]
  rw [assignedColumns, List.flatMap_cons, h.same first List.mem_cons_self, List.eraseDups_append,
    hnone, eraseDups_of_nodup h.nodup_columns]
  exact List.append_nil _

/-- The text has the literals of each row under its columns. -/
theorem read_insertMany_values (h : Uniform t columns rows) {d : Dialect} (hd : d.Lexical)
    {segments : List String} (horigin : t.origin = .path segments) {sql : Sql}
    (hsql : (ofTable d t).insertMany rows = .ok ⟨[sql]⟩) :
    Insertion.read d sql.text = some (.values (Token.path segments) columns
      (rows.map fun row => columns.map row.get?)) := by
  obtain ⟨-, -, -, -, hs⟩ := insertMany_eq_ok.1 hsql
  rw [h.insertCommands_eq, h.assignedColumns_eq] at hs
  obtain ⟨sql', hsql', hbatch⟩ := Statement.ofCommands_singleton_eq_ok.1 hs
  obtain rfl : sql = sql' := by simpa using hbatch
  refine Command.read_text hd hsql' horigin (by rw [Command.insertion?, horigin]; rfl) ?_
  have hcells : ∀ row ∈ rows, ∀ column ∈ columns, (row.get? column).isSome :=
    fun row hrow column hcolumn => h.assigns hrow (h.mem_assignedColumns.2 hcolumn)
  rw [Insertion.accepted]
  simpa [h.nodup_columns, h.assigned] using .inr hcells

/-- The text inserts the given rows. -/
theorem read_insertMany (h : Uniform t columns rows) {d : Dialect} (hd : d.Lexical)
    {segments : List String} (horigin : t.origin = .path segments) {sql : Sql}
    (hsql : (ofTable d t).insertMany rows = .ok ⟨[sql]⟩) :
    ∃ i, Insertion.read d sql.text = some i ∧ i.target = Token.path segments ∧
      i.rows = rows.map Assignments.get? := by
  refine ⟨_, h.read_insertMany_values hd horigin hsql, rfl, ?_⟩
  rw [Insertion.rows, List.map_map]
  refine List.map_congr_left fun row hrow => Assignments.cells_eq_get? fun column hcolumn => ?_
  rwa [h.same row hrow] at hcolumn

end Uniform

end Query

namespace Catalogue

/-! ### Insertions -/

theorem isFinite_optional (i : Option Int64) : (toValue i).IsFinite := by
  cases i <;> trivial

theorem entries_artist (a : Artist) : a.row.entries =
    [("id", toValue a.id), ("name", toValue a.name), ("created_at", toValue a.createdAt)] := rfl

theorem entries_album (a : Album) : a.row.entries =
    [("id", toValue a.id), ("artist_id", toValue a.artistId), ("title", toValue a.title),
      ("year", toValue a.year)] := rfl

theorem entries_track (t : Track) : t.row.entries =
    [("id", toValue t.id), ("album_id", toValue t.albumId), ("title", toValue t.title),
      ("track_number", toValue t.trackNumber), ("duration_ms", toValue t.durationMs),
      ("explicit", toValue t.explicit)] := rfl

theorem entries_playlist (p : Playlist) : p.row.entries =
    [("id", toValue p.id), ("name", toValue p.name)] := rfl

theorem uniform_artist (a : Artist) :
    Query.Uniform artists ["id", "name", "created_at"] [a.row] := by
  refine ⟨rfl, by simp, by simp, by simp [Assignments.columns, entries_artist], by decide, ?_⟩
  simp only [List.forall_mem_singleton, entries_artist, List.forall_mem_cons]
  exact ⟨trivial, trivial, trivial⟩

theorem uniform_album (a : Album) :
    Query.Uniform albums ["id", "artist_id", "title", "year"] [a.row] := by
  refine ⟨rfl, by simp, by simp, by simp [Assignments.columns, entries_album], by decide, ?_⟩
  simp only [List.forall_mem_singleton, entries_album, List.forall_mem_cons]
  exact ⟨trivial, trivial, trivial, isFinite_optional a.year⟩

theorem uniform_tracks {added : List Track} (hne : added ≠ []) :
    Query.Uniform tracks ["id", "album_id", "title", "track_number", "duration_ms", "explicit"]
      (added.map Track.row) := by
  refine ⟨rfl, by simpa using hne, by simp, by simp [Assignments.columns, entries_track],
    by decide, ?_⟩
  simp only [List.forall_mem_map, entries_track, List.forall_mem_cons]
  exact fun t _ =>
    ⟨trivial, trivial, trivial, trivial, isFinite_optional t.durationMs, trivial, by simp⟩

theorem uniform_playlist (p : Playlist) : Query.Uniform playlists ["id", "name"] [p.row] := by
  refine ⟨rfl, by simp, by simp, by simp [Assignments.columns, entries_playlist], by decide, ?_⟩
  simp only [List.forall_mem_singleton, entries_playlist, List.forall_mem_cons]
  exact ⟨trivial, trivial⟩

theorem uniform_entry (playlist track : Identifier) (position : Int64) :
    Query.Uniform playlistTracks ["playlist_id", "track_id", "position"]
      [Playlist.entryRow playlist track position] := by
  have hentries : (Playlist.entryRow playlist track position).entries =
      [("playlist_id", toValue playlist), ("track_id", toValue track),
        ("position", toValue position)] := rfl
  refine ⟨rfl, by simp, by simp, by simp [Assignments.columns, hentries], by decide, ?_⟩
  simp only [List.forall_mem_singleton, hentries, List.forall_mem_cons]
  exact ⟨trivial, trivial, trivial⟩

/-! ### Deletions and counts -/

/-- The deletion of the rows in which a column has an identifier. -/
def deleteWith (d : Dialect) (t : Table) (column : String) (id : Identifier) :
    Result Statement := do
  (← rowsWith d t column id).delete

theorem exists_delete_tracks (d : Dialect) (album : Identifier) :
    ∃ sql, deleteWith d tracks "album_id" album = .ok ⟨[sql]⟩ := ⟨_, rfl⟩

theorem exists_delete_album (d : Dialect) (album : Identifier) :
    ∃ sql, deleteWith d albums "id" album = .ok ⟨[sql]⟩ := ⟨_, rfl⟩

theorem exists_count (d : Dialect) (playlist : Identifier) :
    ∃ q sql, rowsWith d playlistTracks "playlist_id" playlist = .ok q ∧ q.renderCount = .ok sql :=
  ⟨_, _, rfl, rfl⟩

end Catalogue

end Discography
