import Discography.Proofs.Database.ReadBack

/-!
# What the catalogue writes is read back

The tables of the catalogue, the rows that are written to them and the types that are decoded agree
in the names and in the order of their columns, so every entity survives the way into a row and
back. A listing joins the rows of three tables and tells of each what it selects.

The insertions are those that the operations of the catalogue send. `Catalogue.addArtist` and
`Catalogue.createPlaylist` insert the row of the new entity, with `Catalogue.insertRow`;
`Catalogue.addAlbum` inserts the row of the album and those of all its tracks, and
`Catalogue.conforms_addAlbum` has the texts that are sent. Which rows an operation adds to which
table is told by `Catalogue.Change.direct`, and that its session does so by
`Catalogue.Change.simulates`.

## Main definitions

* `Catalogue.listing`, `Catalogue.listingProjection`: the query for a listing
* `Catalogue.listingRows`, `Catalogue.cellOf`: the cells of joined rows

## Main results

* `Catalogue.keeps_artist`, `Catalogue.keeps_album`, `Catalogue.keeps_track`,
  `Catalogue.keeps_playlist`: the tables of the catalogue keep its entities
* `Catalogue.reads_back_written`: the entities of the catalogue and its listings
-/

namespace Discography

namespace Catalogue

open Json Field

theorem keeps_artist : artists.Keeps Artist.row where
  columns a := by
    rw [Assignments.columns, entries_artist]
    rfl
  decode a := by
    have hid := ReadBack.identifier a.id
    have hname := ReadBack.text a.name
    have hcreated := ReadBack.integer a.createdAt
    have hfields := fields_canonical "Artist" (by decide)
      (.cons (takes_required "id" hid) (.cons (takes_required "name" hname)
        (.cons (takes_required "created_at" hcreated) .nil)))
    rw [Record.decode_eq_ok, Table.json_fields, entries_artist]
    refine Outcome.bind_eq_ok.2 ⟨_, hfields, ?_⟩
    simp [field_self, field_of_ne, hid, hname, hcreated]

theorem keeps_album : albums.Keeps Album.row where
  columns a := by
    rw [Assignments.columns, entries_album]
    rfl
  decode a := by
    have hid := ReadBack.identifier a.id
    have hartist := ReadBack.identifier a.artistId
    have htitle := ReadBack.text a.title
    have hyear := ReadBack.optionalInteger a.year
    have hfields := fields_canonical "Album" (by decide)
      (.cons (takes_required "id" hid) (.cons (takes_required "artist_id" hartist)
        (.cons (takes_required "title" htitle) (.cons (takes_optionally "year" hyear) .nil))))
    rw [Record.decode_eq_ok, Table.json_fields, entries_album]
    refine Outcome.bind_eq_ok.2 ⟨_, hfields, ?_⟩
    simp [field_self, field_of_ne, hid, hartist, htitle, hyear]

theorem keeps_track : tracks.Keeps Track.row where
  columns t := by
    rw [Assignments.columns, entries_track]
    rfl
  decode t := by
    have hid := ReadBack.identifier t.id
    have halbum := ReadBack.identifier t.albumId
    have htitle := ReadBack.text t.title
    have hnumber := ReadBack.integer t.trackNumber
    have hduration := ReadBack.optionalInteger t.durationMs
    have hexplicit := ReadBack.boolean t.explicit
    have hfields := fields_canonical "Track" (by decide)
      (.cons (takes_required "id" hid) (.cons (takes_required "album_id" halbum)
        (.cons (takes_required "title" htitle) (.cons (takes_required "track_number" hnumber)
          (.cons (takes_optionally "duration_ms" hduration)
            (.cons (takes_required "explicit" hexplicit) .nil))))))
    rw [Record.decode_eq_ok, Table.json_fields, entries_track]
    refine Outcome.bind_eq_ok.2 ⟨_, hfields, ?_⟩
    simp [field_self, field_of_ne, hid, halbum, htitle, hnumber, hduration, hexplicit]

theorem keeps_playlist : playlists.Keeps Playlist.row where
  columns p := by
    rw [Assignments.columns, entries_playlist]
    rfl
  decode p := by
    have hid := ReadBack.identifier p.id
    have hname := ReadBack.text p.name
    have hfields := fields_canonical "Playlist" (by decide)
      (.cons (takes_required "id" hid) (.cons (takes_required "name" hname) .nil))
    rw [Record.decode_eq_ok, Table.json_fields, entries_playlist]
    refine Outcome.bind_eq_ok.2 ⟨_, hfields, ?_⟩
    simp [field_self, field_of_ne, hid, hname]

/-! ### Listings -/

/-- The rows that a row of a listing is joined of, under the names of their tables. -/
def listingRows (track album artist : Tuple) : List (String × Tuple) :=
  [(tracks.aliasName, track), (albums.aliasName, album), (artists.aliasName, artist)]

/-- The cell of a column of joined rows. -/
def cellOf (rows : List (String × Tuple)) (c : Column) : Cell :=
  (rows.lookup c.aliasName).elim .null fun row => row c.name

/-- The projection of a listing. -/
def listingProjection : Projection :=
  .object [("track", .table tracks),
    ("album", .object [("title", .column (albums.columnOf (plain "title" .string))),
      ("year", .column (albums.columnOf (plain "year" .number).orNull))]),
    ("artist", .object [("name", .column (artists.columnOf (plain "name" .string)))])]

/-- The query for a listing, as it is built. -/
def listing (d : Dialect) (album : Identifier) : Query :=
  { Query.ofTable d tracks with
    joins := [
      ⟨.inner, albums, some (.compare
        (.column (tracks.columnOf ((plain "album_id" .binary).referring "albums" "id"))) .eq
        (.column (albums.columnOf (plain "id" .binary))))⟩,
      ⟨.inner, artists, some (.compare
        (.column (albums.columnOf ((plain "artist_id" .binary).referring "artists" "id"))) .eq
        (.column (artists.columnOf (plain "id" .binary))))⟩]
    filter := some (.compare (.column (albums.columnOf (plain "id" .binary))) .eq
      (.literal (toValue album)))
    projection := some listingProjection
    order := [⟨.column (tracks.columnOf (plain "track_number" .number)), none⟩]
    stage := .shaping }

theorem listingQuery_eq (d : Dialect) (album : Identifier) :
    listingQuery d album = .ok (listing d album) := rfl

theorem exists_render_listing (d : Dialect) (album : Identifier) :
    ∃ rendered, (listing d album).render = .ok rendered := by
  have hfinite : (listing d album).FiniteConditions := by
    constructor <;> simp [listing, Predicate.IsFinite, Expression.IsFinite, Value.IsFinite, toValue]
  exact (Query.exists_render_iff hfinite).2 (by decide : Stage.shaping ≠ .joining)

/-- The columns of a listing are all columns of the track, and some of the album and the artist. -/
theorem cells_listing (track album artist : Tuple) :
    (listingProjection.leaves.map fun leaf => cellOf (listingRows track album artist) leaf.2) =
      tracks.attributes.map (fun a => track a.name) ++
        [album "title", album "year", artist "name"] := rfl

theorem record_listing {cells : Row} (h : cells.length = tracks.attributes.length)
    (title year name : Cell) :
    listingProjection.record [] false (cells ++ [title, year, name]) =
      .object [("track", .object (tracks.fields cells)),
        ("album", .object [("title", .value (title.toValue .string)),
          ("year", .value (year.toValue .number))]),
        ("artist", .object [("name", .value (name.toValue .string))])] := by
  rw [listingProjection, Projection.record, if_neg (by simp), Projection.recordFields,
    Projection.length_leaves_table, ← h, List.take_left, List.drop_left,
    Projection.record_table h, if_neg (by simp)]
  rfl

theorem decode_listing (track : Track) (album : Album) (artist : Artist) :
    (Record.object [("track", .object (tracks.fields track.row.cells)),
      ("album", .object [("title", .value ((toValue album.title).stored.toValue .string)),
        ("year", .value ((toValue album.year).stored.toValue .number))]),
      ("artist", .object
        [("name", .value ((toValue artist.name).stored.toValue .string))])]).decode =
      .ok (⟨track, ⟨album.title, album.year⟩, ⟨artist.name⟩⟩ : TrackListing) := by
  have htrack := Record.decode_eq_ok.1 (keeps_track.decode track)
  have halbum : fromJson (Json.object [("title", (toValue album.title).document .string),
      ("year", (toValue album.year).document .number)]).canonical =
        .ok (⟨album.title, album.year⟩ : AlbumSummary) := by
    have htitle := ReadBack.text album.title
    have hyear := ReadBack.optionalInteger album.year
    have hfields := fields_canonical "AlbumSummary" (by decide)
      (.cons (takes_required "title" htitle) (.cons (takes_optionally "year" hyear) .nil))
    refine Outcome.bind_eq_ok.2 ⟨_, hfields, ?_⟩
    simp [field_self, field_of_ne, htitle, hyear]
  have hartist : fromJson (Json.object
      [("name", (toValue artist.name).document .string)]).canonical =
        .ok (⟨artist.name⟩ : ArtistSummary) := by
    have hname := ReadBack.text artist.name
    have hfields := fields_canonical "ArtistSummary" (by decide)
      (.cons (takes_required "name" hname) .nil)
    refine Outcome.bind_eq_ok.2 ⟨_, hfields, ?_⟩
    simp [field_self, hname]
  have hfields := fields_canonical "TrackListing" (by decide)
    (.cons (takes_required "track" htrack) (.cons (takes_required "album" halbum)
      (.cons (takes_required "artist" hartist) .nil)))
  refine Record.decode_eq_ok.2 (Outcome.bind_eq_ok.2 ⟨_, hfields, ?_⟩)
  simp [field_self, field_of_ne, htrack, halbum, hartist]

/-- The row of a listing that is joined of a track, its album and its artist is read as these. -/
theorem exists_listing (d : Dialect) (id : Identifier) (track : Track) (album : Album)
    (artist : Artist) :
    ∃ (q : Query) (rendered : Rendered) (record : Record),
      listingQuery d id = .ok q ∧ q.render = .ok rendered ∧
      rendered.mapper.mapRow (q.effectiveProjection.leaves.map fun leaf =>
        cellOf (listingRows track.row.kept album.row.kept artist.row.kept) leaf.2) = .ok record ∧
      record.decode = .ok (⟨track, ⟨album.title, album.year⟩, ⟨artist.name⟩⟩ : TrackListing) := by
  obtain ⟨rendered, hrendered⟩ := exists_render_listing d id
  refine ⟨_, rendered, _, listingQuery_eq d id, hrendered, ?_, decode_listing track album artist⟩
  have hprojection : (listing d id).effectiveProjection = listingProjection := rfl
  have hoptional : (listing d id).optionalAliases = [] := rfl
  rw [(Query.render_eq_ok.1 hrendered).2.2, Query.mapper,
    RowMapper.mapRow_ofProjection _ _ _ (List.length_map _), hprojection, hoptional, cells_listing,
    keeps_track.map_kept, record_listing (keeps_track.length_cells track)]
  simp only [Assignments.kept, Assignments.get?, entries_album, entries_artist]
  rfl

/-! ### What is written is read back -/

/-- **What is written is read back.** The insertion of an artist, an album, tracks or a playlist is
read as literals, and a query of the table makes of the cells that are kept of them what was
written. A listing makes of the rows of a track, its album and its artist this track, the title and
the year of the album, and the name of the artist. -/
theorem reads_back_written {d : Dialect} (hd : d.Lexical) :
    (∀ a : Artist, artists.ReadsBack d Artist.row [a]) ∧
    (∀ a : Album, albums.ReadsBack d Album.row [a]) ∧
    (∀ added : List Track, added ≠ [] → tracks.ReadsBack d Track.row added) ∧
    (∀ p : Playlist, playlists.ReadsBack d Playlist.row [p]) ∧
    ∀ (id : Identifier) (track : Track) (album : Album) (artist : Artist),
      ∃ (q : Query) (rendered : Rendered) (record : Record),
        listingQuery d id = .ok q ∧ q.render = .ok rendered ∧
        rendered.mapper.mapRow (q.effectiveProjection.leaves.map fun leaf =>
          cellOf (listingRows track.row.kept album.row.kept artist.row.kept) leaf.2) =
            .ok record ∧
        record.decode = .ok (⟨track, ⟨album.title, album.year⟩, ⟨artist.name⟩⟩ : TrackListing) :=
  ⟨fun a => keeps_artist.readsBack hd rfl (uniform_artist a),
    fun a => keeps_album.readsBack hd rfl (uniform_album a),
    fun _ hne => keeps_track.readsBack hd rfl (uniform_tracks hne),
    fun p => keeps_playlist.readsBack hd rfl (uniform_playlist p), exists_listing d⟩

/-- A name with quotes, a backslash and letters beyond ASCII, and tracks with and without a duration
that are explicit or are not, in both dialects. -/
theorem reads_back_written_quotes :
    let id : Identifier := ⟨[0, 39, 92, 255, 0, 1, 64, 2, 128, 3, 4, 5, 6, 7, 8, 9], rfl⟩
    let artist : Artist := ⟨id, "O\"Ne'ill \\ Ünïcøde 音", -1⟩
    let added : List Track := [⟨id, id, "it's", 1, none, true⟩, ⟨id, id, "", 0, some 5, false⟩]
    Dialect.sqlite.Lexical ∧ Dialect.mysql.Lexical ∧ added ≠ [] ∧
    artists.ReadsBack .sqlite Artist.row [artist] ∧ artists.ReadsBack .mysql Artist.row [artist] ∧
    tracks.ReadsBack .sqlite Track.row added ∧ tracks.ReadsBack .mysql Track.row added := by
  intro id artist added
  have hadded : added ≠ [] := List.cons_ne_nil _ _
  obtain ⟨hartists, -, htracks, -⟩ := reads_back_written Dialect.lexical_sqlite
  obtain ⟨hartists', -, htracks', -⟩ := reads_back_written Dialect.lexical_mysql
  exact ⟨Dialect.lexical_sqlite, Dialect.lexical_mysql, hadded, hartists artist, hartists' artist,
    htracks added hadded, htracks' added hadded⟩

end Catalogue

end Discography
