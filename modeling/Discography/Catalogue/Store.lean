import Discography.Catalogue.Draft
import Discography.Catalogue.Schema
import Discography.Execution.Batch
import Discography.Execution.Fetch
import Discography.Page

/-!
# The catalogue

Artists, albums, tracks and playlists kept in a database. Changes of several rows run in a
transaction, and their statements are rendered before it is opened, so that what can fail without
the database fails before the database is asked for anything.

## Main definitions

* `Catalogue`: a catalogue in a database
* `Catalogue.addArtist`, `Catalogue.addAlbum`, `Catalogue.createPlaylist`, `Catalogue.append`:
  additions
* `Catalogue.renameArtist`, `Catalogue.deleteAlbum`: changes
* `Catalogue.findArtist`, `Catalogue.albumTracks`, `Catalogue.trackPage`,
  `Catalogue.playlistListing`: listings
-/

namespace Discography

/-- A catalogue in a database. -/
structure Catalogue (σ : Type) where
  conn : Connection σ
  dialect : Dialect

/-! ### Rows of the tables -/

/-- The row of an artist. -/
def Artist.row (a : Artist) : Assignments :=
  .ofList [("id", toValue a.id), ("name", toValue a.name), ("created_at", toValue a.createdAt)]

/-- The row of an album. -/
def Album.row (a : Album) : Assignments :=
  .ofList [("id", toValue a.id), ("artist_id", toValue a.artistId), ("title", toValue a.title),
    ("year", toValue a.year)]

/-- The row of a track. -/
def Track.row (t : Track) : Assignments :=
  .ofList [("id", toValue t.id), ("album_id", toValue t.albumId), ("title", toValue t.title),
    ("track_number", toValue t.trackNumber), ("duration_ms", toValue t.durationMs),
    ("explicit", toValue t.explicit)]

/-- The row of a playlist. -/
def Playlist.row (p : Playlist) : Assignments :=
  .ofList [("id", toValue p.id), ("name", toValue p.name)]

/-- The row of an entry of a playlist. -/
def Playlist.entryRow (playlist track : Identifier) (position : Int64) : Assignments :=
  .ofList [("playlist_id", toValue playlist), ("track_id", toValue track),
    ("position", toValue position)]

namespace Catalogue

/-! ### Queries -/

/-- The condition that a column has an identifier. -/
def hasId (column : String) (id : Identifier) : Condition :=
  .pattern [.field column (.literal (toValue id))]

/-- The condition that a column of a joined table has an identifier. -/
def joinedHasId (aliasName column : String) (id : Identifier) : Condition :=
  .pattern [.table aliasName [.field column (.literal (toValue id))]]

/-- The condition that a column refers to another. -/
def refersTo (reference target : Column) : Condition :=
  .comparison (.column reference) "=" (.column target)

/-- The rows of a table in which a column has an identifier. -/
def rowsWith (d : Dialect) (t : Table) (column : String) (id : Identifier) : Result Query :=
  (Query.ofTable d t).restrict (hasId column id)

/-- The tracks of an album with the album and its artist, in the order of their numbers. -/
def listingQuery (d : Dialect) (album : Identifier) : Result Query := do
  let q ← (Query.ofTable d tracks).join .inner albums
  let q ← q.joinOn (refersTo (← tracks.column "album_id") (← albums.column "id"))
  let q ← q.join .inner artists
  let q ← q.joinOn (refersTo (← albums.column "artist_id") (← artists.column "id"))
  let q ← q.restrict (joinedHasId "albums" "id" album)
  let q ← q.select (.object [
    ("track", .table tracks),
    ("album", .object [
      ("title", .column (← albums.column "title")),
      ("year", .column (← albums.column "year"))]),
    ("artist", .object [("name", .column (← artists.column "name"))])])
  q.orderBy ⟨.column (← tracks.column "track_number"), none⟩

/-- A page of all tracks in the order of their titles. -/
def trackPageQuery (d : Dialect) (r : PageRequest) : Result Query := do
  let q ← (Query.ofTable d tracks).orderBy ⟨.column (← tracks.column "title"), none⟩
  let q ← q.thenBy ⟨.column (← tracks.column "id"), none⟩
  q.paginate r

/-- The tracks of a playlist in order. -/
def playlistQuery (d : Dialect) (playlist : Identifier) : Result Query := do
  let q ← (Query.ofTable d playlistTracks).join .inner tracks
  let q ← q.joinOn (refersTo (← playlistTracks.column "track_id") (← tracks.column "id"))
  let q ← q.restrict (joinedHasId "playlist_tracks" "playlist_id" playlist)
  let q ← q.select (.table tracks)
  q.orderBy ⟨.column (← playlistTracks.column "position"), none⟩

/-! ### Operations -/

variable {σ : Type}

/-- An event about the catalogue. -/
def event (level : Log.Level) (message : String) (fields : List (String × String)) : Log.Event :=
  { level, target := Log.Target.catalogue, message := some message, fields }

/-- Inserts a row. -/
def insertRow (c : Catalogue σ) (t : Table) (row : Assignments) : Session σ Error Unit := do
  let s ← Session.ofExcept ((Query.ofTable c.dialect t).insert row)
  let _ ← s.execute c.conn

/-- Creates the tables that do not exist. -/
def createSchema (c : Catalogue σ) : Session σ Error Unit := do
  (schema c.dialect).forM fun text => do
    let _ ← c.conn.perform (.execute text)
  Session.report (event .info "Catalogue schema ready" [("dialect", c.dialect.name)])

/-- Adds an artist. -/
def addArtist (c : Catalogue σ) (name : String) : Session σ Error Artist := do
  Session.ofExcept (requireText "name" name)
  let id ← c.conn.nextIdentifier
  let artist : Artist := ⟨id, name, Int64.ofNat id.timestamp⟩
  c.insertRow artists artist.row
  Session.report (event .debug "Artist added" [("artist_id", id.text)])
  return artist

/-- The artist with an identifier. -/
def findArtist (c : Catalogue σ) (id : Identifier) : Session σ Error (Option Artist) := do
  let q ← Session.ofExcept (rowsWith c.dialect artists "id" id)
  return (← q.fetchAs Artist c.conn).head?

/-- Gives an artist another name. -/
def renameArtist (c : Catalogue σ) (id : Identifier) (name : String) : Session σ Error Unit := do
  Session.ofExcept (requireText "name" name)
  let q ← Session.ofExcept (rowsWith c.dialect artists "id" id)
  let s ← Session.ofExcept (q.update (.ofList [("name", toValue name)]))
  let outcome ← s.execute c.conn
  if outcome.rowsAffected = 0 then Session.fail (.notFound .artist id)

/-- Adds an album with its tracks. -/
def addAlbum (c : Catalogue σ) (artist : Identifier) (album : NewAlbum) (drafts : List NewTrack) :
    Session σ Error Album := do
  Session.ofExcept album.validate
  Session.ofExcept (drafts.forM NewTrack.validate)
  let album := album.withId (← c.conn.nextIdentifier) artist
  let insertAlbum ← Session.ofExcept ((Query.ofTable c.dialect albums).insert album.row)
  let rows ← drafts.mapM fun draft => do
    return (draft.withId (← c.conn.nextIdentifier) album.id).row
  let insertTracks ←
    if rows.isEmpty then pure none
    else some <$> Session.ofExcept ((Query.ofTable c.dialect tracks).insertMany rows)
  c.conn.transaction fun tx => do
    let _ ← insertAlbum.execute tx
    match insertTracks with
    | some s => let _ ← s.execute tx
    | none => pure ()
  Session.report (event .info "Album added"
    [("album_id", album.id.text), ("tracks", toString rows.length)])
  return album

/-- The tracks of an album. -/
def albumTracks (c : Catalogue σ) (album : Identifier) : Session σ Error (List TrackListing) := do
  let q ← Session.ofExcept (listingQuery c.dialect album)
  q.fetchAs TrackListing c.conn

/-- A page of all tracks. -/
def trackPage (c : Catalogue σ) (r : PageRequest) : Session σ Error (Page Track) := do
  let total ← (Query.ofTable c.dialect tracks).count c.conn
  let q ← Session.ofExcept (trackPageQuery c.dialect r)
  let items ← q.fetchAs Track c.conn
  Session.report (event .debug "Track page loaded"
    [("page", toString r.page.toNat), ("items", toString items.length),
      ("total", toString total.toNat)])
  return .ofItems items total r

/-- Deletes an album and its tracks. -/
def deleteAlbum (c : Catalogue σ) (album : Identifier) : Session σ Error Unit := do
  let deleteTracks ← Session.ofExcept do
    (← rowsWith c.dialect tracks "album_id" album).delete
  let deleteAlbum ← Session.ofExcept do
    (← rowsWith c.dialect albums "id" album).delete
  let removed ← c.conn.transaction fun tx => do
    let removed ← deleteTracks.execute tx
    let outcome ← deleteAlbum.execute tx
    if outcome.rowsAffected = 0 then Session.fail (.notFound .album album)
    else return removed.rowsAffected
  Session.report (event .info "Album deleted"
    [("album_id", album.text), ("tracks", toString removed.toNat)])

/-- Creates an empty playlist. -/
def createPlaylist (c : Catalogue σ) (name : String) : Session σ Error Playlist := do
  Session.ofExcept (requireText "name" name)
  let playlist : Playlist := ⟨← c.conn.nextIdentifier, name⟩
  c.insertRow playlists playlist.row
  return playlist

/-- Appends a track to a playlist; the result is its position, the number of entries before. -/
def append (c : Catalogue σ) (playlist track : Identifier) : Session σ Error UInt64 := do
  let entries ← Session.ofExcept (rowsWith c.dialect playlistTracks "playlist_id" playlist)
  c.conn.transaction fun tx => do
    let position ← entries.count tx
    let s ← Session.ofExcept
      ((Query.ofTable c.dialect playlistTracks).insert
        (Playlist.entryRow playlist track position.toInt64))
    let _ ← s.execute tx
    return position

/-- The tracks of a playlist. -/
def playlistListing (c : Catalogue σ) (playlist : Identifier) : Session σ Error (List Track) := do
  let q ← Session.ofExcept (playlistQuery c.dialect playlist)
  q.fetchAs Track c.conn

end Catalogue

end Discography
