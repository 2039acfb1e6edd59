import Discography.Json.Decode

/-!
# Entities of the catalogue

Artists, their albums, the tracks of albums, and playlists of tracks. Their fields have the names of
the columns that hold them, so that they can be decoded from fetched rows.

## Main definitions

* `Artist`, `Album`, `Track`, `Playlist`: the entities
* `TrackListing`: a track with its album and artist
-/

namespace Discography

/-- A performing artist. -/
structure Artist where
  id : Identifier
  name : String
  /-- The time of creation in milliseconds. -/
  createdAt : Int64
  deriving DecidableEq

/-- An album of an artist. -/
structure Album where
  id : Identifier
  artistId : Identifier
  title : String
  /-- The year of the release. -/
  year : Option Int64
  deriving DecidableEq

/-- A track of an album. -/
structure Track where
  id : Identifier
  albumId : Identifier
  title : String
  /-- The position on the album, from one on. -/
  trackNumber : Int64
  durationMs : Option Int64
  explicit : Bool
  deriving DecidableEq

/-- A playlist. -/
structure Playlist where
  id : Identifier
  name : String
  deriving DecidableEq

/-- What a listing tells of an album. -/
structure AlbumSummary where
  title : String
  year : Option Int64
  deriving DecidableEq

/-- What a listing tells of an artist. -/
structure ArtistSummary where
  name : String
  deriving DecidableEq

/-- A track with its album and artist. -/
structure TrackListing where
  track : Track
  album : AlbumSummary
  artist : ArtistSummary
  deriving DecidableEq

instance : ToJson Artist where
  toJson a := .object
    [("id", toJson a.id), ("name", toJson a.name), ("created_at", toJson a.createdAt)]

instance : FromJson Artist where
  fromJson j := do
    let members ← j.fields "Artist"
      [.required "id" Identifier, .required "name" String, .required "created_at" Int64]
    return ⟨← Json.field members "id", ← Json.field members "name",
      ← Json.field members "created_at"⟩

instance : ToJson Album where
  toJson a := .object
    [("id", toJson a.id), ("artist_id", toJson a.artistId), ("title", toJson a.title),
      ("year", toJson a.year)]

instance : FromJson Album where
  fromJson j := do
    let members ← j.fields "Album"
      [.required "id" Identifier, .required "artist_id" Identifier, .required "title" String,
        .optionally "year" Int64]
    return ⟨← Json.field members "id", ← Json.field members "artist_id",
      ← Json.field members "title", ← Json.field members "year"⟩

instance : ToJson Track where
  toJson t := .object
    [("id", toJson t.id), ("album_id", toJson t.albumId), ("title", toJson t.title),
      ("track_number", toJson t.trackNumber), ("duration_ms", toJson t.durationMs),
      ("explicit", toJson t.explicit)]

instance : FromJson Track where
  fromJson j := do
    let members ← j.fields "Track"
      [.required "id" Identifier, .required "album_id" Identifier, .required "title" String,
        .required "track_number" Int64, .optionally "duration_ms" Int64,
        .required "explicit" Bool]
    return ⟨← Json.field members "id", ← Json.field members "album_id",
      ← Json.field members "title", ← Json.field members "track_number",
      ← Json.field members "duration_ms", ← Json.field members "explicit"⟩

instance : ToJson Playlist where
  toJson p := .object [("id", toJson p.id), ("name", toJson p.name)]

instance : FromJson Playlist where
  fromJson j := do
    let members ← j.fields "Playlist" [.required "id" Identifier, .required "name" String]
    return ⟨← Json.field members "id", ← Json.field members "name"⟩

instance : ToJson AlbumSummary where
  toJson a := .object [("title", toJson a.title), ("year", toJson a.year)]

instance : FromJson AlbumSummary where
  fromJson j := do
    let members ← j.fields "AlbumSummary" [.required "title" String, .optionally "year" Int64]
    return ⟨← Json.field members "title", ← Json.field members "year"⟩

instance : ToJson ArtistSummary where
  toJson a := .object [("name", toJson a.name)]

instance : FromJson ArtistSummary where
  fromJson j := do
    let members ← j.fields "ArtistSummary" [.required "name" String]
    return ⟨← Json.field members "name"⟩

instance : ToJson TrackListing where
  toJson l := .object
    [("track", toJson l.track), ("album", toJson l.album), ("artist", toJson l.artist)]

instance : FromJson TrackListing where
  fromJson j := do
    let members ← j.fields "TrackListing"
      [.required "track" Track, .required "album" AlbumSummary, .required "artist" ArtistSummary]
    return ⟨← Json.field members "track", ← Json.field members "album",
      ← Json.field members "artist"⟩

end Discography
