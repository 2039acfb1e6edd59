import Discography.Schema.Table

/-!
# The schema of the catalogue

The tables of the catalogue as queries know them, and the statements that create them. The columns
have the same names in both.

## Main definitions

* `Catalogue.artists`, `Catalogue.albums`, `Catalogue.tracks`, `Catalogue.playlists`,
  `Catalogue.playlistTracks`: the tables
* `Catalogue.schema`: the statements that create them
-/

namespace Discography.Catalogue

/-! ### Tables -/

/-- A column that may not be null and has no default. -/
def plain (name : String) (type : ColumnType) : Attribute := { name, type }

/-- The table of artists. -/
def artists : Table := .named "artists"
  [plain "id" .binary, plain "name" .string, plain "created_at" .number]

/-- The table of albums. -/
def albums : Table := .named "albums"
  [plain "id" .binary, (plain "artist_id" .binary).referring "artists" "id",
    plain "title" .string, (plain "year" .number).orNull]

/-- The table of tracks. -/
def tracks : Table := .named "tracks"
  [plain "id" .binary, (plain "album_id" .binary).referring "albums" "id",
    plain "title" .string, plain "track_number" .number,
    (plain "duration_ms" .number).orNull, (plain "explicit" .boolean).withDefault]

/-- The table of playlists. -/
def playlists : Table := .named "playlists" [plain "id" .binary, plain "name" .string]

/-- The table of the entries of playlists. -/
def playlistTracks : Table := .named "playlist_tracks"
  [(plain "playlist_id" .binary).referring "playlists" "id",
    (plain "track_id" .binary).referring "tracks" "id", plain "position" .number]

/-- All tables. -/
def tables : List Table := [artists, albums, tracks, playlists, playlistTracks]

/-! ### Statements -/

/-- The statement that creates a table with the given columns and constraints, one in a line. -/
def createTable (name : String) (clauses : List String) : String :=
  "CREATE TABLE IF NOT EXISTS " ++ name ++ " (\n" ++
    ",\n".intercalate (clauses.map ("        " ++ ·)) ++ "\n    )"

/-- The statement that creates an index on a column. -/
def createIndex (name table column : String) : String :=
  "CREATE INDEX IF NOT EXISTS " ++ name ++ " ON " ++ table ++ "(" ++ column ++ ")"

/-- The statements for SQLite. -/
def sqliteSchema : List String := [
  createTable "artists" [
    "id BLOB PRIMARY KEY NOT NULL",
    "name TEXT NOT NULL",
    "created_at INTEGER NOT NULL"],
  createTable "albums" [
    "id BLOB PRIMARY KEY NOT NULL",
    "artist_id BLOB NOT NULL REFERENCES artists(id)",
    "title TEXT NOT NULL",
    "year INTEGER"],
  createTable "tracks" [
    "id BLOB PRIMARY KEY NOT NULL",
    "album_id BLOB NOT NULL REFERENCES albums(id)",
    "title TEXT NOT NULL",
    "track_number INTEGER NOT NULL",
    "duration_ms INTEGER",
    "explicit INTEGER NOT NULL DEFAULT 0"],
  createTable "playlists" [
    "id BLOB PRIMARY KEY NOT NULL",
    "name TEXT NOT NULL"],
  createTable "playlist_tracks" [
    "playlist_id BLOB NOT NULL REFERENCES playlists(id) ON DELETE CASCADE",
    "track_id BLOB NOT NULL REFERENCES tracks(id) ON DELETE CASCADE",
    "position INTEGER NOT NULL",
    "PRIMARY KEY (playlist_id, position)"],
  createIndex "idx_tracks_album" "tracks" "album_id",
  createIndex "idx_albums_artist" "albums" "artist_id"]

/-- The statements for MySQL, which declares indices within tables. -/
def mysqlSchema : List String := [
  createTable "artists" [
    "id BINARY(16) PRIMARY KEY NOT NULL",
    "name VARCHAR(255) NOT NULL",
    "created_at BIGINT NOT NULL"],
  createTable "albums" [
    "id BINARY(16) PRIMARY KEY NOT NULL",
    "artist_id BINARY(16) NOT NULL",
    "title VARCHAR(255) NOT NULL",
    "year INT NULL",
    "INDEX idx_albums_artist (artist_id)",
    "FOREIGN KEY (artist_id) REFERENCES artists(id)"],
  createTable "tracks" [
    "id BINARY(16) PRIMARY KEY NOT NULL",
    "album_id BINARY(16) NOT NULL",
    "title VARCHAR(255) NOT NULL",
    "track_number INT NOT NULL",
    "duration_ms BIGINT NULL",
    "explicit BOOLEAN NOT NULL DEFAULT FALSE",
    "INDEX idx_tracks_album (album_id)",
    "FOREIGN KEY (album_id) REFERENCES albums(id)"],
  createTable "playlists" [
    "id BINARY(16) PRIMARY KEY NOT NULL",
    "name VARCHAR(255) NOT NULL"],
  createTable "playlist_tracks" [
    "playlist_id BINARY(16) NOT NULL",
    "track_id BINARY(16) NOT NULL",
    "position INT NOT NULL",
    "PRIMARY KEY (playlist_id, position)",
    "FOREIGN KEY (playlist_id) REFERENCES playlists(id) ON DELETE CASCADE",
    "FOREIGN KEY (track_id) REFERENCES tracks(id) ON DELETE CASCADE"]]

/-- The statements that create the tables. Dialects other than MySQL take those for SQLite. -/
def schema (d : Dialect) : List String :=
  if d.name = Dialect.mysql.name then mysqlSchema else sqliteSchema

end Discography.Catalogue
