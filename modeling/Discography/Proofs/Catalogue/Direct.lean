import Discography.Proofs.Catalogue.Relations
import Discography.Proofs.Database.Direct

/-!
# Changes of the catalogue, without their SQL

What the operations that change the catalogue do to a store that keeps to the schema. The sessions
of the catalogue, run with a server that reads their statements, do the same.

## Main definitions

* `Catalogue.Change`: the operations; `Catalogue.Change.session` are their sessions
* `Catalogue.Change.direct`: what they do to a store
* `Catalogue.history`: several of them, one after the other

## Main results

* `Catalogue.Change.simulates`: the sessions do the same
* `Catalogue.state_history`: so do several of them
-/

namespace Discography.Catalogue

variable {σ ι : Type}

/-! ### Operations -/

/-- An operation that changes the catalogue. -/
inductive Change where
  | addArtist (name : String)
  | renameArtist (artist : Identifier) (name : String)
  | addAlbum (artist : Identifier) (draft : NewAlbum) (drafts : List NewTrack)
  | createPlaylist (name : String)
  | append (playlist track : Identifier)
  | deleteAlbum (album : Identifier)

namespace Change

/-- What an operation returns. -/
abbrev Result : Change → Type
  | addArtist _ => Artist
  | renameArtist _ _ => Unit
  | addAlbum _ _ _ => Album
  | createPlaylist _ => Playlist
  | append _ _ => UInt64
  | deleteAlbum _ => Unit

/-- The session of an operation. -/
def session (c : Catalogue σ) : (change : Change) → Session σ Error change.Result
  | addArtist name => c.addArtist name
  | renameArtist artist name => c.renameArtist artist name
  | addAlbum artist draft drafts => c.addAlbum artist draft drafts
  | createPlaylist name => c.createPlaylist name
  | append playlist track => c.append playlist track
  | deleteAlbum album => c.deleteAlbum album

end Change

/-! ### What they do to a store -/

/-- Inserts rows into a relation. -/
def insertRows (r : Relation) (rows : List Assignments) : Direct relations ι Outcome :=
  .change (·.insert r.name (rows.map fun row => r.tuple row.get?))

/-- Deletes the rows of a relation in which a column has an identifier. -/
def deleteRows (r : Relation) (column : String) (id : Identifier) : Direct relations ι Outcome :=
  .change (·.delete r.name (Tuple.hasId column id))

/-- The entries of a playlist, in the order of their insertion. -/
def entries (s : Store relations) (playlist : Identifier) : List Tuple :=
  (s.contents entryRelation.name).filter (Tuple.hasId "playlist_id" playlist)

/-- Counts the entries of a playlist. -/
def countEntries (playlist : Identifier) : Direct relations ι UInt64 := do
  let rows ← Direct.look fun s => .ok [[.integer (Int64.ofNat (entries s playlist).length)]]
  Direct.ofExcept (Query.countOf rows)

/-- What an operation does to a store. -/
def Change.direct (ids : Identifier.Source ι Error) :
    (change : Change) → Direct relations ι change.Result
  | addArtist name => do
    Direct.ofExcept (requireText "name" name)
    let id ← Direct.draw ids
    let artist : Artist := ⟨id, name, Int64.ofNat id.timestamp⟩
    let _ ← insertRows artistRelation [artist.row]
    return artist
  | renameArtist artist name => do
    Direct.ofExcept (requireText "name" name)
    let outcome ← Direct.change
      (·.update artistRelation.name (Tuple.hasId "id" artist) [("name", .text name)])
    if outcome.rowsAffected = 0 then throw (.notFound .artist artist)
  | addAlbum artist draft drafts => do
    Direct.ofExcept draft.validate
    Direct.ofExcept (drafts.forM NewTrack.validate)
    let album := draft.withId (← Direct.draw ids) artist
    let added ← drafts.mapM fun draft => do return draft.withId (← Direct.draw ids) album.id
    Direct.atomically do
      let _ ← insertRows albumRelation [album.row]
      if added.isEmpty then pure () else let _ ← insertRows trackRelation (added.map Track.row)
    return album
  | createPlaylist name => do
    Direct.ofExcept (requireText "name" name)
    let playlist : Playlist := ⟨← Direct.draw ids, name⟩
    let _ ← insertRows playlistRelation [playlist.row]
    return playlist
  | append playlist track => Direct.atomically do
    let position ← countEntries playlist
    let _ ← insertRows entryRelation [Playlist.entryRow playlist track position.toInt64]
    return position
  | deleteAlbum album => do
    let _ ← Direct.atomically do
      let removed ← deleteRows trackRelation "album_id" album
      let outcome ← deleteRows albumRelation "id" album
      if outcome.rowsAffected = 0 then throw (.notFound .album album)
      else return removed.rowsAffected

/-! ### Sessions -/

/-- The catalogue in a server. -/
def served (d : Dialect) (ids : Identifier.Source ι Error) : Catalogue (Server relations ι) :=
  ⟨Server.connection relations d ids false, d⟩

/-- The rows of tracks whose identifiers are drawn. -/
theorem mapM_row {m : Type → Type} [Monad m] [LawfulMonad m] (draw : m Identifier)
    (album : Identifier) (drafts : List NewTrack) :
    (drafts.mapM fun draft => do return (draft.withId (← draw) album).row) =
      List.map Track.row <$> drafts.mapM fun draft => do return draft.withId (← draw) album := by
  induction drafts with
  | nil => simp
  | cons draft drafts ih =>
    rw [List.mapM_cons, List.mapM_cons, ih]
    simp only [bind_assoc, pure_bind, map_bind, bind_map_left, map_pure, List.map_cons]

section simulates

variable {d : Dialect} (hd : d.Lexical) (hrows : d.PlainRows) (ids : Identifier.Source ι Error)
  {inTransaction : Bool}

include hd in
theorem simulates_insertMany {r : Relation} {segments columns : List String}
    {rows : List Assignments} (h : Query.Uniform r.table columns rows)
    (horigin : r.table.origin = .path segments)
    (hr : Store.relation? relations (Token.path segments) = some r) {sql : Sql}
    (hsql : (Query.ofTable d r.table).insertMany rows = .ok ⟨[sql]⟩) :
    ((⟨[sql]⟩ : Statement).execute (Server.connection relations d ids inTransaction)).Simulates
      inTransaction (insertRows r rows) := by
  have hexecute : (fun s : Store relations => s.execute d sql.text) =
      fun s => s.insert r.name (rows.map fun row => r.tuple row.get?) :=
    funext fun s => h.execute hd horigin hr hsql s
  rw [insertRows, ← hexecute]
  exact Server.simulates_execute d ids inTransaction sql

include hd in
/-- What comes behind the insertion of a row. -/
theorem simulates_insert_bind {r : Relation} {segments columns : List String} {row : Assignments}
    (h : Query.Uniform r.table columns [row]) (horigin : r.table.origin = .path segments)
    (hr : Store.relation? relations (Token.path segments) = some r) {α : Type}
    {f : Session (Server relations ι) Error α} {g : Direct relations ι α}
    (hf : f.Simulates inTransaction g) :
    (do
      let s ← Session.ofExcept ((Query.ofTable d r.table).insert row)
      let _ ← s.execute (Server.connection relations d ids inTransaction)
      f : Session (Server relations ι) Error α).Simulates inTransaction
      (do let _ ← insertRows r [row]; g) := by
  obtain ⟨sql, hsql⟩ := h.exists_insertMany d
  have hinsert : (Query.ofTable d r.table).insert row = .ok ⟨[sql]⟩ := hsql
  rw [hinsert, Session.ofExcept_ok_bind]
  exact (simulates_insertMany hd ids h horigin hr hsql).bind fun _ => hf

include hd in
theorem simulates_addArtist (name : String) :
    ((served d ids).addArtist name).Simulates false ((Change.addArtist name).direct ids) := by
  simp only [addArtist, insertRow, bind_assoc, pure_bind]
  refine (Session.simulates_ofExcept _).bind fun _ => ?_
  refine (Server.simulates_nextIdentifier d ids false).bind fun id => ?_
  refine simulates_insert_bind (r := artistRelation) hd ids (uniform_artist _) rfl rfl ?_
  exact (Session.simulates_pure _).report_bind _

include hd in
theorem simulates_createPlaylist (name : String) :
    ((served d ids).createPlaylist name).Simulates false
      ((Change.createPlaylist name).direct ids) := by
  simp only [createPlaylist, insertRow, bind_assoc, pure_bind]
  refine (Session.simulates_ofExcept _).bind fun _ => ?_
  refine (Server.simulates_nextIdentifier d ids false).bind fun id => ?_
  refine simulates_insert_bind (r := playlistRelation) hd ids (uniform_playlist _) rfl rfl ?_
  exact Session.simulates_pure _

include hd hrows in
theorem simulates_renameArtist (artist : Identifier) (name : String) :
    ((served d ids).renameArtist artist name).Simulates false
      ((Change.renameArtist artist name).direct ids) := by
  obtain ⟨sql, hsql⟩ : ∃ sql, (idQuery d artists (plain "id" .binary) artist).update
    (.ofList [("name", toValue name)]) = .ok ⟨[sql]⟩ := ⟨_, rfl⟩
  have hquery : rowsWith (served d ids).dialect artists "id" artist =
      .ok (idQuery d artists (plain "id" .binary) artist) := rfl
  have hexecute : (fun s : Store relations => s.execute d sql.text) =
      fun s => s.update artistRelation.name (Tuple.hasId "id" artist) [("name", .text name)] :=
    funext fun s => execute_update (r := artistRelation) hd hrows rfl rfl hsql s
  refine (Session.simulates_ofExcept _).bind fun _ => ?_
  rw [hquery, Session.ofExcept_ok_bind, hsql, Session.ofExcept_ok_bind, ← hexecute]
  refine (Server.simulates_execute d ids false sql).bind fun outcome => ?_
  split
  · exact Session.simulates_fail _
  · exact Session.simulates_pure ()

include hd hrows in
/-- Deleting rows, by the statement for it. -/
theorem simulates_delete {r : Relation} {segments : List String} {a : Attribute} {id : Identifier}
    (horigin : r.table.origin = .path segments)
    (hr : Store.relation? relations (Token.path segments) = some r) {sql : Sql}
    (hsql : (idQuery d r.table a id).delete = .ok ⟨[sql]⟩) :
    ((⟨[sql]⟩ : Statement).execute (Server.connection relations d ids inTransaction)).Simulates
      inTransaction (deleteRows r a.name id) := by
  have hexecute : (fun s : Store relations => s.execute d sql.text) =
      fun s => s.delete r.name (Tuple.hasId a.name id) :=
    funext fun s => execute_delete hd hrows horigin hr hsql s
  rw [deleteRows, ← hexecute]
  exact Server.simulates_execute d ids inTransaction sql

include hd hrows in
theorem simulates_deleteAlbum (album : Identifier) :
    ((served d ids).deleteAlbum album).Simulates false ((Change.deleteAlbum album).direct ids) := by
  obtain ⟨tracksSql, htracks⟩ := exists_delete_tracks d album
  obtain ⟨albumSql, halbum⟩ := exists_delete_album d album
  have hdeleteTracks : deleteWith (served d ids).dialect tracks "album_id" album =
    .ok ⟨[tracksSql]⟩ := htracks
  have hdeleteAlbum : deleteWith (served d ids).dialect albums "id" album =
    .ok ⟨[albumSql]⟩ := halbum
  rw [deleteWith] at hdeleteTracks hdeleteAlbum
  rw [deleteAlbum, hdeleteTracks, Session.ofExcept_ok_bind, hdeleteAlbum, Session.ofExcept_ok_bind]
  refine (Server.simulates_transaction d ids ?_).bind fun removed => Session.simulates_report _
  refine (simulates_delete (r := trackRelation) hd hrows ids rfl rfl htracks).bind fun removed => ?_
  refine (simulates_delete (r := albumRelation) hd hrows ids rfl rfl halbum).bind fun outcome => ?_
  split
  · exact Session.simulates_fail _
  · exact Session.simulates_pure _

/-- The column for the playlist of an entry. -/
def playlistAttribute : Attribute := (plain "playlist_id" .binary).referring "playlists" "id"

include hd hrows in
theorem simulates_countEntries (playlist : Identifier) :
    ((idQuery d playlistTracks playlistAttribute playlist).count
      (Server.connection relations d ids inTransaction)).Simulates inTransaction
      (countEntries playlist) := by
  obtain ⟨sql, hsql⟩ : ∃ sql, (idQuery d playlistTracks playlistAttribute playlist).renderCount =
    .ok sql := ⟨_, rfl⟩
  have hquery : (fun s : Store relations => s.query d sql.text) =
      fun s => .ok [[.integer (Int64.ofNat (entries s playlist).length)]] :=
    funext fun s => query_count (r := entryRelation) hd hrows rfl rfl hsql s
  rw [Query.count, hsql, Session.ofExcept_ok_bind, countEntries, ← hquery]
  refine Session.Simulates.report_bind ?_ _
  exact (Server.simulates_query d ids inTransaction sql.text).bind fun rows =>
    Session.simulates_ofExcept _

include hd hrows in
theorem simulates_append (playlist track : Identifier) :
    ((served d ids).append playlist track).Simulates false
      ((Change.append playlist track).direct ids) := by
  have hquery : rowsWith (served d ids).dialect playlistTracks "playlist_id" playlist =
      .ok (idQuery d playlistTracks playlistAttribute playlist) := rfl
  rw [append, hquery, Session.ofExcept_ok_bind]
  refine Server.simulates_transaction d ids ?_
  refine (simulates_countEntries hd hrows ids playlist).bind fun position => ?_
  refine simulates_insert_bind (r := entryRelation) hd ids (uniform_entry _ _ _) rfl rfl ?_
  exact Session.simulates_pure position

include hd in
/-- The statements of an addition, in a transaction. -/
theorem simulates_insertBoth {album : Album} {added : List Track} {albumSql : Sql}
    (tracksSql : Option Sql)
    (halbum : (Query.ofTable d albums).insertMany [album.row] = .ok ⟨[albumSql]⟩)
    (htracks : ∀ sql ∈ tracksSql,
      (Query.ofTable d tracks).insertMany (added.map Track.row) = .ok ⟨[sql]⟩)
    (hsome : tracksSql.isSome = !added.isEmpty) :
    (do
      let _ ← (⟨[albumSql]⟩ : Statement).execute (Server.connection relations d ids true)
      match tracksSql.map fun sql => (⟨[sql]⟩ : Statement) with
      | some s => let _ ← s.execute (Server.connection relations d ids true)
      | none => pure () : Session (Server relations ι) Error Unit).Simulates true (do
        let _ ← insertRows albumRelation [album.row]
        if added.isEmpty then pure ()
        else let _ ← insertRows trackRelation (added.map Track.row)) := by
  refine (simulates_insertMany (r := albumRelation) hd ids (uniform_album album) rfl rfl
    halbum).bind fun _ => ?_
  cases tracksSql with
  | none =>
    rw [if_pos (by simpa using hsome.symm)]
    exact Session.simulates_pure ()
  | some sql =>
    have hadded : ¬added.isEmpty = true := by simpa using hsome.symm
    have hne : added ≠ [] := by simpa using hadded
    rw [if_neg hadded]
    exact (simulates_insertMany (r := trackRelation) hd ids (uniform_tracks hne) rfl rfl
      (htracks sql rfl)).bind fun _ => Session.simulates_pure ()

include hd in
theorem simulates_addAlbum (artist : Identifier) (draft : NewAlbum) (drafts : List NewTrack) :
    ((served d ids).addAlbum artist draft drafts).Simulates false
      ((Change.addAlbum artist draft drafts).direct ids) := by
  refine (Session.simulates_ofExcept _).bind fun _ => ?_
  refine (Session.simulates_ofExcept _).bind fun _ => ?_
  refine (Server.simulates_nextIdentifier d ids false).bind fun id => ?_
  obtain ⟨albumSql, halbum⟩ := (uniform_album (draft.withId id artist)).exists_insertMany d
  have hinsertAlbum : (Query.ofTable (served d ids).dialect albums).insert
    (draft.withId id artist).row = .ok ⟨[albumSql]⟩ := halbum
  dsimp only
  rw [hinsertAlbum, Session.ofExcept_ok_bind, mapM_row, bind_map_left]
  have hdraw : ∀ track : NewTrack, (do
      return track.withId (← (served d ids).conn.nextIdentifier) id :
        Session (Server relations ι) Error Track).Simulates false
      (do return track.withId (← Direct.draw ids) id) := fun track =>
    (Server.simulates_nextIdentifier d ids false).bind fun id' => Session.simulates_pure _
  refine (Session.Simulates.mapM hdraw drafts).bind fun added => ?_
  by_cases hadded : added = []
  · subst hadded
    refine (Server.simulates_transaction d ids ?_).bind fun _ =>
      (Session.simulates_pure (draft.withId id artist)).report_bind _
    exact simulates_insertBoth hd ids none halbum (by simp) rfl
  · obtain ⟨tracksSql, htracks⟩ := (uniform_tracks hadded).exists_insertMany d
    have hinsertTracks : (Query.ofTable (served d ids).dialect tracks).insertMany
      (added.map Track.row) = .ok ⟨[tracksSql]⟩ := htracks
    have hrows : ¬(added.map Track.row).isEmpty = true := by simpa using hadded
    rw [if_neg hrows, hinsertTracks, Session.map_ofExcept]
    refine (Server.simulates_transaction d ids ?_).bind fun _ =>
      (Session.simulates_pure (draft.withId id artist)).report_bind _
    exact simulates_insertBoth hd ids (some tracksSql) halbum (by simpa using htracks)
      (by simpa using hadded)

include hd hrows in
/-- **The sessions of the catalogue do what they are to do to the store.** -/
theorem Change.simulates (change : Change) :
    (change.session (served d ids)).Simulates false (change.direct ids) := by
  cases change with
  | addArtist name => exact simulates_addArtist hd ids name
  | renameArtist artist name => exact simulates_renameArtist hd hrows ids artist name
  | addAlbum artist draft drafts => exact simulates_addAlbum hd ids artist draft drafts
  | createPlaylist name => exact simulates_createPlaylist hd ids name
  | append playlist track => exact simulates_append hd hrows ids playlist track
  | deleteAlbum album => exact simulates_deleteAlbum hd hrows ids album

end simulates

/-! ### Histories -/

/-- The world behind operations that run one after the other, whether they succeed or not. -/
def history (c : Catalogue σ) (changes : List Change) (w : World σ) : World σ :=
  changes.foldl (fun w change => ((change.session c).run.run w).2) w

/-- What operations do to a store, one after the other. -/
def directHistory (ids : Identifier.Source ι Error) (changes : List Change)
    (x : State relations ι) : State relations ι :=
  changes.foldl (fun x change => ((change.direct ids).run.run x).2) x

theorem state_history {d : Dialect} (hd : d.Lexical) (hrows : d.PlainRows)
    (ids : Identifier.Source ι Error) (changes : List Change) (w : World (Server relations ι)) :
    (history (served d ids) changes w).state false =
      directHistory ids changes (w.state false) := by
  induction changes generalizing w with
  | nil => rfl
  | cons change changes ih =>
    obtain ⟨-, hstate, -⟩ := change.simulates hd hrows ids w
    rw [history, List.foldl_cons, ← history, ih, hstate]
    rfl

end Discography.Catalogue
