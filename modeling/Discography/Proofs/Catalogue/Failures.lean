import Discography.Proofs.Catalogue.Changes
import Discography.Proofs.Catalogue.Direct
import Discography.Proofs.Catalogue.Pages
import Discography.Proofs.Execution.Phases

/-!
# Failures of the catalogue

What the catalogue refuses, it refuses before it asks the database for anything, and a blank name or
a wrong number before it draws an identifier. Once the database was asked, only the database is to
blame: every statement that an operation needs can be written, also the entry of a playlist whose
position is known inside the transaction only.

Between the two stands the random source. Its errors are passed on as they are, whatever they are.
By its contract, it fails with errors of one kind only, which are no errors of the catalogue or of a
query; the source of the operating system keeps to it.

## Main definitions

* `Catalogue.Operation`: the operations; `Catalogue.Operation.session` are their sessions
* `Identifier.Source.FailsAsRandom`: the contract of random sources

## Main results

* `Identifier.Source.failsAsRandom_mapError`: sources that keep to their contract
* `Catalogue.Operation.checks`: the phases of each operation
* `Catalogue.Operation.fails_early`: what an error tells about what was done before
-/

namespace Discography

namespace Identifier.Source

/-- The contract of random sources, by section 4.1 of the specification: whatever a source fails
with, the error says that random bytes are missing. -/
def FailsAsRandom {σ : Type} (source : Source σ Error) : Prop :=
  ∀ cause, source.FailsWith cause → ∃ text, cause = .random text

/-- A source that has only a text for its failures, as that of the operating system, keeps to the
contract once the text is made an error. -/
theorem failsAsRandom_mapError {σ : Type} (source : Source σ String) :
    (source.mapError Error.random).FailsAsRandom := by
  rintro cause ⟨state, hcause⟩
  have hmapped : (source.noise state).1.mapError Error.random = .error cause := hcause
  cases hnoise : (source.noise state).1 with
  | ok noise =>
    rw [hnoise] at hmapped
    cases hmapped
  | error text =>
    rw [hnoise] at hmapped
    exact ⟨text, (Except.error.inj hmapped).symm⟩

end Identifier.Source

namespace Catalogue

open Session

variable {σ : Type}

/-! ### Operations -/

/-- An operation of the catalogue. -/
inductive Operation where
  | createSchema
  | change (change : Change)
  | findArtist (id : Identifier)
  | albumTracks (album : Identifier)
  | trackPage (r : PageRequest)
  | playlistListing (playlist : Identifier)

namespace Operation

/-- What an operation returns. -/
abbrev Result : Operation → Type
  | createSchema => Unit
  | change operation => operation.Result
  | findArtist _ => Option Artist
  | albumTracks _ => List TrackListing
  | trackPage _ => Page Track
  | playlistListing _ => List Track

/-- The session of an operation. -/
def session (c : Catalogue σ) : (op : Operation) → Session σ Error op.Result
  | createSchema => c.createSchema
  | change operation => operation.session c
  | findArtist id => c.findArtist id
  | albumTracks album => c.albumTracks album
  | trackPage r => c.trackPage r
  | playlistListing playlist => c.playlistListing playlist

end Operation

/-! ### Statements that can be written -/

/-- The query for a playlist, as it is built. -/
def listedQuery (d : Dialect) (playlist : Identifier) : Query :=
  { Query.ofTable d playlistTracks with
    joins := [⟨.inner, tracks, some (.compare
      (.column (playlistTracks.columnOf ((plain "track_id" .binary).referring "tracks" "id"))) .eq
      (.column (tracks.columnOf (plain "id" .binary))))⟩]
    filter := some (.compare
      (.column (playlistTracks.columnOf ((plain "playlist_id" .binary).referring "playlists" "id")))
        .eq (.literal (toValue playlist)))
    projection := some (.table tracks)
    order := [⟨.column (playlistTracks.columnOf (plain "position" .number)), none⟩]
    stage := .shaping }

theorem playlistQuery_eq (d : Dialect) (playlist : Identifier) :
    playlistQuery d playlist = .ok (listedQuery d playlist) := rfl

theorem exists_render_listedQuery (d : Dialect) (playlist : Identifier) :
    ∃ rendered, (listedQuery d playlist).render = .ok rendered := by
  have hfinite : (listedQuery d playlist).FiniteConditions := by
    constructor <;>
      simp [listedQuery, Predicate.IsFinite, Expression.IsFinite, Value.IsFinite, toValue]
  exact (Query.exists_render_iff hfinite).2 (by decide : Stage.shaping ≠ .joining)

theorem exists_render_artist (d : Dialect) (id : Identifier) :
    ∃ q rendered, rowsWith d artists "id" id = .ok q ∧ q.render = .ok rendered := ⟨_, _, rfl, rfl⟩

theorem exists_update_artist (d : Dialect) (id : Identifier) (name : String) :
    ∃ q s, rowsWith d artists "id" id = .ok q ∧
      q.update (.ofList [("name", toValue name)]) = .ok s := ⟨_, _, rfl, rfl⟩

/-! ### Arguments that are refused -/

theorem exists_input_of_requireText {field text : String} {cause : Error}
    (h : requireText field text = .error cause) : ∃ input, cause = .invalidInput input := by
  rw [requireText] at h
  split at h
  · obtain rfl := Except.error.inj h
    exact ⟨_, rfl⟩
  · cases h

theorem exists_input_of_validate_album {draft : NewAlbum} {cause : Error}
    (h : draft.validate = .error cause) : ∃ input, cause = .invalidInput input := by
  rw [NewAlbum.validate, Outcome.bind_eq_error] at h
  obtain htitle | ⟨_, -, hyear⟩ := h
  · exact exists_input_of_requireText htitle
  · split at hyear
    · cases hyear
    · split_ifs at hyear
      · cases hyear
      · obtain rfl := Except.error.inj hyear
        exact ⟨_, rfl⟩

theorem exists_input_of_validate_track {draft : NewTrack} {cause : Error}
    (h : draft.validate = .error cause) : ∃ input, cause = .invalidInput input := by
  rw [NewTrack.validate, Outcome.bind_eq_error] at h
  obtain htitle | ⟨_, -, hnumbers⟩ := h
  · exact exists_input_of_requireText htitle
  · split_ifs at hnumbers
    · obtain rfl := Except.error.inj hnumbers
      exact ⟨_, rfl⟩
    · obtain rfl := Except.error.inj hnumbers
      exact ⟨_, rfl⟩
    · cases hnumbers

/-! ### The phases of each operation -/

variable (c : Catalogue σ)

theorem asks_createSchema : c.recorded.createSchema.Asks c.conn.host := by
  refine Asks.bind (asks_forM (fun text => ?_) _) fun _ => asks_report _
  exact asks_perform_bind c.conn fun _ => asks_pure ()

theorem asks_insertRow {t : Table} {row : Assignments} {s : Statement}
    (hs : (Query.ofTable c.dialect t).insert row = .ok s) :
    (c.recorded.insertRow t row).Asks c.conn.host := by
  have hinsert : c.recorded.insertRow t row = (do let _ ← s.execute c.conn.recorded) := by
    rw [insertRow, recorded, hs, ofExcept_ok_bind]
  rw [hinsert]
  exact (s.asks_execute c.conn).bind fun _ => asks_pure ()

theorem checks_addArtist (name : String) : (c.recorded.addArtist name).Checks c.conn.host := by
  refine Checks.ofExcept_bind (fun _ => exists_input_of_requireText) fun _ _ =>
    Draws.checks (h := c.conn.host) ?_
  refine draws_nextIdentifier_bind c.conn fun id => Asks.draws ?_
  obtain ⟨sql, hsql⟩ :=
    (uniform_artist ⟨id, name, Int64.ofNat id.timestamp⟩).exists_insertMany c.dialect
  exact (c.asks_insertRow hsql).bind fun _ => (asks_report _).bind fun _ => asks_pure _

theorem checks_createPlaylist (name : String) :
    (c.recorded.createPlaylist name).Checks c.conn.host := by
  refine Checks.ofExcept_bind (fun _ => exists_input_of_requireText) fun _ _ =>
    Draws.checks (h := c.conn.host) ?_
  refine draws_nextIdentifier_bind c.conn fun id => Asks.draws ?_
  obtain ⟨sql, hsql⟩ := (uniform_playlist ⟨id, name⟩).exists_insertMany c.dialect
  exact (c.asks_insertRow hsql).bind fun _ => asks_pure _

theorem checks_renameArtist (artist : Identifier) (name : String) :
    (c.recorded.renameArtist artist name).Checks c.conn.host := by
  refine Checks.ofExcept_bind (fun _ => exists_input_of_requireText) fun _ _ =>
    Draws.checks (h := c.conn.host) ?_
  obtain ⟨q, s, hq, hs⟩ := exists_update_artist c.dialect artist name
  rw [recorded, hq, ofExcept_ok_bind, hs, ofExcept_ok_bind]
  refine ((s.asks_execute c.conn).bind fun outcome => ?_).draws
  split
  · exact asks_fail trivial
  · exact asks_pure ()

/-- The statements of an addition are there before the transaction begins. -/
theorem asks_insertBoth (insertAlbum : Statement) (insertTracks : Option Statement) (e : Log.Event)
    (album : Album) :
    (do
      c.conn.recorded.transaction fun tx => do
        let _ ← insertAlbum.execute tx
        match insertTracks with
        | some s => let _ ← s.execute tx
        | none => pure ()
      report e
      return album : Session (σ × Transcript) Error Album).Asks c.conn.host := by
  refine Asks.bind (Asks.transaction c.conn ?_) fun _ => (asks_report e).bind fun _ => asks_pure _
  refine (insertAlbum.asks_execute c.conn.inside).bind fun _ => ?_
  cases insertTracks with
  | none => exact asks_pure ()
  | some s => exact (s.asks_execute c.conn.inside).bind fun _ => asks_pure ()

theorem checks_addAlbum (artist : Identifier) (draft : NewAlbum) (drafts : List NewTrack) :
    (c.recorded.addAlbum artist draft drafts).Checks c.conn.host := by
  refine Checks.ofExcept_bind (fun _ => exists_input_of_validate_album) fun _ _ => ?_
  refine Checks.ofExcept_bind (fun cause hcause => ?_) fun _ _ => Draws.checks (h := c.conn.host) ?_
  · obtain ⟨track, -, hrefused⟩ := Outcome.exists_of_forM_eq_error hcause
    exact exists_input_of_validate_track hrefused
  refine draws_nextIdentifier_bind c.conn fun id => ?_
  obtain ⟨sql, hsql⟩ := (uniform_album (draft.withId id artist)).exists_insertMany c.dialect
  have halbum : (Query.ofTable c.recorded.dialect albums).insert (draft.withId id artist).row =
      .ok ⟨[sql]⟩ := hsql
  dsimp only
  rw [halbum, ofExcept_ok_bind]
  -- the rows of all tracks are one step of drawing, whichever identifier of it fails
  refine Draws.of_drawn_bind (P := fun rows => ∃ added : List Track, rows = added.map Track.row)
    ((conforms_mapM_row c.conn _ drafts).mono ?_) fun rows hrows => Asks.draws ?_
  · rintro t r ⟨rfl, ⟨ids, -, rfl⟩ | hfails⟩
    · exact ⟨rfl, .inl ⟨_, rfl, _, rfl⟩⟩
    · exact ⟨rfl, .inr hfails⟩
  obtain ⟨added, hrows⟩ := hrows
  split
  · exact (asks_pure none).bind fun insertTracks => c.asks_insertBoth _ insertTracks _ _
  · rename_i hsome
    -- rows of a table can be written if there are any
    have hne : added ≠ [] := by
      rintro rfl
      exact hsome (by rw [hrows]; rfl)
    obtain ⟨tracksSql, htracks⟩ := (uniform_tracks hne).exists_insertMany c.dialect
    have hinsert : (Query.ofTable c.recorded.dialect tracks).insertMany rows = .ok ⟨[tracksSql]⟩ :=
      hrows ▸ htracks
    rw [hinsert]
    exact (asks_pure _).bind fun insertTracks => c.asks_insertBoth _ insertTracks _ _

theorem asks_deleteAlbum (album : Identifier) :
    (c.recorded.deleteAlbum album).Asks c.conn.host := by
  obtain ⟨tracksSql, htracks⟩ := exists_delete_tracks c.dialect album
  obtain ⟨albumSql, halbum⟩ := exists_delete_album c.dialect album
  rw [deleteWith] at htracks halbum
  rw [deleteAlbum, recorded, htracks, ofExcept_ok_bind, halbum, ofExcept_ok_bind]
  refine Asks.bind (Asks.transaction c.conn ?_) fun _ => asks_report _
  refine (Statement.asks_execute c.conn.inside _).bind fun _ => ?_
  refine (Statement.asks_execute c.conn.inside _).bind fun _ => ?_
  split
  · exact asks_fail trivial
  · exact asks_pure _

/-- The statement for the entry is written inside the transaction, since the position is not known
before, but it can be written for every position. -/
theorem asks_append (playlist track : Identifier) :
    (c.recorded.append playlist track).Asks c.conn.host := by
  obtain ⟨q, countSql, hq, hcount⟩ := exists_count c.dialect playlist
  rw [append, recorded, hq, ofExcept_ok_bind]
  refine Asks.transaction c.conn ((Query.asks_count c.conn.inside hcount).bind fun position => ?_)
  obtain ⟨sql, hsql⟩ :=
    (uniform_entry playlist track position.toInt64).exists_insertMany c.dialect
  refine Asks.bind (asks_ofExcept fun cause hcause => ?_) fun s => ?_
  · cases hsql.symm.trans hcause
  · exact (s.asks_execute c.conn.inside).bind fun _ => asks_pure position

theorem asks_findArtist (id : Identifier) : (c.recorded.findArtist id).Asks c.conn.host := by
  obtain ⟨q, rendered, hq, hrendered⟩ := exists_render_artist c.dialect id
  rw [findArtist, recorded, hq, ofExcept_ok_bind]
  exact (Query.asks_fetchAs c.conn hrendered).bind fun _ => asks_pure _

theorem asks_albumTracks (album : Identifier) :
    (c.recorded.albumTracks album).Asks c.conn.host := by
  obtain ⟨rendered, hrendered⟩ := exists_render_listing c.dialect album
  rw [albumTracks, recorded, listingQuery_eq, ofExcept_ok_bind]
  exact Query.asks_fetchAs c.conn hrendered

theorem asks_playlistListing (playlist : Identifier) :
    (c.recorded.playlistListing playlist).Asks c.conn.host := by
  obtain ⟨rendered, hrendered⟩ := exists_render_listedQuery c.dialect playlist
  rw [playlistListing, recorded, playlistQuery_eq, ofExcept_ok_bind]
  exact Query.asks_fetchAs c.conn hrendered

/-- The query for a page is built behind the count, and it can be written for every page. -/
theorem asks_trackPage (r : PageRequest) : (c.recorded.trackPage r).Asks c.conn.host := by
  obtain ⟨sql, hsql⟩ : ∃ sql, (Query.ofTable c.dialect tracks).renderCount = .ok sql := ⟨_, rfl⟩
  obtain ⟨rendered, hrendered⟩ := exists_render_pageQuery c.dialect r
  refine (Query.asks_count c.conn hsql).bind fun total => ?_
  rw [recorded, trackPageQuery_eq, ofExcept_ok_bind]
  exact (Query.asks_fetchAs c.conn hrendered).bind fun items =>
    (asks_report _).bind fun _ => asks_pure _

/-! ### All operations -/

/-- Every operation keeps to the order of the phases. -/
theorem Operation.checks (op : Operation) : (op.session c.recorded).Checks c.conn.host := by
  cases op with
  | createSchema => exact c.asks_createSchema.draws.checks
  | findArtist id => exact (c.asks_findArtist id).draws.checks
  | albumTracks album => exact (c.asks_albumTracks album).draws.checks
  | trackPage r => exact (c.asks_trackPage r).draws.checks
  | playlistListing playlist => exact (c.asks_playlistListing playlist).draws.checks
  | change change =>
    cases change with
    | addArtist name => exact c.checks_addArtist name
    | renameArtist artist name => exact c.checks_renameArtist artist name
    | addAlbum artist draft drafts => exact c.checks_addAlbum artist draft drafts
    | createPlaylist name => exact c.checks_createPlaylist name
    | append playlist track => exact (c.asks_append playlist track).draws.checks
    | deleteAlbum album => exact (c.asks_deleteAlbum album).draws.checks

/-- **Early failures touch nothing.** Whatever an operation is asked for and whatever the host does,
there are three ways for it to fail. It refuses an argument, and then nothing has happened at all:
no call, no identifier, no event. Or the random source has failed, for any of the identifiers, and
then no call was made and its error is passed on. Or the database is to blame; after a call, and so
inside a transaction, it always is. With a random source that keeps to its contract, an operation
does not fail because a query was misused, cannot be written or is not supported, and an argument
was refused if the error says so. -/
theorem Operation.fails_early (op : Operation) (w : World (σ × Transcript)) :
    let ended := (op.session c.recorded).run.run w
    ∃ t, ended.2.host.2 = w.host.2 ++ t ∧ c.conn.host.Gives w.host.1 t ended.2.host.1 ∧
      ∀ cause, ended.1 = .error (.error cause) →
        ((∃ input, cause = .invalidInput input) ∧ ended.2 = w ∨
          c.conn.host.ids.FailsWith cause ∧ t = [] ∨ cause.FromDatabase) ∧
        (t ≠ [] → cause.FromDatabase) ∧ (∀ text, cause = .random text → t = []) ∧
        (c.conn.host.ids.FailsAsRandom →
          (∀ misuse, cause ≠ .misuse misuse) ∧ (∀ gap, cause ≠ .unsupported gap) ∧
          (∀ real, cause ≠ .noLiteral real) ∧
          (∀ input, cause = .invalidInput input → ended.2 = w)) := by
  intro ended
  obtain ⟨t, ht, hgives, hcause⟩ := op.checks c w
  refine ⟨t, ht, hgives, fun cause hended => ⟨hcause cause hended, ?_⟩⟩
  rcases hcause cause hended with ⟨⟨input, rfl⟩, hw⟩ | ⟨hfails, hnone⟩ | hdatabase
  · have hnone : t = [] := by
      have hsame : w.host.2 = w.host.2 ++ t := (congrArg (·.host.2) hw).symm.trans ht
      simpa using hsame
    exact ⟨fun hcalls => absurd hnone hcalls, nofun,
      fun _ => ⟨nofun, nofun, nofun, fun _ _ => hw⟩⟩
  · refine ⟨fun hcalls => absurd hnone hcalls, fun _ _ => hnone, fun hcontract => ?_⟩
    obtain ⟨text, rfl⟩ := hcontract cause hfails
    exact ⟨nofun, nofun, nofun, nofun⟩
  · refine ⟨fun _ => hdatabase, ?_, fun _ => ⟨?_, ?_, ?_, ?_⟩⟩ <;> rintro _ rfl <;>
      exact hdatabase.elim

/-- A source of random bytes that has them twice. -/
def twice : Identifier.Source Nat String where
  now n := (Int64.ofNat n, n)
  noise n := (if n < 2 then .ok ⟨List.replicate 10 7, rfl⟩ else .error "drained", n + 1)

/-- A catalogue with such a source, whose database refuses every call. -/
def drained : Catalogue Nat where
  conn.host :=
    { answer := fun _ n => (.error .transactionClosed, n)
      ids := twice.mapError .random }
  dialect := .sqlite

/-- The addition of an album with two tracks. -/
def addition : Operation := .change (.addAlbum ⟨List.replicate 16 0, rfl⟩ ⟨"Kind of Blue", none⟩
  [⟨"So What", 1, none, false⟩, ⟨"Blue in Green", 3, none, false⟩])

/-- The random source fails for the second track, when the album and the first track have their
identifiers. -/
theorem Operation.fails_early_drained :
    let ended := (addition.session drained.recorded).run.run { host := (0, []) }
    drained.conn.host.ids.FailsAsRandom ∧ ended.1 = .error (.error (.random "drained")) ∧
      (∀ misuse, Error.random "drained" ≠ .misuse misuse) ∧
      ended.2.host.1 = 3 ∧ ended.2.host.2 = [] := by
  have hcontract : drained.conn.host.ids.FailsAsRandom := twice.failsAsRandom_mapError
  have hended : ((addition.session drained.recorded).run.run { host := (0, []) }).1 =
      .error (.error (.random "drained")) := rfl
  obtain ⟨t, ht, -, hcause⟩ := addition.fails_early drained { host := (0, []) }
  obtain ⟨-, -, hrandom, htold⟩ := hcause _ hended
  obtain ⟨hnoMisuse, -⟩ := htold hcontract
  have hnone : t = [] := hrandom "drained" rfl
  rw [hnone] at ht
  exact ⟨hcontract, hended, hnoMisuse, rfl, ht⟩

/-- The contract is needed: the error of a source that breaks it is passed on, before any call. -/
example :
    let broken : Host Unit :=
      { answer := fun _ s => (.error .transactionClosed, s)
        ids := ⟨fun s => (0, s), fun s => (.error (.misuse (.stated "no bytes")), s)⟩ }
    let c : Catalogue Unit := ⟨⟨broken, false⟩, .sqlite⟩
    let ended := (c.recorded.addArtist "Miles Davis").run.run { host := ((), []) }
    ended.1 = .error (.error (.misuse (.stated "no bytes"))) ∧ ended.2.host.2 = [] :=
  ⟨rfl, rfl⟩

end Catalogue

end Discography
