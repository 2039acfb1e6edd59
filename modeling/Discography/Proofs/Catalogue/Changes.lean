import Discography.Proofs.Catalogue.Statements
import Discography.Proofs.Execution.Atomicity

/-!
# Changes of the catalogue take effect as a whole

The addition of an album, the deletion of an album and the appending to a playlist have several
statements each. Whatever the host replies to any of them, they open one transaction and end it, and
so either all that was to be written is written, or nothing is.

## Main definitions

* `Catalogue.Inserted`, `Catalogue.Deleted`, `Catalogue.Appended`: what happens in the transactions

## Main results

* `Catalogue.conforms_addAlbum`, `Catalogue.conforms_deleteAlbum`, `Catalogue.conforms_append`: the
  calls of the changes and their results
* `Catalogue.changes_atomic`: the changes are atomic
-/

namespace Discography

variable {σ δ : Type}

namespace Catalogue

/-- The catalogue in a database that keeps the transcript. -/
def recorded (c : Catalogue σ) : Catalogue (σ × Transcript) := ⟨c.conn.recorded, c.dialect⟩

/-! ### Deletion -/

/-- What is done for the deletion of an album, given the texts for its tracks and for itself. -/
inductive Deleted (album : Identifier) (texts : List String) :
    Transcript → Except (Stop Error) UInt64 → Prop
  | failed {t : Transcript} {failure : HostError} : Statement.Ran true texts t (.error failure) →
    Deleted album texts t (.error (.error (.host failure)))
  /-- There was no such album. -/
  | missing {t : Transcript} {removed outcome : Outcome} :
    Statement.Ran true texts t (.ok [removed, outcome]) → outcome.rowsAffected = 0 →
    Deleted album texts t (.error (.error (.notFound .album album)))
  | done {t : Transcript} {removed outcome : Outcome} :
    Statement.Ran true texts t (.ok [removed, outcome]) → outcome.rowsAffected ≠ 0 →
    Deleted album texts t (.ok removed.rowsAffected)

/-- The last statement of a deletion has to delete a row. -/
def deletesLast (outcomes : List Outcome) (_ : List (List Row)) : Prop :=
  ∀ last ∈ outcomes.getLast?, last.rowsAffected ≠ 0

theorem isWork_of_ran {texts : List String} {t : Transcript} {q : Except HostError (List Outcome)}
    (h : Statement.Ran true texts t q) : ∀ x ∈ t, x.isWork := by
  intro x hx
  obtain ⟨hinside, text, hrequest⟩ := h.calls x hx
  rw [Exchange.isWork, hinside, hrequest]
  rfl

theorem Deleted.worked {album : Identifier} {texts : List String} {t : Transcript}
    {r : Except (Stop Error) UInt64} (h : Deleted album texts t r) : Worked deletesLast t r := by
  cases h with
  | failed hran =>
    obtain ⟨-, hfailures, -⟩ := hran.of_error
    exact ⟨isWork_of_ran hran, by simp, by simp [hfailures]⟩
  | missing hran hnone =>
    obtain ⟨houtcomes, -, hfailures, -⟩ := hran.of_ok
    exact ⟨isWork_of_ran hran, by simp, by simp [houtcomes, hfailures, deletesLast, hnone]⟩
  | done hran hsome =>
    obtain ⟨houtcomes, -, hfailures, -⟩ := hran.of_ok
    exact ⟨isWork_of_ran hran, by simp, by simp [houtcomes, hfailures, deletesLast, hsome]⟩

theorem conforms_deleteBoth (conn : Connection σ) (hinside : conn.inTransaction = true)
    (album : Identifier) (tracksSql albumSql : Sql) :
    (do
      let removed ← (⟨[tracksSql]⟩ : Statement).execute conn.recorded
      let outcome ← (⟨[albumSql]⟩ : Statement).execute conn.recorded
      if outcome.rowsAffected = 0 then Session.fail (.notFound .album album)
      else return removed.rowsAffected : Session (σ × Transcript) Error UInt64).Conforms conn.host
      (Deleted album [tracksSql.text, albumSql.text]) := by
  refine Statement.conforms_execute_single_bind conn (fun removed => ?_) fun failure => ?_
  · refine Statement.conforms_execute_single_bind conn (fun outcome => ?_) fun failure => ?_
    · rw [hinside]
      have hran : Statement.Ran true [tracksSql.text, albumSql.text] _ (.ok [removed, outcome]) :=
        .cons tracksSql.text removed (.cons albumSql.text outcome .nil)
      split
      · exact Session.conforms_fail (.missing hran ‹_›)
      · exact Session.conforms_pure (.done hran ‹_›)
    · rw [hinside]
      exact .failed (.cons tracksSql.text removed (.failed albumSql.text [] failure))
  · rw [hinside]
    exact .failed (.failed tracksSql.text [albumSql.text] failure)

/-- The texts of a deletion: for the tracks, and for the album. -/
def DeletionTexts (d : Dialect) (album : Identifier) (texts : List String) : Prop :=
  ∃ tracksSql albumSql, deleteWith d tracks "album_id" album = .ok ⟨[tracksSql]⟩ ∧
    deleteWith d albums "id" album = .ok ⟨[albumSql]⟩ ∧ texts = [tracksSql.text, albumSql.text]

theorem conforms_deleteAlbum (c : Catalogue σ) (album : Identifier) :
    (c.recorded.deleteAlbum album).Conforms c.conn.host fun t r =>
      ∃ texts r', DeletionTexts c.dialect album texts ∧
        Bracketed c.conn.inTransaction (Deleted album texts) t r' ∧ r = r'.map fun _ => () := by
  obtain ⟨tracksSql, htracks⟩ := exists_delete_tracks c.dialect album
  obtain ⟨albumSql, halbum⟩ := exists_delete_album c.dialect album
  have hdelete : c.recorded.deleteAlbum album = (do
      let removed ← c.conn.recorded.transaction fun tx => do
        let removed ← (⟨[tracksSql]⟩ : Statement).execute tx
        let outcome ← (⟨[albumSql]⟩ : Statement).execute tx
        if outcome.rowsAffected = 0 then Session.fail (.notFound .album album)
        else return removed.rowsAffected
      Session.report (event .info "Album deleted"
        [("album_id", album.text), ("tracks", toString removed.toNat)])) := by
    rw [deleteWith] at htracks halbum
    rw [deleteAlbum, recorded, htracks, Session.ofExcept_ok_bind, halbum, Session.ofExcept_ok_bind]
  rw [hdelete]
  refine (Connection.conforms_transaction _
    (conforms_deleteBoth c.conn.inside rfl album tracksSql albumSql)).bind ?_ ?_
  · intro t removed hbracketed
    refine Session.conforms_report
      ⟨_, .ok removed, ⟨tracksSql, albumSql, htracks, halbum, rfl⟩, ?_, rfl⟩
    rwa [List.append_nil]
  · intro t stop hbracketed
    exact ⟨_, .error stop, ⟨tracksSql, albumSql, htracks, halbum, rfl⟩, hbracketed, rfl⟩

/-! ### Appending -/

/-- What is done for the appending to a playlist, given the text that counts its entries and the
texts that insert an entry at a position. -/
inductive Appended (countText : String) (insertText : UInt64 → String) :
    Transcript → Except (Stop Error) UInt64 → Prop
  | uncounted (failure : HostError) :
    Appended countText insertText [⟨⟨true, .query countText⟩, .error failure⟩]
      (.error (.error (.host failure)))
  | malformed {rows : List Row} {cause : Error} : Query.countOf rows = .error cause →
    Appended countText insertText [⟨⟨true, .query countText⟩, .ok rows⟩] (.error (.error cause))
  | notInserted {rows : List Row} {position : UInt64} (failure : HostError) :
    Query.countOf rows = .ok position →
    Appended countText insertText [⟨⟨true, .query countText⟩, .ok rows⟩,
      ⟨⟨true, .execute (insertText position)⟩, .error failure⟩] (.error (.error (.host failure)))
  | done {rows : List Row} {position : UInt64} (outcome : Outcome) :
    Query.countOf rows = .ok position →
    Appended countText insertText [⟨⟨true, .query countText⟩, .ok rows⟩,
      ⟨⟨true, .execute (insertText position)⟩, .ok outcome⟩] (.ok position)

/-- The rows are a count: their first cell is an integer that is not negative. -/
def IsCount (rows : List Row) : Prop :=
  ∃ n : Int64, rows.head?.bind List.head? = some (.integer n) ∧ 0 ≤ n.toInt

/-- Every answer to a query has to be a count. -/
def countsOnly (_ : List Outcome) (answers : List (List Row)) : Prop :=
  ∀ rows ∈ answers, IsCount rows

theorem isCount_iff {rows : List Row} : IsCount rows ↔ ∃ n, Query.countOf rows = .ok n := by
  rw [IsCount, Query.countOf]
  constructor
  · rintro ⟨n, hcell, hn⟩
    exact ⟨n.toUInt64, by rw [hcell]; exact if_pos hn⟩
  · rintro ⟨k, hk⟩
    split at hk
    · rename_i n hcell
      split at hk
      · exact ⟨n, hcell, ‹_›⟩
      · cases hk
    · cases hk

theorem Appended.worked {countText : String} {insertText : UInt64 → String} {t : Transcript}
    {r : Except (Stop Error) UInt64} (h : Appended countText insertText t r) :
    Worked countsOnly t r := by
  cases h with
  | uncounted failure => exact ⟨by simp [Exchange.isWork], by simp, by simp⟩
  | malformed hrows =>
    refine ⟨by simp [Exchange.isWork], by simp, ?_⟩
    simp [countsOnly, isCount_iff, hrows]
  | notInserted failure hrows => exact ⟨by simp [Exchange.isWork], by simp, by simp⟩
  | done outcome hrows =>
    refine ⟨by simp [Exchange.isWork], by simp, ?_⟩
    simp [countsOnly, isCount_iff, hrows]

/-- The texts of the appending to a playlist. -/
structure AppendingTexts (d : Dialect) (playlist track : Identifier) (countText : String)
    (insertText : UInt64 → String) : Prop where
  count : ∃ q sql, rowsWith d playlistTracks "playlist_id" playlist = .ok q ∧
    q.renderCount = .ok sql ∧ countText = sql.text
  insert : ∀ position, ∃ sql, (Query.ofTable d playlistTracks).insert
    (Playlist.entryRow playlist track position.toInt64) = .ok ⟨[sql]⟩ ∧
      insertText position = sql.text

theorem exists_appendingTexts (d : Dialect) (playlist track : Identifier) :
    ∃ countText insertText, AppendingTexts d playlist track countText insertText := by
  obtain ⟨q, sql, hq, hsql⟩ := exists_count d playlist
  choose insertSql hinsert using fun position : UInt64 =>
    (uniform_entry playlist track position.toInt64).exists_insertMany d
  exact ⟨_, fun position => (insertSql position).text, ⟨q, sql, hq, hsql, rfl⟩,
    fun position => ⟨_, hinsert position, rfl⟩⟩

theorem conforms_append (c : Catalogue σ) (playlist track : Identifier) :
    (c.recorded.append playlist track).Conforms c.conn.host fun t r =>
      ∃ countText insertText, AppendingTexts c.dialect playlist track countText insertText ∧
        Bracketed c.conn.inTransaction (Appended countText insertText) t r := by
  obtain ⟨countText, insertText, htexts⟩ := exists_appendingTexts c.dialect playlist track
  obtain ⟨q, countSql, hq, hcount, rfl⟩ := htexts.count
  have hbody : (do
      let position ← q.count c.conn.inside.recorded
      let s ← Session.ofExcept ((Query.ofTable c.dialect playlistTracks).insert
        (Playlist.entryRow playlist track position.toInt64))
      let _ ← s.execute c.conn.inside.recorded
      return position : Session (σ × Transcript) Error UInt64).Conforms c.conn.host
      (Appended countSql.text insertText) := by
    rw [Query.count, hcount]
    simp only [bind_assoc, Session.ofExcept_ok_bind]
    refine Session.Conforms.report_bind (Connection.conforms_perform_bind c.conn.inside
      (fun rows => ?_) fun failure => .uncounted failure)
    cases hrows : Query.countOf rows with
    | error cause =>
      rw [Session.ofExcept_error_bind]
      exact Session.conforms_fail (.malformed hrows)
    | ok position =>
      obtain ⟨insertSql, hinsert, htext⟩ := htexts.insert position
      rw [Session.ofExcept_ok_bind, hinsert, Session.ofExcept_ok_bind]
      refine Statement.conforms_execute_single_bind c.conn.inside (fun outcome => ?_)
        fun failure => ?_
      · rw [← htext]
        exact Session.conforms_pure (.done outcome hrows)
      · rw [← htext]
        exact .notInserted failure hrows
  have happend : c.recorded.append playlist track = c.conn.recorded.transaction fun tx => do
      let position ← q.count tx
      let s ← Session.ofExcept ((Query.ofTable c.dialect playlistTracks).insert
        (Playlist.entryRow playlist track position.toInt64))
      let _ ← s.execute tx
      return position := by
    rw [append, recorded, hq, Session.ofExcept_ok_bind]
  rw [happend]
  exact (Connection.conforms_transaction _ hbody).mono fun t r h => ⟨_, _, htexts, h⟩

/-! ### Addition -/

/-- What is done for the addition of an album, given its texts. -/
inductive Inserted (texts : List String) : Transcript → Except (Stop Error) Unit → Prop
  | failed {t : Transcript} {failure : HostError} : Statement.Ran true texts t (.error failure) →
    Inserted texts t (.error (.error (.host failure)))
  | done {t : Transcript} {outcomes : List Outcome} : Statement.Ran true texts t (.ok outcomes) →
    Inserted texts t (.ok ())

/-- Any outcomes and answers are acceptable. -/
def acceptsAll (_ : List Outcome) (_ : List (List Row)) : Prop := True

theorem Inserted.worked {texts : List String} {t : Transcript} {r : Except (Stop Error) Unit}
    (h : Inserted texts t r) : Worked acceptsAll t r := by
  cases h with
  | failed hran =>
    obtain ⟨-, hfailures, -⟩ := hran.of_error
    exact ⟨isWork_of_ran hran, by simp, by simp [hfailures]⟩
  | done hran =>
    obtain ⟨-, -, hfailures, -⟩ := hran.of_ok
    exact ⟨isWork_of_ran hran, by simp, by simp [hfailures, acceptsAll]⟩

/-- The texts of an addition: for the album, and for its tracks if it has any. -/
inductive AdditionTexts (d : Dialect) (album : Album) : List Track → List String → Prop
  | albumOnly {albumSql : Sql} :
    (Query.ofTable d albums).insert album.row = .ok ⟨[albumSql]⟩ →
    AdditionTexts d album [] [albumSql.text]
  | withTracks {added : List Track} {albumSql tracksSql : Sql} : added ≠ [] →
    (Query.ofTable d albums).insert album.row = .ok ⟨[albumSql]⟩ →
    (Query.ofTable d tracks).insertMany (added.map Track.row) = .ok ⟨[tracksSql]⟩ →
    AdditionTexts d album added [albumSql.text, tracksSql.text]

/-- The tracks of an album under their identifiers. -/
def withIds (album : Identifier) (drafts : List NewTrack) (ids : List Identifier) : List Track :=
  List.zipWith (fun draft id => draft.withId id album) drafts ids

/-- Identifiers are drawn for the drafts of tracks, one for each, without a call. -/
theorem conforms_mapM_row (conn : Connection σ) (album : Identifier) (drafts : List NewTrack) :
    (drafts.mapM fun draft => do
      return (draft.withId (← conn.recorded.nextIdentifier) album).row :
        Session (σ × Transcript) Error (List Assignments)).Conforms conn.host fun t r => t = [] ∧
      ((∃ ids : List Identifier, ids.length = drafts.length ∧
        r = .ok ((withIds album drafts ids).map Track.row)) ∨
      ∃ cause, conn.host.ids.FailsWith cause ∧ r = .error (.error cause)) := by
  induction drafts with
  | nil => exact Session.conforms_pure ⟨rfl, .inl ⟨[], rfl, rfl⟩⟩
  | cons draft drafts ih =>
    rw [List.mapM_cons]
    simp only [bind_assoc, pure_bind]
    refine conn.conforms_nextIdentifier.bind ?_ ?_
    · rintro t id ⟨rfl, -⟩
      refine ih.bind ?_ ?_
      · rintro t rows ⟨rfl, ⟨ids, hlength, hrows⟩ | ⟨cause, -, hrows⟩⟩
        · obtain rfl := Except.ok.inj hrows
          exact Session.conforms_pure ⟨rfl, .inl ⟨id :: ids, congrArg Nat.succ hlength, rfl⟩⟩
        · cases hrows
      · rintro t stop ⟨rfl, ⟨ids, -, hstop⟩ | ⟨cause, hfails, hstop⟩⟩
        · cases hstop
        · obtain rfl := Except.error.inj hstop
          exact ⟨rfl, .inr ⟨cause, hfails, rfl⟩⟩
    · rintro t stop ⟨rfl, ⟨id, hstop⟩ | ⟨cause, hfails, hstop⟩⟩
      · cases hstop
      · obtain rfl := Except.error.inj hstop
        exact ⟨rfl, .inr ⟨cause, hfails, rfl⟩⟩

/-- What is done for the addition of an album. Nothing is asked of the database if a draft is
refused or if there is no identifier. -/
inductive Added (d : Dialect) (outside : Bool) (artist : Identifier) (draft : NewAlbum)
    (drafts : List NewTrack) : Transcript → Except (Stop Error) Album → Prop
  | refused (cause : Error) : Added d outside artist draft drafts [] (.error (.error cause))
  | asked {t : Transcript} {r : Except (Stop Error) Unit} {texts : List String} (id : Identifier)
    (ids : List Identifier) : ids.length = drafts.length →
    AdditionTexts d (draft.withId id artist) (withIds id drafts ids) texts →
    Bracketed outside (Inserted texts) t r →
    Added d outside artist draft drafts t (r.map fun _ => draft.withId id artist)

/-- The statements of an addition, in a transaction. -/
theorem conforms_insertBoth (conn : Connection σ) (hinside : conn.inTransaction = true)
    {albumSql : Sql} {tracksSql : Option Sql} :
    (do
      let _ ← (⟨[albumSql]⟩ : Statement).execute conn.recorded
      match tracksSql.map fun sql => (⟨[sql]⟩ : Statement) with
      | some s => let _ ← s.execute conn.recorded
      | none => pure () : Session (σ × Transcript) Error Unit).Conforms conn.host
      (Inserted (albumSql.text :: (tracksSql.map Sql.text).toList)) := by
  cases tracksSql with
  | none =>
    refine Statement.conforms_execute_single_bind conn (fun outcome => ?_) fun failure => ?_
    · rw [hinside]
      exact Session.conforms_pure (.done (.cons albumSql.text outcome .nil))
    · rw [hinside]
      exact .failed (.failed albumSql.text [] failure)
  | some tracksSql =>
    refine Statement.conforms_execute_single_bind conn (fun outcome => ?_) fun failure => ?_
    · refine Statement.conforms_execute_single_bind conn (fun outcome' => ?_) fun failure => ?_
      · rw [hinside]
        exact Session.conforms_pure
          (.done (.cons albumSql.text outcome (.cons tracksSql.text outcome' .nil)))
      · rw [hinside]
        exact .failed (.cons albumSql.text outcome (.failed tracksSql.text [] failure))
    · rw [hinside]
      exact .failed (.failed albumSql.text [tracksSql.text] failure)

/-- What remains of an addition once all identifiers are drawn. -/
theorem conforms_insertRows (c : Catalogue σ) {artist id : Identifier} {draft : NewAlbum}
    {drafts : List NewTrack} {ids : List Identifier} {albumSql : Sql}
    (hlength : ids.length = drafts.length)
    (halbum : (Query.ofTable c.dialect albums).insert (draft.withId id artist).row =
      .ok ⟨[albumSql]⟩) :
    let rows := (withIds id drafts ids).map Track.row
    (do
      let insertTracks ←
        if rows.isEmpty then pure none
        else some <$> Session.ofExcept ((Query.ofTable c.dialect tracks).insertMany rows)
      c.conn.recorded.transaction fun tx => do
        let _ ← (⟨[albumSql]⟩ : Statement).execute tx
        match insertTracks with
        | some s => let _ ← s.execute tx
        | none => pure ()
      Session.report (event .info "Album added"
        [("album_id", id.text), ("tracks", toString rows.length)])
      return draft.withId id artist : Session (σ × Transcript) Error Album).Conforms c.conn.host
      (Added c.dialect c.conn.inTransaction artist draft drafts) := by
  intro rows
  have htransaction : ∀ tracksSql : Option Sql,
      AdditionTexts c.dialect (draft.withId id artist) (withIds id drafts ids)
        (albumSql.text :: (tracksSql.map Sql.text).toList) →
      (do
        c.conn.recorded.transaction fun tx => do
          let _ ← (⟨[albumSql]⟩ : Statement).execute tx
          match tracksSql.map fun sql => (⟨[sql]⟩ : Statement) with
          | some s => let _ ← s.execute tx
          | none => pure ()
        Session.report (event .info "Album added"
          [("album_id", id.text), ("tracks", toString rows.length)])
        return draft.withId id artist : Session (σ × Transcript) Error Album).Conforms c.conn.host
        (Added c.dialect c.conn.inTransaction artist draft drafts) := by
    intro tracksSql htexts
    refine (Connection.conforms_transaction _
      (conforms_insertBoth c.conn.inside rfl)).bind ?_ ?_
    · intro t _ hbracketed
      refine (Session.conforms_pure ?_).report_bind
      rw [List.append_nil]
      exact .asked id ids hlength htexts hbracketed
    · intro t stop hbracketed
      exact .asked id ids hlength htexts hbracketed
  by_cases hadded : withIds id drafts ids = []
  · have hrows : rows.isEmpty = true := by simp [rows, hadded]
    rw [hrows]
    exact htransaction none (by rw [hadded]; exact .albumOnly halbum)
  · obtain ⟨tracksSql, htracks⟩ := (uniform_tracks hadded).exists_insertMany c.dialect
    have hrows : ¬rows.isEmpty = true := by simpa [rows] using hadded
    rw [if_neg hrows, htracks, Session.map_ofExcept]
    exact htransaction (some tracksSql) (.withTracks hadded halbum htracks)

theorem conforms_addAlbum (c : Catalogue σ) (artist : Identifier) (draft : NewAlbum)
    (drafts : List NewTrack) :
    (c.recorded.addAlbum artist draft drafts).Conforms c.conn.host
      (Added c.dialect c.conn.inTransaction artist draft drafts) := by
  rw [addAlbum]
  cases hdraft : draft.validate with
  | error cause =>
    rw [Session.ofExcept_error_bind]
    exact Session.conforms_fail (.refused cause)
  | ok =>
    rw [Session.ofExcept_ok_bind]
    cases hdrafts : drafts.forM NewTrack.validate with
    | error cause =>
      rw [Session.ofExcept_error_bind]
      exact Session.conforms_fail (.refused cause)
    | ok =>
      rw [Session.ofExcept_ok_bind]
      refine c.conn.conforms_nextIdentifier.bind ?_ ?_
      · rintro t id ⟨rfl, -⟩
        obtain ⟨albumSql, halbum⟩ :=
          (uniform_album (draft.withId id artist)).exists_insertMany c.dialect
        have halbum' : (Query.ofTable c.recorded.dialect albums).insert
            (draft.withId id artist).row = .ok ⟨[albumSql]⟩ := halbum
        dsimp only
        rw [halbum', Session.ofExcept_ok_bind]
        refine (conforms_mapM_row c.conn (draft.withId id artist).id drafts).bind ?_ ?_
        · rintro t rows ⟨rfl, ⟨ids, hlength, hrows⟩ | ⟨cause, -, hrows⟩⟩
          · obtain rfl := Except.ok.inj hrows
            exact conforms_insertRows c hlength halbum
          · cases hrows
        · rintro t stop ⟨rfl, ⟨ids, -, hstop⟩ | ⟨cause, -, hstop⟩⟩
          · cases hstop
          · obtain rfl := Except.error.inj hstop
            exact .refused _
      · rintro t stop ⟨rfl, ⟨id, hstop⟩ | ⟨cause, -, hstop⟩⟩
        · cases hstop
        · obtain rfl := Except.error.inj hstop
          exact .refused _

/-! ### Atomicity -/

theorem Added.atomic {h : Host σ} {committed : σ → δ} (hcommit : h.ChangesByCommit committed)
    {s s' : σ} {d : Dialect} {outside : Bool} {artist : Identifier} {draft : NewAlbum}
    {drafts : List NewTrack} {t : Transcript} {r : Except (Stop Error) Album}
    (hadded : Added d outside artist draft drafts t r) (hgives : h.Gives s t s') :
    Atomic h committed outside acceptsAll s s' t r := by
  cases hadded with
  | refused cause => exact atomic_nil hcommit hgives cause
  | asked id ids _ _ hbracketed =>
    exact (hbracketed.atomic (fun _ _ => Inserted.worked) hcommit hgives).map _

/-- **Changes of the catalogue take effect as a whole.** Whatever the host replies, the addition of
an album, its deletion and the appending to a playlist make the calls that are told here and are
atomic: they return a result if and only if all that they asked for succeeded, and then it all has
been written; after an error nothing has been. -/
theorem changes_atomic (c : Catalogue σ) {committed : σ → δ}
    (hcommit : c.conn.host.ChangesByCommit committed) (w : World (σ × Transcript)) :
    (∀ artist draft drafts, ∃ t,
      let ended := (c.recorded.addAlbum artist draft drafts).run.run w
      ended.2.host.2 = w.host.2 ++ t ∧
      Added c.dialect c.conn.inTransaction artist draft drafts t ended.1 ∧
      Atomic c.conn.host committed c.conn.inTransaction acceptsAll w.host.1 ended.2.host.1 t
        ended.1) ∧
    (∀ album, ∃ t texts r,
      let ended := (c.recorded.deleteAlbum album).run.run w
      ended.2.host.2 = w.host.2 ++ t ∧ DeletionTexts c.dialect album texts ∧
      Bracketed c.conn.inTransaction (Deleted album texts) t r ∧ ended.1 = r.map (fun _ => ()) ∧
      Atomic c.conn.host committed c.conn.inTransaction deletesLast w.host.1 ended.2.host.1 t
        ended.1) ∧
    ∀ playlist track, ∃ t countText insertText,
      let ended := (c.recorded.append playlist track).run.run w
      ended.2.host.2 = w.host.2 ++ t ∧
      AppendingTexts c.dialect playlist track countText insertText ∧
      Bracketed c.conn.inTransaction (Appended countText insertText) t ended.1 ∧
      Atomic c.conn.host committed c.conn.inTransaction countsOnly w.host.1 ended.2.host.1 t
        ended.1 := by
  refine ⟨fun artist draft drafts => ?_, fun album => ?_, fun playlist track => ?_⟩
  · obtain ⟨t, ht, hgives, hadded⟩ := c.conforms_addAlbum artist draft drafts w
    exact ⟨t, ht, hadded, hadded.atomic hcommit hgives⟩
  · obtain ⟨t, ht, hgives, texts, r, htexts, hbracketed, hr⟩ := c.conforms_deleteAlbum album w
    refine ⟨t, texts, r, ht, htexts, hbracketed, hr, ?_⟩
    rw [hr]
    exact (hbracketed.atomic (fun _ _ => Deleted.worked) hcommit hgives).map _
  · obtain ⟨t, ht, hgives, countText, insertText, htexts, hbracketed⟩ :=
      c.conforms_append playlist track w
    exact ⟨t, countText, insertText, ht, htexts, hbracketed,
      hbracketed.atomic (fun _ _ => Appended.worked) hcommit hgives⟩

/-- A host that keeps the texts of the statements that took effect. Each of them affects one row. -/
def remembering : Host (List String × List String) where
  answer
    | ⟨false, .start⟩, s => (.ok (), s.1, s.1)
    | ⟨true, .start⟩, s => (.error (.notAvailable "nested"), s)
    | ⟨true, .commit⟩, s => (.ok (), s.2, s.2)
    | ⟨false, .commit⟩, s => (.error (.notAvailable "no transaction"), s)
    | ⟨_, .rollback⟩, s => (.ok (), s)
    | ⟨_, .execute text⟩, s => (.ok { rowsAffected := 1 }, s.1, s.2 ++ [text])
    | ⟨_, .query _⟩, s => (.ok [[.integer 0]], s)
  ids := ⟨fun s => (0, s), fun s => (.error (.random "none"), s)⟩

/-- The deletion of an album that exists. -/
theorem changes_atomic_remembering :
    let c : Catalogue (List String × List String) := ⟨⟨remembering, false⟩, .sqlite⟩
    let w : World ((List String × List String) × Transcript) := { host := (([], []), []) }
    let album : Identifier := ⟨List.replicate 16 0, rfl⟩
    let ended := (c.recorded.deleteAlbum album).run.run w
    c.conn.host.ChangesByCommit Prod.fst ∧
    c.conn.host.TracksPending Prod.fst Prod.snd (fun text d d' => d' = d ++ [text]) ∧
    ended.1 = .ok () ∧
    ∃ t, ended.2.host.2 = t ∧
      Applied (fun text d d' => d' = d ++ [text]) t.texts [] ended.2.host.1.1 := by
  intro c w album ended
  have hcommit : c.conn.host.ChangesByCommit Prod.fst := by
    refine ⟨?_, fun _ => rfl, fun _ => rfl⟩
    rintro ⟨_ | _, _ | _ | _ | _ | _⟩ s hs <;> first | rfl | cases hs
  have hpending : c.conn.host.TracksPending Prod.fst Prod.snd
      (fun text d d' => d' = d ++ [text]) := by
    refine ⟨?_, fun _ _ _ _ => rfl, fun _ _ => rfl, fun _ _ => rfl, fun _ => rfl, fun _ => rfl⟩
    rintro (_ | _) s hs
    · rfl
    · cases hs
  have hok : ended.1 = .ok () := by rfl
  obtain ⟨t, texts, r, ht, -, -, -, hatomic⟩ := (changes_atomic c hcommit w).2.1 album
  exact ⟨hcommit, hpending, hok, t, ht, hatomic.applied _ _ hpending () hok⟩

end Catalogue

end Discography
