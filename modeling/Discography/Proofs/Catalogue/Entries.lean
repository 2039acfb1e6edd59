import Discography.Proofs.Catalogue.Direct
import Mathlib.Data.List.Range

/-!
# Entries of playlists

What the changes of the catalogue do to the entries of playlists. The position of an appended entry
is the number of the entries before it, and it is refused if that position is taken. The deletion of
an album deletes the entries of its tracks, wherever they are. No other change concerns them.

## Main definitions

* `Catalogue.place`, `Catalogue.positions`: the positions in a playlist
* `Catalogue.OnAlbum`: the entries that go with an album

## Main results

* `Catalogue.holds_entry_iff`: when an entry is accepted
* `Catalogue.Change.contents_cases`: what a change does to the entries
-/

namespace Discography.Catalogue

variable {ι : Type}

/-! ### Positions -/

/-- The cell for a position. -/
def place (n : Nat) : Cell := .integer (Int64.ofNat n)

/-- The positions of the entries of a playlist, in the order of their insertion. -/
def positions (s : Store relations) (playlist : Identifier) : List Cell :=
  (entries s playlist).map fun row => row "position"

/-- There is such a playlist. -/
def HasPlaylist (s : Store relations) (playlist : Identifier) : Prop :=
  ∃ row ∈ s.contents playlistRelation.name, row "id" = .blob playlist.bytes

/-- There is such a track. -/
def HasTrack (s : Store relations) (track : Identifier) : Prop :=
  ∃ row ∈ s.contents trackRelation.name, row "id" = .blob track.bytes

instance (s : Store relations) (playlist : Identifier) : Decidable (HasPlaylist s playlist) :=
  inferInstanceAs (Decidable (∃ _ ∈ _, _))

instance (s : Store relations) (track : Identifier) : Decidable (HasTrack s track) :=
  inferInstanceAs (Decidable (∃ _ ∈ _, _))

/-- The row of an entry. -/
def entryTuple (playlist track : Identifier) (position : Int64) : Tuple :=
  entryRelation.tuple (Playlist.entryRow playlist track position).get?

theorem length_positions (s : Store relations) (playlist : Identifier) :
    (positions s playlist).length = (entries s playlist).length :=
  List.length_map _

theorem place_injective {m n : Nat} (hm : m < 2 ^ 63) (hn : n < 2 ^ 63) (h : place m = place n) :
    m = n := by
  have hint : (Int64.ofNat m).toInt = (Int64.ofNat n).toInt := by
    rw [Cell.integer.inj h]
  rwa [Int64.toInt_ofNat_of_lt hm, Int64.toInt_ofNat_of_lt hn, Int.ofNat_inj] at hint

theorem place_mod (n : Nat) : place (n % 2 ^ 64) = place n := by
  rw [place, place, ← UInt64.toInt64_ofNat', UInt64.ofNat_mod_size, UInt64.toInt64_ofNat']

/-- No two entries of a playlist have the same position. -/
theorem nodup_positions (s : Store relations) (playlist : Identifier) :
    (positions s playlist).Nodup := by
  have hkeys := (s.holds entryRelation (by simp [relations])).key
  have hsublist : List.Sublist ((entries s playlist).map fun row => entryRelation.key.map row)
      ((s.contents entryRelation.name).map fun row => entryRelation.key.map row) :=
    List.filter_sublist.map _
  have hentries : ((entries s playlist).map fun row => entryRelation.key.map row) =
      (positions s playlist).map fun position => [.blob playlist.bytes, position] := by
    rw [positions, List.map_map]
    refine List.map_congr_left fun row hrow => ?_
    have hplaylist : row "playlist_id" = .blob playlist.bytes :=
      of_decide_eq_true (List.mem_filter.1 hrow).2
    rw [entryRelation, List.map_cons, hplaylist]
    rfl
  rw [hentries] at hsublist
  exact List.Nodup.of_map _ (hkeys.sublist hsublist)

/-! ### Insertion of an entry -/

theorem mem_entries_iff {s : Store relations} {playlist : Identifier} {row : Tuple} :
    row ∈ entries s playlist ↔
      row ∈ s.contents entryRelation.name ∧ row "playlist_id" = .blob playlist.bytes := by
  rw [entries, List.mem_filter, Tuple.hasId, decide_eq_true_iff]

/-- The key of an entry is taken if its position is. -/
theorem mem_keys_iff {s : Store relations} {playlist track : Identifier} {position : Int64} :
    entryRelation.key.map (entryTuple playlist track position) ∈
        (s.contents entryRelation.name).map (fun row => entryRelation.key.map row) ↔
      .integer position ∈ positions s playlist := by
  have hkey : ∀ row : Tuple, entryRelation.key.map row = [row "playlist_id", row "position"] :=
    fun _ => rfl
  have hplaylist : entryTuple playlist track position "playlist_id" = .blob playlist.bytes := rfl
  have hposition : entryTuple playlist track position "position" = .integer position := rfl
  simp only [positions, List.mem_map, mem_entries_iff, hkey, hplaylist, hposition, List.cons.injEq,
    and_true, and_assoc]

/-- An entry of a playlist and a track that are there is accepted unless its position is taken. -/
theorem holds_entry_iff {s : Store relations} {playlist track : Identifier} {position : Int64}
    (hplaylist : HasPlaylist s playlist) (htrack : HasTrack s track) :
    (∀ r ∈ relations, r.Holds (s.contents.set entryRelation.name
      (s.contents entryRelation.name ++ [entryTuple playlist track position]))) ↔
      .integer position ∉ positions s playlist := by
  have hentry := (s.holds entryRelation (by simp [relations])).set_append_iff
    (entryTuple playlist track position) (by decide)
  rw [mem_keys_iff] at hentry
  constructor
  · exact fun h => (hentry.1 (h entryRelation (by simp [relations]))).2.2
  · intro hfree
    have hlast : entryRelation.Holds (s.contents.set entryRelation.name
        (s.contents entryRelation.name ++ [entryTuple playlist track position])) := by
      have hattributes : entryRelation.table.attributes = [playlistAttribute,
        (plain "track_id" .binary).referring "tracks" "id", plain "position" .number] := rfl
      refine hentry.2 ⟨?_, ?_, hfree⟩
      · simp only [hattributes, List.forall_mem_cons]
        refine ⟨fun _ h => ?_, fun _ h => ?_, fun _ h => ?_, by simp⟩ <;> cases h
      · simp only [hattributes, List.forall_mem_cons]
        refine ⟨?_, ?_, ?_, by simp⟩
        · rintro _ ⟨⟩
          exact .inr hplaylist
        · rintro _ ⟨⟩
          exact .inr htrack
        · rintro _ ⟨⟩
    simp only [relations, List.forall_mem_cons]
    refine ⟨?_, ?_, ?_, ?_, hlast, by simp⟩
    · exact (s.holds artistRelation (by simp [relations])).set_of_ne (by decide) (by decide)
    · exact (s.holds albumRelation (by simp [relations])).set_of_ne (by decide) (by decide)
    · exact (s.holds trackRelation (by simp [relations])).set_of_ne (by decide) (by decide)
    · exact (s.holds playlistRelation (by simp [relations])).set_of_ne (by decide) (by decide)

/-! ### Appending -/

theorem run_countEntries (playlist : Identifier) (x : State relations ι) :
    (countEntries playlist).run.run x =
      (Query.countOf [[place (entries x.store playlist).length]], x) := by
  have hlook : (Direct.look fun s : Store relations =>
      .ok [[.integer (Int64.ofNat (entries s playlist).length)]]).run.run x =
        (.ok [[place (entries x.store playlist).length]], x) := rfl
  rw [countEntries, Direct.run_bind, hlook]
  exact Direct.run_ofExcept _ x

theorem run_append (ids : Identifier.Source ι Error) (playlist track : Identifier)
    (x : State relations ι) :
    ((Change.append playlist track).direct ids).run.run x =
      match Query.countOf [[place (entries x.store playlist).length]] with
      | .error cause => (.error cause, x)
      | .ok position =>
        match x.store.insert entryRelation.name
          [entryTuple playlist track position.toInt64] with
        | .ok (_, store) => (.ok position, { x with store })
        | .error failure => (.error (.host failure), x) := by
  rw [Change.direct, Direct.run_atomically, Direct.run_bind, run_countEntries]
  cases Query.countOf [[place (entries x.store playlist).length]] with
  | error cause => rfl
  | ok position =>
    dsimp only
    rw [Direct.run_bind, insertRows, Direct.run_change]
    have htuple : [Playlist.entryRow playlist track position.toInt64].map
      (fun row => entryRelation.tuple row.get?) =
        [entryTuple playlist track position.toInt64] := rfl
    rw [htuple]
    rcases x.store.insert entryRelation.name [entryTuple playlist track position.toInt64] with
      failure | ⟨outcome, store⟩ <;> rfl

theorem countOf_place {n : Nat} (hn : n < 2 ^ 63) :
    Query.countOf [[place n]] = .ok (UInt64.ofNat n) := by
  have hcount : Query.countOf [[place n]] =
      if 0 ≤ (Int64.ofNat n).toInt then .ok (Int64.ofNat n).toUInt64
      else .error (.decode (.count (some (place n)))) := rfl
  rw [hcount, Int64.toInt_ofNat_of_lt hn, if_pos (Int.natCast_nonneg n), Int64.toUInt64_ofNat']

/-- A count that is accepted is the number of rows, up to 64 bits. -/
theorem countOf_eq_ok {n : Nat} {position : UInt64}
    (h : Query.countOf [[place n]] = .ok position) :
    position = UInt64.ofNat n ∧ n % 2 ^ 64 < 2 ^ 63 := by
  have hcount : Query.countOf [[place n]] =
      if 0 ≤ (Int64.ofNat n).toInt then .ok (Int64.ofNat n).toUInt64
      else .error (.decode (.count (some (place n)))) := rfl
  rw [hcount] at h
  split at h
  · next hnonneg =>
    cases h
    have hsize : Int64.size = 2 ^ 64 := rfl
    rw [Int64.toInt_ofNat', Int.bmod, hsize] at hnonneg
    refine ⟨Int64.toUInt64_ofNat', ?_⟩
    split at hnonneg <;> omega
  · cases h

/-! ### Deletion of albums -/

/-- The track of the entry is on the album. -/
def OnAlbum (s : Store relations) (album : Identifier) (row : Tuple) : Prop :=
  ∃ t ∈ s.contents trackRelation.name,
    t "id" = row "track_id" ∧ t "album_id" = .blob album.bytes

instance (s : Store relations) (album : Identifier) (row : Tuple) :
    Decidable (OnAlbum s album row) :=
  inferInstanceAs (Decidable (∃ _ ∈ _, _))

/-- Only entries go with other rows. -/
theorem sweep_relations (db : Contents) : db.sweep relations = entryRelation.prune db := by
  simp only [Contents.sweep, relations, List.foldl_cons, List.foldl_nil]
  rw [Relation.prune_of_cascading_eq_nil (r := artistRelation) rfl,
    Relation.prune_of_cascading_eq_nil (r := albumRelation) rfl,
    Relation.prune_of_cascading_eq_nil (r := trackRelation) rfl,
    Relation.prune_of_cascading_eq_nil (r := playlistRelation) rfl]

/-- What a deletion leaves of the entries. -/
theorem contents_of_delete {s s' : Store relations} {r : Relation} {p : Tuple → Bool} {o : Outcome}
    (hname : entryRelation.name ≠ r.name) (h : s.delete r.name p = .ok (o, s')) :
    s'.contents entryRelation.name = (s.contents entryRelation.name).filter
      (entryRelation.Stays
        (s.contents.set r.name ((s.contents r.name).filter fun row => !p row))) := by
  rw [(Store.accept_eq_ok.1 h).2, sweep_relations, Relation.prune_apply_self,
    Contents.set_of_ne _ _ hname]

/-- Entries do not go with albums. -/
theorem contents_of_delete_album {s s' : Store relations} {p : Tuple → Bool} {o : Outcome}
    (h : s.delete albumRelation.name p = .ok (o, s')) :
    s'.contents entryRelation.name = s.contents entryRelation.name := by
  rw [contents_of_delete (by decide) h]
  refine List.filter_eq_self.2 fun row hrow => decide_eq_true fun a ha _ => ?_
  have hrefs : ∀ ref ∈ a.references, ref.table ≠ albumRelation.name := by
    revert a
    decide
  exact (Contents.refers_set_iff hrefs).2
    ((s.holds entryRelation (by simp [relations])).references row hrow a ha)

/-- The track of an entry. -/
def trackAttribute : Attribute := (plain "track_id" .binary).referring "tracks" "id"

theorem exists_track {s : Store relations} {row : Tuple}
    (hrow : row ∈ s.contents entryRelation.name) :
    ∃ t ∈ s.contents trackRelation.name, t "id" = row "track_id" := by
  have hentries := s.holds entryRelation (by simp [relations])
  have htrack : trackAttribute ∈ entryRelation.table.attributes := by decide
  obtain hnull | hexists := hentries.references row hrow trackAttribute htrack _ rfl
  · exact absurd hnull (hentries.required row hrow trackAttribute htrack rfl)
  · exact hexists

/-- There is only one track with an identifier. -/
theorem track_unique {s : Store relations} {t t' : Tuple} (ht : t ∈ s.contents trackRelation.name)
    (ht' : t' ∈ s.contents trackRelation.name) (h : t "id" = t' "id") : t = t' := by
  have hkeys := (s.holds trackRelation (by simp [relations])).key
  refine List.inj_on_of_nodup_map hkeys ht ht' ?_
  exact congrArg (fun cell => [cell]) h

/-- An entry stays if its track is not on the album whose tracks are deleted. -/
theorem stays_iff {s : Store relations} {album : Identifier} {row : Tuple}
    (hrow : row ∈ s.contents entryRelation.name) :
    entryRelation.Stays (s.contents.set trackRelation.name
      ((s.contents trackRelation.name).filter fun t => !Tuple.hasId "album_id" album t)) row ↔
        ¬OnAlbum s album row := by
  have hentries := s.holds entryRelation (by simp [relations])
  constructor
  · rintro hstays ⟨t, ht, hid, halbum⟩
    obtain hnull | ⟨t', ht', hid'⟩ := hstays trackAttribute (by decide) (by decide) _ rfl
    · exact hentries.required row hrow trackAttribute (by decide) rfl hnull
    · obtain ⟨ht', hother⟩ := List.mem_filter.1 ht'
      obtain rfl := track_unique ht ht' (hid.trans hid'.symm)
      simp [Tuple.hasId, halbum] at hother
  · intro hnot a ha hcascading
    have hcases : a = playlistAttribute ∨ a = trackAttribute := by
      revert a
      decide
    obtain rfl | rfl := hcases
    · exact (Contents.refers_set_iff (by decide)).2
        (hentries.references row hrow playlistAttribute ha)
    · obtain ⟨t, ht, hid⟩ := exists_track hrow
      rintro _ ⟨⟩
      have hother : t "album_id" ≠ .blob album.bytes := fun halbum => hnot ⟨t, ht, hid, halbum⟩
      refine .inr ⟨t, List.mem_filter.2 ⟨ht, ?_⟩, hid⟩
      simpa [Tuple.hasId] using hother

/-- The entries of an album's tracks go with the tracks. -/
theorem contents_of_delete_tracks {s s' : Store relations} {album : Identifier} {o : Outcome}
    (h : s.delete trackRelation.name (Tuple.hasId "album_id" album) = .ok (o, s')) :
    s'.contents entryRelation.name =
      (s.contents entryRelation.name).filter fun row => ¬OnAlbum s album row := by
  rw [contents_of_delete (by decide) h]
  exact List.filter_congr fun row hrow => decide_eq_decide.2 (stays_iff hrow)

/-! ### Changes -/

theorem keeps_insertRows {r : Relation} (hname : entryRelation.name ≠ r.name)
    (rows : List Assignments) :
    (insertRows r rows : Direct relations ι Outcome).Keeps entryRelation.name :=
  Direct.keeps_change fun s o s' h => by
    rw [(Store.accept_eq_ok.1 h).2, Contents.set_of_ne _ _ hname]

/-- The other changes leave the entries alone. -/
theorem Change.keeps (ids : Identifier.Source ι Error) {change : Change}
    (happend : ∀ playlist track, change ≠ append playlist track)
    (hdelete : ∀ album, change ≠ deleteAlbum album) :
    (change.direct ids).Keeps entryRelation.name := by
  cases change with
  | addArtist name =>
    refine (Direct.keeps_ofExcept _).bind fun _ => (Direct.keeps_draw ids).bind fun id => ?_
    exact (keeps_insertRows (by decide) _).bind fun _ => Direct.keeps_pure _
  | renameArtist artist name =>
    refine (Direct.keeps_ofExcept _).bind fun _ => Direct.Keeps.bind ?_ fun outcome => ?_
    · refine Direct.keeps_change fun s o s' h => ?_
      rw [(Store.accept_eq_ok.1 h).2, Contents.set_of_ne _ _ (by decide)]
    · split
      · exact Direct.keeps_throw _
      · exact Direct.keeps_pure ()
  | addAlbum artist draft drafts =>
    refine (Direct.keeps_ofExcept _).bind fun _ => (Direct.keeps_ofExcept _).bind fun _ => ?_
    refine (Direct.keeps_draw ids).bind fun id => Direct.Keeps.bind ?_ fun added => ?_
    · exact Direct.Keeps.mapM (fun _ => (Direct.keeps_draw ids).bind fun _ => Direct.keeps_pure _) _
    · refine Direct.Keeps.bind (Direct.Keeps.atomically ?_) fun _ => Direct.keeps_pure _
      refine (keeps_insertRows (by decide) _).bind fun _ => ?_
      split
      · exact Direct.keeps_pure ()
      · exact (keeps_insertRows (by decide) _).bind fun _ => Direct.keeps_pure ()
  | createPlaylist name =>
    refine (Direct.keeps_ofExcept _).bind fun _ => (Direct.keeps_draw ids).bind fun id => ?_
    exact (keeps_insertRows (by decide) _).bind fun _ => Direct.keeps_pure _
  | append playlist track => exact absurd rfl (happend playlist track)
  | deleteAlbum album => exact absurd rfl (hdelete album)

/-- An append adds the entry behind the others, or changes nothing. -/
theorem contents_append (ids : Identifier.Source ι Error) (playlist track : Identifier)
    (x : State relations ι) :
    let y := (((Change.append playlist track).direct ids).run.run x).2
    let n := (entries x.store playlist).length
    y.store = x.store ∨ n % 2 ^ 64 < 2 ^ 63 ∧
      y.store.contents entryRelation.name = x.store.contents entryRelation.name ++
        [entryTuple playlist track (Int64.ofNat n)] := by
  intro y n
  have hrun : y = _ := congrArg Prod.snd (run_append ids playlist track x)
  rcases hcount : Query.countOf [[place n]] with cause | position
  · rw [hcount] at hrun
    exact .inl (congrArg State.store hrun)
  · obtain ⟨rfl, hbound⟩ := countOf_eq_ok hcount
    rw [hcount] at hrun
    dsimp only at hrun
    rw [UInt64.toInt64_ofNat'] at hrun
    rcases hinsert : x.store.insert entryRelation.name
      [entryTuple playlist track (Int64.ofNat n)] with failure | ⟨outcome, store⟩
    · rw [hinsert] at hrun
      exact .inl (congrArg State.store hrun)
    · rw [hinsert] at hrun
      refine .inr ⟨hbound, ?_⟩
      rw [congrArg State.store hrun]
      dsimp only
      rw [(Store.accept_eq_ok.1 hinsert).2, Contents.set_self]

theorem run_deleteAlbum (ids : Identifier.Source ι Error) (album : Identifier)
    (x : State relations ι) :
    ((Change.deleteAlbum album).direct ids).run.run x =
      match x.store.delete trackRelation.name (Tuple.hasId "album_id" album) with
      | .error failure => (.error (.host failure), x)
      | .ok (_, store) =>
        match store.delete albumRelation.name (Tuple.hasId "id" album) with
        | .error failure => (.error (.host failure), x)
        | .ok (outcome, store) =>
          if outcome.rowsAffected = 0 then (.error (.notFound .album album), x)
          else (.ok (), { x with store }) := by
  rw [Change.direct, Direct.run_bind, Direct.run_atomically, Direct.run_bind, deleteRows,
    Direct.run_change]
  rcases x.store.delete trackRelation.name (Tuple.hasId "album_id" album) with
    failure | ⟨removed, store⟩
  · rfl
  · dsimp only
    rw [Direct.run_bind, deleteRows, Direct.run_change]
    rcases store.delete albumRelation.name (Tuple.hasId "id" album) with
      failure | ⟨outcome, store'⟩
    · rfl
    · by_cases hnone : outcome.rowsAffected = 0
      · simp only [if_pos hnone]
        rfl
      · simp only [if_neg hnone]
        rfl

/-- The deletion of an album deletes the entries of its tracks, or changes nothing. -/
theorem contents_deleteAlbum (ids : Identifier.Source ι Error) (album : Identifier)
    (x : State relations ι) :
    let y := (((Change.deleteAlbum album).direct ids).run.run x).2
    y.store = x.store ∨ y.store.contents entryRelation.name =
      (x.store.contents entryRelation.name).filter fun row => ¬OnAlbum x.store album row := by
  intro y
  have hrun : y = _ := congrArg Prod.snd (run_deleteAlbum ids album x)
  rcases htracks : x.store.delete trackRelation.name (Tuple.hasId "album_id" album) with
    failure | ⟨removed, store⟩
  · rw [htracks] at hrun
    exact .inl (congrArg State.store hrun)
  · rcases halbum : store.delete albumRelation.name (Tuple.hasId "id" album) with
      failure | ⟨outcome, store'⟩
    · simp only [htracks, halbum] at hrun
      exact .inl (congrArg State.store hrun)
    · simp only [htracks, halbum] at hrun
      split at hrun
      · exact .inl (congrArg State.store hrun)
      · refine .inr ?_
        rw [congrArg State.store hrun]
        exact (contents_of_delete_album halbum).trans (contents_of_delete_tracks htracks)

/-- What a change does to the entries. -/
theorem Change.contents_cases (ids : Identifier.Source ι Error) (change : Change)
    (x : State relations ι) :
    let s := x.store
    let s' := ((change.direct ids).run.run x).2.store
    s'.contents entryRelation.name = s.contents entryRelation.name ∨
    (∃ playlist track, change = append playlist track ∧
      (entries s playlist).length % 2 ^ 64 < 2 ^ 63 ∧
      s'.contents entryRelation.name = s.contents entryRelation.name ++
        [entryTuple playlist track (Int64.ofNat (entries s playlist).length)]) ∨
    ∃ album, change = deleteAlbum album ∧ s'.contents entryRelation.name =
      (s.contents entryRelation.name).filter fun row => ¬OnAlbum s album row := by
  intro s s'
  cases change with
  | append playlist track =>
    obtain hsame | hadded := contents_append ids playlist track x
    · exact .inl (congrArg (·.contents entryRelation.name) hsame)
    · exact .inr (.inl ⟨playlist, track, rfl, hadded⟩)
  | deleteAlbum album =>
    obtain hsame | hdeleted := contents_deleteAlbum ids album x
    · exact .inl (congrArg (·.contents entryRelation.name) hsame)
    · exact .inr (.inr ⟨album, rfl, hdeleted⟩)
  | addArtist name => exact .inl (keeps ids (by simp) (by simp) x)
  | renameArtist artist name => exact .inl (keeps ids (by simp) (by simp) x)
  | addAlbum artist draft drafts => exact .inl (keeps ids (by simp) (by simp) x)
  | createPlaylist name => exact .inl (keeps ids (by simp) (by simp) x)

end Discography.Catalogue
