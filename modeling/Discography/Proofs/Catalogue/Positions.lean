import Discography.Proofs.Catalogue.Entries
import Mathlib.Data.Finset.Card
import Mathlib.Data.List.Range

/-!
# Positions in playlists

An appended entry comes last as long as the positions of the playlist have no gap, and they have
none as long as only the last entries of playlists are ever deleted with their tracks. Behind a gap,
appending leads to a position in front of others, or to one that is taken.

## Main definitions

* `Catalogue.ComesLast`: an appended entry is behind those that are there
* `Catalogue.DeletesLast`: only last entries go with an album

## Main results

* `Catalogue.append_comes_last_iff`: when an appended entry comes last
* `Catalogue.append_behind_gap`: an appended entry that does not
-/

namespace Discography.Catalogue

variable {ι : Type}

/-! ### Appended entries -/

/-- The entry is appended behind those that are there: its position is above theirs. -/
def ComesLast {ε : Type} (s : Store relations) (playlist : Identifier) (r : Except ε UInt64) :
    Prop :=
  ∃ position, r = .ok position ∧
    ∀ i : Int64, .integer i ∈ positions s playlist → i.toInt < (position.toNat : Int)

/-- The positions of entries are the numbers of the entries that once were before them. -/
def Counted (s : Store relations) : Prop :=
  ∀ row ∈ s.contents entryRelation.name, ∃ k < 2 ^ 63, row "position" = place k

section append

variable {x : State relations ι} {playlist track : Identifier}

/-- The append succeeds if the position behind the others is free. -/
theorem run_append_of_free (ids : Identifier.Source ι Error)
    (hplaylist : HasPlaylist x.store playlist)
    (htrack : HasTrack x.store track) (hn : (positions x.store playlist).length < 2 ^ 63)
    (hfree : place (positions x.store playlist).length ∉ positions x.store playlist) :
    (((Change.append playlist track).direct ids).run.run x).1 =
      .ok (UInt64.ofNat (positions x.store playlist).length) := by
  rw [length_positions] at hn hfree ⊢
  have haccepted := (holds_entry_iff hplaylist htrack).2 hfree
  have hinsert : x.store.insert entryRelation.name
      [entryTuple playlist track (Int64.ofNat (entries x.store playlist).length)] =
        .ok ({ rowsAffected := UInt64.ofNat 1 }, ⟨_, haccepted⟩) :=
    Store.accept_eq_ok.2 ⟨rfl, rfl⟩
  rw [run_append, countOf_place hn]
  dsimp only
  rw [UInt64.toInt64_ofNat', hinsert]

/-- The position of an appended entry is at most the number of the entries before it. -/
theorem position_of_append {ids : Identifier.Source ι Error} {position : UInt64}
    (h : (((Change.append playlist track).direct ids).run.run x).1 = .ok position) :
    position.toNat < 2 ^ 63 ∧ position.toNat ≤ (positions x.store playlist).length := by
  rw [run_append] at h
  rcases hcount : Query.countOf [[place (entries x.store playlist).length]] with cause | counted
  · rw [hcount] at h
    cases h
  · obtain ⟨rfl, hbound⟩ := countOf_eq_ok hcount
    rw [hcount] at h
    dsimp only at h
    split at h
    · cases h
      rw [UInt64.toNat_ofNat', length_positions]
      exact ⟨hbound, Nat.mod_le _ _⟩
    · cases h

/-- Distinct positions below a bound are all of them if there are as many. -/
theorem place_mem_of_length_le {cells : List Cell} (hnodup : cells.Nodup) {m : Nat}
    (hbelow : ∀ cell ∈ cells, ∃ k < m, cell = place k) (hm : m ≤ cells.length) :
    cells.length = m ∧ ∀ k < m, place k ∈ cells := by
  have hsubset : cells.toFinset ⊆ (Finset.range m).image place := by
    intro cell hcell
    obtain ⟨k, hk, rfl⟩ := hbelow cell (List.mem_toFinset.1 hcell)
    exact Finset.mem_image_of_mem _ (Finset.mem_range.2 hk)
  have hcard : cells.toFinset.card = cells.length := List.toFinset_card_of_nodup hnodup
  have himage : ((Finset.range m).image place).card ≤ m :=
    Finset.card_image_le.trans_eq (Finset.card_range m)
  have heq := Finset.eq_of_subset_of_card_le hsubset (by omega)
  refine ⟨le_antisymm ?_ hm, fun k hk => ?_⟩
  · exact hcard ▸ (Finset.card_le_card hsubset).trans himage
  · rw [← List.mem_toFinset, heq]
    exact Finset.mem_image_of_mem _ (Finset.mem_range.2 hk)

/-- As many positions as the first ones, if they are all there, are the first ones. -/
theorem exists_of_place_mem {cells : List Cell} (hn : cells.length < 2 ^ 63)
    (hall : ∀ k < cells.length, place k ∈ cells) {cell : Cell} (hcell : cell ∈ cells) :
    ∃ k < cells.length, cell = place k := by
  have hsubset : (Finset.range cells.length).image place ⊆ cells.toFinset := by
    intro cell hcell
    obtain ⟨k, hk, rfl⟩ := Finset.mem_image.1 hcell
    exact List.mem_toFinset.2 (hall k (Finset.mem_range.1 hk))
  have hinj : Set.InjOn place (Finset.range cells.length) := by
    intro k hk k' hk' h
    exact place_injective ((Finset.mem_range.1 hk).trans hn) ((Finset.mem_range.1 hk').trans hn) h
  have hcard : ((Finset.range cells.length).image place).card = cells.length :=
    (Finset.card_image_of_injOn hinj).trans (Finset.card_range _)
  have heq := Finset.eq_of_subset_of_card_le hsubset
    ((List.toFinset_card_le cells).trans_eq hcard.symm)
  obtain ⟨k, hk, rfl⟩ := Finset.mem_image.1 (heq ▸ List.mem_toFinset.2 hcell)
  exact ⟨k, Finset.mem_range.1 hk, rfl⟩

/-- **An appended entry comes last if and only if no position is missing before it.** -/
theorem comesLast_append_iff (ids : Identifier.Source ι Error) (hcounted : Counted x.store)
    (hplaylist : HasPlaylist x.store playlist) (htrack : HasTrack x.store track) :
    ComesLast x.store playlist (((Change.append playlist track).direct ids).run.run x).1 ↔
      (positions x.store playlist).length < 2 ^ 63 ∧
        ∀ k < (positions x.store playlist).length, place k ∈ positions x.store playlist := by
  have hnodup := nodup_positions x.store playlist
  -- both ways, the position is the number of the entries, and no two of them share theirs
  constructor
  · rintro ⟨position, hok, habove⟩
    obtain ⟨hlt, hle⟩ := position_of_append hok
    have hbelow : ∀ cell ∈ positions x.store playlist, ∃ k < position.toNat, cell = place k := by
      intro cell hcell
      obtain ⟨row, hrow, rfl⟩ := List.mem_map.1 hcell
      obtain ⟨k, hk, hplace⟩ := hcounted row (mem_entries_iff.1 hrow).1
      rw [hplace] at hcell ⊢
      have hint := habove (Int64.ofNat k) hcell
      rw [Int64.toInt_ofNat_of_lt hk] at hint
      exact ⟨k, by omega, rfl⟩
    obtain ⟨hlength, hall⟩ := place_mem_of_length_le hnodup hbelow hle
    rw [hlength]
    exact ⟨hlt, hall⟩
  · rintro ⟨hn, hall⟩
    have hfirst : ∀ cell ∈ positions x.store playlist, _ := fun _ => exists_of_place_mem hn hall
    refine ⟨_, run_append_of_free ids hplaylist htrack hn fun htaken => ?_, fun i hi => ?_⟩
    · obtain ⟨k, hk, hplace⟩ := hfirst _ htaken
      have := place_injective hn (hk.trans hn) hplace
      omega
    · obtain ⟨k, hk, hplace⟩ := hfirst _ hi
      rw [Cell.integer.inj hplace, Int64.toInt_ofNat_of_lt (hk.trans hn), UInt64.toNat_ofNat',
        Nat.mod_eq_of_lt (hn.trans (by decide))]
      exact Int.ofNat_lt.2 hk

end append

/-! ### Histories -/

/-- What one change preserves. -/
theorem Counted.step (ids : Identifier.Source ι Error) {x : State relations ι} (h : Counted x.store)
    (change : Change) : Counted ((change.direct ids).run.run x).2.store := by
  intro row hrow
  obtain hsame | ⟨playlist, track, -, hbound, hadded⟩ | ⟨album, -, hdeleted⟩ :=
    change.contents_cases ids x
  · exact h row (hsame ▸ hrow)
  · rw [hadded, List.mem_append, List.mem_singleton] at hrow
    obtain hrow | rfl := hrow
    · exact h row hrow
    · exact ⟨_, hbound, (place_mod _).symm⟩
  · rw [hdeleted] at hrow
    exact h row (List.mem_filter.1 hrow).1

theorem Counted.directHistory (ids : Identifier.Source ι Error) {x : State relations ι}
    (h : Counted x.store) (changes : List Change) :
    Counted (directHistory ids changes x).store := by
  induction changes generalizing x with
  | nil => exact h
  | cons change changes ih => exact ih (h.step ids change)

/-- The positions of every playlist are the first ones, in the order of the insertion. -/
def Gapless (s : Store relations) : Prop :=
  ∀ playlist, positions s playlist = (List.range (positions s playlist).length).map place

/-- With the entries that go with an album go those that were inserted behind them. -/
def DeletesLast (s : Store relations) (album : Identifier) : Prop :=
  (s.contents entryRelation.name).Pairwise fun row row' =>
    row "playlist_id" = row' "playlist_id" → OnAlbum s album row → OnAlbum s album row'

instance (s : Store relations) (album : Identifier) : Decidable (DeletesLast s album) :=
  inferInstanceAs (Decidable (List.Pairwise _ _))

/-- What is left of a list, if nothing is left behind what is deleted. -/
theorem filter_isPrefix_of_pairwise {α : Type} {p : α → Prop} [DecidablePred p] {l : List α}
    (h : l.Pairwise fun a b => p a → p b) : l.filter (fun a => ¬p a) <+: l := by
  induction h with
  | nil => exact List.prefix_rfl
  | @cons a l ha _ ih =>
    by_cases hp : p a
    · have hnone : (a :: l).filter (fun a => ¬p a) = [] := by
        refine List.filter_eq_nil_iff.2 fun b hb => ?_
        obtain rfl | hb := List.mem_cons.1 hb
        · simpa using hp
        · simpa using ha b hb hp
      rw [hnone]
      exact List.nil_prefix
    · rw [List.filter_cons_of_pos (by simpa using hp)]
      exact (List.cons_prefix_cons).2 ⟨rfl, ih⟩

theorem positions_congr {s s' : Store relations}
    (h : s'.contents entryRelation.name = s.contents entryRelation.name) (playlist : Identifier) :
    positions s' playlist = positions s playlist := by
  rw [positions, positions, entries, entries, h]

/-- The entry of another playlist does not matter. -/
theorem positions_append {s s' : Store relations} {playlist track : Identifier} {position : Int64}
    (h : s'.contents entryRelation.name =
      s.contents entryRelation.name ++ [entryTuple playlist track position])
    (playlist' : Identifier) :
    positions s' playlist' = positions s playlist' ++
      if playlist = playlist' then [.integer position] else [] := by
  have hid : Tuple.hasId "playlist_id" playlist' (entryTuple playlist track position) =
      decide (playlist = playlist') := by
    refine decide_eq_decide.2 ⟨fun hcell => ?_, ?_⟩
    · have hbytes : playlist.bytes = playlist'.bytes := Cell.blob.inj hcell
      cases playlist
      cases playlist'
      congr
    · rintro rfl
      rfl
  rw [positions, positions, entries, entries, h, List.filter_append, List.filter_singleton, hid]
  by_cases hplaylist : playlist = playlist'
  · simp only [hplaylist, decide_true, if_true, List.map_append]
    rfl
  · simp only [hplaylist, decide_false, if_false, List.append_nil, cond_false]

/-- The positions that a deletion of last entries leaves are the first ones. -/
theorem positions_isPrefix_of_delete {s s' : Store relations} {album : Identifier}
    (hlast : DeletesLast s album)
    (h : s'.contents entryRelation.name =
      (s.contents entryRelation.name).filter fun row => ¬OnAlbum s album row)
    (playlist : Identifier) : positions s' playlist <+: positions s playlist := by
  have hentries : entries s' playlist =
      (entries s playlist).filter fun row => ¬OnAlbum s album row := by
    rw [entries, entries, h, List.filter_comm]
  have hpairwise : (entries s playlist).Pairwise fun row row' =>
      OnAlbum s album row → OnAlbum s album row' := by
    have hfiltered := List.Pairwise.filter (Tuple.hasId "playlist_id" playlist) hlast
    refine List.Pairwise.imp_of_mem (fun hrow hrow' himp => himp ?_) hfiltered
    exact (of_decide_eq_true (List.mem_filter.1 hrow).2).trans
      (of_decide_eq_true (List.mem_filter.1 hrow').2).symm
  rw [positions, positions, hentries]
  exact (filter_isPrefix_of_pairwise hpairwise).map _

theorem Gapless.step (ids : Identifier.Source ι Error) {x : State relations ι} (h : Gapless x.store)
    {change : Change} (hlast : ∀ album, change = .deleteAlbum album → DeletesLast x.store album) :
    Gapless ((change.direct ids).run.run x).2.store := by
  intro playlist
  obtain hsame | ⟨playlist', track, -, -, hadded⟩ | ⟨album, hchange, hdeleted⟩ :=
    change.contents_cases ids x
  · rw [positions_congr hsame, ← h playlist]
  · rw [positions_append hadded, ← length_positions]
    by_cases hplaylist : playlist' = playlist
    · subst hplaylist
      rw [if_pos rfl, List.length_append, List.length_singleton, List.range_succ, List.map_append,
        ← h playlist']
      rfl
    · rw [if_neg hplaylist, List.append_nil, ← h playlist]
  · have hinitial := positions_isPrefix_of_delete (hlast album hchange) hdeleted playlist
    calc positions _ playlist
        = (positions x.store playlist).take _ := List.prefix_iff_eq_take.1 hinitial
      _ = ((List.range _).map place).take _ := congrArg _ (h playlist)
      _ = (List.range _).map place := by
        rw [← List.map_take, List.take_range, min_eq_left hinitial.length_le]

theorem Gapless.directHistory (ids : Identifier.Source ι Error) {x : State relations ι}
    (h : Gapless x.store) {changes : List Change}
    (hlast : ∀ before album after, changes = before ++ .deleteAlbum album :: after →
      DeletesLast (Catalogue.directHistory ids before x).store album) :
    Gapless (Catalogue.directHistory ids changes x).store := by
  -- the condition for a deletion is about the changes before it
  induction changes using List.reverseRecOn with
  | nil => exact h
  | append_singleton changes change ih =>
    have hbefore : Gapless (Catalogue.directHistory ids changes x).store := by
      refine ih fun before album after hchanges => hlast before album (after ++ [change]) ?_
      rw [hchanges, List.append_assoc, List.cons_append]
    have hstep : Catalogue.directHistory ids (changes ++ [change]) x =
        ((change.direct ids).run.run (Catalogue.directHistory ids changes x)).2 :=
      List.foldl_concat ..
    rw [hstep]
    exact hbefore.step ids fun album hchange => hlast changes album [] (hchange ▸ rfl)

/-! ### Sessions -/

/-- Whenever an album is deleted, it takes only last entries of playlists with it. -/
def OnlyLastDeleted (c : Catalogue (Server relations ι)) (changes : List Change)
    (w : World (Server relations ι)) : Prop :=
  ∀ before album after, changes = before ++ .deleteAlbum album :: after →
    DeletesLast (history c before w).host.store album

theorem comesLast_mapError {ε δ : Type} {s : Store relations} {playlist : Identifier}
    {f : ε → δ} {r : Except ε UInt64} :
    ComesLast s playlist (r.mapError f) ↔ ComesLast s playlist r := by
  cases r <;> simp [ComesLast, Except.mapError]

/-- The store after several operations is that of the computations. -/
theorem store_history {d : Dialect} (hd : d.Lexical) (hrows : d.PlainRows)
    (ids : Identifier.Source ι Error) (changes : List Change) (w : World (Server relations ι)) :
    (history (served d ids) changes w).host.store =
      (directHistory ids changes (w.state false)).store :=
  congrArg State.store (state_history hd hrows ids changes w)

/-- **When an appended entry comes last.** After changes of a store that was empty, it does if and
only if the count of the entries is a number for a position and none of the positions before it is
missing. As long as the entries that go with an album are the last ones, none is missing, and the
order of the positions is that of the insertion. -/
theorem append_comes_last_iff {d : Dialect} (hd : d.Lexical) (hrows : d.PlainRows)
    (ids : Identifier.Source ι Error) (changes : List Change) (w : World (Server relations ι))
    (hempty : w.host.store = Store.empty relations) :
    let c := served d ids
    let w' := history c changes w
    let s := w'.host.store
    (OnlyLastDeleted c changes w → Gapless s) ∧
    ∀ playlist track, HasPlaylist s playlist → HasTrack s track →
      (ComesLast s playlist ((c.append playlist track).run.run w').1 ↔
        (positions s playlist).length < 2 ^ 63 ∧
          ∀ k < (positions s playlist).length, place k ∈ positions s playlist) := by
  intro c w' s
  have hstart : (w.state false).store = Store.empty relations := hempty
  refine ⟨fun honly => ?_, fun playlist track hplaylist htrack => ?_⟩
  · have hgapless : Gapless (w.state false).store := by
      rw [hstart]
      exact fun playlist => rfl
    have hs : s = _ := store_history hd hrows ids changes w
    rw [hs]
    refine hgapless.directHistory ids fun before album after hchanges => ?_
    rw [← store_history hd hrows]
    exact honly before album after hchanges
  · have hcounted : Counted (w'.state false).store := by
      have hs : (w'.state false).store = _ := store_history hd hrows ids changes w
      rw [hs]
      refine Counted.directHistory ids ?_ changes
      rw [hstart]
      exact fun row hrow => nomatch hrow
    obtain ⟨hresult, -, -⟩ := (Change.append playlist track).simulates hd hrows ids w'
    have happend : ((c.append playlist track).run.run w').1 = _ := hresult
    rw [happend, comesLast_mapError]
    exact comesLast_append_iff ids hcounted hplaylist htrack

/-! ### A gap -/

/-- A clock that stands still, and the same bytes again and again. -/
def still : Identifier.Source Unit Error where
  now s := (0, s)
  noise s := (.ok ⟨List.replicate 10 0, rfl⟩, s)

/-- The identifiers that are drawn, from 0. -/
def drawn (n : UInt8) : Identifier :=
  ⟨[0, 0, 0, 0, 0, 0, 0x40, 0, 0x80, 0, 0, 0, 0, 0, 0, n], rfl⟩

/-- Nothing is there yet. -/
def untouched : World (Server relations Unit) where
  host := ⟨Store.empty relations, Store.empty relations, ()⟩

/-- A playlist with the two tracks of an album, and behind them the track of another. -/
def twoAlbums : List Change :=
  [.createPlaylist "all", .addArtist "someone",
    .addAlbum (drawn 1) ⟨"first", none⟩ [⟨"one", 1, none, false⟩, ⟨"two", 2, none, false⟩],
    .addAlbum (drawn 1) ⟨"second", none⟩ [⟨"three", 1, none, false⟩],
    .append (drawn 0) (drawn 3), .append (drawn 0) (drawn 4), .append (drawn 0) (drawn 6)]

/-- The world after the deletion of one of the albums. -/
def withoutAlbum (album : Identifier) : World (Server relations Unit) :=
  history (served .sqlite still) (twoAlbums ++ [.deleteAlbum album]) untouched

theorem state_withoutAlbum (album : Identifier) : (withoutAlbum album).state false =
    directHistory still (twoAlbums ++ [.deleteAlbum album]) (untouched.state false) := by
  rw [withoutAlbum, state_history Dialect.lexical_sqlite (.inr rfl)]

theorem store_withoutAlbum (album : Identifier) : (withoutAlbum album).host.store =
    (directHistory still (twoAlbums ++ [.deleteAlbum album]) (untouched.state false)).store := by
  rw [withoutAlbum, store_history Dialect.lexical_sqlite (.inr rfl)]

/-- If the second album is deleted, what is appended then comes last. -/
theorem append_comes_last_second_deleted :
    let c := served .sqlite still
    let changes := twoAlbums ++ [.deleteAlbum (drawn 5)]
    let s := (withoutAlbum (drawn 5)).host.store
    OnlyLastDeleted c changes untouched ∧ Gapless s ∧
      HasPlaylist s (drawn 0) ∧ HasTrack s (drawn 3) ∧
      positions s (drawn 0) = [place 0, place 1] ∧
      ComesLast s (drawn 0)
        ((c.append (drawn 0) (drawn 3)).run.run (withoutAlbum (drawn 5))).1 := by
  have hrows : Dialect.sqlite.PlainRows := .inr rfl
  have honly : OnlyLastDeleted (served .sqlite still) (twoAlbums ++ [.deleteAlbum (drawn 5)])
      untouched := by
    intro before album after hchanges
    have hbefore : before = twoAlbums ∧ album = drawn 5 := by
      obtain rfl | ⟨after, last, rfl⟩ := List.eq_nil_or_concat after
      · obtain ⟨htwo, hdelete⟩ := List.append_inj' hchanges rfl
        cases hdelete
        exact ⟨htwo.symm, rfl⟩
      · rw [List.concat_eq_append, ← List.cons_append, ← List.append_assoc] at hchanges
        have hmem : Change.deleteAlbum album ∈ twoAlbums := by
          rw [(List.append_inj' hchanges rfl).1]
          simp
        simp [twoAlbums] at hmem
    obtain ⟨rfl, rfl⟩ := hbefore
    rw [store_history Dialect.lexical_sqlite hrows]
    decide +kernel
  have hs : HasPlaylist (withoutAlbum (drawn 5)).host.store (drawn 0) ∧
      HasTrack (withoutAlbum (drawn 5)).host.store (drawn 3) ∧
      positions (withoutAlbum (drawn 5)).host.store (drawn 0) = [place 0, place 1] := by
    rw [store_withoutAlbum]
    decide +kernel
  obtain ⟨hplaylist, htrack, hpositions⟩ := hs
  obtain ⟨hgapless, hlast⟩ := append_comes_last_iff Dialect.lexical_sqlite hrows still
    (twoAlbums ++ [.deleteAlbum (drawn 5)]) untouched rfl
  rw [← withoutAlbum] at hgapless hlast
  refine ⟨honly, hgapless honly, hplaylist, htrack, hpositions,
    (hlast _ _ hplaylist htrack).2 ?_⟩
  rw [hpositions]
  decide

/-- **If the first album is deleted, what is appended then does not come last**: it gets the
position 1, in front of the entry that is there. -/
theorem append_behind_gap :
    let c := served .sqlite still
    let s := (withoutAlbum (drawn 2)).host.store
    let r := ((c.append (drawn 0) (drawn 6)).run.run (withoutAlbum (drawn 2))).1
    HasPlaylist s (drawn 0) ∧ HasTrack s (drawn 6) ∧ positions s (drawn 0) = [place 2] ∧
      r = .ok 1 ∧ ¬ComesLast s (drawn 0) r := by
  have hstored : HasPlaylist (withoutAlbum (drawn 2)).host.store (drawn 0) ∧
      HasTrack (withoutAlbum (drawn 2)).host.store (drawn 6) ∧
      positions (withoutAlbum (drawn 2)).host.store (drawn 0) = [place 2] := by
    rw [store_withoutAlbum]
    decide +kernel
  obtain ⟨hplaylist, htrack, hpositions⟩ := hstored
  have hdirect : (((Change.append (drawn 0) (drawn 6)).direct still).run.run
      ((withoutAlbum (drawn 2)).state false)).1.toOption = some 1 := by
    rw [state_withoutAlbum]
    decide +kernel
  obtain ⟨hresult, -, -⟩ := (Change.append (drawn 0) (drawn 6)).simulates Dialect.lexical_sqlite
    (.inr rfl) still (withoutAlbum (drawn 2))
  rcases hrun : (((Change.append (drawn 0) (drawn 6)).direct still).run.run
    ((withoutAlbum (drawn 2)).state false)).1 with cause | position
  · rw [hrun] at hdirect
    cases hdirect
  · rw [hrun] at hdirect hresult
    cases hdirect
    refine ⟨hplaylist, htrack, hpositions, hresult, ?_⟩
    rintro ⟨position, hposition, habove⟩
    cases hresult.symm.trans hposition
    have htwo : Cell.integer 2 ∈ positions (withoutAlbum (drawn 2)).host.store (drawn 0) := by
      rw [hpositions]
      exact List.mem_singleton_self _
    exact absurd (habove 2 htwo) (by decide)

end Discography.Catalogue
