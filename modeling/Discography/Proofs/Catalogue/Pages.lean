import Discography.Proofs.Catalogue.ReadBack
import Discography.Proofs.Database.Reading
import Discography.Proofs.Page

/-!
# Pages of all tracks

A page is made of a count and of a selection with a limit and an offset, which are separate calls.
If the tracks do not change between the calls, all pages are parts of the same sorted list, because
tracks have different identifiers and are sorted by them after their titles.

## Main definitions

* `Track.Precedes`: the order of tracks
* `Catalogue.pageQuery`: the query for a page

## Main results

* `Catalogue.isSorted_unique`: tracks are in one order only
* `Catalogue.yields_trackPage`: a page shows its part of the sorted tracks
* `Catalogue.trackPages_tile`: the pages are all tracks, one after the other
-/

namespace Discography

/-- A track does not stand behind another one if tracks are sorted by title and then by identifier.
How titles compare is up to the database. -/
def Track.Precedes (c : Collation) (a b : Track) : Prop :=
  c.le (.text a.title) (.text b.title) ∧
    (c.le (.text b.title) (.text a.title) → c.le (.blob a.id.bytes) (.blob b.id.bytes))

/-- Tracks with different identifiers do not stand in the same place. -/
theorem Track.Precedes.id_eq {c : Collation} {a b : Track} (h : a.Precedes c b)
    (h' : b.Precedes c a) : a.id = b.id := by
  have hbytes : a.id.bytes = b.id.bytes := c.antisymm_blob (h.2 h'.1) (h'.2 h.1)
  exact (Identifier.mk.injEq ..).mpr hbytes

namespace Catalogue

variable {σ : Type} {c : Collation} {a b : Track} {all : List Track}

/-! ### The order of tracks -/

/-- The columns by which pages are sorted. -/
def pageOrder : List (Column × Option Direction) :=
  [(tracks.columnOf (plain "title" .string), none), (tracks.columnOf (plain "id" .binary), none)]

/-- The keys by which pages are sorted. -/
def pageKeys : List SortKey := [⟨"title", false⟩, ⟨"id", false⟩]

theorem sorts_pageKeys : c.Sorts pageKeys a.row.kept b.row.kept ↔ a.Precedes c b := by
  have htitle : ∀ t : Track, t.row.kept "title" = .text t.title := by
    intro t
    rw [Assignments.kept, Assignments.get?, entries_track]
    rfl
  have hid : ∀ t : Track, t.row.kept "id" = .blob t.id.bytes := by
    intro t
    rw [Assignments.kept, Assignments.get?, entries_track]
    rfl
  simp [pageKeys, Collation.Sorts, Collation.Orders, Track.Precedes, htitle, hid]

/-- Tracks are in one order only. -/
theorem isSorted_unique {sorted : List Track} (hids : (all.map (·.id)).Nodup)
    (h : c.IsSorted pageKeys (all.map fun t => t.row.kept) (sorted.map fun t => t.row.kept))
    {rows : List Tuple} (hrows : c.IsSorted pageKeys (all.map fun t => t.row.kept) rows) :
    rows = sorted.map fun t => t.row.kept := by
  refine hrows.unique (List.forall_mem_map.mpr fun a ha => List.forall_mem_map.mpr
    fun b hb hab hba => ?_) h
  have hid := (sorts_pageKeys.mp hab).id_eq (sorts_pageKeys.mp hba)
  rw [List.inj_on_of_nodup_map hids ha hb hid]

/-! ### The query of a page -/

/-- The query for a page, as it is built. -/
def pageQuery (d : Dialect) (r : PageRequest) : Query :=
  { Query.ofTable d tracks with
    order := pageOrder.map fun k => ⟨.column k.1, k.2⟩
    limit := some r.limit
    offset := some r.offset
    stage := .shaping }

theorem trackPageQuery_eq (d : Dialect) (r : PageRequest) :
    trackPageQuery d r = .ok (pageQuery d r) := rfl

theorem selects_pageQuery (d : Dialect) (r : PageRequest) :
    (pageQuery d r).Selects ["tracks"] pageOrder where
  origin := rfl
  joins := rfl
  filter := rfl
  ne := by
    have hlength := Projection.length_leaves_table tracks
    exact fun hnil => absurd (hlength.symm.trans (congrArg List.length hnil)) (by decide)
  columns leaf hleaf := by
    have hleaves : leaf ∈ (Projection.table tracks).leaves := hleaf
    rw [Projection.leaves_table, Table.columns, List.map_map] at hleaves
    obtain ⟨x, -, rfl⟩ := List.mem_map.mp hleaves
    rfl
  sorted := rfl
  keys := List.forall_mem_cons.mpr ⟨rfl, List.forall_mem_singleton.mpr rfl⟩
  limited _ := rfl

theorem exists_render_pageQuery (d : Dialect) (r : PageRequest) :
    ∃ rendered, (pageQuery d r).render = .ok rendered := by
  have hfinite : (pageQuery d r).FiniteConditions := by
    constructor <;> simp [pageQuery, Query.ofTable]
  exact (Query.exists_render_iff hfinite).2 (by decide : Stage.shaping ≠ .joining)

/-! ### Pages -/

/-- Every page shows its part of the sorted tracks. -/
theorem yields_trackPage {cat : Catalogue σ} {I : σ → Prop} (hd : cat.dialect.Lexical)
    (hrows : cat.dialect.PlainRows) (hids : (all.map (·.id)).Nodup)
    (hserves : cat.conn.Serves cat.dialect c tracks.origin.tokens (all.map fun t => t.row.kept) I)
    {sorted : List Track} (hperm : sorted.Perm all)
    (hsorted : c.IsSorted pageKeys (all.map fun t => t.row.kept)
      (sorted.map fun t => t.row.kept))
    {r : PageRequest} (hsize : r.pageSize ≠ 0)
    (hpages : all.length ⌈/⌉ r.pageSize.toNat ≤ UInt32.size - 1) :
    (cat.trackPage r).Yields I fun p => p.Shows sorted r := by
  rw [← hperm.length_eq] at hpages
  obtain ⟨counted, hcounted⟩ : ∃ sql, (Query.ofTable cat.dialect tracks).renderCount = .ok sql :=
    ⟨_, rfl⟩
  obtain ⟨rendered, hrendered⟩ := exists_render_pageQuery cat.dialect r
  have hcount : ((Query.ofTable cat.dialect tracks).count cat.conn).Yields I fun total =>
      total.toNat = sorted.length := by
    have hcount := hserves.yields_count (q := Query.ofTable cat.dialect tracks) hd hrows rfl rfl rfl
      hcounted
    rwa [List.length_map, ← hperm.length_eq] at hcount
  -- the selection begins at the offset and ends at the limit
  have hfetch : ((pageQuery cat.dialect r).fetchAs Track cat.conn).Yields I fun items =>
      items = (sorted.drop r.offset.toNat).take r.limit.toNat :=
    Connection.Serves.yields_fetchAs keeps_track hserves (selects_pageQuery cat.dialect r) hd rfl
      hrendered fun _ => isSorted_unique hids hsorted
  rw [trackPage]
  refine hcount.bind fun total htotal => ?_
  rw [trackPageQuery_eq, Session.ofExcept_ok_bind]
  refine hfetch.bind fun items hitems => Session.Yields.report_bind (Session.yields_pure ?_) _
  exact Page.shows_ofItems hsize hpages htotal hitems

/-- **The pages of all tracks tile them.** Let a database that keeps to one state answer from the
rows of tracks with different identifiers, and let the number of their pages have 32 bits. Then the
tracks have an order by title and identifier such that every page, also beyond the last one, shows
its part of them, and the pages, one after the other, are all tracks in this order. The number of
tracks before a page never exceeds 64 bits. -/
theorem trackPages_tile {cat : Catalogue σ} {I : σ → Prop} (hd : cat.dialect.Lexical)
    (hrows : cat.dialect.PlainRows) (hids : (all.map (·.id)).Nodup)
    (hserves : cat.conn.Serves cat.dialect c tracks.origin.tokens (all.map fun t => t.row.kept) I)
    {size : UInt32} (hsize : size ≠ 0)
    (hpages : all.length ⌈/⌉ size.toNat ≤ UInt32.size - 1) :
    (∃ sorted : List Track, sorted.Perm all ∧ sorted.Pairwise (Track.Precedes c) ∧
      (∀ page, (cat.trackPage ⟨page, size⟩).Yields I fun p => p.Shows sorted ⟨page, size⟩) ∧
      ((List.range (all.length ⌈/⌉ size.toNat)).mapM fun n =>
        cat.trackPage ⟨UInt32.ofNat n, size⟩).Yields I fun pages =>
          pages.flatMap (·.items) = sorted) ∧
    ∀ r : PageRequest, r.offset.toNat = r.page.toNat * r.pageSize.toNat := by
  obtain ⟨sorted, hperm, hpairwise, hsorted⟩ :=
    c.exists_isSorted_map pageKeys (fun t : Track => t.row.kept) all
  have hpage : ∀ page,
      (cat.trackPage ⟨page, size⟩).Yields I fun p => p.Shows sorted ⟨page, size⟩ := fun page =>
    yields_trackPage hd hrows hids hserves hperm hsorted hsize hpages
  refine ⟨⟨sorted, hperm, hpairwise.imp sorts_pageKeys.mp, hpage, ?_⟩, PageRequest.toNat_offset⟩
  refine (Session.yields_mapM fun n _ => hpage (UInt32.ofNat n)).mono fun pages hshown => ?_
  rw [← hperm.length_eq] at hpages hshown
  exact Page.flatMap_items hsize hpages hshown

/-- Three tracks as they were inserted. Two of them have the same title. -/
def shelf : List Track :=
  [⟨⟨List.replicate 16 7, rfl⟩, ⟨List.replicate 16 1, rfl⟩, "So What", 1, some 545000, false⟩,
    ⟨⟨List.replicate 16 9, rfl⟩, ⟨List.replicate 16 1, rfl⟩, "Blue in Green", 3, none, false⟩,
    ⟨⟨List.replicate 16 8, rfl⟩, ⟨List.replicate 16 2, rfl⟩, "Blue in Green", 4, none, true⟩]

/-- The catalogue of these tracks. -/
def shelved : Catalogue Unit where
  conn := ⟨Collation.bytewise.host .sqlite tracks.origin.tokens (shelf.map fun t => t.row.kept)
    ⟨fun s => (0, s), fun s => (.error (.random "no entropy"), s)⟩, false⟩
  dialect := .sqlite

instance : DecidableRel (Track.Precedes Collation.bytewise) := fun _ _ =>
  inferInstanceAs (Decidable (_ ∧ (_ → _)))

theorem serves_shelved : shelved.conn.Serves shelved.dialect .bytewise tracks.origin.tokens
    (shelf.map fun t => t.row.kept) fun _ => True :=
  Collation.bytewise.serves_host .sqlite _ _ _ false (by decide)

/-- Pages of two tracks show first the tracks of the same title, in the order of their identifiers,
and then the third one, alone. -/
theorem trackPages_tile_shelf :
    shelved.dialect.Lexical ∧ shelved.dialect.PlainRows ∧ (shelf.map (·.id)).Nodup ∧
    shelved.conn.Serves shelved.dialect .bytewise tracks.origin.tokens
      (shelf.map fun t => t.row.kept) (fun _ => True) ∧
    (2 : UInt32) ≠ 0 ∧ shelf.length ⌈/⌉ (2 : UInt32).toNat ≤ UInt32.size - 1 ∧
    ((List.range 2).mapM fun n => shelved.trackPage ⟨UInt32.ofNat n, 2⟩).Yields (fun _ => True)
      fun pages => pages.flatMap (·.items) = [shelf[2], shelf[1], shelf[0]] := by
  have hd : shelved.dialect.Lexical := Dialect.lexical_sqlite
  have hrows : shelved.dialect.PlainRows := .inr rfl
  have hids : (shelf.map (·.id)).Nodup := by decide
  have hsize : (2 : UInt32) ≠ 0 := by decide
  have hcount : shelf.length ⌈/⌉ (2 : UInt32).toNat = 2 := rfl
  have hpages : shelf.length ⌈/⌉ (2 : UInt32).toNat ≤ UInt32.size - 1 := by
    rw [hcount]
    decide
  obtain ⟨⟨sorted, hperm, hpairwise, -, htile⟩, -⟩ :=
    trackPages_tile hd hrows hids serves_shelved hsize hpages
  -- the tracks have one order only
  have hsorted : sorted = [shelf[2], shelf[1], shelf[0]] := by
    have hantisymm : ∀ a ∈ shelf, ∀ b ∈ shelf,
        a.Precedes .bytewise b → b.Precedes .bytewise a → a = b := by decide
    have hexpected : [shelf[2], shelf[1], shelf[0]].Perm shelf := by decide
    refine List.Perm.eq_of_pairwise (fun a b ha hb => ?_) hpairwise (by decide)
      (hperm.trans hexpected.symm)
    exact hantisymm a (hperm.subset ha) b (hexpected.subset hb)
  rw [hcount, hsorted] at htile
  exact ⟨hd, hrows, hids, serves_shelved, hsize, hpages, htile⟩

end Catalogue

end Discography
