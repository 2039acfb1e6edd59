import Discography.Proofs.Database.Store
import Discography.Proofs.Query.Selection
import Mathlib.Data.List.Lex
import Mathlib.Data.List.Sort

/-!
# The order of selected rows

How a database compares texts is its own affair. All that is known is that it compares any two
cells, and that different blobs stand in different places, so rows have an order as soon as one of
the keys is a column of blobs that tells them apart. Rows that no key tells apart may come in any
order.

## Main definitions

* `Collation`: a comparison of cells
* `Collation.Sorts`, `Collation.IsSorted`: the order of rows by some keys
* `Collation.bytewise`: the collation that compares characters and bytes
* `Selection.window`: the part of sorted rows that a selection asks for
* `Selection.Returns`: what a database may return for a selection

## Main results

* `Collation.exists_isSorted_map`: rows that are made of items have an order
* `Collation.IsSorted.unique`: keys that tell all rows apart leave one order only
-/

namespace Discography

/-- How a database compares cells. Cells that are neither in front of nor behind each other may
still differ, as texts that differ in case may, but blobs do not. -/
structure Collation where
  le : Cell → Cell → Prop
  total : ∀ x y, le x y ∨ le y x
  trans : ∀ {x y z}, le x y → le y z → le x z
  antisymm_blob : ∀ {a b}, le (.blob a) (.blob b) → le (.blob b) (.blob a) → a = b

namespace Collation

variable (c : Collation) {k : SortKey} {keys : List SortKey} {row row' row'' : Tuple}

/-- A row does not stand behind another one if rows are sorted by one key. -/
def Orders (k : SortKey) (row row' : Tuple) : Prop :=
  if k.descending then c.le (row' k.column) (row k.column) else c.le (row k.column) (row' k.column)

/-- A row does not stand behind another one if rows are sorted by some keys. A key decides only
about rows that the keys in front of it do not tell apart. -/
def Sorts : List SortKey → Tuple → Tuple → Prop
  | [], _, _ => True
  | k :: keys, row, row' => c.Orders k row row' ∧ (c.Orders k row' row → Sorts keys row row')

instance [DecidableRel c.le] (k : SortKey) : DecidableRel (c.Orders k) := fun row row' =>
  inferInstanceAs (Decidable (if k.descending then c.le (row' k.column) (row k.column)
    else c.le (row k.column) (row' k.column)))

instance decidableSorts [DecidableRel c.le] : ∀ keys, DecidableRel (c.Sorts keys)
  | [], _, _ => inferInstanceAs (Decidable True)
  | k :: keys, row, row' =>
    haveI := decidableSorts keys row row'
    inferInstanceAs (Decidable (c.Orders k row row' ∧ (c.Orders k row' row → _)))

variable {c}

theorem orders_total (k : SortKey) (row row' : Tuple) :
    c.Orders k row row' ∨ c.Orders k row' row := by
  rw [Orders, Orders]
  cases k.descending with
  | false => exact c.total _ _
  | true => exact c.total _ _

theorem Orders.trans (h : c.Orders k row row') (h' : c.Orders k row' row'') :
    c.Orders k row row'' := by
  rw [Orders] at h h' ⊢
  cases hk : k.descending with
  | false =>
    rw [hk] at h h'
    exact c.trans h h'
  | true =>
    rw [hk] at h h'
    exact c.trans h' h

theorem sorts_total (keys : List SortKey) (row row' : Tuple) :
    c.Sorts keys row row' ∨ c.Sorts keys row' row := by
  induction keys with
  | nil => exact .inl trivial
  | cons k keys ih =>
    rw [Sorts, Sorts]
    have := c.orders_total k row row'
    tauto

theorem Sorts.trans (h : c.Sorts keys row row') (h' : c.Sorts keys row' row'') :
    c.Sorts keys row row'' := by
  induction keys with
  | nil => trivial
  | cons k keys ih =>
    obtain ⟨hk, hrest⟩ := h
    obtain ⟨hk', hrest'⟩ := h'
    refine ⟨hk.trans hk', fun hback => ?_⟩
    exact ih (hrest (hk'.trans hback)) (hrest' (hback.trans hk))

variable (c) in
/-- The rows in the order of some keys. -/
def IsSorted (keys : List SortKey) (rows sorted : List Tuple) : Prop :=
  sorted.Perm rows ∧ sorted.Pairwise (c.Sorts keys)

instance (keys : List SortKey) : Std.Total (c.Sorts keys) := ⟨sorts_total keys⟩

instance (keys : List SortKey) : IsTrans Tuple (c.Sorts keys) := ⟨fun _ _ _ => Sorts.trans⟩

theorem isSorted_insertionSort [DecidableRel c.le] (keys : List SortKey) (rows : List Tuple) :
    c.IsSorted keys rows (rows.insertionSort (c.Sorts keys)) :=
  ⟨List.perm_insertionSort _ rows, List.pairwise_insertionSort _ rows⟩

/-- Items are sorted by the rows that are made of them. -/
theorem exists_isSorted_map {α : Type} (c : Collation) (keys : List SortKey) (row : α → Tuple)
    (items : List α) : ∃ sorted : List α, sorted.Perm items ∧
      sorted.Pairwise (fun a b => c.Sorts keys (row a) (row b)) ∧
      c.IsSorted keys (items.map row) (sorted.map row) := by
  classical
  have hperm := List.perm_insertionSort (Order.Preimage row (c.Sorts keys)) items
  have hpairwise := List.pairwise_insertionSort (Order.Preimage row (c.Sorts keys)) items
  exact ⟨_, hperm, hpairwise, hperm.map row, List.pairwise_map.mpr hpairwise⟩

/-- Keys that tell all rows apart leave one order only. -/
theorem IsSorted.unique {rows sorted sorted' : List Tuple}
    (hrows : ∀ row ∈ rows, ∀ row' ∈ rows, c.Sorts keys row row' → c.Sorts keys row' row →
      row = row')
    (h : c.IsSorted keys rows sorted) (h' : c.IsSorted keys rows sorted') : sorted = sorted' :=
  List.Perm.eq_of_pairwise (fun row row' hrow hrow' =>
    hrows row (h.1.subset hrow) row' (h'.1.subset hrow')) h.2 h'.2 (h.1.trans h'.1.symm)

/-- Numbers whose order, from the first one on, is the order of cells: null in front of numbers,
texts and blobs, and texts and blobs in the order of their characters and bytes. -/
def rank : Cell → List Nat
  | .null => [0]
  | .integer i => [1, (i.toInt - Int64.minValue.toInt).toNat]
  | .real x => [2, x.bits.toNat]
  | .text s => 3 :: s.toList.map Char.toNat
  | .blob bytes => 4 :: bytes.map UInt8.toNat

/-- The collation that compares characters and bytes. -/
def bytewise : Collation where
  le x y := rank x ≤ rank y
  total x y := le_total (rank x) (rank y)
  trans := le_trans
  antisymm_blob h h' := by
    have hrank := (List.cons.inj (le_antisymm h h')).2
    exact List.map_injective_iff.mpr (fun _ _ => UInt8.toNat_inj.mp) hrank

instance : DecidableRel bytewise.le := fun x y => inferInstanceAs (Decidable (rank x ≤ rank y))

end Collation

namespace Selection

/-- The part of sorted rows that a selection asks for. -/
def window (s : Selection) {α : Type} (sorted : List α) : List α :=
  s.limit.elim (sorted.drop s.offset) fun n => (sorted.drop s.offset).take n

/-- What a database may return for a selection: of its rows, sorted by the keys, those that the
selection asks for, each with the cells of the selected columns. -/
def Returns (s : Selection) (c : Collation) (rows : List Tuple) (reply : List Row) : Prop :=
  ∃ sorted, c.IsSorted s.keys rows sorted ∧
    reply = (s.window sorted).map fun row => s.columns.map row

theorem window_map {α β : Type} (s : Selection) (f : α → β) (sorted : List α) :
    s.window (sorted.map f) = (s.window sorted).map f := by
  rw [window, window]
  cases s.limit <;> simp

end Selection

end Discography
