import Discography.Page
import Mathlib.Algebra.Order.Floor.Div

/-!
# Pages of a listing

The numbers of a page come from separate calculations: where it begins, how many pages there are,
and whether one follows. They agree for every page number and every page size but zero, also for
exact multiples of the size and beyond the last page, as long as the number of pages has 32 bits.

## Main definitions

* `Page.Shows`: a page shows its part of a listing

## Main results

* `PageRequest.toNat_offset`: an offset never overflows
* `Page.shows_ofItems`: the part of a listing from the offset on, up to the limit, is a page of it
* `Page.flatMap_items`: the pages of a listing, one after the other, are the listing
-/

namespace Discography

namespace PageRequest

/-- A product of numbers of 32 bits has 64. -/
theorem toNat_offset (r : PageRequest) : r.offset.toNat = r.page.toNat * r.pageSize.toNat := by
  have hbound : r.page.toNat * r.pageSize.toNat < 2 ^ 32 * 2 ^ 32 :=
    Nat.mul_lt_mul'' r.page.toNat_lt r.pageSize.toNat_lt
  rw [offset, UInt64.toNat_mul, UInt32.toNat_toUInt64, UInt32.toNat_toUInt64]
  exact Nat.mod_eq_of_lt hbound

theorem toNat_limit (r : PageRequest) : r.limit.toNat = r.pageSize.toNat :=
  r.pageSize.toNat_toUInt64

end PageRequest

namespace Page

variable {α : Type}

/-- A page shows its part of a listing, and tells of the whole listing how long it is, how many
pages it has, and whether there are any before and behind. -/
structure Shows (p : Page α) (listing : List α) (r : PageRequest) : Prop where
  page : p.page = r.page
  pageSize : p.pageSize = r.pageSize
  items : p.items = (listing.drop (r.page.toNat * r.pageSize.toNat)).take r.pageSize.toNat
  total : p.total.toNat = listing.length
  totalPages : p.totalPages.toNat = listing.length ⌈/⌉ r.pageSize.toNat
  /-- The number of the next page has 32 bits unless this is the last number with 32 bits. -/
  hasNext : r.page.toNat < UInt32.size - 1 →
    p.hasNext? = some (decide ((r.page.toNat + 1) * r.pageSize.toNat < listing.length))
  hasPrevious : p.hasPrevious = decide (0 < r.page.toNat)

/-- The number of pages, rounded up, as far as 32 bits count them. -/
theorem toNat_count {total : UInt64} {size : UInt32} (hsize : size ≠ 0)
    (h : total.toNat ⌈/⌉ size.toNat ≤ UInt32.size - 1) :
    (count total size).toNat = total.toNat ⌈/⌉ size.toNat := by
  rw [Nat.ceilDiv_eq_add_pred_div] at h ⊢
  rw [count, if_neg hsize, Nat.min_eq_left h, UInt32.toNat_ofNat']
  exact Nat.mod_eq_of_lt (Nat.lt_of_le_pred (by decide) h)

/-- A page is among the pages if something of the listing is left for it. -/
theorem lt_ceilDiv_iff {n total size : Nat} (hsize : 0 < size) :
    n < total ⌈/⌉ size ↔ n * size < total := by
  rw [← not_le, ceilDiv_le_iff_le_smul hsize, not_le, smul_eq_mul, Nat.mul_comm]

/-- The rows from the offset of a page on, up to its limit, are what the page shows. -/
theorem shows_ofItems {listing items : List α} {total : UInt64} {r : PageRequest}
    (hsize : r.pageSize ≠ 0) (hpages : listing.length ⌈/⌉ r.pageSize.toNat ≤ UInt32.size - 1)
    (htotal : total.toNat = listing.length)
    (hitems : items = (listing.drop r.offset.toNat).take r.limit.toNat) :
    (ofItems items total r).Shows listing r := by
  have hpositive : 0 < r.pageSize.toNat := Nat.pos_of_ne_zero (UInt32.toNat_inj.not.mpr hsize)
  have hcount : (ofItems items total r).totalPages.toNat =
      listing.length ⌈/⌉ r.pageSize.toNat := by
    rw [← htotal] at hpages ⊢
    exact toNat_count hsize hpages
  refine ⟨rfl, rfl, ?_, htotal, hcount, fun hlast => ?_, ?_⟩
  · rw [← r.toNat_offset, ← r.toNat_limit]
    exact hitems
  · have hnext : (ofItems items total r).hasNext? =
        some (decide (r.page.toNat + 1 < (ofItems items total r).totalPages.toNat)) :=
      if_pos (Nat.add_lt_of_lt_sub hlast)
    rw [hnext, hcount]
    exact congrArg some (decide_eq_decide.mpr (lt_ceilDiv_iff hpositive))
  · rfl

/-- Parts of the same size, one after the other, are a whole. -/
theorem flatMap_take_drop (listing : List α) (size n : Nat) :
    ((List.range n).flatMap fun i => (listing.drop (i * size)).take size) =
      listing.take (n * size) := by
  induction n with
  | zero => simp
  | succ n ih =>
    rw [List.range_succ, List.flatMap_append, ih, List.flatMap_singleton, Nat.succ_mul,
      List.take_add]

/-- The pages of a listing, one after the other, are the listing. -/
theorem flatMap_items {listing : List α} {size : UInt32} (hsize : size ≠ 0)
    (hpages : listing.length ⌈/⌉ size.toNat ≤ UInt32.size - 1) {pages : List (Page α)}
    (h : List.Forall₂ (fun n (p : Page α) => p.Shows listing ⟨UInt32.ofNat n, size⟩)
      (List.range (listing.length ⌈/⌉ size.toNat)) pages) :
    pages.flatMap (·.items) = listing := by
  have hpositive : 0 < size.toNat := Nat.pos_of_ne_zero (UInt32.toNat_inj.not.mpr hsize)
  have hitems : pages.map (·.items) = (List.range (listing.length ⌈/⌉ size.toNat)).map
      fun n => (listing.drop (n * size.toNat)).take size.toNat := by
    rw [← List.forall₂_eq_eq_eq, List.forall₂_map_left_iff, List.forall₂_map_right_iff]
    have hnumbers : ∀ n ∈ List.range (listing.length ⌈/⌉ size.toNat),
        (UInt32.ofNat n).toNat = n := by
      intro n hn
      have hlt := List.mem_range.mp hn
      exact UInt32.toNat_ofNat_of_lt' (by omega)
    refine List.Forall₂.flip (((List.forall₂_and_left _ _).mpr ⟨hnumbers, h⟩).imp ?_)
    rintro n p ⟨hn, hp⟩
    rw [flip, hp.items, hn]
  rw [List.flatMap, hitems, ← List.flatMap, flatMap_take_drop, List.take_of_length_le]
  rw [Nat.mul_comm]
  exact le_smul_ceilDiv hpositive

end Page

end Discography
