import Discography.Json.Decode

/-!
# Pages

Listings are fetched page by page. Page numbers start at zero and have 32 bits; totals have 64.

## Main definitions

* `PageRequest`: the number and size of a page
* `Page`: the items of a page with the totals that navigation needs
-/

namespace Discography

/-- A page that is asked for. -/
structure PageRequest where
  page : UInt32 := 0
  pageSize : UInt32 := 50
  deriving DecidableEq

namespace PageRequest

/-- The number of rows before the page. -/
def offset (r : PageRequest) : UInt64 := r.page.toUInt64 * r.pageSize.toUInt64

/-- The number of rows on the page. -/
def limit (r : PageRequest) : UInt64 := r.pageSize.toUInt64

end PageRequest

/-- A page of items. -/
structure Page (α : Type) where
  items : List α
  /-- The number of items on all pages. -/
  total : UInt64
  page : UInt32
  totalPages : UInt32
  pageSize : UInt32

namespace Page

/-- The number of pages of the given size that `total` items fill, as far as 32 bits count them; no
page has size zero. -/
def count (total : UInt64) (pageSize : UInt32) : UInt32 :=
  if pageSize = 0 then 0
  else UInt32.ofNat (min ((total.toNat + pageSize.toNat - 1) / pageSize.toNat) (UInt32.size - 1))

/-- The page with the given items. -/
def ofItems {α : Type} (items : List α) (total : UInt64) (request : PageRequest) : Page α where
  items := items
  total := total
  page := request.page
  totalPages := count total request.pageSize
  pageSize := request.pageSize

/-- Whether a page follows; none if the number of the next page has no 32 bits. -/
def hasNext? {α : Type} (p : Page α) : Option Bool :=
  if p.page.toNat + 1 < UInt32.size then some (p.page.toNat + 1 < p.totalPages.toNat) else none

/-- Whether a page precedes. -/
def hasPrevious {α : Type} (p : Page α) : Bool := 0 < p.page

/-- The page with mapped items. -/
def map {α β : Type} (f : α → β) (p : Page α) : Page β := { p with items := p.items.map f }

end Page

instance : ToJson PageRequest where
  toJson r := .object [("page", toJson r.page), ("page_size", toJson r.pageSize)]

instance : FromJson PageRequest where
  fromJson j := do
    let members ← j.fields "PageRequest" [.required "page" UInt32, .required "page_size" UInt32]
    return ⟨← Json.field members "page", ← Json.field members "page_size"⟩

instance {α : Type} [ToJson α] : ToJson (Page α) where
  toJson p := .object
    [("items", toJson p.items), ("total", toJson p.total), ("page", toJson p.page),
      ("total_pages", toJson p.totalPages), ("page_size", toJson p.pageSize)]

instance {α : Type} [FromJson α] : FromJson (Page α) where
  fromJson j := do
    let members ← j.fields "Page"
      [.required "items" (List α), .required "total" UInt64, .required "page" UInt32,
        .required "total_pages" UInt32, .required "page_size" UInt32]
    return ⟨← Json.field members "items", ← Json.field members "total",
      ← Json.field members "page", ← Json.field members "total_pages",
      ← Json.field members "page_size"⟩

end Discography
