import Relational.Paging.Error
import Relational.Query.Select
/-
Pages by number.

Pages are counted from one and all but the last have the same size.  Numbers are sixty-four bits
wide; where the first row of a page lies beyond them, the largest number stands for it.
-/
namespace Relational

/-- The smaller of a natural number and the largest of sixty-four bits. -/
def saturated (n : Nat) : UInt64 :=
  UInt64.ofNat (min n (UInt64.size - 1))

/-- A request for one page. -/
structure OffsetPager where
  page : UInt64
  perPage : UInt64
  page_pos : 0 < page.toNat
  perPage_pos : 0 < perPage.toNat

/-- One page of a result, and where it lies among the others. -/
structure OffsetPage where
  items : List Row
  perPage : UInt64
  currentPage : UInt64
  total : UInt64
  lastPage : UInt64
  hasMore : Bool

namespace OffsetPager

/-- Refuses a page or a size of zero. -/
def make (page perPage : UInt64) : Except PagingError OffsetPager :=
  if hp : 0 < page.toNat then
    if hs : 0 < perPage.toNat then .ok ⟨page, perPage, hp, hs⟩
    else .error (.invalidPage .sizeZero)
  else .error (.invalidPage .pageZero)

/-- Number of rows in front of the page. -/
def offset (p : OffsetPager) : UInt64 :=
  saturated ((p.page.toNat - 1) * p.perPage.toNat)

/-- The query cut down to the page. -/
def apply (p : OffsetPager) (q : Query) : Query :=
  (q.take p.perPage).skip p.offset

/-- The number of the last page; an empty result has one page too. -/
def lastPage (p : OffsetPager) (total : UInt64) : UInt64 :=
  UInt64.ofNat (max 1 ((total.toNat + p.perPage.toNat - 1) / p.perPage.toNat))

/-- The page, of its rows and the number of rows in all. -/
def pageOf (p : OffsetPager) (items : List Row) (total : UInt64) : OffsetPage :=
  { items
    perPage := p.perPage
    currentPage := p.page
    total
    lastPage := p.lastPage total
    hasMore := p.page < p.lastPage total }

end OffsetPager

end Relational
