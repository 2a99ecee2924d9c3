import Mathlib.Data.Set.Pairwise.Lattice
import Mathlib.Order.CompletePartialOrder
import Mathlib.Order.Interval.Set.Defs
import Relational.Paging.Offset
/-
The pages of a result tile it.

A page by number shows the rows from its offset on, as many as the page holds.  Offsets are cut
off at sixty-four bits, the number of pages is rounded up, and an empty result has a page too.
All that is said of pages comes from one fact: a page is among those of a result exactly if it
is the first, or if the pages in front of it leave some row.  An offset that leaves some row is
below the total, so it is never cut off, and one that is cut off is still not below it.
-/
namespace Relational

theorem toNat_saturated (n : Nat) : (saturated n).toNat = min n (UInt64.size - 1) := by
  rw [saturated, UInt64.toNat_ofNat']
  exact Nat.mod_eq_of_lt (Nat.lt_of_le_of_lt (Nat.min_le_right _ _) (by decide))

namespace OffsetPager

variable {p r : OffsetPager} {total : UInt64}

/-- The rows of a result that the page shows, counted from zero. -/
def window (total : UInt64) (p : OffsetPager) : Set Nat :=
  Set.Ico p.offset.toNat (p.offset.toNat + p.perPage.toNat) ∩ Set.Iio total.toNat

/-- The pages of a size, up to the last one. -/
def pages (perPage last : UInt64) : Set OffsetPager :=
  {p | p.perPage = perPage ∧ p.page ≤ last}

/-- Every page of every size can be asked for, if neither is zero. -/
theorem make_eq_ok {page perPage : UInt64} (hpage : 0 < page.toNat) (hsize : 0 < perPage.toNat) :
    make page perPage = .ok ⟨page, perPage, hpage, hsize⟩ := by
  rw [make, dif_pos hpage, dif_pos hsize]

/-! ### Which pages there are -/

/-- Rounding up: there is a further part exactly if those in front of it leave something. -/
theorem succ_le_ceil_iff {n size rows : Nat} (hsize : 0 < size) :
    n + 1 ≤ (rows + size - 1) / size ↔ n * size < rows := by
  rw [Nat.le_div_iff_mul_le hsize, Nat.succ_mul]
  omega

theorem toNat_lastPage (p : OffsetPager) (total : UInt64) :
    (p.lastPage total).toNat =
      max 1 ((total.toNat + p.perPage.toNat - 1) / p.perPage.toNat) := by
  have hceil : (total.toNat + p.perPage.toNat - 1) / p.perPage.toNat ≤ total.toNat := by
    refine Nat.le_of_not_lt fun hlt => ?_
    have hleft := (succ_le_ceil_iff p.perPage_pos).mp hlt
    exact absurd hleft (Nat.not_lt.mpr (Nat.le_mul_of_pos_right _ p.perPage_pos))
  have htotal := total.toNat_lt
  rw [lastPage, UInt64.toNat_ofNat']
  exact Nat.mod_eq_of_lt (by omega)

/-- A page is the first, or the pages in front of it leave some row. -/
theorem lt_lastPage_iff (n : Nat) :
    n < (p.lastPage total).toNat ↔ n = 0 ∨ n * p.perPage.toNat < total.toNat := by
  rw [toNat_lastPage, ← succ_le_ceil_iff p.perPage_pos]
  omega

theorem page_le_lastPage_iff :
    p.page ≤ p.lastPage total ↔
      p.page.toNat = 1 ∨ (p.page.toNat - 1) * p.perPage.toNat < total.toNat := by
  have hpage := p.page_pos
  rw [UInt64.le_iff_toNat_le, show p.page.toNat = p.page.toNat - 1 + 1 by omega,
    Nat.succ_le_iff, lt_lastPage_iff]
  simp

/-! ### Where they start -/

theorem toNat_offset (p : OffsetPager) :
    p.offset.toNat = min ((p.page.toNat - 1) * p.perPage.toNat) (UInt64.size - 1) :=
  toNat_saturated _

/-- The offset of a page of the result is not cut off. -/
theorem toNat_offset_of_le (h : p.page ≤ p.lastPage total) :
    p.offset.toNat = (p.page.toNat - 1) * p.perPage.toNat := by
  rw [toNat_offset]
  refine Nat.min_eq_left ?_
  have htotal : total.toNat < UInt64.size := total.toNat_lt
  rcases page_le_lastPage_iff.mp h with hfirst | hleft
  · simp [hfirst]
  · omega

/-- A page behind the last one starts behind all rows. -/
theorem total_le_offset (h : p.lastPage total < p.page) : total ≤ p.offset := by
  have hnone : total.toNat ≤ (p.page.toNat - 1) * p.perPage.toNat := by
    by_contra hlt
    exact absurd (page_le_lastPage_iff.mpr (.inr (Nat.lt_of_not_le hlt))) (UInt64.not_le.mpr h)
  have htotal : total.toNat < UInt64.size := total.toNat_lt
  rw [UInt64.le_iff_toNat_le, toNat_offset]
  omega

/-- There is a later page exactly if this one and those in front of it leave some row. -/
theorem hasMore_iff (p : OffsetPager) (items : List Row) (total : UInt64) :
    (p.pageOf items total).hasMore = true ↔ p.page.toNat * p.perPage.toNat < total.toNat := by
  have hpage := p.page_pos
  have hmore : (p.pageOf items total).hasMore = true ↔ p.page < p.lastPage total :=
    decide_eq_true_iff
  rw [hmore, UInt64.lt_iff_toNat_lt, lt_lastPage_iff]
  exact or_iff_right (by omega)

/-! ### What they show -/

/-- A page shows the rows that as many whole pages fit in front of as there are pages before it. -/
theorem mem_window_iff (h : p.page ≤ p.lastPage total) {row : Nat} :
    row ∈ p.window total ↔ row < total.toNat ∧ row / p.perPage.toNat = p.page.toNat - 1 := by
  have hquotient : row / p.perPage.toNat = p.page.toNat - 1 ↔
      (p.page.toNat - 1) * p.perPage.toNat ≤ row ∧
        row < (p.page.toNat - 1) * p.perPage.toNat + p.perPage.toNat := by
    have hsize := p.perPage_pos
    rw [Nat.div_eq_iff hsize]
    omega
  rw [hquotient, window, toNat_offset_of_le h]
  exact and_comm

variable {perPage last : UInt64}

/-- A row is shown by one page only. -/
theorem pairwiseDisjoint_window
    (hlast : ∀ p : OffsetPager, p.perPage = perPage → p.lastPage total = last) :
    (pages perPage last).PairwiseDisjoint (window total) := by
  rintro p ⟨hsize, hp⟩ r ⟨hsame, hr⟩ hne
  refine Set.disjoint_left.mpr fun row hrow hother => hne ?_
  have hfront := ((mem_window_iff (hp.trans_eq (hlast p hsize).symm)).mp hrow).2
  have hbehind := ((mem_window_iff (hr.trans_eq (hlast r hsame).symm)).mp hother).2
  have hpage := p.page_pos
  have hpage' := r.page_pos
  have hequal : p.page = r.page := by
    rw [hsize] at hfront
    rw [hsame] at hbehind
    exact UInt64.toNat_inj.mp (by omega)
  cases p
  cases r
  cases hsize
  cases hsame
  cases hequal
  rfl

/-- Every row is shown by some page. -/
theorem exists_page (hlast : ∀ p : OffsetPager, p.perPage = perPage → p.lastPage total = last)
    (hsize : 0 < perPage.toNat) {row : Nat} (hrow : row < total.toNat) :
    ∃ p ∈ pages perPage last, row ∈ p.window total := by
  have hnumber : (UInt64.ofNat (row / perPage.toNat + 1)).toNat = row / perPage.toNat + 1 := by
    have htotal := total.toNat_lt
    have hquotient : row / perPage.toNat ≤ row := Nat.div_le_self _ _
    rw [UInt64.toNat_ofNat']
    exact Nat.mod_eq_of_lt (by omega)
  let p : OffsetPager :=
    ⟨.ofNat (row / perPage.toNat + 1), perPage, by rw [hnumber]; exact Nat.succ_pos _, hsize⟩
  have hfront : p.page.toNat - 1 = row / perPage.toNat := by
    rw [hnumber, Nat.add_sub_cancel]
  have hpage : p.page ≤ p.lastPage total := by
    rw [page_le_lastPage_iff, hfront]
    exact .inr (Nat.lt_of_le_of_lt (Nat.div_mul_le_self _ _) hrow)
  exact ⟨p, ⟨rfl, hpage.trans_eq (hlast p rfl)⟩, (mem_window_iff hpage).mpr ⟨hrow, hfront.symm⟩⟩

/-- **The pages of a result tile it.** For every size of a page but zero and every number of rows,
there is a last page, the same whichever page is asked for.  Up to it, a page starts exactly
behind the rows of those in front of it, and the pages show every row once.  Any page has a later
one exactly if it and those in front of it leave some row, and behind the last one a page starts
behind all rows. -/
theorem pages_tile_result (perPage total : UInt64) (hsize : 0 < perPage.toNat)
    (items : List Row) : ∃ last : UInt64,
    (∀ page, 0 < page.toNat → ∃ p, make page perPage = .ok p ∧
      (p.pageOf items total).lastPage = last ∧
      (page ≤ last → p.offset.toNat = (page.toNat - 1) * perPage.toNat) ∧
      ((p.pageOf items total).hasMore = true ↔ page.toNat * perPage.toNat < total.toNat) ∧
      (last < page → total ≤ p.offset)) ∧
    (pages perPage last).PairwiseDisjoint (window total) ∧
    ⋃ p ∈ pages perPage last, p.window total = Set.Iio total.toNat := by
  let first : OffsetPager := ⟨1, perPage, by decide, hsize⟩
  have hlast : ∀ p : OffsetPager, p.perPage = perPage →
      p.lastPage total = first.lastPage total := by
    rintro p rfl
    rfl
  refine ⟨first.lastPage total, fun page hpage => ?_, pairwiseDisjoint_window hlast, ?_⟩
  · let p : OffsetPager := ⟨page, perPage, hpage, hsize⟩
    exact ⟨p, make_eq_ok hpage hsize, rfl, fun h => toNat_offset_of_le (p := p) h,
      hasMore_iff p items total, fun h => total_le_offset (p := p) h⟩
  · ext row
    simp only [Set.mem_iUnion, exists_prop, Set.mem_Iio]
    constructor
    · rintro ⟨p, -, hrow⟩
      exact hrow.2
    · exact exists_page hlast hsize

/-- The largest result there can be, in pages of two rows: the last page has one row, at an offset
that only just is a number of sixty-four bits. -/
theorem largest_result_tiled :
    0 < (2 : UInt64).toNat ∧ ∃ last : UInt64,
      (∃ p, make 9223372036854775808 2 = .ok p ∧
        (p.pageOf [] 18446744073709551615).lastPage = last ∧
        p.offset.toNat = 18446744073709551614 ∧
        ((p.pageOf [] 18446744073709551615).hasMore = true ↔
          18446744073709551616 < 18446744073709551615)) ∧
      (pages 2 last).PairwiseDisjoint (window 18446744073709551615) ∧
      ⋃ p ∈ pages 2 last, p.window 18446744073709551615 = Set.Iio 18446744073709551615 := by
  have hsize : 0 < (2 : UInt64).toNat := by decide
  obtain ⟨last, hpages, hdisjoint, hcover⟩ :=
    pages_tile_result 2 18446744073709551615 hsize []
  obtain ⟨p, hmake, hlast, hstart, hmore, -⟩ := hpages 9223372036854775808 (by decide)
  refine ⟨hsize, last, ⟨p, hmake, hlast, hstart ?_, hmore⟩, hdisjoint, hcover⟩
  cases hmake
  rw [← hlast]
  decide

end OffsetPager

end Relational
