import Relational.Text.Blank
import Relational.Text.Casing
/-
What lower case leaves out.

A letter that is moved to its lower case lands on a letter: none of the runs of the table ends in
a dot or in a blank.  So a text without dots has none in lower case, and a text without blanks is
one word in lower case too.  The two exceptions, sigma and the dotted capital I, become letters
and a mark above a letter.
-/
namespace Relational.Text

open Casing

/-! ### One character -/

/-- The dot and the blanks. -/
def separatorRanges : List (Nat × Nat) :=
  [(9, 13), (0x20, 0x20), (0x2E, 0x2E), (0x85, 0x85), (0xA0, 0xA0), (0x1680, 0x1680),
    (0x2000, 0x200A), (0x2028, 0x2029), (0x202F, 0x202F), (0x205F, 0x205F), (0x3000, 0x3000)]

theorem inRanges_separatorRanges (c : Char) :
    inRanges separatorRanges c = true ↔ c = '.' ∨ isBlank c = true := by
  have hdot : c = '.' ↔ c.toNat = 0x2E := by
    rw [← Char.toNat_inj]
    rfl
  rw [hdot]
  simp only [inRanges, separatorRanges, List.any_cons, List.any_nil, isBlank, Bool.or_eq_true,
    Bool.and_eq_true, decide_eq_true_eq, beq_iff_eq, Bool.false_eq_true, or_false]
  omega

/-- No run of letters ends among the separators. -/
theorem lowerRuns_apart : ∀ r ∈ lowerRuns, ∀ range ∈ separatorRanges,
    r.last + r.shift < (range.1 : Int) ∨ (range.2 : Int) < r.first + r.shift := by
  decide +kernel

theorem toNat_ofNat (n : Nat) : (Char.ofNat n).toNat = n ∨ (Char.ofNat n).toNat = 0 := by
  by_cases hvalid : n.isValidChar
  · rw [Char.ofNat, dif_pos hvalid]
    exact .inl rfl
  · rw [Char.ofNat, dif_neg hvalid]
    exact .inr rfl

/-- A letter that is moved is no separator then. -/
theorem moved_lowerRuns (c : Char) :
    moved lowerRuns c = c ∨ ¬ (moved lowerRuns c = '.' ∨ isBlank (moved lowerRuns c) = true) := by
  unfold moved
  split
  · rename_i r hr
    refine .inr fun hseparator => ?_
    have hcovers := List.find?_some hr
    simp only [Run.covers, Bool.and_eq_true, decide_eq_true_eq] at hcovers
    rw [← inRanges_separatorRanges, inRanges, List.any_eq_true] at hseparator
    obtain ⟨range, hrange, hinside⟩ := hseparator
    simp only [Bool.and_eq_true, decide_eq_true_eq] at hinside
    have hapart := lowerRuns_apart r (List.mem_of_find?_eq_some hr) range hrange
    have hpositive : 0 < range.1 :=
      (by decide : ∀ range ∈ separatorRanges, 0 < range.1) range hrange
    rcases toNat_ofNat (Int.ofNat c.toNat + r.shift).toNat with htarget | htarget
    · rw [htarget, Int.ofNat_eq_natCast] at hinside
      omega
    · omega
  · exact .inl rfl

/-! ### Texts -/

/-- What holds of all characters of a text holds of those in lower case, if it is not lost when a
letter is moved. -/
theorem forall_mem_lowerAfter {p : Char → Prop} (hfinal : p 'ς') (hsigma : p 'σ') (hi : p 'i')
    (hmark : p (Char.ofNat 0x307)) (hmoved : ∀ c, p c → p (moved lowerRuns c))
    {s : List Char} (h : ∀ c ∈ s, p c) (before : List Char) : ∀ c ∈ lowerAfter before s, p c := by
  induction s generalizing before with
  | nil => simp [lowerAfter]
  | cons x rest ih =>
      intro c hc
      rw [lowerAfter, List.mem_append] at hc
      rcases hc with hc | hc
      · split at hc
        · rw [List.mem_singleton.mp hc, lowerSigma]
          split
          · exact hfinal
          · exact hsigma
        · split at hc
          · simp only [List.mem_cons, List.not_mem_nil, or_false] at hc
            rcases hc with rfl | rfl
            · exact hi
            · exact hmark
          · rw [List.mem_singleton.mp hc]
            exact hmoved x (h x (by simp))
      · exact ih (fun y hy => h y (by simp [hy])) _ c hc

theorem dot_not_mem_lowercase {s : String} (h : '.' ∉ s.toList) : '.' ∉ (lowercase s).toList := by
  rw [lowercase, String.toList_ofList]
  refine fun hdot => forall_mem_lowerAfter (p := (· ≠ '.')) (by decide) (by decide) (by decide)
    (by decide) (fun c hc => ?_) (fun c hc hd => h (hd ▸ hc)) [] '.' hdot rfl
  rcases moved_lowerRuns c with heq | hseparator
  · rwa [heq]
  · exact fun hd => hseparator (.inl hd)

theorem unbroken_lowercase {s : String} (h : ∀ c ∈ s.toList, isBlank c = false) :
    ∀ c ∈ (lowercase s).toList, isBlank c = false := by
  rw [lowercase, String.toList_ofList]
  refine forall_mem_lowerAfter (by decide) (by decide) (by decide) (by decide) (fun c hc => ?_) h []
  rcases moved_lowerRuns c with heq | hseparator
  · rwa [heq]
  · exact Bool.eq_false_iff.mpr fun hblank => hseparator (.inr hblank)

/-- A small character that has no case stays. -/
theorem underscore_mem_lowercase {s : String} (h : '_' ∈ s.toList) :
    '_' ∈ (lowercase s).toList := by
  have hstays : ∀ (s before : List Char), '_' ∈ s → '_' ∈ lowerAfter before s := by
    intro s
    induction s with
    | nil => simp
    | cons c rest ih =>
        intro before hmem
        rw [lowerAfter, List.mem_append]
        rcases List.mem_cons.mp hmem with rfl | hmem
        · have hmoved : moved lowerRuns '_' = '_' := by
            decide +kernel
          rw [if_neg (by decide), if_neg (by decide), hmoved]
          exact .inl (List.mem_singleton_self _)
        · exact .inr (ih _ hmem)
  rw [lowercase, String.toList_ofList]
  exact hstays _ [] h

end Relational.Text
