import Relational.Proofs.Decimal.Rounding
import Relational.Proofs.Json.Numbers
import Relational.Value
/-
Which texts become numbers.

A text becomes a number if it is plain decimal notation.  Such notation has parts, and it is read
from exactly what its parts are written as, so what a text becomes is said of parts.  A whole number
without a zero too many in front has one way to be written, with one exception: a zero may stand
behind a minus sign.  A number with a point becomes the nearest double whatever its size, and there
is none but infinity where rounding overflows.
-/
namespace Relational

namespace Decimal.Plain

variable {s : List Char} {p : Plain}

/-- Digits on both sides of the point, if there is one, and no zero in front of other digits. -/
structure Canonical (p : Plain) : Prop where
  whole_ne_nil : p.whole ≠ []
  whole : ∀ c ∈ p.whole, c.isDigit = true
  unpadded : p.whole.head? = some '0' → p.whole = ['0']
  fraction : ∀ digits, p.fraction = some digits → isDigits digits = true

/-- The point and the digits behind it. -/
def fractionText : Option (List Char) → List Char
  | none => []
  | some digits => '.' :: digits

/-- The number as it is written. -/
def text (p : Plain) : List Char :=
  signed p.negative (p.whole ++ fractionText p.fraction)

/-- The parts behind the sign. -/
def ofMagnitude? (negative : Bool) (body : List Char) : Option Plain :=
  let whole := body.takeWhile Char.isDigit
  if whole.isEmpty || (1 < whole.length && whole.head? == some '0') then none
  else match body.dropWhile Char.isDigit with
    | [] => some ⟨negative, whole, none⟩
    | '.' :: digits => if isDigits digits then some ⟨negative, whole, some digits⟩ else none
    | _ => none

theorem ofChars?_signed {negative : Bool} {body : List Char}
    (h : negative = false → body.head? ≠ some '-') :
    ofChars? (signed negative body) = ofMagnitude? negative body := by
  cases negative with
  | true => rfl
  | false =>
      rcases body with _ | ⟨c, rest⟩
      · rfl
      · have hc : c ≠ '-' := fun hc => h rfl (congrArg some hc)
        show ofChars? (c :: rest) = _
        unfold ofChars?
        split
        rename_i parts
        split at parts
        · rename_i heq
          exact absurd (List.cons.inj heq).1 hc
        · cases parts
          rfl

theorem exists_signed (s : List Char) :
    ∃ negative body, s = signed negative body ∧ (negative = false → body.head? ≠ some '-') := by
  by_cases h : s.head? = some '-'
  · obtain ⟨rest, rfl⟩ := List.head?_eq_some_iff.mp h
    exact ⟨true, rest, rfl, nofun⟩
  · exact ⟨false, s, rfl, fun _ => h⟩

theorem padded_eq_false_iff (whole : List Char) :
    (whole.isEmpty || (1 < whole.length && whole.head? == some '0')) = false ↔
      whole ≠ [] ∧ (whole.head? = some '0' → whole = ['0']) := by
  rcases whole with _ | ⟨c, _ | ⟨d, rest⟩⟩
  · simp
  · simp
  · simp

theorem ofMagnitude?_eq_some {negative : Bool} {body : List Char}
    (h : ofMagnitude? negative body = some p) :
    p.Canonical ∧ p.negative = negative ∧ body = p.whole ++ fractionText p.fraction := by
  have hbody : body.takeWhile Char.isDigit ++ body.dropWhile Char.isDigit = body :=
    List.takeWhile_append_dropWhile
  have hwhole : ∀ c ∈ body.takeWhile Char.isDigit, c.isDigit = true :=
    List.all_eq_true.mp List.all_takeWhile
  unfold ofMagnitude? at h
  dsimp only at h
  split at h
  · cases h
  · rename_i hpadded
    obtain ⟨hne, hzero⟩ := (padded_eq_false_iff _).mp (Bool.not_eq_true _ ▸ hpadded)
    split at h
    · rename_i hrest
      cases h
      rw [hrest] at hbody
      exact ⟨⟨hne, hwhole, hzero, nofun⟩, rfl, hbody.symm⟩
    · rename_i digits hrest
      split at h
      · rename_i hdigits
        cases h
        rw [hrest] at hbody
        refine ⟨⟨hne, hwhole, hzero, ?_⟩, rfl, hbody.symm⟩
        rintro _ ⟨⟩
        exact hdigits
      · cases h
    · cases h

theorem ofMagnitude?_text (h : p.Canonical) :
    ofMagnitude? p.negative (p.whole ++ fractionText p.fraction) = some p := by
  have hbehind : ∀ c ∈ (fractionText p.fraction).head?, c.isDigit = false := by
    cases p.fraction with
    | none => nofun
    | some digits =>
        rintro _ ⟨⟩
        rfl
  obtain ⟨htake, hdrop⟩ := Prod.mk.inj (Json.digitsAhead_append h.whole hbehind)
  have hpadded := (padded_eq_false_iff p.whole).mpr ⟨h.whole_ne_nil, h.unpadded⟩
  unfold ofMagnitude?
  dsimp only
  rw [htake, hdrop, hpadded, if_neg Bool.false_ne_true]
  obtain ⟨negative, whole, fraction⟩ := p
  cases fraction with
  | none => rfl
  | some digits => exact if_pos (h.fraction digits rfl)

/-- The plain decimals are read from exactly what they are written as. -/
theorem ofChars?_eq_some_iff : ofChars? s = some p ↔ p.Canonical ∧ s = p.text := by
  constructor
  · intro h
    obtain ⟨negative, body, rfl, hbody⟩ := exists_signed s
    rw [ofChars?_signed hbody] at h
    obtain ⟨hcanonical, rfl, rfl⟩ := ofMagnitude?_eq_some h
    exact ⟨hcanonical, rfl⟩
  · rintro ⟨h, rfl⟩
    -- A digit stands behind the sign.
    have hbody : p.negative = false → (p.whole ++ fractionText p.fraction).head? ≠ some '-' := by
      intro _ hminus
      obtain ⟨c, rest, hcons⟩ := List.exists_cons_of_ne_nil h.whole_ne_nil
      have hdigit := h.whole c (by simp [hcons])
      rw [hcons] at hminus
      cases hminus
      cases hdigit
    rw [text, ofChars?_signed hbody, ofMagnitude?_text h]

/-- The whole number that is written in this way. -/
def ofInt (n : Int) : Plain :=
  ⟨decide (n < 0), digitsOf n.natAbs, none⟩

theorem canonical_ofInt (n : Int) : (ofInt n).Canonical where
  whole_ne_nil := digitsOf_ne_nil _
  whole _ := isDigit_of_mem_digitsOf
  unpadded := digitsOf_eq_of_head?
  fraction := nofun

theorem text_ofInt (n : Int) : (ofInt n).text = Decimal.ofInt n := by
  simp [text, ofInt, Decimal.ofInt, fractionText, signed]

/-- The digits in front of the point are those of the number they denote. -/
theorem Canonical.digitsOf_eq (h : p.Canonical) : digitsOf (natOfDigits p.whole) = p.whole :=
  digitsOf_natOfDigits h.whole_ne_nil h.whole h.unpadded

/-- A whole number is written as a minus sign in front of a zero, or as the number it denotes. -/
theorem Canonical.text_whole (h : p.Canonical) (hwhole : p.fraction = none) :
    p.text = ['-', '0'] ∧ natOfDigits p.whole = 0 ∨
      p.text = Decimal.ofInt (if p.negative then -natOfDigits p.whole else natOfDigits p.whole) := by
  have hdigits := h.digitsOf_eq
  generalize natOfDigits p.whole = n at hdigits ⊢
  rw [text, hwhole, fractionText, List.append_nil, ← hdigits]
  cases p.negative with
  | false => exact .inr (by simp [signed, Decimal.ofInt])
  | true =>
      rcases Nat.eq_zero_or_pos n with rfl | hn
      · exact .inl ⟨rfl, rfl⟩
      · exact .inr (by simp [signed, Decimal.ofInt, hn])

end Decimal.Plain

namespace Decimal

theorem int64?_eq_some_iff {n : Int} {m : Int64} : int64? n = some m ↔ n = m.toInt := by
  have hmin : Int64.minValue.toInt = -2 ^ 63 := by decide
  have hmax : Int64.maxValue.toInt = 2 ^ 63 - 1 := by decide
  unfold int64?
  split
  · rename_i hrange
    rw [hmin, hmax] at hrange
    rw [Option.some.injEq, ← Int64.toInt_inj, Int64.toInt_ofInt_of_le hrange.1 (by omega)]
  · rename_i hrange
    refine iff_of_false nofun ?_
    rintro rfl
    exact hrange ⟨m.le_toInt, m.toInt_le⟩

/-- The nearest double is finite exactly if the digits stay below the magnitude that overflows. -/
theorem isFinite_nearest_iff (negative : Bool) (whole fraction : List Char) :
    (nearest negative whole fraction).isFinite = true ↔
      natOfDigits (whole ++ fraction) < Binary64.overflow * 10 ^ fraction.length := by
  have hup : (-(fraction.length : Int)).toNat = 0 := by omega
  have hdown : (-(-(fraction.length : Int))).toNat = fraction.length := by omega
  rw [nearest, Binary64.ofScientific, hup, hdown, Nat.pow_eq, Nat.pow_eq, Nat.pow_zero, Nat.mul_one]
  exact Binary64.isFinite_ofQuotient_iff negative (Nat.pow_pos (by decide))

end Decimal

namespace Value

open Decimal (Plain)

variable {s : String}

/-- The number that is written of these parts, if a whole one fits sixty-four bits. -/
def ofPlain? (p : Plain) : Option Value :=
  match p.fraction with
  | some fraction => some (.float (Decimal.nearest p.negative p.whole fraction))
  | none =>
    let n : Int := Decimal.natOfDigits p.whole
    (Decimal.int64? (if p.negative then -n else n)).map .int

theorem numeric?_eq (s : String) : numeric? s = (Plain.ofChars? s.toList).bind ofPlain? := by
  unfold numeric?
  rcases Plain.ofChars? s.toList with _ | ⟨negative, whole, _ | fraction⟩
  · rfl
  · rfl
  · rfl

theorem numeric?_eq_some_iff {v : Value} :
    numeric? s = some v ↔ ∃ p : Plain, p.Canonical ∧ s.toList = p.text ∧ ofPlain? p = some v := by
  simp only [numeric?_eq, Option.bind_eq_some_iff, Plain.ofChars?_eq_some_iff, and_assoc]

theorem ofPlain?_eq_int_iff {p : Plain} {n : Int64} : ofPlain? p = some (.int n) ↔
    p.fraction = none ∧
      (if p.negative then -Decimal.natOfDigits p.whole else Decimal.natOfDigits p.whole : Int) =
        n.toInt := by
  unfold ofPlain?
  cases p.fraction with
  | some fraction => simp
  | none => simp [Decimal.int64?_eq_some_iff]

theorem ofPlain?_eq_float_iff {p : Plain} {x : Binary64} : ofPlain? p = some (.float x) ↔
    ∃ fraction, p.fraction = some fraction ∧ x = Decimal.nearest p.negative p.whole fraction := by
  unfold ofPlain?
  cases p.fraction with
  | some fraction => simp [eq_comm]
  | none => simp

/-- What plainly is a number is an integer or a floating-point number. -/
theorem numeric?_cases {v : Value} (h : numeric? s = some v) :
    (∃ n, v = .int n) ∨ ∃ x, v = .float x := by
  unfold numeric? at h
  split at h
  · cases h
  · cases h
    exact .inr ⟨_, rfl⟩
  · obtain ⟨n, -, rfl⟩ := Option.map_eq_some_iff.mp h
    exact .inl ⟨n, rfl⟩

/-- A text becomes an integer if it is the one way to write it, or a zero behind a minus sign. -/
theorem numeric?_eq_int_iff {n : Int64} :
    numeric? s = some (.int n) ↔ s.toList = Decimal.ofInt n.toInt ∨ s = "-0" ∧ n = 0 := by
  rw [numeric?_eq_some_iff]
  constructor
  · rintro ⟨p, hcanonical, hs, hvalue⟩
    obtain ⟨hfraction, hn⟩ := ofPlain?_eq_int_iff.mp hvalue
    rcases hcanonical.text_whole hfraction with ⟨htext, hzero⟩ | htext
    · rw [hzero] at hn
      refine .inr ⟨String.toList_inj.mp (hs.trans htext), Int64.toInt_inj.mp (hn.symm.trans ?_)⟩
      simp
    · exact .inl (by rw [hs, htext, hn])
  · rintro (hs | ⟨rfl, rfl⟩)
    · refine ⟨.ofInt n.toInt, Plain.canonical_ofInt _, hs.trans (Plain.text_ofInt _).symm, ?_⟩
      refine ofPlain?_eq_int_iff.mpr ⟨rfl, ?_⟩
      rw [Plain.ofInt, Decimal.natOfDigits_digitsOf]
      by_cases hn : n.toInt < 0
      · simp [hn, abs_of_neg]
      · simp [hn]
        omega
    · have hdigit : ∀ c ∈ ['0'], c.isDigit = true := List.forall_mem_singleton.mpr rfl
      refine ⟨⟨true, ['0'], none⟩, ⟨List.cons_ne_nil _ _, hdigit, fun _ => rfl, nofun⟩, rfl, ?_⟩
      exact ofPlain?_eq_int_iff.mpr ⟨rfl, rfl⟩

theorem numeric?_eq_float_iff {x : Binary64} :
    numeric? s = some (.float x) ↔ ∃ p : Plain, p.Canonical ∧ s.toList = p.text ∧
      ∃ fraction, p.fraction = some fraction ∧ x = Decimal.nearest p.negative p.whole fraction := by
  simp only [numeric?_eq_some_iff, ofPlain?_eq_float_iff]

theorem normalized_eq_iff {v : Value} (hv : v ≠ .text s) :
    (text s).normalized = v ↔ numeric? s = some v := by
  show (numeric? s).getD (.text s) = v ↔ _
  cases numeric? s with
  | none => simp [hv.symm]
  | some w => simp

/-- **A text becomes the number it is the notation of.**  It becomes an integer if it is the one way
to write it, so no two texts become the same integer but `0` and `-0`.  With a point between digits
it becomes the nearest double, which is finite exactly if the digits do not overflow.  Any other text
stays as it is. -/
theorem normalized_by_notation (s : String) :
    (∀ n, (text s).normalized = .int n ↔ s.toList = Decimal.ofInt n.toInt ∨ s = "-0" ∧ n = 0) ∧
    (∀ t n, (text s).normalized = .int n → (text t).normalized = .int n → s = t ∨ n = 0) ∧
    (∀ x, (text s).normalized = .float x ↔ ∃ p : Plain, p.Canonical ∧ s.toList = p.text ∧
      ∃ fraction, p.fraction = some fraction ∧ x = Decimal.nearest p.negative p.whole fraction ∧
        (x.isFinite = true ↔
          Decimal.natOfDigits (p.whole ++ fraction) < Binary64.overflow * 10 ^ fraction.length)) ∧
    ((∃ n, (text s).normalized = .int n) ∨ (∃ x, (text s).normalized = .float x) ∨
      (text s).normalized = .text s) := by
  have hint : ∀ t n, (text t).normalized = .int n ↔
      t.toList = Decimal.ofInt n.toInt ∨ t = "-0" ∧ n = 0 :=
    fun t n => (normalized_eq_iff (by simp)).trans numeric?_eq_int_iff
  refine ⟨hint s, fun t n hs ht => ?_, fun x => ?_, ?_⟩
  · rcases (hint s n).mp hs with hs | ⟨-, hzero⟩
    · rcases (hint t n).mp ht with ht | ⟨-, hzero⟩
      · exact .inl (String.toList_inj.mp (hs.trans ht.symm))
      · exact .inr hzero
    · exact .inr hzero
  · rw [normalized_eq_iff (by simp), numeric?_eq_float_iff]
    constructor
    · rintro ⟨p, hcanonical, hs, fraction, hfraction, rfl⟩
      exact ⟨p, hcanonical, hs, fraction, hfraction, rfl, Decimal.isFinite_nearest_iff _ _ _⟩
    · rintro ⟨p, hcanonical, hs, fraction, hfraction, rfl, -⟩
      exact ⟨p, hcanonical, hs, fraction, hfraction, rfl⟩
  · show (∃ n, (numeric? s).getD (text s) = _) ∨ (∃ x, (numeric? s).getD (text s) = _) ∨
      (numeric? s).getD (text s) = _
    rcases hnumeric : numeric? s with _ | v
    · exact .inr (.inr rfl)
    · rcases numeric?_cases hnumeric with ⟨n, rfl⟩ | ⟨x, rfl⟩
      · exact .inl ⟨n, rfl⟩
      · exact .inr (.inl ⟨x, rfl⟩)

/-- A number too large for a double becomes infinity, and a zero loses its sign. -/
theorem normalized_past_range :
    let huge := String.ofList ('1' :: (List.replicate 309 '0' ++ ['.', '0']))
    let infinity : Binary64 := ⟨0x7FF0000000000000⟩
    (text huge).normalized = .float infinity ∧ infinity.isFinite = false ∧
      (text "-0").normalized = .int 0 ∧ (text "0").normalized = .int 0 := by
  intro huge infinity
  have hparts : (Plain.ofChars? ('1' :: (List.replicate 309 '0' ++ ['.', '0']))).bind ofPlain? =
      some (.float infinity) := by
    decide +kernel
  refine ⟨?_, by decide, by decide +kernel, by decide +kernel⟩
  rw [normalized_eq_iff (by simp), numeric?_eq, String.toList_ofList, hparts]

end Value

end Relational
