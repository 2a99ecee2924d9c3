import Relational.Json.Reader
import Relational.Proofs.Decimal.Digits
/-
Numbers survive being written as JSON and read again.

A number is read by its digits: those in front of the point, those behind it, and those of
the exponent.  What is written of an integer and of a floating-point number has that form,
so it is read digit for digit, unless it has a zero too many in front.
-/
namespace Relational

namespace JsonNumber

/-- The digits behind the point; without any there is no point. -/
def fractionText : List Char → List Char
  | [] => []
  | digits => '.' :: digits

def exponentText : Option (Bool × List Char) → List Char
  | none => []
  | some (negative, digits) => 'e' :: (if negative then '-' else '+') :: digits

/-- The number as it is written, without its sign. -/
def magnitudeText (n : JsonNumber) : List Char :=
  n.whole ++ (fractionText n.fraction ++ exponentText n.exponent)

/-- Its parts are decimal digits. -/
structure Digital (n : JsonNumber) : Prop where
  whole : ∀ c ∈ n.whole, c.isDigit = true
  whole_ne_nil : n.whole ≠ []
  fraction : ∀ c ∈ n.fraction, c.isDigit = true
  exponent : ∀ negative digits, n.exponent = some (negative, digits) →
    digits ≠ [] ∧ ∀ c ∈ digits, c.isDigit = true

/-- A zero stands in front of other digits. -/
def padded (n : JsonNumber) : Bool :=
  n.whole.head? == some '0' && 1 < n.whole.length

end JsonNumber

namespace Json

variable {text? : List Unit16 → Option String} {fuel : Nat}

theorem skipSpace_cons {c : Char} (h : isSpace c = false) (rest : List Char) :
    skipSpace (c :: rest) = c :: rest := by
  rw [skipSpace, List.dropWhile_cons_of_neg (by rw [h]; decide)]

/-! ### Reading -/

theorem digitsAhead_append {digits : List Char} (hdigits : ∀ c ∈ digits, c.isDigit = true)
    {rest : List Char} (hrest : ∀ c ∈ rest.head?, c.isDigit = false) :
    digitsAhead (digits ++ rest) = (digits, rest) := by
  unfold digitsAhead
  rw [List.takeWhile_append_of_pos hdigits, List.dropWhile_append_of_pos hdigits]
  cases rest with
  | nil => simp
  | cons c rest => simp [hrest c rfl]

/-- What stands behind a number: nothing that could belong to it. -/
def Closes (rest : List Char) : Prop :=
  ∀ c ∈ rest.head?, c.isDigit = false ∧ c ≠ '.' ∧ c ≠ 'e' ∧ c ≠ 'E'

theorem closes_brace (rest : List Char) : Closes ('\x7d' :: rest) := by
  intro c hc
  cases hc
  decide

variable {n : JsonNumber} {rest : List Char}

theorem readExponent?_exponentText (h : n.Digital) (hrest : Closes rest) :
    readExponent? (JsonNumber.exponentText n.exponent ++ rest) = some (n.exponent, rest) := by
  rcases hexponent : n.exponent with _ | ⟨negative, digits⟩
  · cases rest with
    | nil => rfl
    | cons c rest =>
        obtain ⟨-, -, he, hE⟩ := hrest c rfl
        show (if c = 'e' ∨ c = 'E' then _ else some (none, c :: rest)) = _
        rw [if_neg (not_or.mpr ⟨he, hE⟩)]
  · obtain ⟨hne, hdigits⟩ := h.exponent negative digits hexponent
    have hread : readExponentDigits? negative (digits ++ rest) =
        some (some (negative, digits), rest) := by
      unfold readExponentDigits?
      rw [digitsAhead_append hdigits fun c hc => (hrest c hc).1]
      simp [hne]
    cases negative with
    | true => exact hread
    | false => exact hread

theorem readFraction?_fractionText (h : n.Digital) (hrest : Closes rest) :
    readFraction? (JsonNumber.fractionText n.fraction ++
      (JsonNumber.exponentText n.exponent ++ rest)) =
      some (n.fraction, JsonNumber.exponentText n.exponent ++ rest) := by
  have hbehind : ∀ c ∈ (JsonNumber.exponentText n.exponent ++ rest).head?,
      c.isDigit = false ∧ c ≠ '.' := by
    rcases n.exponent with _ | ⟨negative, digits⟩
    · exact fun c hc => ⟨(hrest c hc).1, (hrest c hc).2.1⟩
    · intro c hc
      cases hc
      decide
  rcases hfraction : n.fraction with _ | ⟨d, digits⟩
  · show readFraction? (JsonNumber.exponentText n.exponent ++ rest) = _
    unfold readFraction?
    split
    · rename_i heq
      exact absurd rfl (hbehind '.' (by rw [heq]; rfl)).2
    · rfl
  · have hdigits := h.fraction
    rw [hfraction] at hdigits
    show readFraction? ('.' :: (d :: digits ++ _)) = _
    unfold readFraction?
    simp only [digitsAhead_append hdigits fun c hc => (hbehind c hc).1]
    rfl

/-- The digits of a number are read one by one, unless there is a zero in front of them. -/
theorem readMagnitude?_magnitudeText (h : n.Digital) (hrest : Closes rest) :
    readMagnitude? n.negative (n.magnitudeText ++ rest) =
      if n.padded then none else some (n, rest) := by
  have hbehind : ∀ c ∈ (JsonNumber.fractionText n.fraction ++
      (JsonNumber.exponentText n.exponent ++ rest)).head?, c.isDigit = false := by
    rcases n.fraction with _ | ⟨d, digits⟩
    · rcases n.exponent with _ | ⟨negative, digits⟩
      · exact fun c hc => (hrest c hc).1
      · intro c hc
        cases hc
        decide
    · intro c hc
      cases hc
      decide
  have hempty : n.whole.isEmpty = false := by
    simpa using h.whole_ne_nil
  unfold readMagnitude? JsonNumber.magnitudeText
  simp only [List.append_assoc, digitsAhead_append h.whole hbehind, hempty, Bool.false_or]
  show (if n.padded = true then none else _) = _
  rw [readFraction?_fractionText h hrest]
  simp only [Option.bind_eq_bind, Option.bind_some, readExponent?_exponentText h hrest]
  rfl

/-- A number in front of what cannot belong to it. -/
theorem readValue?_number (h : n.Digital) (hrest : Closes rest) :
    readValue? text? (fuel + 1) (Decimal.signed n.negative n.magnitudeText ++ rest) =
      if n.padded then none else some (.number n, rest) := by
  have hread := readMagnitude?_magnitudeText h hrest
  have hmap : (if n.padded then none else some (n, rest)).map
      (fun found : JsonNumber × List Char => (Json.number found.1, found.2)) =
      if n.padded then none else some (.number n, rest) := by
    split
    · rfl
    · rfl
  rw [← hmap, ← hread]
  cases hsign : n.negative with
  | true =>
      show readValue? text? (fuel + 1) ('-' :: (n.magnitudeText ++ rest)) = _
      rw [readValue?, skipSpace_cons rfl]
      rfl
  | false =>
      show readValue? text? (fuel + 1) (n.magnitudeText ++ rest) = _
      obtain ⟨c, digits, hcons⟩ := List.exists_cons_of_ne_nil h.whole_ne_nil
      have hdigit : c.isDigit = true := h.whole c (by simp [hcons])
      have hspace : isSpace c = false := by
        by_cases hc : isSpace c = true
        · simp only [isSpace, Bool.or_eq_true, beq_iff_eq] at hc
          rcases hc with ((rfl | rfl) | rfl) | rfl <;> cases hdigit
        · simpa using hc
      rw [JsonNumber.magnitudeText, hcons, List.cons_append, List.cons_append, readValue?,
        skipSpace_cons hspace]
      -- A digit starts no other value.
      split
      case h_8 => rfl
      all_goals
        rename_i heq
        injection heq with hc
        rw [hc] at hdigit
        cases hdigit

/-! ### Integers -/

/-- The parts of a number without point and exponent. -/
def wholeNumber (n : Int) : JsonNumber :=
  ⟨decide (n < 0), Decimal.digitsOf n.natAbs, [], none⟩

theorem readValue?_ofInt (n : Int) (hrest : Closes rest) :
    readValue? text? (fuel + 1) (Decimal.ofInt n ++ rest) =
      some (.number (wholeNumber n), rest) := by
  have hdigital : (wholeNumber n).Digital :=
    ⟨fun _ h => Decimal.isDigit_of_mem_digitsOf h, Decimal.digitsOf_ne_nil n.natAbs, nofun, nofun⟩
  have hpadded : (wholeNumber n).padded = false := by
    show ((Decimal.digitsOf n.natAbs).head? == some '0' &&
      1 < (Decimal.digitsOf n.natAbs).length) = false
    by_cases hzero : (Decimal.digitsOf n.natAbs).head? = some '0'
    · rw [Decimal.digitsOf_eq_of_head? hzero]
      rfl
    · simp [hzero]
  have htext : Decimal.ofInt n = Decimal.signed (wholeNumber n).negative
      (wholeNumber n).magnitudeText := by
    simp [Decimal.ofInt, Decimal.signed, wholeNumber, JsonNumber.magnitudeText,
      JsonNumber.fractionText, JsonNumber.exponentText]
  rw [htext, readValue?_number hdigital hrest, hpadded]
  rfl

/-- Every integer of sixty-four bits is read as itself. -/
theorem int64?_wholeNumber (n : Int64) : (wholeNumber n.toInt).int64? = some n := by
  have hlow : Int64.minValue.toInt ≤ n.toInt := n.le_toInt
  have hhigh : n.toInt ≤ Int64.maxValue.toInt := n.toInt_le
  have hfits : Decimal.int64? n.toInt = some n := by
    rw [Decimal.int64?, if_pos ⟨hlow, hhigh⟩, Int64.ofInt_toInt]
  unfold JsonNumber.int64? wholeNumber
  simp only [Decimal.natOfDigits_digitsOf]
  by_cases hn : n.toInt < 0
  · have hvalue : -(n.toInt.natAbs : Int) = n.toInt := by omega
    have hzero : ((n.toInt.natAbs : Int) == 0) = false := by
      rw [beq_eq_false_iff_ne]
      omega
    simp only [hn, hzero, hvalue, hfits, decide_true, List.isEmpty_nil, Option.isNone_none,
      Bool.and_true, if_true, Bool.and_false, if_neg Bool.false_ne_true]
  · have hvalue : (n.toInt.natAbs : Int) = n.toInt := by omega
    simp only [hn, hvalue, hfits, decide_false, List.isEmpty_nil, Option.isNone_none,
      Bool.and_true, if_true, Bool.false_and, if_neg Bool.false_ne_true]

/-! ### Floating-point numbers -/

open Decimal (Scientific digitsOf zeros signed)

/-- The parts of a decimal as it is laid out in JSON. -/
def laidOut (negative : Bool) (d : Scientific) : JsonNumber :=
  let digits := digitsOf d.digits
  let point : Int := digits.length + d.power
  let exponent := point - 1
  if 0 ≤ d.power ∧ point ≤ 16 then ⟨negative, digits ++ zeros d.power.toNat, ['0'], none⟩
  else if -5 < point ∧ point ≤ 16 then
    if 0 < point then ⟨negative, digits.take point.toNat, digits.drop point.toNat, none⟩
    else ⟨negative, ['0'], zeros (-point).toNat ++ digits, none⟩
  else
    ⟨negative, digits.take 1, digits.drop 1, some (decide (exponent < 0), digitsOf exponent.natAbs)⟩

theorem negative_laidOut (negative : Bool) (d : Scientific) :
    (laidOut negative d).negative = negative := by
  unfold laidOut
  dsimp only
  split
  · rfl
  · split
    · split
      · rfl
      · rfl
    · rfl

theorem isDigit_of_mem_zero : ∀ c ∈ ['0'], c.isDigit = true :=
  List.forall_mem_singleton.mpr rfl

theorem digital_laidOut (negative : Bool) (d : Scientific) : (laidOut negative d).Digital := by
  have hdigits : ∀ n, ∀ c ∈ digitsOf n, c.isDigit = true :=
    fun _ _ => Decimal.isDigit_of_mem_digitsOf
  have hzeros : ∀ n, ∀ c ∈ zeros n, c.isDigit = true := by
    intro n c hc
    rw [(List.mem_replicate.mp hc).2]
    rfl
  have hlength : 0 < (digitsOf d.digits).length :=
    List.length_pos_iff.mpr (Decimal.digitsOf_ne_nil d.digits)
  have htake : ∀ k, 0 < k → (digitsOf d.digits).take k ≠ [] := by
    intro k hk hnil
    have := congrArg List.length hnil
    rw [List.length_take, List.length_nil] at this
    omega
  unfold laidOut
  dsimp only
  split
  · refine ⟨fun c hc => ?_, by simp [Decimal.digitsOf_ne_nil], isDigit_of_mem_zero, nofun⟩
    exact (List.mem_append.mp hc).elim (hdigits _ c) (hzeros _ c)
  · split
    · split
      · rename_i hpoint
        exact ⟨fun c hc => hdigits _ c (List.mem_of_mem_take hc), htake _ (by omega),
          fun c hc => hdigits _ c (List.mem_of_mem_drop hc), nofun⟩
      · refine ⟨isDigit_of_mem_zero, by simp, fun c hc => ?_, nofun⟩
        exact (List.mem_append.mp hc).elim (hzeros _ c) (hdigits _ c)
    · refine ⟨fun c hc => hdigits _ c (List.mem_of_mem_take hc), htake 1 (by omega),
        fun c hc => hdigits _ c (List.mem_of_mem_drop hc), ?_⟩
      intro negative digits hexponent
      cases hexponent
      exact ⟨Decimal.digitsOf_ne_nil _, hdigits _⟩

theorem jsonMagnitude_eq (negative : Bool) (d : Scientific) :
    Decimal.jsonMagnitude d = (laidOut negative d).magnitudeText := by
  have hpoint : ∀ s : List Char, s ≠ [] → JsonNumber.fractionText s = '.' :: s := by
    intro s hs
    cases s with
    | nil => exact absurd rfl hs
    | cons c s => rfl
  unfold Decimal.jsonMagnitude laidOut Decimal.positional Decimal.exponential
    JsonNumber.magnitudeText
  dsimp only
  split
  · rename_i hwhole
    rw [if_pos hwhole.1]
    rfl
  · rename_i hwhole
    split
    · rename_i hbetween
      rw [if_neg fun hpower => hwhole ⟨hpower, hbetween.2⟩]
      split
      · rename_i hfront
        rw [hpoint, JsonNumber.exponentText, List.append_nil]
        intro hnil
        have := congrArg List.length hnil
        rw [List.length_drop, List.length_nil] at this
        omega
      · rw [hpoint, JsonNumber.exponentText, List.append_nil]
        · rfl
        · simp [Decimal.digitsOf_ne_nil]
    · rw [List.append_assoc]
      simp only [JsonNumber.exponentText, decide_eq_true_eq]
      cases (digitsOf d.digits).drop 1 with
      | nil => rfl
      | cons c s => rfl

/-- The parts of a finite number. -/
def floatNumber (x : Binary64) : JsonNumber :=
  if x.isZero then ⟨x.isNegative, ['0'], ['0'], none⟩
  else laidOut x.isNegative (Decimal.shortest .toEven x)

theorem digital_floatNumber (x : Binary64) : (floatNumber x).Digital := by
  unfold floatNumber
  split
  · exact ⟨isDigit_of_mem_zero, by simp, isDigit_of_mem_zero, nofun⟩
  · exact digital_laidOut _ _

theorem jsonText_eq (x : Binary64) :
    Decimal.jsonText x = signed (floatNumber x).negative (floatNumber x).magnitudeText := by
  unfold Decimal.jsonText floatNumber
  split
  · rfl
  · rw [negative_laidOut, ← jsonMagnitude_eq]

/-- A floating-point number is read by the digits it was written with. -/
theorem readValue?_jsonText (x : Binary64) (hrest : Closes rest) :
    readValue? text? (fuel + 1) (Decimal.jsonText x ++ rest) =
      if (floatNumber x).padded then none else some (.number (floatNumber x), rest) := by
  rw [jsonText_eq, readValue?_number (digital_floatNumber x) hrest]

end Json

end Relational
