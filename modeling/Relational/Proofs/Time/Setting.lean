import Relational.Time.Offset
/-
Which time zone settings are read, and as which offset.

A setting is meant to be `Z`, `UTC`, or a sign with hours and minutes in digits.  The reader takes
hours and minutes for signed numbers and looks at their upper limits only, so it reads what is
meant, and besides that the settings in which one of the two has a sign of its own.  Those go down
to the least number of thirty-two bits, where the seconds wrap around.
-/
namespace Relational

/-! ### Signed numbers -/

namespace Decimal

/-- A whole number as it is written: digits, behind a sign or not. -/
inductive Writes : List Char → Int → Prop
  | digits {s : List Char} (h : isDigits s = true) : Writes s (natOfDigits s)
  | plus {s : List Char} (h : isDigits s = true) : Writes ('+' :: s) (natOfDigits s)
  | minus {s : List Char} (h : isDigits s = true) : Writes ('-' :: s) (-(natOfDigits s : Int))

variable {s : List Char} {n : Int}

theorem isDigit_of_mem {c : Char} (h : isDigits s = true) (hc : c ∈ s) : c.isDigit = true := by
  rw [isDigits, Bool.and_eq_true, List.all_eq_true] at h
  exact h.2 c hc

theorem signed?_of_isDigits (h : isDigits s = true) : signed? s = some (natOfDigits s : Int) := by
  unfold signed?
  split
  · cases isDigit_of_mem h List.mem_cons_self
  · cases isDigit_of_mem h List.mem_cons_self
  · rw [if_pos h]

theorem signed?_eq_some_iff : signed? s = some n ↔ Writes s n := by
  constructor
  · intro h
    unfold signed? at h
    split at h
    · obtain ⟨hdigits, hn⟩ := Option.ite_none_right_eq_some.mp h
      cases hn
      exact .minus hdigits
    · obtain ⟨hdigits, hn⟩ := Option.ite_none_right_eq_some.mp h
      cases hn
      exact .plus hdigits
    · obtain ⟨hdigits, hn⟩ := Option.ite_none_right_eq_some.mp h
      cases hn
      exact .digits hdigits
  · intro h
    cases h with
    | digits hdigits => exact signed?_of_isDigits hdigits
    | plus hdigits => exact if_pos hdigits
    | minus hdigits => exact if_pos hdigits

theorem signed32?_eq_some_iff {x : Int32} : signed32? s = some x ↔ Writes s x.toInt := by
  rw [← signed?_eq_some_iff, signed32?, Option.bind_eq_some_iff]
  constructor
  · rintro ⟨n, hn, hx⟩
    obtain ⟨⟨hlow, hhigh⟩, hx⟩ := Option.ite_none_right_eq_some.mp hx
    cases hx
    rw [hn, Int32.toInt_ofInt_of_le]
    · exact hlow
    · exact Int.lt_of_le_of_lt hhigh (by decide)
  · intro hx
    refine ⟨x.toInt, hx, ?_⟩
    rw [if_pos ⟨x.minValue_le_toInt, Int.le_of_lt_add_one x.toInt_lt⟩, Int32.ofInt_toInt]

theorem Writes.eq_natOfDigits (h : Writes s n) (hs : isDigits s = true) : n = natOfDigits s := by
  rw [← signed?_eq_some_iff, signed?_of_isDigits hs] at h
  exact (Option.some.inj h).symm

/-- A small number is one of thirty-two bits. -/
theorem exists_toInt_eq {n : Nat} (h : n ≤ 59) : ∃ x : Int32, x.toInt = n :=
  ⟨.ofInt n, Int32.toInt_ofInt_of_le (by omega) (by omega)⟩

/-- No colon is in a number. -/
theorem Writes.forall_ne_colon (h : Writes s n) : ∀ c ∈ s, (c == ':') = false := by
  intro c hc
  have hdigit : ∀ {digits : List Char}, isDigits digits = true → c ∈ digits → (c == ':') = false := by
    intro digits hdigits hmem
    rw [beq_eq_false_iff_ne]
    rintro rfl
    cases isDigit_of_mem hdigits hmem
  cases h with
  | digits hdigits => exact hdigit hdigits hc
  | plus hdigits =>
      rcases List.mem_cons.mp hc with rfl | hc
      · rfl
      · exact hdigit hdigits hc
  | minus hdigits =>
      rcases List.mem_cons.mp hc with rfl | hc
      · rfl
      · exact hdigit hdigits hc

end Decimal

namespace Offset

open Decimal (isDigits natOfDigits Writes)

/-! ### Settings -/

/-- The sign in front of the hours. -/
def settingSign (negative : Bool) : Char :=
  if negative then '-' else '+'

/-- The factor that a sign stands for. -/
def signFactor (negative : Bool) : Int :=
  if negative then -1 else 1

/-- The word or the letter for no offset. -/
def NamesUtc (s : List Char) : Prop :=
  s = ['Z'] ∨ Text.asciiLower s = "utc".toList

/-- A setting as it is meant to be, and its offset in seconds. -/
def Meant (s : List Char) (seconds : Int) : Prop :=
  (NamesUtc s ∧ seconds = 0) ∨
    ∃ negative hours minutes, s = settingSign negative :: (hours ++ ':' :: minutes) ∧
      isDigits hours = true ∧ isDigits minutes = true ∧
      natOfDigits hours ≤ 23 ∧ natOfDigits minutes ≤ 59 ∧
      seconds = signFactor negative * (natOfDigits hours * 3600 + natOfDigits minutes * 60)

/-- A setting whose hours or minutes have a sign of their own, and the offset it is read as: the
fields are numbers of thirty-two bits, and so are the seconds. -/
def SignedTwice (s : List Char) (seconds : Int) : Prop :=
  ∃ negative hours minutes, ∃ h m : Int32,
    s = settingSign negative :: (hours ++ ':' :: minutes) ∧
      Writes hours h.toInt ∧ Writes minutes m.toInt ∧
      (isDigits hours = false ∨ isDigits minutes = false) ∧ h.toInt ≤ 23 ∧ m.toInt ≤ 59 ∧
      seconds = (signFactor negative * (h.toInt * 3600 + m.toInt * 60)).bmod Int32.size

/-- No step from hours and minutes to seconds leaves thirty-two bits. -/
structure Exact (negative : Bool) (h m : Int32) : Prop where
  hours : (h * 3600).toInt = h.toInt * 3600
  minutes : (m * 60).toInt = m.toInt * 60
  sum : (h * 3600 + m * 60).toInt = (h * 3600).toInt + (m * 60).toInt
  sign : (secondsOf negative h m).toInt = signFactor negative * (h * 3600 + m * 60).toInt

/-! ### Seconds -/

theorem toInt_secondsOf (negative : Bool) (h m : Int32) :
    (secondsOf negative h m).toInt =
      (signFactor negative * (h.toInt * 3600 + m.toInt * 60)).bmod Int32.size := by
  have hsum : (h * 3600 + m * 60).toInt = (h.toInt * 3600 + m.toInt * 60).bmod Int32.size := by
    rw [Int32.toInt_add, Int32.toInt_mul, Int32.toInt_mul]
    exact (Int.add_bmod _ _ _).symm
  cases negative with
  | false => rw [secondsOf, if_neg (by decide), hsum, signFactor, if_neg (by decide), Int.one_mul]
  | true =>
      rw [secondsOf, if_pos rfl, Int32.toInt_neg, hsum, signFactor, if_pos rfl, Int.neg_one_mul,
        Int.bmod_neg_bmod]

/-- Within the limits the hours and minutes that have no sign are exact. -/
theorem exact_of_nonneg (negative : Bool) {h m : Int32} (hh : 0 ≤ h.toInt) (hh' : h.toInt ≤ 23)
    (hm : 0 ≤ m.toInt) (hm' : m.toInt ≤ 59) : Exact negative h m := by
  have hhours : (h * 3600).toInt = h.toInt * 3600 := by
    rw [Int32.toInt_mul]
    exact Int.bmod_eq_of_le (by simp; omega) (by simp; omega)
  have hminutes : (m * 60).toInt = m.toInt * 60 := by
    rw [Int32.toInt_mul]
    exact Int.bmod_eq_of_le (by simp; omega) (by simp; omega)
  have hsum : (h * 3600 + m * 60).toInt = (h * 3600).toInt + (m * 60).toInt := by
    rw [Int32.toInt_add, hhours, hminutes]
    exact Int.bmod_eq_of_le (by omega) (by omega)
  refine ⟨hhours, hminutes, hsum, ?_⟩
  rw [toInt_secondsOf, hsum, hhours, hminutes]
  refine Int.bmod_eq_of_le ?_ ?_
  · cases negative <;> simp [signFactor] <;> omega
  · cases negative <;> simp [signFactor] <;> omega

theorem le_twentyThree_iff {h : Int32} : ¬23 < h ↔ h.toInt ≤ 23 := by
  rw [Int32.lt_iff_toInt_lt, Int.not_lt]
  rfl

theorem le_fiftyNine_iff {m : Int32} : ¬59 < m ↔ m.toInt ≤ 59 := by
  rw [Int32.lt_iff_toInt_lt, Int.not_lt]
  rfl

/-! ### Reading -/

theorem ofSeconds?_eq_some_iff {seconds : Int} {o : Offset} :
    ofSeconds? seconds = some o ↔ seconds = o.seconds := by
  constructor
  · intro h
    obtain ⟨hday, ho⟩ := Option.dite_none_right_eq_some.mp h
    cases ho
    rfl
  · rintro rfl
    exact ofSeconds?_seconds o

/-- What is read behind a sign: two numbers around a colon, within their upper limits. -/
theorem settingOf?_eq_some_iff {negative : Bool} {s : List Char} {o : Offset} :
    settingOf? negative s = some o ↔
      ∃ hours minutes, ∃ h m : Int32, s = hours ++ ':' :: minutes ∧
        Writes hours h.toInt ∧ Writes minutes m.toInt ∧ h.toInt ≤ 23 ∧ m.toInt ≤ 59 ∧
        o.seconds = (secondsOf negative h m).toInt := by
  constructor
  · intro hread
    obtain ⟨⟨hours, minutes⟩, hcut, hnumbers⟩ := Option.bind_eq_some_iff.mp hread
    obtain ⟨h, hh, hminutes⟩ := Option.bind_eq_some_iff.mp hnumbers
    obtain ⟨m, hm, hchecked⟩ := Option.bind_eq_some_iff.mp hminutes
    obtain ⟨hlimits, hseconds⟩ := Option.ite_none_left_eq_some.mp hchecked
    obtain ⟨c, hc, -, hs⟩ := Text.cutAt_eq hcut
    rw [beq_iff_eq] at hc
    rw [not_or] at hlimits
    exact ⟨hours, minutes, h, m, hc ▸ hs, Decimal.signed32?_eq_some_iff.mp hh,
      Decimal.signed32?_eq_some_iff.mp hm, le_twentyThree_iff.mp hlimits.1,
      le_fiftyNine_iff.mp hlimits.2, (ofSeconds?_eq_some_iff.mp hseconds).symm⟩
  · rintro ⟨hours, minutes, h, m, rfl, hh, hm, hhours, hminutes, hseconds⟩
    refine Option.bind_eq_some_iff.mpr ⟨(hours, minutes), ?_, ?_⟩
    · exact Text.cutAt_append hh.forall_ne_colon rfl minutes
    refine Option.bind_eq_some_iff.mpr ⟨h, Decimal.signed32?_eq_some_iff.mpr hh, ?_⟩
    refine Option.bind_eq_some_iff.mpr ⟨m, Decimal.signed32?_eq_some_iff.mpr hm, ?_⟩
    rw [if_neg (not_or.mpr ⟨le_twentyThree_iff.mpr hhours, le_fiftyNine_iff.mpr hminutes⟩)]
    exact ofSeconds?_eq_some_iff.mpr hseconds.symm

theorem seconds_eq_zero_iff {o : Offset} : o.seconds = 0 ↔ utc = o := by
  constructor
  · intro h
    cases o
    cases h
    rfl
  · rintro rfl
    rfl

/-- A setting is read by name, or by what is behind its sign. -/
theorem ofSetting?_eq_some_iff {setting : String} {o : Offset} :
    ofSetting? setting = some o ↔
      (NamesUtc (Text.trim setting.toList) ∧ o.seconds = 0) ∨
        ∃ negative rest, Text.trim setting.toList = settingSign negative :: rest ∧
          settingOf? negative rest = some o := by
  rw [seconds_eq_zero_iff, ofSetting?]
  generalize Text.trim setting.toList = s
  by_cases hname : NamesUtc s
  · have hname' : (Text.asciiLower s == "utc".toList || s == ['Z']) = true := by
      rcases hname with hz | hword
      · simp [hz]
      · simp [hword]
    rw [if_pos hname', Option.some_inj]
    refine ⟨fun h => .inl ⟨hname, h⟩, ?_⟩
    rintro (⟨-, h⟩ | ⟨negative, rest, rfl, -⟩)
    · exact h
    · -- neither the letter nor the word begins with a sign
      cases negative <;> simp [NamesUtc, settingSign, Text.asciiLower] at hname
  · have hname' : ¬(Text.asciiLower s == "utc".toList || s == ['Z']) = true := by
      intro h
      rw [Bool.or_eq_true, beq_iff_eq, beq_iff_eq] at h
      exact hname h.symm
    rw [if_neg hname']
    constructor
    · intro hread
      refine .inr ?_
      split at hread
      · exact ⟨false, _, rfl, hread⟩
      · exact ⟨true, _, rfl, hread⟩
      · cases hread
    · rintro (⟨h, -⟩ | ⟨negative, rest, rfl, hread⟩)
      · exact absurd h hname
      · cases negative
        · exact hread
        · exact hread

/-! ### What is meant, and what is read besides -/

theorem not_namesUtc_of_sign (negative : Bool) (rest : List Char) :
    ¬NamesUtc (settingSign negative :: rest) := by
  cases negative <;> simp [NamesUtc, settingSign, Text.asciiLower]

theorem settingSign_injective {a b : Bool} (h : settingSign a = settingSign b) : a = b := by
  cases a <;> cases b <;> first | rfl | cases h

/-- Digits or not, hours and minutes are those around the first colon. -/
theorem eq_of_clock_eq {negative negative' : Bool} {hours minutes hours' minutes' : List Char}
    {h h' : Int} (hh : Writes hours h) (hh' : Writes hours' h')
    (heq : settingSign negative :: (hours ++ ':' :: minutes) =
      settingSign negative' :: (hours' ++ ':' :: minutes')) :
    negative = negative' ∧ hours = hours' ∧ minutes = minutes' := by
  obtain ⟨hsign, hclock⟩ := List.cons.inj heq
  have hcut : Text.cutAt (· == ':') (hours ++ ':' :: minutes) = some (hours, minutes) :=
    Text.cutAt_append hh.forall_ne_colon rfl minutes
  rw [hclock, Text.cutAt_append hh'.forall_ne_colon rfl minutes'] at hcut
  obtain ⟨hhours, hminutes⟩ := Prod.mk.inj (Option.some.inj hcut)
  exact ⟨settingSign_injective hsign, hhours.symm, hminutes.symm⟩

/-- A field with a sign of its own is not what is meant. -/
theorem not_meant_of_signedTwice {s : List Char} {n n' : Int} (h : SignedTwice s n) :
    ¬Meant s n' := by
  obtain ⟨negative, hours, minutes, h, m, rfl, hh, hm, hsigned, -⟩ := h
  rintro (⟨hname, -⟩ | ⟨negative', hours', minutes', heq, hhours, hminutes, -⟩)
  · exact not_namesUtc_of_sign _ _ hname
  · obtain ⟨-, rfl, rfl⟩ := eq_of_clock_eq hh (.digits hhours) heq
    rw [hhours, hminutes] at hsigned
    simp at hsigned

/-- Digits within the limits are exact. -/
theorem exact_of_isDigits (negative : Bool) {hours minutes : List Char} {h m : Int32}
    (hhours : isDigits hours = true) (hminutes : isDigits minutes = true)
    (hh : Writes hours h.toInt) (hm : Writes minutes m.toInt) (hh' : h.toInt ≤ 23)
    (hm' : m.toInt ≤ 59) : Exact negative h m := by
  have hhnonneg : 0 ≤ h.toInt := by
    rw [hh.eq_natOfDigits hhours]
    exact Int.natCast_nonneg _
  have hmnonneg : 0 ≤ m.toInt := by
    rw [hm.eq_natOfDigits hminutes]
    exact Int.natCast_nonneg _
  exact exact_of_nonneg negative hhnonneg hh' hmnonneg hm'

theorem Exact.toInt_secondsOf_eq {negative : Bool} {h m : Int32} (hexact : Exact negative h m) :
    (secondsOf negative h m).toInt = signFactor negative * (h.toInt * 3600 + m.toInt * 60) := by
  rw [hexact.sign, hexact.sum, hexact.hours, hexact.minutes]

theorem ofSetting?_of_meant {setting : String} {o : Offset}
    (h : Meant (Text.trim setting.toList) o.seconds) : ofSetting? setting = some o := by
  rw [ofSetting?_eq_some_iff]
  obtain hname | ⟨negative, hours, minutes, hs, hhours, hminutes, hh, hm, hseconds⟩ := h
  · exact .inl hname
  · obtain ⟨h, hhtoInt⟩ := Decimal.exists_toInt_eq (Nat.le_trans hh (by decide))
    obtain ⟨m, hmtoInt⟩ := Decimal.exists_toInt_eq hm
    have hhwrites : Writes hours h.toInt := hhtoInt ▸ .digits hhours
    have hmwrites : Writes minutes m.toInt := hmtoInt ▸ .digits hminutes
    have hhlimit : h.toInt ≤ 23 := by omega
    have hmlimit : m.toInt ≤ 59 := by omega
    have hexact : Exact negative h m :=
      exact_of_isDigits negative hhours hminutes hhwrites hmwrites hhlimit hmlimit
    refine .inr ⟨negative, _, hs, settingOf?_eq_some_iff.mpr ?_⟩
    refine ⟨hours, minutes, h, m, rfl, hhwrites, hmwrites, hhlimit, hmlimit, ?_⟩
    rw [hexact.toInt_secondsOf_eq, hhtoInt, hmtoInt, hseconds]

theorem ofSetting?_of_signedTwice {setting : String} {o : Offset}
    (h : SignedTwice (Text.trim setting.toList) o.seconds) : ofSetting? setting = some o := by
  rw [ofSetting?_eq_some_iff]
  obtain ⟨negative, hours, minutes, h, m, hs, hh, hm, -, hhlimit, hmlimit, hseconds⟩ := h
  refine .inr ⟨negative, _, hs, settingOf?_eq_some_iff.mpr ?_⟩
  exact ⟨hours, minutes, h, m, rfl, hh, hm, hhlimit, hmlimit,
    hseconds.trans (toInt_secondsOf negative h m).symm⟩

/-- **Settings are read as they are meant, and no others but those with a sign too many.**  A
setting is read as an offset if that is what it means, or if its hours or minutes have a sign of
their own; a setting is not both.  No step leaves thirty-two bits where hours and minutes are
digits. -/
theorem setting_read_iff (setting : String) (o : Offset) :
    (ofSetting? setting = some o ↔
      Meant (Text.trim setting.toList) o.seconds ∨
        SignedTwice (Text.trim setting.toList) o.seconds) ∧
    (∀ n n', SignedTwice (Text.trim setting.toList) n → ¬Meant (Text.trim setting.toList) n') ∧
    ∀ negative hours minutes, ∀ h m : Int32,
      Text.trim setting.toList = settingSign negative :: (hours ++ ':' :: minutes) →
      isDigits hours = true → isDigits minutes = true →
      Decimal.signed32? hours = some h → Decimal.signed32? minutes = some m →
      ¬(23 < h ∨ 59 < m) → Exact negative h m := by
  refine ⟨⟨fun hread => ?_, ?_⟩, fun _ _ => not_meant_of_signedTwice, ?_⟩
  · rw [ofSetting?_eq_some_iff] at hread
    obtain hname | ⟨negative, rest, hs, hread⟩ := hread
    · exact .inl (.inl hname)
    · obtain ⟨hours, minutes, h, m, rfl, hh, hm, hhlimit, hmlimit, hseconds⟩ :=
        settingOf?_eq_some_iff.mp hread
      by_cases hdigits : isDigits hours = true ∧ isDigits minutes = true
      · obtain ⟨hhours, hminutes⟩ := hdigits
        have hexact : Exact negative h m :=
          exact_of_isDigits negative hhours hminutes hh hm hhlimit hmlimit
        rw [hexact.toInt_secondsOf_eq] at hseconds
        rw [hh.eq_natOfDigits hhours] at hseconds hhlimit
        rw [hm.eq_natOfDigits hminutes] at hseconds hmlimit
        exact .inl (.inr ⟨negative, hours, minutes, hs, hhours, hminutes, by omega, by omega,
          hseconds⟩)
      · rw [Classical.not_and_iff_not_or_not, Bool.not_eq_true, Bool.not_eq_true] at hdigits
        rw [toInt_secondsOf] at hseconds
        exact .inr ⟨negative, hours, minutes, h, m, hs, hh, hm, hdigits, hhlimit, hmlimit,
          hseconds⟩
  · rintro (hmeant | hsigned)
    · exact ofSetting?_of_meant hmeant
    · exact ofSetting?_of_signedTwice hsigned
  · intro negative hours minutes h m _ hhours hminutes hh hm hlimits
    rw [not_or, le_twentyThree_iff, le_fiftyNine_iff] at hlimits
    exact exact_of_isDigits negative hhours hminutes (Decimal.signed32?_eq_some_iff.mp hh)
      (Decimal.signed32?_eq_some_iff.mp hm) hlimits.1 hlimits.2

/-- A setting with blanks around it means an offset to the west, and is read as that. -/
theorem western_setting_read :
    ofSetting? " -05:30\n" = some { seconds := -19800 } ∧ Exact true 5 30 := by
  obtain ⟨hread, -, hexact⟩ := setting_read_iff " -05:30\n" { seconds := -19800 }
  have htrim : Text.trim " -05:30\n".toList = "-05:30".toList := by decide
  refine ⟨hread.mpr (.inl (.inr ⟨true, "05".toList, "30".toList, ?_⟩)), ?_⟩
  · rw [htrim]
    decide
  · exact hexact true "05".toList "30".toList 5 30 htrim (by decide) (by decide) (by decide)
      (by decide) (by decide)

/-- Hours with a sign of their own are read, though no offset is meant by them; and the least
number of hours is read as no offset, as the seconds leave thirty-two bits. -/
theorem signed_hours_read :
    (ofSetting? "+-5:00" = some { seconds := -18000 } ∧
      ∀ n, ¬Meant (Text.trim "+-5:00".toList) n) ∧
    ofSetting? "+-2147483648:00" = some utc ∧ ¬Exact false (-2147483648) 0 := by
  have htrim : Text.trim "+-5:00".toList = "+-5:00".toList := by decide
  have hsigned : SignedTwice (Text.trim "+-5:00".toList) (-18000) := by
    rw [htrim]
    exact ⟨false, "-5".toList, "00".toList, -5, 0, by decide, .minus (by decide),
      .digits (by decide), by decide, by decide, by decide, by decide⟩
  refine ⟨⟨by decide, fun n => not_meant_of_signedTwice hsigned⟩, by decide, fun hexact => ?_⟩
  exact absurd hexact.hours (by decide)

end Offset

end Relational
