import Relational.Json.Reader
/-
Texts survive being written as JSON and read again.

A character is written as itself or as an escape, and either way one unit is read.  A unit
is one character whatever stands behind it, as no escape that is written is half of a pair.
-/
namespace Relational.Json

/-! ### Hexadecimal digits -/

theorem hexDigit?_digitChar {n : Nat} (h : n < 16) : hexDigit? (Nat.digitChar n) = some n := by
  have hall : ∀ k < 16, hexDigit? (Nat.digitChar k) = some k := by decide
  exact hall n h

theorem hexNumber?_hex4 {n : Nat} (h : n < 65536) :
    hexNumber? (Nat.digitChar (n / 4096 % 16)) (Nat.digitChar (n / 256 % 16))
      (Nat.digitChar (n / 16 % 16)) (Nat.digitChar (n % 16)) = some n := by
  have hjoined :
      ((n / 4096 % 16 * 16 + n / 256 % 16) * 16 + n / 16 % 16) * 16 + n % 16 = n := by
    omega
  unfold hexNumber?
  rw [hexDigit?_digitChar (by omega), hexDigit?_digitChar (by omega),
    hexDigit?_digitChar (by omega), hexDigit?_digitChar (by omega)]
  simp only [Option.bind_eq_bind, Option.bind_some, hjoined]
  rfl

/-! ### Units -/

/-- The unit is this character, whatever stands behind it. -/
def Unit16.Denotes (u : Unit16) (c : Char) : Prop :=
  ∀ units, charsOfUnits? (u :: units) = (charsOfUnits? units).map (c :: ·)

theorem denotes_char (c : Char) : (Unit16.char c).Denotes c := by
  intro units
  rw [charsOfUnits?]

theorem denotes_code {n : Nat} (h : n < 0xD800) : (Unit16.code n).Denotes (Char.ofNat n) := by
  have hlow : ¬(0xD800 ≤ n ∧ n < 0xDC00) := by omega
  have hhigh : ¬(0xDC00 ≤ n ∧ n < 0xE000) := by omega
  have hhalf : ¬(0xD800 ≤ n ∧ n < 0xE000) := by omega
  intro units
  rcases units with _ | ⟨c | m, rest⟩
  · simp [charsOfUnits?, hhalf]
  · simp [charsOfUnits?, hhalf]
  · rw [charsOfUnits?, if_neg hlow, if_neg hhigh]

theorem readUnits?_letter {letter c : Char} (h : simpleEscape? letter = some c)
    (hu : letter ≠ 'u') (rest : List Char) :
    readUnits? ('\\' :: letter :: rest) =
      (readUnits? rest).map fun (units, rest) => (.char c :: units, rest) := by
  rw [readUnits?, h, Option.map_eq_bind]
  · rfl
  · intro _ _ _ _ _ hletter
    exact absurd hletter hu

theorem readUnits?_code {n : Nat} (h : n < 65536) (rest : List Char) :
    readUnits? ('\\' :: 'u' :: (hex4 n ++ rest)) =
      (readUnits? rest).map fun (units, rest) => (.code n :: units, rest) := by
  show readUnits? ('\\' :: 'u' :: _ :: _ :: _ :: _ :: rest) = _
  rw [readUnits?, hexNumber?_hex4 h, Option.map_eq_bind]
  rfl

theorem readUnits?_plain {c : Char} (hquote : c ≠ '"') (hslash : c ≠ '\\') (hlow : ¬c.toNat < 32)
    (rest : List Char) :
    readUnits? (c :: rest) = (readUnits? rest).map fun (units, rest) => (.char c :: units, rest) := by
  rw [readUnits?, if_neg (by simp [hlow, hslash]), Option.map_eq_bind]
  · rfl
  · exact hquote
  · intro _ _ _ _ _ h
    exact absurd h hslash
  · intro _ _ h
    exact absurd h hslash

/-- A character that is written is read as one unit. -/
theorem exists_unit (c : Char) : ∃ u : Unit16, u.Denotes c ∧ ∀ rest,
    readUnits? (escaped c ++ rest) = (readUnits? rest).map fun (units, rest) => (u :: units, rest) := by
  have hletter : ∀ letter, simpleEscape? letter = some c → letter ≠ 'u' →
      escaped c = ['\\', letter] → ∃ u : Unit16, u.Denotes c ∧ ∀ rest,
        readUnits? (escaped c ++ rest) =
          (readUnits? rest).map fun (units, rest) => (u :: units, rest) := by
    intro letter h hu hescaped
    refine ⟨.char c, denotes_char c, fun rest => ?_⟩
    rw [hescaped]
    exact readUnits?_letter h hu rest
  by_cases hquote : c = '"'
  · subst hquote
    exact hletter '"' rfl (by decide) rfl
  by_cases hslash : c = '\\'
  · subst hslash
    exact hletter '\\' rfl (by decide) rfl
  by_cases hfeed : c = '\n'
  · subst hfeed
    exact hletter 'n' rfl (by decide) rfl
  by_cases hreturn : c = '\r'
  · subst hreturn
    exact hletter 'r' rfl (by decide) rfl
  by_cases htab : c = '\t'
  · subst htab
    exact hletter 't' rfl (by decide) rfl
  by_cases hback : c = '\x08'
  · subst hback
    exact hletter 'b' rfl (by decide) rfl
  by_cases hform : c = '\x0c'
  · subst hform
    exact hletter 'f' rfl (by decide) rfl
  by_cases hlow : c.toNat < 32
  · have hescaped : escaped c = '\\' :: 'u' :: hex4 c.toNat := by
      simp [escaped, hquote, hslash, hfeed, hreturn, htab, hback, hform, hlow]
    refine ⟨.code c.toNat, ?_, fun rest => ?_⟩
    · have hdenotes := denotes_code (n := c.toNat) (by omega)
      rwa [Char.ofNat_toNat] at hdenotes
    · rw [hescaped]
      exact readUnits?_code (by omega) rest
  · have hescaped : escaped c = [c] := by
      simp [escaped, hquote, hslash, hfeed, hreturn, htab, hback, hform, hlow]
    refine ⟨.char c, denotes_char c, fun rest => ?_⟩
    rw [hescaped]
    exact readUnits?_plain hquote hslash hlow rest

/-! ### Texts -/

theorem exists_units (s : List Char) : ∃ units, charsOfUnits? units = some s ∧ ∀ rest,
    readUnits? (s.flatMap escaped ++ '"' :: rest) = some (units, rest) := by
  induction s with
  | nil => exact ⟨[], rfl, fun rest => rfl⟩
  | cons c s ih =>
      obtain ⟨u, hu, hfirst⟩ := exists_unit c
      obtain ⟨units, hunits, hrest⟩ := ih
      refine ⟨u :: units, ?_, fun rest => ?_⟩
      · rw [hu units, hunits]
        rfl
      · rw [List.flatMap_cons, List.append_assoc, hfirst, hrest]
        rfl

/-- What is written is read, up to the closing quote. -/
theorem readString?_quoted (s : String) (rest : List Char) :
    readString? textOfUnits? (s.toList.flatMap escaped ++ '"' :: rest) = some (some s, rest) := by
  obtain ⟨units, hunits, hread⟩ := exists_units s.toList
  rw [readString?, hread rest]
  show some (textOfUnits? units, rest) = _
  rw [textOfUnits?, hunits, Option.map_some, String.ofList_toList]

end Relational.Json
