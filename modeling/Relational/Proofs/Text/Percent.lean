import Relational.Json.Reader
/-
Percent escapes.

A percent sign with two hexadecimal digits behind it stands for one byte, and every other character
for its own bytes.  An escape is three characters for one byte, so decoding never makes a text
longer, and makes it shorter as soon as there is an escape: a text that keeps its length keeps every
character.
-/
namespace Relational

/-- The number of bytes of a text. -/
def Text.byteLength (s : List Char) : Nat :=
  (s.flatMap String.utf8EncodeChar).length

namespace Text

variable {s t : List Char}

theorem byteLength_cons (c : Char) (s : List Char) :
    byteLength (c :: s) = c.utf8Size + byteLength s := by
  simp [byteLength, String.length_utf8EncodeChar]

theorem byteLength_of_isDigit (h : ∀ c ∈ s, c.isDigit = true) : byteLength s = s.length := by
  induction s with
  | nil => rfl
  | cons c s ih =>
      obtain ⟨hc, hs⟩ := List.forall_mem_cons.mp h
      have hnine : c.toNat ≤ '0'.toNat + 9 := (Char.isDigit_iff_toNat.mp hc).2
      have hsize : c.utf8Size = 1 := Char.utf8Size_eq_one_iff.mpr (by
        rw [UInt32.le_iff_toNat_le]
        exact Nat.le_trans hnine (by decide))
      rw [byteLength_cons, hsize, ih hs, List.length_cons, Nat.add_comm]

theorem byteLength_append (s t : List Char) :
    byteLength (s ++ t) = byteLength s + byteLength t := by
  simp [byteLength]

end Text

namespace Percent

/-- The byte that two hexadecimal digits stand for. -/
def byte? (high low : Char) : Option UInt8 :=
  match Json.hexDigit? high, Json.hexDigit? low with
  | some a, some b => some (UInt8.ofNat (16 * a + b))
  | _, _ => none

/-- The bytes of a text in which a percent sign with two hexadecimal digits stands for one byte. -/
def bytes : List Char → List UInt8
  | [] => []
  | '%' :: high :: low :: rest =>
    match byte? high low with
    | some b => b :: bytes rest
    | none => String.utf8EncodeChar '%' ++ bytes (high :: low :: rest)
  | c :: rest => String.utf8EncodeChar c ++ bytes rest

/-- The text that is meant, if the bytes make one. -/
def decoded? (s : List Char) : Option String :=
  String.fromUTF8? (bytes s).toByteArray

/-- A percent sign stands in front of two hexadecimal digits. -/
def HasEscape (s : List Char) : Prop :=
  ∃ high low, (byte? high low).isSome = true ∧ ['%', high, low] <:+: s

variable {s : List Char} {t : String}

theorem hasEscape_cons {c : Char} : HasEscape (c :: s) ↔
    (∃ high low rest, (byte? high low).isSome = true ∧ c :: s = '%' :: high :: low :: rest) ∨
      HasEscape s := by
  unfold HasEscape
  constructor
  · rintro ⟨high, low, hbyte, hinfix⟩
    rcases List.infix_cons_iff.mp hinfix with ⟨rest, hrest⟩ | hinfix
    · exact Or.inl ⟨high, low, rest, hbyte, hrest.symm⟩
    · exact Or.inr ⟨high, low, hbyte, hinfix⟩
  · rintro (⟨high, low, rest, hbyte, hrest⟩ | ⟨high, low, hbyte, hinfix⟩)
    · exact ⟨high, low, hbyte, hrest ▸ ⟨[], rest, rfl⟩⟩
    · exact ⟨high, low, hbyte, List.infix_cons hinfix⟩

/-- Without an escape the bytes are those of the text. -/
theorem bytes_of_not_hasEscape (h : ¬HasEscape s) : bytes s = s.flatMap String.utf8EncodeChar := by
  fun_induction bytes s with
  | case1 => rfl
  | case2 high low rest b hb ih =>
      exact absurd (hasEscape_cons.mpr (.inl ⟨high, low, rest, by rw [hb]; rfl, rfl⟩)) h
  | case3 high low rest hb ih =>
      rw [ih fun hrest => h (hasEscape_cons.mpr (.inr hrest)), ← List.flatMap_cons]
  | case4 c rest hc ih =>
      rw [ih fun hrest => h (hasEscape_cons.mpr (.inr hrest)), ← List.flatMap_cons]

theorem length_bytes_le (s : List Char) : (bytes s).length ≤ Text.byteLength s := by
  fun_induction bytes s with
  | case1 => exact Nat.le_refl _
  | case2 high low rest b hb ih =>
      simp only [Text.byteLength_cons, List.length_cons]
      have := Char.utf8Size_pos '%'
      omega
  | case3 high low rest hb ih =>
      rw [Text.byteLength_cons, List.length_append, String.length_utf8EncodeChar]
      omega
  | case4 c rest hc ih =>
      rw [Text.byteLength_cons, List.length_append, String.length_utf8EncodeChar]
      omega

/-- An escape makes the bytes fewer. -/
theorem length_bytes_lt (h : HasEscape s) : (bytes s).length < Text.byteLength s := by
  fun_induction bytes s with
  | case1 =>
      obtain ⟨high, low, -, hinfix⟩ := h
      exact absurd (List.infix_nil.mp hinfix) (List.cons_ne_nil _ _)
  | case2 high low rest b hb ih =>
      have := length_bytes_le rest
      simp only [Text.byteLength_cons, List.length_cons]
      have := Char.utf8Size_pos '%'
      have := Char.utf8Size_pos high
      omega
  | case3 high low rest hb ih =>
      rw [Text.byteLength_cons, List.length_append, String.length_utf8EncodeChar]
      rcases hasEscape_cons.mp h with ⟨high', low', rest', hb', heq⟩ | hrest
      · cases heq
        rw [hb] at hb'
        cases hb'
      · have := ih hrest
        omega
  | case4 c rest hc ih =>
      rw [Text.byteLength_cons, List.length_append, String.length_utf8EncodeChar]
      rcases hasEscape_cons.mp h with ⟨high, low, rest', hb', heq⟩ | hrest
      · cases heq
        exact absurd rfl (hc high low rest' rfl)
      · have := ih hrest
        omega

theorem decoded?_eq_some : decoded? s = some t ↔ (bytes s).toByteArray = t.toByteArray := by
  unfold decoded? String.fromUTF8?
  constructor
  · intro h
    obtain ⟨hvalid, h⟩ := Option.dite_none_right_eq_some.mp h
    cases h
    rfl
  · intro h
    have hvalid : (bytes s).toByteArray.IsValidUTF8 := h ▸ t.isValidUTF8
    rw [dif_pos hvalid]
    exact congrArg some (String.toByteArray_inj.mp h)

theorem byteLength_toList (t : String) : Text.byteLength t.toList = t.toByteArray.size := by
  have h : t.toList.utf8Encode = t.toByteArray := by
    rw [← String.toByteArray_ofList, String.ofList_toList]
  rw [← h, List.utf8Encode, List.size_toByteArray, Text.byteLength]

/-- A decoded text has at most as many bytes as it is written with, and fewer with an escape. -/
theorem byteLength_le_of_decoded? (h : decoded? s = some t) :
    Text.byteLength t.toList ≤ Text.byteLength s := by
  rw [byteLength_toList, ← decoded?_eq_some.mp h, List.size_toByteArray]
  exact length_bytes_le s

/-- A text is decoded to itself exactly if it has no escape. -/
theorem decoded?_toList : decoded? t.toList = some t ↔ ¬HasEscape t.toList := by
  constructor
  · intro h hescape
    have hlt := length_bytes_lt hescape
    rw [byteLength_toList, ← decoded?_eq_some.mp h, List.size_toByteArray] at hlt
    exact Nat.lt_irrefl _ hlt
  · intro h
    rw [decoded?_eq_some, bytes_of_not_hasEscape h]
    show t.toList.utf8Encode = t.toByteArray
    rw [← String.toByteArray_ofList, String.ofList_toList]

/-- What is decoded without a loss of bytes is the text itself. -/
theorem eq_of_decoded? (h : decoded? s = some t)
    (hlength : Text.byteLength s ≤ Text.byteLength t.toList) : s = t.toList ∧ ¬HasEscape s := by
  have hnone : ¬HasEscape s := by
    intro hescape
    have hlt := length_bytes_lt hescape
    rw [byteLength_toList, ← decoded?_eq_some.mp h, List.size_toByteArray] at hlength
    omega
  refine ⟨?_, hnone⟩
  have hself : decoded? (String.ofList s).toList = some (String.ofList s) :=
    decoded?_toList.mpr (by rwa [String.toList_ofList])
  rw [String.toList_ofList, h] at hself
  rw [Option.some.inj hself, String.toList_ofList]

end Percent

end Relational
