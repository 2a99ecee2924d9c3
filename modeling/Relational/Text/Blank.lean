/-
Blank characters, and the trimming and word splitting they define.

Names, operators, script lines and time zones are all read up to the blanks around them.  Blank
means Unicode's `White_Space` class throughout, which is wider than the ASCII one: a no-break
space separates two words here, a byte order mark does not.
-/
namespace Relational.Text

/-- The characters of Unicode's `White_Space` class. -/
def isBlank (c : Char) : Bool :=
  let n := c.toNat
  (9 ≤ n && n ≤ 13) || n == 0x20 || n == 0x85 || n == 0xA0 || n == 0x1680 ||
    (0x2000 ≤ n && n ≤ 0x200A) || n == 0x2028 || n == 0x2029 || n == 0x202F ||
    n == 0x205F || n == 0x3000

/-! ### Trimming -/

/-- The text without its leading blanks. -/
def trimStart (s : List Char) : List Char :=
  s.dropWhile isBlank

/-- The text without its final run of characters in `p`. -/
def dropEndWhile (p : Char → Bool) (s : List Char) : List Char :=
  (s.reverse.dropWhile p).reverse

/-- The text without its trailing blanks. -/
def trimEnd (s : List Char) : List Char :=
  dropEndWhile isBlank s

/-- The text without the blanks at either end. -/
def trim (s : List Char) : List Char :=
  trimEnd (trimStart s)

/-! ### Words -/

/-- The maximal runs of characters that are not blank, in order. -/
def words (s : List Char) : List (List Char) :=
  (s.splitOnP isBlank).filter (!·.isEmpty)

/-- The words of a text with one space between neighbours. -/
def squeezed (s : List Char) : List Char :=
  List.intercalate [' '] (words s)

/-! ### Cutting a text in two -/

/-- Cuts at the first character in `p`, which belongs to neither half. -/
def cutAt (p : Char → Bool) : List Char → Option (List Char × List Char)
  | [] => none
  | c :: rest =>
    if p c then some ([], rest)
    else (cutAt p rest).map fun (a, b) => (c :: a, b)

/-- What follows `lead`, if the text starts with it. -/
def afterLead? : List Char → List Char → Option (List Char)
  | [], s => some s
  | _ :: _, [] => none
  | l :: lead, c :: rest => if l = c then afterLead? lead rest else none

/-- What follows the first occurrence of `mark`, if there is one. -/
def afterFirst? (mark : List Char) : List Char → Option (List Char)
  | [] => afterLead? mark []
  | c :: rest =>
    match afterLead? mark (c :: rest) with
    | some tail => some tail
    | none => afterFirst? mark rest

/-- Whether `mark` occurs in the text. -/
def contains (s mark : List Char) : Bool :=
  (afterFirst? mark s).isSome

/-! ### Letter case among the ASCII letters -/

/-- The text with its ASCII letters in lower case, all others kept. -/
def asciiLower (s : List Char) : List Char :=
  s.map Char.toLower

/-- The text with its ASCII letters in upper case, all others kept. -/
def asciiUpper (s : List Char) : List Char :=
  s.map Char.toUpper

/-- Equality up to the case of ASCII letters. -/
def eqIgnoringCase (a b : String) : Bool :=
  asciiLower a.toList == asciiLower b.toList

/-! ### Quoting -/

/-- The text with every `quote` written twice. -/
def doubled (quote : Char) : List Char → List Char
  | [] => []
  | c :: rest => if c = quote then c :: c :: doubled quote rest else c :: doubled quote rest

/-- `s` between `opening` and `closing`, with every closing character inside it doubled. -/
def enclosed (opening closing : Char) (s : String) : String :=
  String.ofList (opening :: (doubled closing s.toList ++ [closing]))

/-! ### Laws of the small functions -/

theorem cutAt_eq {p : Char → Bool} {s a b : List Char} (h : cutAt p s = some (a, b)) :
    ∃ c, p c = true ∧ (∀ x ∈ a, p x = false) ∧ s = a ++ c :: b := by
  induction s generalizing a with
  | nil => simp [cutAt] at h
  | cons c rest ih =>
    by_cases hp : p c
    · simp only [cutAt, hp, if_true, Option.some.injEq, Prod.mk.injEq] at h
      exact ⟨c, hp, by simp [← h.1], by simp [← h.1, ← h.2]⟩
    · simp only [cutAt, hp, Bool.false_eq_true, if_false, Option.map_eq_some_iff,
        Prod.mk.injEq] at h
      obtain ⟨⟨a', b'⟩, hcut, rfl, rfl⟩ := h
      obtain ⟨d, hd, hall, rfl⟩ := ih hcut
      exact ⟨d, hd, by simpa [hp] using hall, by simp⟩

theorem cutAt_append {p : Char → Bool} {s : List Char} (hs : ∀ c ∈ s, p c = false) {c : Char}
    (hc : p c = true) (rest : List Char) : cutAt p (s ++ c :: rest) = some (s, rest) := by
  induction s with
  | nil => simp [cutAt, hc]
  | cons d s ih =>
      have hd := hs d (by simp)
      rw [List.cons_append, cutAt, hd, ih fun x hx => hs x (by simp [hx])]
      rfl

theorem cutAt_eq_none {p : Char → Bool} {s : List Char} (h : ∀ c ∈ s, p c = false) :
    cutAt p s = none := by
  induction s with
  | nil => rfl
  | cons c s ih =>
      have hc : ¬p c = true := Bool.eq_false_iff.mp (h c List.mem_cons_self)
      rw [cutAt, if_neg hc, ih fun x hx => h x (List.mem_cons_of_mem c hx)]
      rfl

theorem forall_of_cutAt_eq_none {p : Char → Bool} {s : List Char} (h : cutAt p s = none) :
    ∀ c ∈ s, p c = false := by
  induction s with
  | nil => exact fun _ hc => nomatch hc
  | cons c s ih =>
      unfold cutAt at h
      split at h
      · cases h
      · rename_i hc
        rw [Option.map_eq_none_iff] at h
        exact List.forall_mem_cons.mpr ⟨Bool.eq_false_iff.mpr hc, ih h⟩

theorem afterLead?_eq_some {lead s tail : List Char} :
    afterLead? lead s = some tail ↔ s = lead ++ tail := by
  induction lead generalizing s with
  | nil => simp [afterLead?]
  | cons l lead ih =>
    cases s with
    | nil => simp [afterLead?]
    | cons c rest =>
      by_cases hc : l = c
      · simp [afterLead?, hc, ih]
      · simp [afterLead?, hc, Ne.symm hc]

theorem length_trimStart_le (s : List Char) : (trimStart s).length ≤ s.length :=
  (List.dropWhile_sublist _).length_le

theorem length_trim_le (s : List Char) : (trim s).length ≤ s.length := by
  have h := (List.dropWhile_sublist isBlank (l := (trimStart s).reverse)).length_le
  simp only [trim, trimEnd, dropEndWhile, List.length_reverse] at h ⊢
  exact Nat.le_trans h (length_trimStart_le s)

theorem isBlank_of_isWhitespace {c : Char} (h : c.isWhitespace = true) : isBlank c = true := by
  simp only [Char.isWhitespace, Bool.or_eq_true, decide_eq_true_eq] at h
  rcases h with ((h | h) | h) | h <;> subst h <;> decide

end Relational.Text
