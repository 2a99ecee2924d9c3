import Mathlib.Data.List.Forall2
import Mathlib.Data.List.SplitBy
import Relational.Proofs.Unquoted
/-
The words of a statement outside quotes.

Letters that stand together are a word.  A text is put together from parts, and its words are those
of the parts as long as no word runs from one part into the next: what a part leaves outside quotes
has to start with something else than a letter, or the part in front of it to end so.
-/
namespace Relational

namespace Text

/-- The words and marks of a text: letters that stand together are a word, and every other character
is a mark by itself. -/
def tokens (s : List Char) : List (List Char) :=
  s.splitBy fun a b => a.isAlpha && b.isAlpha

/-- No word can run into the text from what is in front of it. -/
def StartsApart (s : List Char) : Prop :=
  ∀ c ∈ s.head?, c.isAlpha = false

/-- No word can run out of the text into what is behind it. -/
def EndsApart (s : List Char) : Prop :=
  ∀ c ∈ s.getLast?, c.isAlpha = false

-- The instances are given by name: a search can also find the one that tries all characters.
instance : DecidablePred StartsApart := fun s =>
  (Option.decidableForallMem s.head? : Decidable (∀ c ∈ s.head?, c.isAlpha = false))

instance : DecidablePred EndsApart := fun s =>
  (Option.decidableForallMem s.getLast? : Decidable (∀ c ∈ s.getLast?, c.isAlpha = false))

variable {s t : List Char}

theorem tokens_append (h : EndsApart s ∨ StartsApart t) : tokens (s ++ t) = tokens s ++ tokens t := by
  refine List.splitBy_append fun a ha b hb => ?_
  rcases h with h | h
  · rw [h a ha, Bool.false_and]
  · rw [h b hb, Bool.and_false]

theorem tokens_cons {c : Char} (hc : c.isAlpha = false) : tokens (c :: s) = [c] :: tokens s := by
  have hends : EndsApart [c] := by
    intro x hx
    cases hx
    exact hc
  exact tokens_append (.inl hends)

/-- Without letters every character is by itself. -/
theorem tokens_unlettered (h : ∀ c ∈ s, c.isAlpha = false) : tokens s = s.map fun c => [c] := by
  induction s with
  | nil => rfl
  | cons c s ih =>
      obtain ⟨hc, hs⟩ := List.forall_mem_cons.mp h
      rw [tokens_cons hc, ih hs, List.map_cons]

/-- A word is nowhere in a text that one of its letters is not in. -/
theorem count_tokens_eq_zero {word : List Char} {c : Char} (hc : c ∈ word) (h : c ∉ s) :
    (tokens s).count word = 0 := by
  refine List.count_eq_zero.mpr fun hword => h ?_
  rw [← List.flatten_splitBy (fun a b => a.isAlpha && b.isAlpha) s]
  exact List.mem_flatten.mpr ⟨word, hword, hc⟩

/-- Digits come before all letters. -/
theorem isAlpha_of_isDigit {c : Char} (h : c.isDigit = true) : c.isAlpha = false := by
  have hnine : c.val.toNat ≤ 57 := (Char.isDigit_iff_toNat.mp h).2
  have hbefore : ∀ letter : UInt32, 57 < letter.toNat → ¬c.val ≥ letter := by
    intro letter hletter hle
    have hnumbers := UInt32.le_iff_toNat_le.mp hle
    omega
  have hupper : ¬(c.val ≥ 'A'.val ∧ c.val ≤ 'Z'.val) := fun hc => hbefore _ (by decide) hc.1
  have hlower : ¬c.val ≥ 'a'.val := hbefore _ (by decide)
  change (decide (c.val ≥ 'A'.val ∧ c.val ≤ 'Z'.val) ||
    (decide (c.val ≥ 'a'.val) && decide (c.val ≤ 'z'.val))) = false
  rw [decide_eq_false hupper, decide_eq_false hlower, Bool.false_and, Bool.or_false]

theorem StartsApart.append (hs : StartsApart s) (ht : StartsApart t) : StartsApart (s ++ t) := by
  cases s with
  | nil => exact ht
  | cons c s => exact hs

theorem startsApart_of_unlettered (h : ∀ c ∈ s, c.isAlpha = false) : StartsApart s :=
  fun c hc => h c (List.mem_of_mem_head? hc)

end Text

namespace Dialect

/-- The words of the text outside quotes, which are all closed. -/
def Says (d : Dialect) (s : List Char) (ws : List (List Char)) : Prop :=
  ∃ left, d.Leaves s left ∧ Text.tokens left = ws

/-- The words of the text outside quotes; none of them can be the end of a word in front. -/
def SaysApart (d : Dialect) (s : List Char) (ws : List (List Char)) : Prop :=
  ∃ left, d.Leaves s left ∧ Text.StartsApart left ∧ Text.tokens left = ws

variable {d : Dialect} {s t : List Char} {ws more : List (List Char)}

/-- Words that quote nothing, and that no word in front runs into. -/
def PlainApart (s : List Char) : Prop :=
  AllPlain s ∧ Text.StartsApart s

instance : DecidablePred PlainApart := fun s =>
  inferInstanceAs (Decidable (AllPlain s ∧ Text.StartsApart s))

theorem SaysApart.told (h : d.SaysApart s ws) : d.Says s ws := by
  obtain ⟨left, hleaves, -, hwords⟩ := h
  exact ⟨left, hleaves, hwords⟩

namespace Says

theorem append (hs : d.Says s ws) (ht : d.SaysApart t more) : d.Says (s ++ t) (ws ++ more) := by
  obtain ⟨left, hleaves, rfl⟩ := hs
  obtain ⟨left', hleaves', hstarts, rfl⟩ := ht
  exact ⟨left ++ left', hleaves.append hleaves', Text.tokens_append (.inr hstarts)⟩

theorem plain (h : AllPlain s) : d.Says s (Text.tokens s) :=
  ⟨s, .plain h, rfl⟩

/-- In front of any text there are words that end by themselves. -/
theorem behind (hs : AllPlain s) (hends : Text.EndsApart s) (ht : d.Says t ws) :
    d.Says (s ++ t) (Text.tokens s ++ ws) := by
  obtain ⟨left, hleaves, rfl⟩ := ht
  exact ⟨s ++ left, (Leaves.plain hs).append hleaves, Text.tokens_append (.inl hends)⟩

/-- The words of a whole text. -/
theorem tokens_unquoted {s : String} (h : d.Says s.toList ws) : Text.tokens (d.unquoted s) = ws := by
  obtain ⟨left, hleaves, rfl⟩ := h
  rw [hleaves.unquoted]

end Says

namespace SaysApart

theorem nil : d.SaysApart [] [] :=
  ⟨[], .nil, by decide, rfl⟩

theorem append (hs : d.SaysApart s ws) (ht : d.SaysApart t more) :
    d.SaysApart (s ++ t) (ws ++ more) := by
  obtain ⟨left, hleaves, hstarts, rfl⟩ := hs
  obtain ⟨left', hleaves', hstarts', rfl⟩ := ht
  exact ⟨left ++ left', hleaves.append hleaves', hstarts.append hstarts',
    Text.tokens_append (.inr hstarts')⟩

theorem plain (h : PlainApart s) : d.SaysApart s (Text.tokens s) :=
  ⟨s, .plain h.1, h.2, rfl⟩

end SaysApart

/-! ### How often a word is there -/

/-- Outside quotes the text has the word so many times. -/
def Has (d : Dialect) (word : List Char) (s : String) (n : Nat) : Prop :=
  ∃ ws, d.Says s.toList ws ∧ ws.count word = n

/-- Outside quotes the text has the word so many times, and none of them starts in front of it. -/
def Counts (d : Dialect) (word : List Char) (s : String) (n : Nat) : Prop :=
  ∃ ws, d.SaysApart s.toList ws ∧ ws.count word = n

/-- The text is words without this one, and stands apart on both sides. -/
def Separates (word : List Char) (s : String) : Prop :=
  s ≠ "" ∧ AllPlain s.toList ∧ Text.StartsApart s.toList ∧ Text.EndsApart s.toList ∧
    (Text.tokens s.toList).count word = 0

instance (word : List Char) : DecidablePred (Separates word) := fun s =>
  inferInstanceAs (Decidable (s ≠ "" ∧ _))

variable {word : List Char} {s t : String} {n m : Nat}

theorem Counts.has (h : d.Counts word s n) : d.Has word s n := by
  obtain ⟨ws, hapart, hcount⟩ := h
  exact ⟨ws, hapart.told, hcount⟩

/-- How often a whole text has the word. -/
theorem Has.count_unquoted (h : d.Has word s n) : (Text.tokens (d.unquoted s)).count word = n := by
  obtain ⟨ws, htold, hcount⟩ := h
  rw [htold.tokens_unquoted, hcount]

namespace Has

theorem literal (h : AllPlain s.toList ∧ (Text.tokens s.toList).count word = n) :
    d.Has word s n :=
  ⟨_, .plain h.1, h.2⟩

/-- A word is not there if one of its letters is not left. -/
theorem without {left : List Char} {c : Char} (hleaves : d.Leaves s.toList left) (hc : c ∈ word)
    (h : c ∉ left) : d.Has word s 0 :=
  ⟨_, ⟨left, hleaves, rfl⟩, Text.count_tokens_eq_zero hc h⟩

theorem append (hs : d.Has word s n) (ht : d.Counts word t m) : d.Has word (s ++ t) (n + m) := by
  obtain ⟨ws, htold, rfl⟩ := hs
  obtain ⟨more, hapart, rfl⟩ := ht
  refine ⟨ws ++ more, ?_, List.count_append⟩
  rw [String.toList_append]
  exact htold.append hapart

/-- Texts without the word, one behind the other. -/
theorem none_append (hs : d.Has word s 0) (ht : d.Counts word t 0) : d.Has word (s ++ t) 0 :=
  hs.append ht

/-- Behind words that end by themselves. -/
theorem behind
    (hs : AllPlain s.toList ∧ Text.EndsApart s.toList ∧ (Text.tokens s.toList).count word = n)
    (ht : d.Has word t m) : d.Has word (s ++ t) (n + m) := by
  obtain ⟨hplain, hends, hcount⟩ := hs
  obtain ⟨ws, htold, rfl⟩ := ht
  refine ⟨Text.tokens s.toList ++ ws, ?_, by rw [List.count_append, hcount]⟩
  rw [String.toList_append]
  exact htold.behind hplain hends

end Has

namespace Counts

theorem empty : d.Counts word "" 0 :=
  ⟨[], .nil, rfl⟩

theorem append (hs : d.Counts word s n) (ht : d.Counts word t m) :
    d.Counts word (s ++ t) (n + m) := by
  obtain ⟨ws, hapart, rfl⟩ := hs
  obtain ⟨more, hapart', rfl⟩ := ht
  refine ⟨ws ++ more, ?_, List.count_append⟩
  rw [String.toList_append]
  exact hapart.append hapart'

theorem literal (h : PlainApart s.toList ∧ (Text.tokens s.toList).count word = n) :
    d.Counts word s n :=
  ⟨_, .plain h.1, h.2⟩

theorem without {left : List Char} {c : Char} (hleaves : d.Leaves s.toList left)
    (hstarts : Text.StartsApart left) (hc : c ∈ word) (h : c ∉ left) : d.Counts word s 0 :=
  ⟨_, ⟨left, hleaves, hstarts, rfl⟩, Text.count_tokens_eq_zero hc h⟩

/-- Texts without the word, one behind the other. -/
theorem none_append (hs : d.Counts word s 0) (ht : d.Counts word t 0) :
    d.Counts word (s ++ t) 0 :=
  hs.append ht

/-- Behind words that stand apart on both sides. -/
theorem behind (hs : Separates word s) (ht : d.Has word t n) : d.Counts word (s ++ t) n := by
  obtain ⟨hne, hplain, hstarts, hends, hcount⟩ := hs
  obtain ⟨ws, ⟨left, hleaves, rfl⟩, rfl⟩ := ht
  refine ⟨Text.tokens s.toList ++ Text.tokens left, ⟨s.toList ++ left, ?_, ?_, ?_⟩, ?_⟩
  · rw [String.toList_append]
    exact (Leaves.plain hplain).append hleaves
  · cases hlist : s.toList with
    | nil => exact absurd (String.toList_injective hlist) hne
    | cons c rest =>
        rw [hlist] at hstarts
        exact hstarts
  · exact Text.tokens_append (.inl hends)
  · rw [List.count_append, hcount, Nat.zero_add]

/-- A word of letters is in no marks. -/
theorem marks (hplain : AllPlain s.toList) (h : ∀ c ∈ s.toList, c.isAlpha = false)
    (hword : word.length ≠ 1) : d.Counts word s 0 := by
  refine ⟨_, .plain ⟨hplain, Text.startsApart_of_unlettered h⟩, ?_⟩
  rw [Text.tokens_unlettered h, List.count_eq_zero]
  intro hmem
  obtain ⟨c, -, rfl⟩ := List.mem_map.mp hmem
  exact hword rfl

end Counts

/-- Texts on both sides of words that stand apart. -/
theorem Has.join {separator : String} (hs : d.Has word s n) (hseparator : Separates word separator)
    (ht : d.Has word t m) : d.Has word (s ++ separator ++ t) (n + m) := by
  rw [String.append_assoc]
  exact hs.append (.behind hseparator ht)

theorem Has.none_join {separator : String} (hs : d.Has word s 0)
    (hseparator : Separates word separator) (ht : d.Has word t 0) :
    d.Has word (s ++ separator ++ t) 0 :=
  hs.join hseparator ht

/-- Texts with such words between neighbours. -/
theorem Has.intercalate {separator : String} (hseparator : Separates word separator)
    {parts : List String} {counts : List Nat} (h : List.Forall₂ (d.Has word) parts counts) :
    d.Has word (String.intercalate separator parts) counts.sum := by
  induction h with
  | nil => exact Counts.empty.has
  | @cons part count parts counts hfirst hrest ih =>
      cases parts with
      | nil =>
          cases hrest
          simpa using hfirst
      | cons next parts =>
          rw [List.sum_cons, String.intercalate_cons_of_ne_nil (by simp)]
          exact hfirst.join hseparator ih

theorem Has.intercalate_none {separator : String} (hseparator : Separates word separator)
    {parts : List String} (h : ∀ part ∈ parts, d.Has word part 0) :
    d.Has word (String.intercalate separator parts) 0 := by
  have hnone : List.Forall₂ (d.Has word) parts (parts.map fun _ => 0) :=
    List.forall₂_map_right_iff.mpr (List.forall₂_same.mpr h)
  simpa using Has.intercalate hseparator hnone

theorem isAlpha_of_mem_number {n : Nat} {c : Char} (hc : c ∈ (toString n).toList) :
    c.isAlpha = false := by
  rw [Nat.toString_eq_repr, Nat.toList_repr] at hc
  exact Text.isAlpha_of_isDigit (Decimal.isDigit_of_mem_digitsOf hc)

theorem Counts.number (n : Nat) (hword : word.length ≠ 1) : d.Counts word (toString n) 0 :=
  .marks (fun c hc => (allTame_number n c hc).2) (fun _ hc => isAlpha_of_mem_number hc) hword

end Dialect

end Relational
