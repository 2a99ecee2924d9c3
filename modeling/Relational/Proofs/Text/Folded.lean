import Mathlib.Data.List.Basic
import Mathlib.Data.Char
import Relational.Text.Blank
/-
Phrases in a text whose blanks are folded.

A text is searched for keywords in upper case and with one space for every run of blanks.
`folded` builds that text character by character, so it can be taken apart where the
text was put together: at a blank, behind which a space starts a new word, and at any
other character, on which no run of blanks can border from both sides.  A phrase that
starts with a space and has none besides is found on one side of a blank or the other,
and one that lacks some character is found on one side of that character.
-/
namespace Relational.Text

/-! ### Letter case and blanks -/

/-- A letter with a capital of its own, and that capital. -/
theorem toNat_toUpper (c : Char) :
    c.toUpper = c ∨ 97 ≤ c.toNat ∧ c.toNat ≤ 122 ∧ c.toUpper.toNat = c.toNat - 32 := by
  unfold Char.toUpper
  split
  · rename_i h
    obtain ⟨hlow, hhigh⟩ := h
    have hlow' : 97 ≤ c.val.toNat := UInt32.le_iff_toNat_le.mp hlow
    have hhigh' : c.val.toNat ≤ 122 := UInt32.le_iff_toNat_le.mp hhigh
    refine .inr ⟨hlow', hhigh', ?_⟩
    show (c.val + ('A'.val - 'a'.val)).toNat = c.val.toNat - 32
    rw [UInt32.toNat_add]
    have hshift : ('A'.val - 'a'.val).toNat = 2 ^ 32 - 32 := rfl
    omega
  · exact .inl rfl

theorem isBlank_eq_false {c : Char} (hlow : 33 ≤ c.toNat) (hhigh : c.toNat ≤ 126) :
    isBlank c = false := by
  simp only [isBlank, Bool.or_eq_false_iff, Bool.and_eq_false_iff, decide_eq_false_iff_not,
    beq_eq_false_iff_ne]
  omega

theorem isBlank_toUpper (c : Char) : isBlank c.toUpper = isBlank c := by
  rcases toNat_toUpper c with h | ⟨hlow, hhigh, h⟩
  · rw [h]
  · rw [isBlank_eq_false (by omega) (by omega), isBlank_eq_false (by omega) (by omega)]

theorem toUpper_of_isBlank {c : Char} (h : isBlank c = true) : c.toUpper = c := by
  rcases toNat_toUpper c with hc | ⟨hlow, hhigh, -⟩
  · exact hc
  · rw [isBlank_eq_false (by omega) (by omega)] at h
    cases h

theorem unbroken_of_any {s : List Char} (h : s.any isBlank = false) : ∀ c ∈ s, isBlank c = false :=
  fun c hc => Bool.not_eq_true _ ▸ List.any_eq_false.mp h c hc

@[simp] theorem asciiUpper_append (a b : List Char) :
    asciiUpper (a ++ b) = asciiUpper a ++ asciiUpper b :=
  List.map_append

/-! ### Folding -/

/-- The text with one space for every run of blanks, but none for a run that ends it; `gap` says
whether blanks stand in front of it. -/
def folded (gap : Bool) : List Char → List Char
  | [] => []
  | c :: rest =>
    if isBlank c then folded true rest
    else if gap then ' ' :: c :: folded false rest
    else c :: folded false rest

theorem folded_nil (gap : Bool) : folded gap [] = [] :=
  rfl

theorem folded_cons (gap : Bool) (c : Char) (rest : List Char) :
    folded gap (c :: rest) =
      if isBlank c then folded true rest
      else if gap then ' ' :: c :: folded false rest
      else c :: folded false rest :=
  rfl

theorem folded_blank {c : Char} (h : isBlank c = true) (gap : Bool) (rest : List Char) :
    folded gap (c :: rest) = folded true rest := by
  rw [folded_cons, if_pos h]

theorem folded_letter {c : Char} (h : isBlank c = false) (rest : List Char) :
    folded false (c :: rest) = c :: folded false rest := by
  simp [folded_cons, h]

theorem folded_gap_letter {c : Char} (h : isBlank c = false) (rest : List Char) :
    folded true (c :: rest) = ' ' :: c :: folded false rest := by
  simp [folded_cons, h]

/-- At a blank a new word starts. -/
theorem folded_append_blank {c : Char} (h : isBlank c = true) (gap : Bool) (a b : List Char) :
    folded gap (a ++ c :: b) = folded gap a ++ folded true b := by
  induction a generalizing gap with
  | nil => exact folded_blank h gap b
  | cons x rest ih =>
      rw [List.cons_append, folded_cons, folded_cons, ih, ih]
      split
      · rfl
      · split
        · rfl
        · rfl

/-- No run of blanks reaches across any other character. -/
theorem folded_append_letter {c : Char} (h : isBlank c = false) (gap : Bool) (a b : List Char) :
    folded gap (a ++ c :: b) = folded gap (a ++ [c]) ++ folded false b := by
  induction a generalizing gap with
  | nil => cases gap <;> simp [folded_nil, folded_cons, h]
  | cons x rest ih =>
      rw [List.cons_append, List.cons_append, folded_cons, folded_cons, ih, ih]
      split
      · rfl
      · split
        · rfl
        · rfl

/-- The last character stays the last. -/
theorem exists_folded_letter {c : Char} (h : isBlank c = false) (gap : Bool) (a : List Char) :
    ∃ front, folded gap (a ++ [c]) = front ++ [c] := by
  induction a generalizing gap with
  | nil =>
      cases gap with
      | true => exact ⟨[' '], folded_gap_letter h []⟩
      | false => exact ⟨[], folded_letter h []⟩
  | cons x rest ih =>
      obtain ⟨front, hfront⟩ := ih false
      rw [List.cons_append, folded_cons, hfront]
      split
      · exact ih true
      · split
        · exact ⟨' ' :: x :: front, rfl⟩
        · exact ⟨x :: front, rfl⟩

/-- Behind a gap there is nothing, or a space first. -/
theorem folded_gap (s : List Char) : folded true s = [] ∨ ∃ rest, folded true s = ' ' :: rest := by
  induction s with
  | nil => exact .inl rfl
  | cons c rest ih =>
      rw [folded_cons]
      split
      · exact ih
      · exact .inr ⟨_, rfl⟩

/-- A gap and the words of a text, each behind one space. -/
theorem folded_words (s : List Char) :
    folded true s = (words s).flatMap (' ' :: ·) ∧
      ∀ first others, s.splitOnP isBlank = first :: others →
        folded false s = first ++ (others.filter (!·.isEmpty)).flatMap (' ' :: ·) := by
  induction s with
  | nil =>
      refine ⟨rfl, fun first others h => ?_⟩
      rw [List.splitOnP_nil] at h
      cases h
      rfl
  | cons c rest ih =>
      obtain ⟨first, others, hrest⟩ :=
        List.exists_cons_of_ne_nil (List.splitOnP_ne_nil isBlank rest)
      have hinner := ih.2 first others hrest
      cases hc : isBlank c with
      | true =>
          have hsplit : (c :: rest).splitOnP isBlank = [] :: rest.splitOnP isBlank := by
            rw [List.splitOnP_cons_eq_if_modifyHead, if_pos hc]
          have hwords : words (c :: rest) = words rest := by
            rw [words, hsplit]
            rfl
          refine ⟨by rw [folded_blank hc, hwords, ih.1], fun first' others' h => ?_⟩
          rw [hsplit] at h
          cases h
          rw [folded_blank hc, ih.1]
          rfl
      | false =>
          have hsplit : (c :: rest).splitOnP isBlank = (c :: first) :: others := by
            rw [List.splitOnP_cons_eq_if_modifyHead, if_neg (by simp [hc]), hrest]
            rfl
          refine ⟨?_, fun first' others' h => ?_⟩
          · rw [folded_gap_letter hc, hinner, words, hsplit]
            rfl
          · rw [hsplit] at h
            cases h
            rw [folded_letter hc, hinner]
            rfl

/-- The first part, and the others behind a separator each. -/
theorem intercalate_cons (separator first : List Char) (rest : List (List Char)) :
    List.intercalate separator (first :: rest) = first ++ rest.flatMap (separator ++ ·) := by
  induction rest generalizing first with
  | nil => simp
  | cons next rest ih =>
      rw [List.intercalate_cons_cons, ih, List.flatMap_cons, List.append_assoc, List.append_assoc]

/-- The squeezed text is the folded one, unless that starts with a space. -/
theorem squeezed_eq_folded {c : Char} (h : isBlank c = false) (rest : List Char) :
    squeezed (c :: rest) = folded false (c :: rest) := by
  have hwords := (folded_words (c :: rest)).1
  rw [folded_gap_letter h, ← folded_letter h] at hwords
  rw [squeezed]
  cases hne : words (c :: rest) with
  | nil =>
      rw [hne] at hwords
      cases hwords
  | cons first others =>
      rw [hne, List.flatMap_cons] at hwords
      rw [intercalate_cons]
      exact (List.cons.inj hwords).2.symm

/-! ### Phrases -/

/-- A phrase in capitals occurs in the folded text. -/
def Says (phrase : List Char) (gap : Bool) (s : List Char) : Prop :=
  phrase <:+: asciiUpper (folded gap s)

instance (phrase : List Char) (gap : Bool) (s : List Char) : Decidable (Says phrase gap s) :=
  inferInstanceAs (Decidable (phrase <:+: asciiUpper (folded gap s)))

theorem isSome_afterLead? (lead s : List Char) :
    (afterLead? lead s).isSome = true ↔ lead <+: s := by
  rw [Option.isSome_iff_exists]
  exact exists_congr fun tail => afterLead?_eq_some.trans eq_comm

theorem contains_iff (s mark : List Char) : contains s mark = true ↔ mark <:+: s := by
  rw [contains]
  induction s with
  | nil => rw [afterFirst?, isSome_afterLead?, List.prefix_nil, List.infix_nil]
  | cons c rest ih =>
      have hhere := isSome_afterLead? mark (c :: rest)
      rw [List.infix_cons_iff, afterFirst?]
      split
      · rename_i heq
        rw [heq] at hhere
        exact ⟨fun _ => .inl (hhere.mp rfl), fun _ => rfl⟩
      · rename_i heq
        rw [heq] at hhere
        exact ih.trans ⟨.inr, fun h => h.resolve_left fun hc => nomatch hhere.mpr hc⟩

/-- On one side or the other of a character that the phrase lacks. -/
theorem says_append_letter {phrase : List Char} {c : Char} (hc : isBlank c = false)
    (hphrase : c.toUpper ∉ phrase) (gap : Bool) (a b : List Char) :
    Says phrase gap (a ++ c :: b) ↔ Says phrase gap (a ++ [c]) ∨ Says phrase false b := by
  obtain ⟨front, hfront⟩ := exists_folded_letter hc gap a
  rw [Says, Says, Says, folded_append_letter hc, hfront, asciiUpper_append, asciiUpper_append,
    List.infix_append_iff]
  refine or_congr_right ⟨?_, .inl⟩
  rintro (h | ⟨left, right, hsplit, hleft, hright⟩)
  · exact h
  · rcases List.eq_nil_or_concat left with rfl | ⟨others, x, rfl⟩
    · rw [hsplit]
      exact hright.isInfix
    · obtain ⟨before, hbefore⟩ := hleft
      have hlast : x = c.toUpper := by
        have := congrArg List.getLast? hbefore
        simpa [asciiUpper] using this
      exact absurd (by simp [hsplit, hlast]) hphrase

/-- Before a blank or behind it, if the phrase is one word behind a space. -/
theorem says_append_blank {word : List Char} {c : Char} (hc : isBlank c = true)
    (hword : ' ' ∉ word) (gap : Bool) (a b : List Char) :
    Says (' ' :: word) gap (a ++ c :: b) ↔ Says (' ' :: word) gap a ∨ Says (' ' :: word) true b := by
  rw [Says, Says, Says, folded_append_blank hc, asciiUpper_append, List.infix_append_iff]
  constructor
  · rintro (h | h | ⟨left, right, hsplit, hleft, hright⟩)
    · exact .inl h
    · exact .inr h
    -- What is behind the blank starts with a space, which the phrase has only in front.
    · cases right with
      | nil =>
          rw [hsplit, List.append_nil]
          exact .inl hleft.isInfix
      | cons x others =>
          have hx : x = ' ' := by
            rcases folded_gap b with hnone | ⟨rest, hrest⟩
            · rw [hnone] at hright
              exact absurd (List.prefix_nil.mp hright) (by simp)
            · rw [hrest] at hright
              exact (List.cons_prefix_cons.mp hright).1
          cases left with
          | nil =>
              rw [hsplit]
              exact .inr hright.isInfix
          | cons y ys =>
              rw [List.cons_append, List.cons.injEq] at hsplit
              exact absurd (by simp [hsplit.2, hx]) hword
  · exact fun h => h.elim .inl fun h => .inr (.inl h)

/-- Folding changes nothing about the word in front. -/
theorem prefix_folded {word : List Char} (hword : ∀ c ∈ word, isBlank c = false) (s : List Char) :
    word <+: asciiUpper (folded false s) ↔ word <+: asciiUpper s := by
  induction word generalizing s with
  | nil => simp
  | cons x word ih =>
      have hx : isBlank x = false := hword x (by simp)
      cases s with
      | nil => rfl
      | cons c rest =>
          cases hc : isBlank c with
          | true =>
              rw [folded_blank hc]
              constructor
              · intro h
                rcases folded_gap rest with hnone | ⟨tail, htail⟩
                · rw [hnone] at h
                  exact absurd (List.prefix_nil.mp h) (by simp)
                · rw [htail] at h
                  rw [(List.cons_prefix_cons.mp h).1] at hx
                  exact absurd hx (by decide)
              · intro h
                rw [(List.cons_prefix_cons.mp h).1, isBlank_toUpper, hc] at hx
                cases hx
          | false =>
              rw [folded_letter hc]
              show x :: word <+: c.toUpper :: asciiUpper (folded false rest) ↔
                x :: word <+: c.toUpper :: asciiUpper rest
              rw [List.cons_prefix_cons, List.cons_prefix_cons,
                ih (fun y hy => hword y (by simp [hy])) rest]

/-- A word is found where a gap is in front of it, or further on. -/
theorem says_letter {word : List Char} (hword : ∀ c ∈ word, isBlank c = false) {c : Char}
    (hc : isBlank c = false) (gap : Bool) (rest : List Char) :
    Says (' ' :: word) gap (c :: rest) ↔
      gap = true ∧ word <+: asciiUpper (c :: rest) ∨ Says (' ' :: word) false rest := by
  have hletter : ' ' :: word <:+: asciiUpper (folded false (c :: rest)) ↔
      Says (' ' :: word) false rest := by
    rw [folded_letter hc, Says]
    refine List.infix_cons_iff.trans (or_iff_right fun h => ?_)
    have hspace : ' ' = c.toUpper := (List.cons_prefix_cons.mp h).1
    have hblank := isBlank_toUpper c
    rw [← hspace, hc] at hblank
    cases hblank
  cases gap with
  | false => exact hletter.trans (by simp)
  | true =>
      have hgap : folded true (c :: rest) = ' ' :: folded false (c :: rest) := by
        rw [folded_gap_letter hc, folded_letter hc]
      rw [Says, hgap]
      refine List.infix_cons_iff.trans (or_congr ?_ hletter)
      rw [← prefix_folded hword]
      simp [List.cons_prefix_cons, asciiUpper]

/-- Inside a word no other word starts. -/
theorem not_says_inside {word s : List Char} (hword : ∀ c ∈ word, isBlank c = false)
    (hs : ∀ c ∈ s, isBlank c = false) : ¬ Says (' ' :: word) false s := by
  induction s with
  | nil => simp [Says, folded_nil, asciiUpper]
  | cons c rest ih =>
      rw [says_letter hword (hs c (by simp))]
      rintro (⟨h, -⟩ | h)
      · cases h
      · exact ih (fun x hx => hs x (by simp [hx])) h

/-- A single word is no other one. -/
theorem not_says_word {word s : List Char} (hword : ∀ c ∈ word, isBlank c = false)
    (hs : ∀ c ∈ s, isBlank c = false) (hhead : ¬ word <+: asciiUpper s) :
    ¬ Says (' ' :: word) true s := by
  cases s with
  | nil => simp [Says, folded_nil, asciiUpper]
  | cons c rest =>
      rw [says_letter hword (hs c (by simp))]
      rintro (⟨-, h⟩ | h)
      · exact hhead h
      · exact not_says_inside hword (fun x hx => hs x (by simp [hx])) h

end Relational.Text
