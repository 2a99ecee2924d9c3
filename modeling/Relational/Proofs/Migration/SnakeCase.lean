import Mathlib
import Relational.Migration.Scaffold
/-
The form of a migration's name.

The name of a script is built backwards, character by character.  All the time it is nothing, or
words of small letters and digits with one underscore between neighbours, perhaps with one more
underscore in front of them that waits for the next word.  That is what every character keeps, and
at the end the underscore that waits is dropped.  Letters and digits are kept in their order, in
small letters.  A name that has the form already is gone through without a change, so the form of
a name is its own form.
-/
namespace Relational.Scaffold

variable {c : Char} {small : Bool} {text rest word name : List Char}

/-! ### Small letters and digits -/

/-- A small letter or a digit, of the ASCII ones. -/
def isSmall (c : Char) : Bool :=
  c.isLower || c.isDigit

theorem isUpper_of_isDigit (h : c.isDigit = true) : c.isUpper = false := by
  simp only [Char.isDigit, Char.isUpper, Bool.and_eq_true, decide_eq_true_eq,
    UInt32.le_iff_toNat_le] at h ⊢
  simp at h ⊢
  omega

theorem isUpper_of_isSmall (h : isSmall c = true) : c.isUpper = false := by
  rw [isSmall, Bool.or_eq_true] at h
  rcases h with hlower | hdigit
  · exact Bool.eq_false_iff.mpr (Char.not_isUpper_of_isLower hlower)
  · exact isUpper_of_isDigit hdigit

theorem toLower_of_isSmall (h : isSmall c = true) : c.toLower = c :=
  Char.toLower_eq_of_not_isUpper (Bool.eq_false_iff.mp (isUpper_of_isSmall h))

theorem isAlphanum_of_isSmall (h : isSmall c = true) : c.isAlphanum = true := by
  rw [isSmall, Bool.or_eq_true] at h
  rcases h with h | h <;> simp [Char.isAlphanum, Char.isAlpha, h]

theorem isSmall_toLower (h : c.isAlphanum = true) : isSmall c.toLower = true := by
  rw [Char.isAlphanum, Bool.or_eq_true] at h
  rcases h with halpha | hdigit
  · rw [isSmall, Char.isLower_toLower_eq_isAlpha, halpha, Bool.true_or]
  · have hsmall : isSmall c = true := by rw [isSmall, hdigit, Bool.or_true]
    rwa [toLower_of_isSmall hsmall]

theorem ne_underscore_of_isSmall (h : isSmall c = true) : c ≠ '_' := by
  rintro rfl
  cases h

/-! ### The form -/

/-- Some small letters and digits. -/
def IsWord (word : List Char) : Prop :=
  word ≠ [] ∧ ∀ c ∈ word, isSmall c = true

/-- Words with one underscore between neighbours. -/
inductive Snake : List Char → Prop
  | word {word : List Char} (h : IsWord word) : Snake word
  | more {word rest : List Char} (h : IsWord word) (hrest : Snake rest) :
      Snake (word ++ '_' :: rest)

theorem IsWord.cons (hc : isSmall c = true) (h : IsWord word) : IsWord (c :: word) :=
  ⟨List.cons_ne_nil _ _, List.forall_mem_cons.mpr ⟨hc, h.2⟩⟩

theorem isWord_singleton (hc : isSmall c = true) : IsWord [c] :=
  ⟨List.cons_ne_nil _ _, by simpa using hc⟩

theorem IsWord.reverse (h : IsWord word) : IsWord word.reverse :=
  ⟨by simpa using h.1, fun c hc => h.2 c (List.mem_reverse.mp hc)⟩

namespace Snake

theorem cons (hc : isSmall c = true) (h : Snake rest) : Snake (c :: rest) := by
  cases h with
  | word h => exact .word (h.cons hc)
  | more h hrest => exact .more (h.cons hc) hrest

theorem append (h : Snake text) (hrest : Snake rest) : Snake (text ++ '_' :: rest) := by
  induction h with
  | word h => exact .more h hrest
  | more h _ ih =>
      rw [List.append_assoc, List.cons_append]
      exact .more h ih

/-- The form can be read from either end. -/
theorem reverse (h : Snake text) : Snake text.reverse := by
  induction h with
  | word h => exact .word h.reverse
  | more h _ ih =>
      rw [List.reverse_append, List.reverse_cons, List.append_assoc]
      exact ih.append (.word h.reverse)

theorem exists_cons (h : Snake text) : ∃ c rest, text = c :: rest ∧ isSmall c = true := by
  cases h with
  | word h | more h hrest =>
      obtain ⟨c, word, rfl⟩ := List.exists_cons_of_ne_nil h.1
      exact ⟨c, _, rfl, h.2 c List.mem_cons_self⟩

end Snake

/-! ### Building a name -/

/-- The text with an underscore in front that waits for the next word. -/
def gapped (text : List Char) : List Char :=
  match text with
  | [] | '_' :: _ => text
  | _ => '_' :: text

theorem gapped_cons (hc : c ≠ '_') (rest : List Char) : gapped (c :: rest) = '_' :: c :: rest := by
  unfold gapped
  split
  · rename_i hnil
    cases hnil
  · rename_i hunderscore
    cases hunderscore
    exact absurd rfl hc
  · rfl

theorem appendChar_eq (text : List Char) (small : Bool) (c : Char) :
    appendChar (text, small) c =
      if c.isAlphanum then
        (c.toLower :: (if c.isUpper && small then gapped text else text), c.isLower || c.isDigit)
      else (gapped text, false) := by
  rfl

/-- A name that is built backwards. -/
inductive Draft : List Char → Prop
  | nil : Draft []
  | snake {text : List Char} (h : Snake text) : Draft text
  | waiting {text : List Char} (h : Snake text) : Draft ('_' :: text)

namespace Draft

theorem cons (hc : isSmall c = true) (h : Draft text) : Draft (c :: text) := by
  cases h with
  | nil => exact .snake (.word (isWord_singleton hc))
  | snake h => exact .snake (h.cons hc)
  | waiting h => exact .snake (.more (isWord_singleton hc) h)

theorem gapped (h : Draft text) : Draft (gapped text) := by
  cases h with
  | nil => exact .nil
  | waiting h => exact .waiting h
  | snake h =>
      obtain ⟨c, rest, rfl, hc⟩ := h.exists_cons
      rw [gapped_cons (ne_underscore_of_isSmall hc)]
      exact .waiting h

theorem appendChar (h : Draft text) (small : Bool) (c : Char) :
    Draft (appendChar (text, small) c).1 := by
  rw [appendChar_eq]
  split
  · rename_i hc
    refine Draft.cons (isSmall_toLower hc) ?_
    split
    · exact h.gapped
    · exact h
  · exact h.gapped

theorem foldl (h : Draft text) (small : Bool) (name : List Char) :
    Draft (name.foldl Scaffold.appendChar (text, small)).1 := by
  induction name generalizing text small with
  | nil => exact h
  | cons c name ih => exact ih (h.appendChar small c) _

/-- Without the underscore that waits, the draft is in form. -/
theorem dropWhile (h : Draft text) :
    text.dropWhile (· == '_') = [] ∨ Snake (text.dropWhile (· == '_')) := by
  have hstays : ∀ {text}, Snake text → text.dropWhile (· == '_') = text := by
    intro text h
    obtain ⟨c, rest, rfl, hc⟩ := h.exists_cons
    exact List.dropWhile_cons_of_neg (by simpa using ne_underscore_of_isSmall hc)
  cases h with
  | nil => exact .inl rfl
  | snake h =>
      rw [hstays h]
      exact .inr h
  | waiting h =>
      rw [List.dropWhile_cons_of_pos (by rfl), hstays h]
      exact .inr h

end Draft

theorem snakeCase_eq (name : String) :
    (snakeCase name).toList =
      ((name.toList.foldl appendChar ([], false)).1.dropWhile (· == '_')).reverse :=
  String.toList_ofList

/-! ### What is kept -/

/-- What is left without the underscores. -/
def withoutUnderscores (text : List Char) : List Char :=
  text.filter (· ≠ '_')

theorem withoutUnderscores_gapped (text : List Char) :
    withoutUnderscores (gapped text) = withoutUnderscores text := by
  unfold gapped
  split <;> rfl

/-- A letter or a digit is kept, everything else is not. -/
theorem withoutUnderscores_appendChar (text : List Char) (small : Bool) (c : Char) :
    withoutUnderscores (appendChar (text, small) c).1 =
      (([c].filter Char.isAlphanum).map Char.toLower) ++ withoutUnderscores text := by
  rw [appendChar_eq]
  split
  · rename_i hc
    have hkept : c.toLower ≠ '_' := ne_underscore_of_isSmall (isSmall_toLower hc)
    have hrest : withoutUnderscores (if c.isUpper && small then gapped text else text) =
        withoutUnderscores text := by
      split
      · exact withoutUnderscores_gapped text
      · rfl
    rw [List.filter_cons_of_pos hc, List.filter_nil, List.map_singleton, List.singleton_append,
      ← hrest]
    exact List.filter_cons_of_pos (by simpa using hkept)
  · rename_i hc
    rw [List.filter_cons_of_neg hc]
    exact withoutUnderscores_gapped text

theorem withoutUnderscores_foldl (text : List Char) (small : Bool) (name : List Char) :
    withoutUnderscores (name.foldl appendChar (text, small)).1 =
      ((name.filter Char.isAlphanum).map Char.toLower).reverse ++ withoutUnderscores text := by
  induction name generalizing text small with
  | nil => rfl
  | cons c name ih =>
      rw [List.foldl_cons, ih, withoutUnderscores_appendChar]
      cases hc : c.isAlphanum <;> simp [hc]

theorem withoutUnderscores_dropWhile (text : List Char) :
    withoutUnderscores (text.dropWhile (· == '_')) = withoutUnderscores text := by
  induction text with
  | nil => rfl
  | cons c text ih =>
      by_cases hc : c = '_'
      · rw [List.dropWhile_cons_of_pos (by simpa using hc), ih, hc]
        rfl
      · rw [List.dropWhile_cons_of_neg (by simpa using hc)]

theorem withoutUnderscores_snakeCase (name : String) :
    withoutUnderscores (snakeCase name).toList =
      (name.toList.filter Char.isAlphanum).map Char.toLower := by
  have hdraft := withoutUnderscores_foldl [] false name.toList
  rw [← withoutUnderscores_dropWhile, withoutUnderscores] at hdraft
  rw [snakeCase_eq, withoutUnderscores, List.filter_reverse, hdraft]
  simp [withoutUnderscores]

/-! ### Names in form -/

theorem appendChar_small (hc : isSmall c = true) (text : List Char) (small : Bool) :
    appendChar (text, small) c = (c :: text, true) := by
  rw [appendChar_eq, if_pos (isAlphanum_of_isSmall hc), isUpper_of_isSmall hc,
    toLower_of_isSmall hc, show (c.isLower || c.isDigit) = true from hc]
  rfl

theorem foldl_word (h : IsWord word) (text : List Char) (small : Bool) :
    word.foldl appendChar (text, small) = (word.reverse ++ text, true) := by
  obtain ⟨hne, hall⟩ := h
  induction word generalizing text small with
  | nil => exact absurd rfl hne
  | cons c word ih =>
      obtain ⟨hc, hword⟩ := List.forall_mem_cons.mp hall
      rw [List.foldl_cons, appendChar_small hc]
      cases word with
      | nil => rfl
      | cons d word =>
          rw [ih _ _ (List.cons_ne_nil _ _) hword]
          simp

/-- A name in form is gone through without a change. -/
theorem Snake.foldl (h : Snake name) (text : List Char) (small : Bool) :
    name.foldl appendChar (text, small) = (name.reverse ++ text, true) := by
  induction h generalizing text small with
  | word h => exact foldl_word h text small
  | @more word rest h _ ih =>
      have hunderscore : appendChar (word.reverse ++ text, true) '_' =
          ('_' :: (word.reverse ++ text), false) := by
        obtain ⟨c, front, hfront⟩ := List.exists_cons_of_ne_nil h.reverse.1
        have hc : isSmall c = true := h.reverse.2 c (hfront ▸ List.mem_cons_self)
        rw [hfront, List.cons_append, appendChar_eq, gapped_cons (ne_underscore_of_isSmall hc)]
        rfl
      rw [List.foldl_append, foldl_word h, List.foldl_cons, hunderscore, ih]
      simp

theorem snakeCase_of_snake {name : String} (h : Snake name.toList) : snakeCase name = name := by
  obtain ⟨c, rest, hreverse, hc⟩ := h.reverse.exists_cons
  have hkept : name.toList.reverse.dropWhile (· == '_') = name.toList.reverse := by
    rw [hreverse]
    exact List.dropWhile_cons_of_neg (by simpa using ne_underscore_of_isSmall hc)
  refine String.toList_injective ?_
  rw [snakeCase_eq, h.foldl, List.append_nil, hkept, List.reverse_reverse]

/-! ### The form of every name -/

theorem snake_snakeCase (name : String) :
    snakeCase name = "" ∨ Snake (snakeCase name).toList := by
  have hdraft : Draft (name.toList.foldl appendChar ([], false)).1 := Draft.nil.foldl false _
  rcases hdraft.dropWhile with hnone | hsnake
  · left
    refine String.toList_injective ?_
    rw [snakeCase_eq, hnone]
    rfl
  · right
    rw [snakeCase_eq]
    exact hsnake.reverse

/-- **Every name has one form.**  It is empty or words of small letters and digits with one
underscore between neighbours, and empty for the names without a letter and a digit only.  Without
the underscores it is the letters and digits of the name, in small letters, and the form of a form
is that form. -/
theorem snakeCase_canonical (name : String) :
    (snakeCase name = "" ∨ Snake (snakeCase name).toList) ∧
      (snakeCase name = "" ↔ ∀ c ∈ name.toList, c.isAlphanum = false) ∧
      (snakeCase name).toList.filter (· ≠ '_') =
        (name.toList.filter Char.isAlphanum).map Char.toLower ∧
      snakeCase (snakeCase name) = snakeCase name := by
  have hform := snake_snakeCase name
  have hkept : (snakeCase name).toList.filter (· ≠ '_') =
      (name.toList.filter Char.isAlphanum).map Char.toLower := withoutUnderscores_snakeCase name
  refine ⟨hform, ⟨fun hempty => ?_, fun hnone => ?_⟩, hkept, ?_⟩
  · rw [hempty] at hkept
    simpa using hkept.symm
  · refine hform.resolve_right fun hsnake => ?_
    obtain ⟨c, rest, htext, hc⟩ := hsnake.exists_cons
    have hletters : name.toList.filter Char.isAlphanum = [] := by simpa using hnone
    have hne : c ≠ '_' := ne_underscore_of_isSmall hc
    rw [hletters, htext, List.filter_cons_of_pos (by simpa using hne)] at hkept
    cases hkept
  · rcases hform with hempty | hsnake
    · rw [hempty]
      rfl
    · exact snakeCase_of_snake hsnake

/-- Capitals start words, other characters part them, and what stands around them is left out. -/
example : snakeCase "  AddVotes--to_Users2 " = "add_votes_to_users2" := by
  decide

end Relational.Scaffold
