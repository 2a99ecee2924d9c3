import Relational.Dialect.Basic
import Relational.Proofs.Marker
/-
What stands in a name that is accepted, and in the name once it is quoted.

Checking a name is a matter of its characters: letters, digits and a few marks.  Splitting
off an alias only takes characters away, and quoting only puts the dialect's quotes, dots
and the keyword around what is left, so a quoted name never opens a text and never looks
like a marker.
-/
namespace Relational

/-! ### Splitting takes characters away -/

namespace Text

theorem trimStart_subset (s : List Char) : trimStart s ⊆ s :=
  (List.dropWhile_sublist _).subset

theorem trimEnd_subset (s : List Char) : trimEnd s ⊆ s := by
  intro c hc
  have := (List.dropWhile_sublist isBlank).subset (List.mem_reverse.mp hc)
  exact List.mem_reverse.mp this

theorem trim_subset (s : List Char) : trim s ⊆ s :=
  List.Subset.trans (trimEnd_subset _) (trimStart_subset s)

theorem mem_doubled {quote c : Char} {s : List Char} (h : c ∈ doubled quote s) : c ∈ s := by
  induction s with
  | nil => simp [doubled] at h
  | cons x rest ih =>
      rw [doubled] at h
      split at h
      · rcases List.mem_cons.mp h with rfl | h
        · simp
        · rcases List.mem_cons.mp h with rfl | h
          · simp
          · exact List.mem_cons_of_mem _ (ih h)
      · rcases List.mem_cons.mp h with rfl | h
        · simp
        · exact List.mem_cons_of_mem _ (ih h)

theorem mem_intercalate {α : Type} {separator : List α} {parts : List (List α)} {x : α}
    (h : x ∈ List.intercalate separator parts) : x ∈ separator ∨ ∃ part ∈ parts, x ∈ part := by
  induction parts with
  | nil => simp at h
  | cons part rest ih =>
      cases rest with
      | nil => exact Or.inr ⟨part, by simp, by simpa using h⟩
      | cons next others =>
          rw [List.intercalate_cons_cons, List.mem_append, List.mem_append] at h
          rcases h with (h | h) | h
          · exact Or.inr ⟨part, by simp, h⟩
          · exact Or.inl h
          · rcases ih h with h | ⟨other, hother, h⟩
            · exact Or.inl h
            · exact Or.inr ⟨other, List.mem_cons_of_mem _ hother, h⟩

theorem subset_intercalate {α : Type} (separator : List α) {part : List α} {parts : List (List α)}
    (h : part ∈ parts) : part ⊆ List.intercalate separator parts := by
  induction parts with
  | nil => cases h
  | cons first rest ih =>
      cases rest with
      | nil =>
          rw [List.mem_singleton.mp h]
          simp
      | cons next others =>
          rw [List.intercalate_cons_cons]
          rcases List.mem_cons.mp h with rfl | h
          · intro x hx
            simp [hx]
          · intro x hx
            simp [ih h hx]

theorem subset_of_mem_splitOn {c : Char} {s part : List Char} (h : part ∈ s.splitOn c) :
    part ⊆ s := by
  have := subset_intercalate [c] h
  rwa [List.intercalate_splitOn] at this

end Text

namespace Name

theorem aliasAfter?_subset {s label : List Char} (h : aliasAfter? s = some label) : label ⊆ s := by
  unfold aliasAfter? at h
  split at h
  · cases h
  · split at h
    · rename_i a k rest htrim
      have hrest : rest ⊆ s := by
        intro c hc
        refine Text.trimStart_subset s ?_
        rw [htrim]
        simp [hc]
      split at h
      · cases h
      · dsimp only at h
        split at h
        · split at h
          · cases h
            exact List.nil_subset s
          · cases h
        · split at h
          · cases h
          · cases h
            exact List.Subset.trans (Text.trimEnd_subset _)
              (List.Subset.trans (Text.trimStart_subset _) hrest)
    · cases h

theorem aliasFrom?_subset {s expression label : List Char}
    (h : aliasFrom? s = some (expression, label)) : expression ⊆ s ∧ label ⊆ s := by
  induction s generalizing expression with
  | nil => cases h
  | cons c rest ih =>
      unfold aliasFrom? at h
      split at h
      · cases h
      · split at h
        · rename_i found hfound
          cases h
          exact ⟨by simp, List.subset_cons_of_subset _ (aliasAfter?_subset hfound)⟩
        · obtain ⟨⟨e, a⟩, hfrom, hsplit⟩ := Option.map_eq_some_iff.mp h
          cases hsplit
          obtain ⟨he, ha⟩ := ih hfrom
          exact ⟨List.cons_subset_cons _ he, List.subset_cons_of_subset _ ha⟩

theorem splitAlias?_subset {name expression label : String}
    (h : splitAlias? name = some (expression, label)) :
    expression.toList ⊆ name.toList ∧ label.toList ⊆ name.toList := by
  obtain ⟨⟨e, a⟩, hfrom, hsplit⟩ := Option.map_eq_some_iff.mp h
  cases hsplit
  obtain ⟨he, ha⟩ := aliasFrom?_subset hfrom
  rw [String.toList_ofList, String.toList_ofList]
  exact ⟨List.Subset.trans (Text.trim_subset e) he, ha⟩

/-! ### The characters of an identifier -/

/-- A character that an identifier may have. -/
def isMark (c : Char) : Bool :=
  isPart c || c == '.' || c == '*'

theorem isPart_of_isStart {c : Char} (h : isStart c = true) : isPart c = true := by
  simp only [isStart, isPart, Char.isAlphanum, Bool.or_eq_true] at h ⊢
  rcases h with h | h
  · exact Or.inl (Or.inl (Or.inl h))
  · exact Or.inl (Or.inr h)

theorem isPart_of_isSegment {s : List Char} (h : isSegment s = true) {c : Char} (hc : c ∈ s) :
    isPart c = true := by
  cases s with
  | nil => cases hc
  | cons x rest =>
      simp only [isSegment, Bool.and_eq_true, List.all_eq_true] at h
      rcases List.mem_cons.mp hc with rfl | hc
      · exact isPart_of_isStart h.1
      · exact h.2 c hc

theorem isMark_of_isDotted {s : List Char} (h : isDotted s = true) {c : Char} (hc : c ∈ s) :
    isMark c = true := by
  rw [show s = List.intercalate ['.'] (s.splitOn '.') from (List.intercalate_splitOn '.').symm] at hc
  have hpart : ∀ part ∈ s.splitOn '.', isSegment part = true ∨ part = ['*'] := by
    unfold isDotted at h
    split at h
    · cases h
    · rename_i first rest hsplit
      rw [hsplit]
      simp only [Bool.and_eq_true, List.all_eq_true, Bool.or_eq_true, beq_iff_eq] at h
      intro part hmem
      rcases List.mem_cons.mp hmem with rfl | hmem
      · exact Or.inl h.1
      · exact h.2 part hmem
  rcases Text.mem_intercalate hc with hc | ⟨part, hmem, hc⟩
  · rw [List.mem_singleton.mp hc]
    rfl
  · rcases hpart part hmem with hsegment | rfl
    · simp [isMark, isPart_of_isSegment hsegment hc]
    · rw [List.mem_singleton.mp hc]
      rfl

theorem isMark_of_isIdentifier {name : String} (h : isIdentifier name = true) {c : Char}
    (hc : c ∈ name.toList) : isMark c = true := by
  simp only [isIdentifier, Bool.or_eq_true, beq_iff_eq] at h
  rcases h with rfl | h
  · rw [show "*".toList = ['*'] from rfl, List.mem_singleton] at hc
    rw [hc]
    rfl
  · exact isMark_of_isDotted h hc

theorem ne_of_isMark {c : Char} (h : isMark c = true) : c ≠ '\'' ∧ c ≠ '?' := by
  constructor
  · rintro rfl
    exact absurd h (by decide)
  · rintro rfl
    exact absurd h (by decide)

theorem silent_of_isIdentifier {name : String} (h : isIdentifier name = true) :
    Marker.Silent name.toList :=
  fun _ hc => ne_of_isMark (isMark_of_isIdentifier h hc)

theorem silent_of_isColumn {name : String} (h : isColumn name = true) :
    Marker.Silent name.toList := by
  rw [isColumn, Bool.and_eq_true] at h
  exact silent_of_isIdentifier h.2

end Name

namespace Dialect

open Marker (Silent)

theorem quoteName_of_no_alias (d : Dialect) {name : String} (h : Name.splitAlias? name = none) :
    d.quoteName name = d.quoteDotted name := by
  rw [quoteName]
  split
  · rename_i hsome
    rw [h] at hsome
    cases hsome
  · rfl

theorem quoteName_of_alias (d : Dialect) {name expression label : String}
    (h : Name.splitAlias? name = some (expression, label)) :
    d.quoteName name = d.quoteName expression ++ " AS " ++ d.quoteSegment label := by
  rw [quoteName]
  split
  · rename_i hsome
    rw [h] at hsome
    cases hsome
    rfl
  · rename_i hnone
    rw [h] at hnone
    cases hnone

/-- Quoting a segment adds quotes, if it is not the wildcard. -/
theorem forall_mem_quoteSegment (d : Dialect) {p : Char → Prop} (hopen : p d.quotes.1)
    (hclose : p d.quotes.2) (hstar : p '*') {segment : String} (h : ∀ c ∈ segment.toList, p c) :
    ∀ c ∈ (d.quoteSegment segment).toList, p c := by
  intro c hc
  unfold quoteSegment at hc
  split at hc
  · rw [List.mem_singleton.mp hc]
    exact hstar
  · rw [Text.enclosed, String.toList_ofList, List.mem_cons, List.mem_append,
      List.mem_singleton] at hc
    rcases hc with rfl | hc | rfl
    · exact hopen
    · exact h c (Text.mem_doubled hc)
    · exact hclose

/-- Quoting a dotted name only adds quotes, dots and wildcards. -/
theorem forall_mem_quoteDotted (d : Dialect) {p : Char → Prop} (hopen : p d.quotes.1)
    (hclose : p d.quotes.2) (hdot : p '.') (hstar : p '*') {name : String}
    (h : ∀ c ∈ name.toList, p c) : ∀ c ∈ (d.quoteDotted name).toList, p c := by
  intro c hc
  rw [quoteDotted, String.toList_intercalate] at hc
  rcases Text.mem_intercalate hc with hc | ⟨part, hpart, hc⟩
  · rw [List.mem_singleton.mp hc]
    exact hdot
  · rw [List.map_map] at hpart
    obtain ⟨segment, hsegment, rfl⟩ := List.mem_map.mp hpart
    refine d.forall_mem_quoteSegment hopen hclose hstar ?_ c hc
    rw [String.toList_ofList]
    exact fun x hx => h x (Text.subset_of_mem_splitOn hsegment hx)

theorem silent_quotes (d : Dialect) : Silent [d.quotes.1] ∧ Silent [d.quotes.2] := by
  cases d <;> decide

theorem silent_quoteSegment (d : Dialect) {segment : String} (h : Silent segment.toList) :
    Silent (d.quoteSegment segment).toList :=
  d.forall_mem_quoteSegment (d.silent_quotes.1 _ (by simp)) (d.silent_quotes.2 _ (by simp))
    (by decide) h

theorem silent_quoteDotted (d : Dialect) {name : String} (h : Silent name.toList) :
    Silent (d.quoteDotted name).toList :=
  d.forall_mem_quoteDotted (d.silent_quotes.1 _ (by simp)) (d.silent_quotes.2 _ (by simp))
    (by decide) (by decide) h

/-- Nothing that looks like a marker comes from quoting. -/
theorem silent_quoteName (d : Dialect) {name : String} (h : Silent name.toList) :
    Silent (d.quoteName name).toList := by
  fun_induction quoteName d name with
  | case1 name expression label hsplit ih =>
      obtain ⟨he, ha⟩ := Name.splitAlias?_subset hsplit
      rw [String.toList_append, String.toList_append]
      refine ((ih fun c hc => h c (he hc)).append (by decide)).append (d.silent_quoteSegment ?_)
      exact fun c hc => h c (ha hc)
  | case2 name hsplit => exact d.silent_quoteDotted h

theorem silent_of_isAliased (d : Dialect) {name : String} (h : Name.isAliased name = true) :
    Silent (d.quoteName name).toList := by
  unfold Name.isAliased at h
  cases hsplit : Name.splitAlias? name with
  | some halves =>
    obtain ⟨expression, label⟩ := halves
    rw [hsplit, Bool.and_eq_true] at h
    rw [d.quoteName_of_alias hsplit, String.toList_append, String.toList_append]
    refine ((d.silent_quoteName (Name.silent_of_isIdentifier h.1)).append (by decide)).append
      (d.silent_quoteSegment ?_)
    exact fun _ hc => Name.ne_of_isMark (Name.isMark_of_isDotted h.2 hc)
  | none =>
    rw [hsplit] at h
    rw [d.quoteName_of_no_alias hsplit]
    exact d.silent_quoteDotted (Name.silent_of_isIdentifier h)

end Dialect

end Relational
