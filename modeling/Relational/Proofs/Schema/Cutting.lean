import Relational.Proofs.Name
import Relational.Schema.Snapshot
/-
Cutting a definition that was written.

`Passes` says that the cutter takes a text as it is, without leaving its depth and
without cutting: it holds of ordinary characters, of a minus sign in front of a number,
of anything between quotes that are doubled inside, of whatever such texts are joined
to, and, one level further out, of such a text between parentheses.  A definition whose
entries all pass is cut at the commas between them and nowhere else.
-/
namespace Relational.TableSnapshot

variable {depth : Nat}

/-! ### One character -/

/-- A character that means nothing to the cutter. -/
def isOrdinary (c : Char) : Bool :=
  !(['\'', '"', Dialect.backtick, '[', '(', ')', ',', '-', '/'].contains c)

/-- The entry at hand with more text; outside all parentheses the text is dropped. -/
def extended (depth : Nat) (text current : List Char) : List Char :=
  if 0 < depth then text.reverse ++ current else current

section Steps

variable (current : List Char) (items : List (List Char)) (rest : List Char)

theorem cutItems_ordinary {c : Char} (h : isOrdinary c = true) :
    cutItems .plain depth current items (c :: rest) =
      cutItems .plain depth (extended depth [c] current) items rest := by
  simp only [isOrdinary, List.contains_cons, List.contains_nil, Bool.not_eq_true',
    Bool.or_eq_false_iff, beq_eq_false_iff_ne, ne_eq] at h
  obtain ⟨hsingle, hdouble, htick, hsquare, hopen, hclose, hcomma, hminus, hslash, -⟩ := h
  conv => lhs; unfold cutItems
  simp only [hsingle, hdouble, htick, hsquare, hopen, hclose, hcomma, hminus, false_and, or_self,
    if_false]
  split
  · exact absurd rfl hslash
  · rfl

theorem cutItems_minus (h : rest.head? ≠ some '-') :
    cutItems .plain depth current items ('-' :: rest) =
      cutItems .plain depth (extended depth ['-'] current) items rest := by
  conv => lhs; unfold cutItems
  simp [h, Dialect.backtick, extended]

theorem cutItems_comma :
    cutItems .plain (depth + 2) current items (',' :: rest) =
      cutItems .plain (depth + 2) (',' :: current) items rest := by
  conv => lhs; unfold cutItems
  simp [Dialect.backtick]

theorem cutItems_cut :
    cutItems .plain 1 current items (',' :: rest) =
      cutItems .plain 1 [] (Text.trim current.reverse :: items) rest := by
  conv => lhs; unfold cutItems
  simp [Dialect.backtick]

theorem cutItems_open :
    cutItems .plain depth current items ('(' :: rest) =
      cutItems .plain (depth + 1) (extended depth ['('] current) items rest := by
  conv => lhs; unfold cutItems
  simp [Dialect.backtick, extended]

theorem cutItems_close :
    cutItems .plain (depth + 2) current items (')' :: rest) =
      cutItems .plain (depth + 1) (')' :: current) items rest := by
  conv => lhs; unfold cutItems
  simp [Dialect.backtick]

theorem cutItems_end :
    cutItems .plain 1 current items (')' :: rest) =
      some ((Text.trim current.reverse :: items).reverse, rest) := by
  conv => lhs; unfold cutItems
  simp [Dialect.backtick]

theorem cutItems_quote {quote : Char}
    (h : quote = '\'' ∨ quote = '"' ∨ quote = Dialect.backtick) :
    cutItems .plain depth current items (quote :: rest) =
      cutItems (.quoted quote) depth (extended depth [quote] current) items rest := by
  conv => lhs; unfold cutItems
  dsimp only
  rw [if_pos h]
  rfl

theorem cutItems_quoted (quote c : Char) :
    cutItems (.quoted quote) depth current items (c :: rest) =
      cutItems (if c = quote then .plain else .quoted quote) depth (extended depth [c] current) items
        rest := by
  rw [cutItems]
  rfl

end Steps

/-! ### Texts that pass -/

/-- At this depth the text becomes part of the entry at hand as it is. -/
def Passes (depth : Nat) (text : List Char) : Prop :=
  ∀ current items rest, cutItems .plain depth current items (text ++ rest) =
    cutItems .plain depth (extended depth text current) items rest

theorem extended_append (a b current : List Char) :
    extended depth (a ++ b) current = extended depth b (extended depth a current) := by
  unfold extended
  split
  · rw [List.reverse_append, List.append_assoc]
  · rfl

theorem Passes.nil : Passes depth [] := by
  intro current items rest
  simp [extended]

theorem Passes.append {a b : List Char} (ha : Passes depth a) (hb : Passes depth b) :
    Passes depth (a ++ b) := by
  intro current items rest
  rw [List.append_assoc, ha, hb, extended_append]

theorem passes_of_ordinary {text : List Char} (h : text.all isOrdinary = true) :
    Passes depth text := by
  induction text with
  | nil => exact .nil
  | cons c rest ih =>
      rw [List.all_cons, Bool.and_eq_true] at h
      intro current items others
      rw [List.cons_append, cutItems_ordinary _ _ _ h.1, ih h.2, ← extended_append]
      rfl

/-- A minus sign, unless it begins a comment. -/
theorem Passes.minus {text : List Char} (h : Passes depth text) (hne : text ≠ [])
    (hminus : text.head? ≠ some '-') : Passes depth ('-' :: text) := by
  intro current items rest
  have hhead : (text ++ rest).head? ≠ some '-' := by
    obtain ⟨c, others, rfl⟩ := List.exists_cons_of_ne_nil hne
    exact hminus
  rw [List.cons_append, cutItems_minus _ _ _ hhead, h, ← extended_append]
  rfl

/-- A comma further in than the entries. -/
theorem passes_comma : Passes (depth + 2) [','] :=
  fun _ _ _ => cutItems_comma _ _ _

/-- Between parentheses. -/
theorem Passes.group {text : List Char} (h : Passes (depth + 2) text) :
    Passes (depth + 1) ('(' :: (text ++ [')'])) := by
  intro current items rest
  rw [List.cons_append, List.append_assoc, cutItems_open, h]
  refine (cutItems_close _ _ _).trans ?_
  simp [extended]

/-- Between quotes, where every quote inside is doubled. -/
theorem passes_enclosed {quote : Char} (h : quote = '\'' ∨ quote = '"') (text : String) :
    Passes depth (Text.enclosed quote quote text).toList := by
  have hinner : ∀ (s : List Char) current items rest,
      cutItems (.quoted quote) depth current items (Text.doubled quote s ++ quote :: rest) =
        cutItems .plain depth (extended depth (Text.doubled quote s ++ [quote]) current) items
          rest := by
    intro s
    induction s with
    | nil =>
        intro current items rest
        exact (cutItems_quoted _ _ _ quote quote).trans (by rw [if_pos rfl]; rfl)
    | cons c s ih =>
        intro current items rest
        rw [Text.doubled]
        split
        -- A doubled quote closes the text and opens it again.
        · rename_i hc
          subst hc
          rw [List.cons_append, List.cons_append, cutItems_quoted, if_pos rfl,
            cutItems_quote _ _ _ (h.imp_right .inl), ih, ← extended_append, ← extended_append]
          rfl
        · rename_i hc
          rw [List.cons_append, cutItems_quoted, if_neg hc, ih, ← extended_append]
          rfl
  intro current items rest
  rw [Text.enclosed, String.toList_ofList, List.cons_append, cutItems_quote _ _ _ (h.imp_right .inl),
    List.append_assoc]
  refine (hinner _ _ _ _).trans ?_
  rw [← extended_append]
  rfl

/-! ### Joined texts -/

theorem Passes.joined {separator : List Char} (hseparator : Passes depth separator)
    {parts : List (List Char)} (h : ∀ part ∈ parts, Passes depth part) :
    Passes depth (List.intercalate separator parts) := by
  induction parts with
  | nil => exact .nil
  | cons part rest ih =>
      cases rest with
      | nil => simpa using h part (by simp)
      | cons next others =>
          rw [List.intercalate_cons_cons]
          exact ((h part (by simp)).append hseparator).append (ih fun p hp => h p (by simp [hp]))

/-- Texts with commas between them pass one level further in than the entries. -/
theorem passes_listed {texts : List String} (h : ∀ t ∈ texts, Passes (depth + 2) t.toList) :
    Passes (depth + 2) (String.intercalate ", " texts).toList := by
  rw [String.toList_intercalate]
  refine (passes_comma.append (passes_of_ordinary (by decide))).joined fun part hpart => ?_
  obtain ⟨t, ht, rfl⟩ := List.mem_map.mp hpart
  exact h t ht

theorem passes_quoteSegment (segment : String) :
    Passes depth (Dialect.sqlite.quoteSegment segment).toList := by
  unfold Dialect.quoteSegment
  split
  · exact passes_of_ordinary (by decide)
  · exact passes_enclosed (.inr rfl) segment

theorem passes_quoteDotted (name : String) :
    Passes depth (Dialect.sqlite.quoteDotted name).toList := by
  rw [Dialect.quoteDotted, String.toList_intercalate]
  refine (passes_of_ordinary (by decide)).joined fun part hpart => ?_
  obtain ⟨quoted, hquoted, rfl⟩ := List.mem_map.mp hpart
  obtain ⟨segment, -, rfl⟩ := List.mem_map.mp hquoted
  exact passes_quoteSegment _

/-- A name passes whatever it is. -/
theorem passes_quoteName (name : String) : Passes depth (Dialect.sqlite.quoteName name).toList := by
  fun_induction Dialect.quoteName Dialect.sqlite name with
  | case1 name expression label hsplit ih =>
      rw [String.toList_append, String.toList_append]
      exact (ih.append (passes_of_ordinary (by decide))).append (passes_quoteSegment label)
  | case2 name hsplit => exact passes_quoteDotted name

theorem passes_quoteNames (names : List String) :
    Passes (depth + 2) (Dialect.sqlite.quoteNames names).toList := by
  refine passes_listed fun t ht => ?_
  obtain ⟨name, -, rfl⟩ := List.mem_map.mp ht
  exact passes_quoteName name

theorem passes_quoteText (text : String) : Passes depth (Dialect.sqlite.quoteText text).toList :=
  passes_enclosed (.inl rfl) text

theorem passes_quoteTexts (texts : List String) :
    Passes (depth + 2) (Dialect.sqlite.quoteTexts texts).toList := by
  refine passes_listed fun t ht => ?_
  obtain ⟨text, -, rfl⟩ := List.mem_map.mp ht
  exact passes_quoteText text

/-! ### Whole definitions -/

/-- A text with blanks at neither end. -/
structure Tight (text : List Char) : Prop where
  head : ∃ c rest, text = c :: rest ∧ Text.isBlank c = false
  last : ∃ front c, text = front ++ [c] ∧ Text.isBlank c = false

theorem Tight.trimEnd {text : List Char} (h : Tight text) : Text.trimEnd text = text := by
  obtain ⟨front, c, rfl, hc⟩ := h.last
  simp [Text.trimEnd, Text.dropEndWhile, hc]

theorem Tight.trim {text : List Char} (h : Tight text) : Text.trim text = text := by
  obtain ⟨c, rest, heq, hc⟩ := h.head
  have hstart : Text.trimStart text = text := by
    rw [heq, Text.trimStart, List.dropWhile_cons_of_neg (by simp [hc])]
  rw [Text.trim, hstart, h.trimEnd]

theorem Tight.trim_space {text : List Char} (h : Tight text) : Text.trim (' ' :: text) = text :=
  h.trim

/-- Nothing, or a text whose last character is no blank. -/
def Ends (text : List Char) : Prop :=
  text = [] ∨ ∃ front x, text = front ++ [x] ∧ Text.isBlank x = false

theorem Ends.append {a b : List Char} (ha : Ends a) (hb : Ends b) : Ends (a ++ b) := by
  rcases hb with rfl | ⟨front, x, rfl, hx⟩
  · rwa [List.append_nil]
  · exact .inr ⟨a ++ front, x, (List.append_assoc ..).symm, hx⟩

/-- Entries that pass are cut at the commas between them. -/
theorem cutItems_entries {entry : List Char} {entries : List (List Char)}
    (hpasses : ∀ e ∈ entry :: entries, Passes 1 e) (htight : ∀ e ∈ entry :: entries, Tight e)
    {current : List Char} (hcurrent : current = [] ∨ current = [' ']) (items : List (List Char))
    (rest : List Char) :
    cutItems .plain 1 current items
        (List.intercalate [',', ' '] (entry :: entries) ++ ')' :: rest) =
      some (items.reverse ++ entry :: entries, rest) := by
  induction entries generalizing entry current items with
  | nil =>
      have hend : Text.trim (current.reverse ++ entry) = entry := by
        rcases hcurrent with rfl | rfl
        · exact (htight entry (by simp)).trim
        · exact (htight entry (by simp)).trim_space
      rw [List.intercalate_singleton, hpasses entry (by simp), cutItems_end]
      simp [extended, hend]
  | cons next others ih =>
      have hend : Text.trim (current.reverse ++ entry) = entry := by
        rcases hcurrent with rfl | rfl
        · exact (htight entry (by simp)).trim
        · exact (htight entry (by simp)).trim_space
      rw [List.intercalate_cons_cons, List.append_assoc, List.append_assoc,
        hpasses entry (by simp)]
      refine (cutItems_cut _ _ _).trans ((cutItems_ordinary _ _ _ (by decide)).trans ?_)
      refine (ih (fun e he => hpasses e (by simp [he])) (fun e he => htight e (by simp [he]))
        (.inr rfl) _).trans ?_
      simp [extended, hend]

/-- A definition whose entries pass is read as these entries. -/
theorem parse_of_passes {lead : List Char} (hlead : Passes 0 lead) {entries : List (List Char)}
    (hne : entries ≠ []) (hpasses : ∀ e ∈ entries, Passes 1 e) (htight : ∀ e ∈ entries, Tight e)
    {sql : String}
    (hsql : sql.toList = lead ++ '(' :: (List.intercalate [',', ' '] entries ++ [')']))
    (table : String) (dependents : List String) :
    parse table sql dependents =
      .ok { table, items := entries.map TableItem.ofChars, options := "", dependents } := by
  obtain ⟨entry, others, rfl⟩ := List.exists_cons_of_ne_nil hne
  have hcut : cutItems .plain 0 [] [] sql.toList = some (entry :: others, []) := by
    rw [hsql, hlead]
    refine (cutItems_open _ _ _).trans ?_
    exact cutItems_entries hpasses htight (.inl rfl) [] []
  rw [parse, splitDefinition?, hcut]
  rfl

end Relational.TableSnapshot
