import Mathlib.Data.List.DropRight
import Relational.Proofs.Migration.Splitting
/-
Statements stay statements.

A script is scanned with one character ahead, and that character matters only where it is a dash
or a star.  So the scan of a text does not depend on what follows it, as long as it is neither, and
a blank, a semicolon and the end of the script are all the same to it.  This lets a piece be
trimmed, and put between other semicolons, without being cut anywhere else.

What follows a statement on its last line could still become part of it: of a comment that runs to
the end of the line.  A piece that a semicolon ends is out of every quote and block comment, and
trimming it can only put it back into such a comment.  One line break behind each statement is
therefore enough to put statements one behind the other again.
-/
namespace Relational

namespace Text

variable {blanks : List Char}

theorem trim_blanks_append (h : ∀ c ∈ blanks, isBlank c = true) (s : List Char) :
    trim (blanks ++ s) = trim s := by
  rw [trim, trimStart, List.dropWhile_append_of_pos h]
  rfl

theorem trim_append_blanks (h : ∀ c ∈ blanks, isBlank c = true) (s : List Char) :
    trim (s ++ blanks) = trim s := by
  have hback : ∀ c ∈ blanks.reverse, isBlank c = true := fun c hc => h c (List.mem_reverse.mp hc)
  rw [trim, trimStart, List.dropWhile_append, List.dropWhile_eq_nil_iff.mpr h]
  split
  · rename_i hnone
    rw [trim, trimStart, List.isEmpty_iff.mp hnone]
  · rw [trimEnd, dropEndWhile, List.reverse_append, List.dropWhile_append_of_pos hback]
    rfl

theorem trim_of_blanks (h : ∀ c ∈ blanks, isBlank c = true) : trim blanks = [] := by
  simpa [trim, trimEnd, dropEndWhile, trimStart] using trim_append_blanks h []

/-- Trimming takes blanks from both ends, and nothing else. -/
theorem exists_trim (s : List Char) :
    ∃ before after, (∀ c ∈ before, isBlank c = true) ∧ (∀ c ∈ after, isBlank c = true) ∧
      s = before ++ (trim s ++ after) := by
  refine ⟨s.takeWhile isBlank, (trimStart s).rtakeWhile isBlank, fun c => List.mem_takeWhile_imp,
    fun c => List.mem_rtakeWhile_imp, ?_⟩
  have hend : trim s ++ (trimStart s).rtakeWhile isBlank = trimStart s :=
    List.rdropWhile_append_rtakeWhile
  rw [hend]
  exact List.takeWhile_append_dropWhile.symm

theorem trim_trim (s : List Char) : trim (trim s) = trim s := by
  obtain ⟨before, after, hbefore, hafter, hs⟩ := exists_trim s
  conv_rhs => rw [hs, trim_blanks_append hbefore, trim_append_blanks hafter]

end Text

namespace Script

variable {region : Region} {c : Char} {text tail rest blanks : List Char}
  {chunks found : List (List Char)}

/-! ### Texts that are not cut -/

/-- What follows the text belongs to this, if it does not start with a dash or a star. -/
def Region.behind (region : Region) : List Char → Region
  | [] => region
  | c :: text => (region.after c text.head?).behind text

/-- No semicolon of the text ends a statement. -/
def Whole (region : Region) (text : List Char) : Prop :=
  pieces region text = [text]

/-- Opens no comment together with the character before. -/
def Apart (tail : List Char) : Prop :=
  tail.head? ≠ some '-' ∧ tail.head? ≠ some '*'

theorem apart_semicolon (rest : List Char) : Apart (';' :: rest) := by
  simp [Apart]

theorem apart_of_blanks (h : ∀ c ∈ blanks, Text.isBlank c = true) : Apart blanks := by
  cases blanks with
  | nil => simp [Apart]
  | cons c blanks =>
      have hc := h c List.mem_cons_self
      constructor
      · rintro ⟨⟩
        cases hc
      · rintro ⟨⟩
        cases hc

theorem after_append (htail : Apart tail) (region : Region) (c : Char) (text : List Char) :
    region.after c (text ++ tail).head? = region.after c text.head? := by
  cases text with
  | nil => cases region <;> simp [Region.after, htail.1, htail.2]
  | cons d text => rfl

theorem behind_append (htail : Apart tail) (region : Region) (text : List Char) :
    region.behind (text ++ tail) = (region.behind text).behind tail := by
  induction text generalizing region with
  | nil => rfl
  | cons c text ih =>
      rw [List.cons_append, Region.behind, after_append htail, ih]
      rfl

theorem whole_nil : Whole region [] :=
  rfl

theorem whole_cons : Whole region (c :: text) ↔
    (region = .plain → c ≠ ';') ∧ Whole (region.after c text.head?) text := by
  by_cases hcut : region = .plain → c ≠ ';'
  · rw [and_iff_right hcut, Whole, pieces_cons hcut, Whole]
    cases hlater : pieces (region.after c text.head?) text with
    | nil => exact absurd hlater (pieces_ne_nil _ _)
    | cons piece more => simp
  · push Not at hcut
    obtain ⟨rfl, rfl⟩ := hcut
    simp [Whole, pieces_semicolon]

theorem whole_append (htail : Apart tail) :
    Whole region (text ++ tail) ↔ Whole region text ∧ Whole (region.behind text) tail := by
  induction text generalizing region with
  | nil => simp [whole_nil, Region.behind]
  | cons c text ih =>
      rw [List.cons_append, whole_cons, whole_cons, after_append htail, ih, and_assoc]
      rfl

/-- A text that is not cut stays at the front of what it stands in. -/
theorem Whole.pieces_append (h : Whole region text) (htail : Apart tail) :
    pieces region (text ++ tail) = (pieces (region.behind text) tail).modifyHead (text ++ ·) := by
  induction text generalizing region with
  | nil => exact (congrFun List.modifyHead_id _).symm
  | cons c text ih =>
      obtain ⟨hcut, h⟩ := whole_cons.mp h
      rw [List.cons_append, pieces_cons hcut, after_append htail, ih h, List.modifyHead_modifyHead]
      rfl

theorem Whole.pieces_semicolon (h : Whole .plain text) (hplain : Region.plain.behind text = .plain)
    (rest : List Char) : pieces .plain (text ++ ';' :: rest) = text :: pieces .plain rest := by
  rw [h.pieces_append (apart_semicolon rest), hplain, Script.pieces_semicolon]
  simp

/-! ### The pieces of a script -/

/-- The first semicolon that ends a statement, if there is one. -/
theorem whole_or_cut (region : Region) (s : List Char) :
    Whole region s ∨
      ∃ text rest, s = text ++ ';' :: rest ∧ Whole region text ∧ region.behind text = .plain := by
  induction s generalizing region with
  | nil => exact .inl whole_nil
  | cons c s ih =>
      by_cases hcut : region = .plain → c ≠ ';'
      · rcases ih (region.after c s.head?) with h | ⟨text, rest, rfl, h, hplain⟩
        · exact .inl (whole_cons.mpr ⟨hcut, h⟩)
        · rw [after_append (apart_semicolon rest)] at h hplain
          exact .inr ⟨c :: text, rest, rfl, whole_cons.mpr ⟨hcut, h⟩, hplain⟩
      · push Not at hcut
        obtain ⟨rfl, rfl⟩ := hcut
        exact .inr ⟨[], s, rfl, whole_nil, rfl⟩

/-- The script is these chunks with semicolons between them.  None of them is cut, and what a
semicolon ends is out of every quote and comment. -/
inductive Cut : List Char → List (List Char) → Prop
  | last {text : List Char} (h : Whole .plain text) : Cut text [text]
  | cons {text rest : List Char} {chunks : List (List Char)} (h : Whole .plain text)
      (hplain : Region.plain.behind text = .plain) (hrest : Cut rest chunks) :
      Cut (text ++ ';' :: rest) (text :: chunks)

theorem cut_pieces (s : List Char) : Cut s (pieces .plain s) := by
  induction hlength : s.length using Nat.strong_induction_on generalizing s with
  | _ n ih =>
      subst hlength
      rcases whole_or_cut .plain s with h | ⟨text, rest, rfl, h, hplain⟩
      · rw [show pieces .plain s = [s] from h]
        exact .last h
      · rw [h.pieces_semicolon hplain]
        exact .cons h hplain (ih rest.length (by simp; omega) rest rfl)

/-! ### Blanks around a text -/

theorem after_plain_of_isBlank (h : Text.isBlank c = true) (ahead : Option Char) :
    Region.after .plain c ahead = .plain := by
  have hne : ∀ d, Text.isBlank d = false → c ≠ d := by
    rintro d hd rfl
    rw [h] at hd
    cases hd
  simp [Region.after, hne '\'' (by decide), hne '"' (by decide), hne Dialect.backtick (by decide),
    hne '[' (by decide), hne '-' (by decide), hne '/' (by decide)]

theorem ne_semicolon_of_isBlank (h : Text.isBlank c = true) : c ≠ ';' := by
  rintro rfl
  cases h

theorem whole_of_blanks (h : ∀ c ∈ blanks, Text.isBlank c = true) (region : Region) :
    Whole region blanks := by
  induction blanks generalizing region with
  | nil => exact whole_nil
  | cons c blanks ih =>
      obtain ⟨hc, hblanks⟩ := List.forall_mem_cons.mp h
      exact whole_cons.mpr ⟨fun _ => ne_semicolon_of_isBlank hc, ih hblanks _⟩

theorem whole_blanks_append (h : ∀ c ∈ blanks, Text.isBlank c = true) :
    Whole .plain (blanks ++ text) ↔ Whole .plain text := by
  induction blanks with
  | nil => rfl
  | cons c blanks ih =>
      obtain ⟨hc, hblanks⟩ := List.forall_mem_cons.mp h
      rw [List.cons_append, whole_cons, after_plain_of_isBlank hc, ih hblanks]
      exact and_iff_right fun _ => ne_semicolon_of_isBlank hc

theorem behind_blanks_append (h : ∀ c ∈ blanks, Text.isBlank c = true) :
    Region.plain.behind (blanks ++ text) = Region.plain.behind text := by
  induction blanks with
  | nil => rfl
  | cons c blanks ih =>
      obtain ⟨hc, hblanks⟩ := List.forall_mem_cons.mp h
      rw [List.cons_append, Region.behind, after_plain_of_isBlank hc, ih hblanks]

theorem Whole.trim (h : Whole .plain text) : Whole .plain (Text.trim text) := by
  obtain ⟨before, after, hbefore, hafter, htext⟩ := Text.exists_trim text
  rw [htext, whole_blanks_append hbefore, whole_append (apart_of_blanks hafter)] at h
  exact h.1

/-! ### The end of a statement -/

/-- A line break ends this. -/
def Region.EndsLine (region : Region) : Prop :=
  region = .plain ∨ region = .lineComment

/-- No quote is closed by a blank. -/
def Region.Closable (region : Region) : Prop :=
  ∀ close, region = .quoted close → Text.isBlank close = false

theorem Region.Closable.after (h : region.Closable) (c : Char) (ahead : Option Char) :
    (region.after c ahead).Closable := by
  intro close hclose
  cases region with
  | plain =>
      rw [Region.after] at hclose
      split at hclose
      · rename_i hquote
        cases hclose
        rcases hquote with rfl | rfl | rfl <;> decide
      · split at hclose
        · cases hclose
          decide
        · split at hclose
          · cases hclose
          · split at hclose <;> cases hclose
  | quoted own =>
      rw [Region.after] at hclose
      split at hclose
      · cases hclose
      · exact h close hclose
  | lineComment =>
      rw [Region.after] at hclose
      split at hclose <;> cases hclose
  | blockComment star =>
      rw [Region.after] at hclose
      split at hclose <;> cases hclose

theorem Region.Closable.behind (h : region.Closable) (text : List Char) :
    (region.behind text).Closable := by
  induction text generalizing region with
  | nil => exact h
  | cons c text ih => exact ih (h.after c text.head?)

theorem Region.closable_plain : Region.Closable .plain :=
  fun _ h => nomatch h

/-- Blanks end nothing but a comment that runs to the end of its line. -/
theorem Region.EndsLine.of_after (h : region.Closable) (hc : Text.isBlank c = true)
    {ahead : Option Char} (hends : (region.after c ahead).EndsLine) : region.EndsLine := by
  cases region with
  | plain => exact .inl rfl
  | lineComment => exact .inr rfl
  | quoted close =>
      have hne : c ≠ close := by
        rintro rfl
        rw [h c rfl] at hc
        cases hc
      rw [Region.after, if_neg hne] at hends
      simp [Region.EndsLine] at hends
  | blockComment star =>
      have hne : ¬ (star = true ∧ c = '/') := by
        rintro ⟨-, rfl⟩
        cases hc
      rw [Region.after, if_neg hne] at hends
      simp [Region.EndsLine] at hends

theorem Region.EndsLine.of_behind (h : region.Closable)
    (hblanks : ∀ c ∈ blanks, Text.isBlank c = true) (hends : (region.behind blanks).EndsLine) :
    region.EndsLine := by
  induction blanks generalizing region with
  | nil => exact hends
  | cons c blanks ih =>
      obtain ⟨hc, hblanks⟩ := List.forall_mem_cons.mp hblanks
      exact .of_after h hc (ih (h.after c blanks.head?) hblanks hends)

/-- Without the blanks around it, a piece may end in a comment that runs to the end of its line. -/
theorem endsLine_trim (hplain : Region.plain.behind text = .plain) :
    (Region.plain.behind (Text.trim text)).EndsLine := by
  obtain ⟨before, after, hbefore, hafter, htext⟩ := Text.exists_trim text
  rw [htext, behind_blanks_append hbefore, behind_append (apart_of_blanks hafter)] at hplain
  exact .of_behind (Region.closable_plain.behind _) hafter (.inl hplain)

theorem Region.EndsLine.behind_break (h : region.EndsLine) : region.behind ['\n'] = .plain := by
  rcases h with rfl | rfl <;> decide

/-! ### Statements by themselves -/

/-- The statements of a text. -/
def statementsIn (s : List Char) : List (List Char) :=
  ((pieces .plain s).map Text.trim).filter holdsSql

/-- A text that is one statement and nothing besides. -/
structure IsStatement (text : List Char) : Prop where
  whole : Whole .plain text
  trimmed : Text.trim text = text
  holds : holdsSql text = true

theorem Whole.isStatement (h : Whole .plain text) (hholds : holdsSql (Text.trim text) = true) :
    IsStatement (Text.trim text) :=
  ⟨h.trim, Text.trim_trim text, hholds⟩

/-- Blanks around a statement let nothing be cut. -/
theorem IsStatement.whole_padded (h : IsStatement text) {before after : List Char}
    (hbefore : ∀ c ∈ before, Text.isBlank c = true) (hafter : ∀ c ∈ after, Text.isBlank c = true) :
    Whole .plain (before ++ (text ++ after)) := by
  rw [whole_blanks_append hbefore, whole_append (apart_of_blanks hafter)]
  exact ⟨h.whole, whole_of_blanks hafter _⟩

theorem IsStatement.trim_padded (h : IsStatement text) {before after : List Char}
    (hbefore : ∀ c ∈ before, Text.isBlank c = true) (hafter : ∀ c ∈ after, Text.isBlank c = true) :
    Text.trim (before ++ (text ++ after)) = text := by
  rw [Text.trim_blanks_append hbefore, Text.trim_append_blanks hafter, h.trimmed]

theorem Whole.statementsIn_eq (h : Whole .plain text) :
    statementsIn text = [Text.trim text].filter holdsSql := by
  rw [statementsIn, show pieces .plain text = [text] from h, List.map_singleton]

theorem IsStatement.statementsIn_eq (h : IsStatement text) {before : List Char}
    (hbefore : ∀ c ∈ before, Text.isBlank c = true) : statementsIn (before ++ text) = [text] := by
  have hnone : ∀ c ∈ ([] : List Char), Text.isBlank c = true := by simp
  have hwhole := h.whole_padded hbefore hnone
  have htrim := h.trim_padded hbefore hnone
  rw [List.append_nil] at hwhole htrim
  rw [hwhole.statementsIn_eq, htrim, List.filter_cons_of_pos h.holds, List.filter_nil]

/-- Statements of which every one but the last is closed by a line break. -/
inductive Listed : List (List Char) → Prop
  | nil : Listed []
  | last {text : List Char} (h : IsStatement text) : Listed [text]
  | cons {text : List Char} {found : List (List Char)} (h : IsStatement text)
      (hends : (Region.plain.behind text).EndsLine) (hfound : Listed found) : Listed (text :: found)

theorem Cut.listed {s : List Char} (h : Cut s chunks) :
    Listed ((chunks.map Text.trim).filter holdsSql) := by
  induction h with
  | @last text h =>
      rw [List.map_singleton, List.filter_cons]
      split
      · rename_i hholds
        exact .last (h.isStatement hholds)
      · exact .nil
  | @cons text rest chunks h hplain hrest ih =>
      rw [List.map_cons, List.filter_cons]
      split
      · rename_i hholds
        exact .cons (h.isStatement hholds) (endsLine_trim hplain) ih
      · exact ih

theorem listed_statementsIn (s : List Char) : Listed (statementsIn s) :=
  (cut_pieces s).listed

theorem Listed.isStatement (h : Listed found) : ∀ text ∈ found, IsStatement text := by
  induction h with
  | nil => simp
  | last h => simpa using h
  | cons h _ _ ih => exact List.forall_mem_cons.mpr ⟨h, ih⟩

/-! ### One behind the other again -/

/-- What is put between statements. -/
def separator : List Char :=
  ['\n', ';', '\n']

theorem isBlank_of_mem_break : ∀ c ∈ ['\n'], Text.isBlank c = true := by
  intro c hc
  rw [List.mem_singleton.mp hc]
  rfl

/-- A statement is found in front of the separator, and the search goes on behind it. -/
theorem IsStatement.statementsIn_separator (h : IsStatement text)
    (hends : (Region.plain.behind text).EndsLine) {before : List Char}
    (hbefore : ∀ c ∈ before, Text.isBlank c = true) (rest : List Char) :
    statementsIn (before ++ (text ++ separator ++ rest)) = text :: statementsIn ('\n' :: rest) := by
  have hwhole := h.whole_padded hbefore isBlank_of_mem_break
  have hplain : Region.plain.behind (before ++ (text ++ ['\n'])) = .plain := by
    rw [behind_blanks_append hbefore, behind_append (apart_of_blanks isBlank_of_mem_break),
      hends.behind_break]
  have hsplit : before ++ (text ++ separator ++ rest) =
      before ++ (text ++ ['\n']) ++ ';' :: '\n' :: rest := by
    simp [separator]
  rw [hsplit, statementsIn, hwhole.pieces_semicolon hplain, List.map_cons,
    h.trim_padded hbefore isBlank_of_mem_break, List.filter_cons_of_pos h.holds]
  rfl

theorem Listed.statementsIn_intercalate (h : Listed found) {before : List Char}
    (hbefore : ∀ c ∈ before, Text.isBlank c = true) :
    statementsIn (before ++ separator.intercalate found) = found := by
  induction h generalizing before with
  | nil =>
      rw [List.intercalate_nil, List.append_nil, (whole_of_blanks hbefore _).statementsIn_eq,
        Text.trim_of_blanks hbefore]
      rfl
  | last h => rw [List.intercalate_singleton, h.statementsIn_eq hbefore]
  | @cons text found h hends hfound ih =>
      cases found with
      | nil => rw [List.intercalate_singleton, h.statementsIn_eq hbefore]
      | cons next found =>
          rw [List.intercalate_cons_cons, h.statementsIn_separator hends hbefore]
          exact congrArg (text :: ·) (ih isBlank_of_mem_break)

/-! ### What is left out -/

/-- Blanks, or one of the chunks, in which no statement is found. -/
def Unused (chunks : List (List Char)) (part : List Char) : Prop :=
  (∀ c ∈ part, Text.isBlank c = true) ∨ part ∈ chunks ∧ holdsSql part = false

/-- Unused texts with semicolons between them. -/
inductive Idle (chunks : List (List Char)) : List Char → Prop
  | one {part : List Char} (h : Unused chunks part) : Idle chunks part
  | more {part rest : List Char} (h : Unused chunks part) (hrest : Idle chunks rest) :
      Idle chunks (part ++ ';' :: rest)

/-- The script is these statements in this order, in front of each of them and behind the last one
idle text. -/
inductive LaidOut (chunks : List (List Char)) : List (List Char) → List Char → Prop
  | nil {gap : List Char} (hgap : Idle chunks gap) : LaidOut chunks [] gap
  | cons {gap text rest : List Char} {found : List (List Char)} (hgap : Idle chunks gap)
      (hrest : LaidOut chunks found rest) : LaidOut chunks (text :: found) (gap ++ (text ++ rest))

theorem LaidOut.behind_unused {part : List Char} (h : Unused chunks part)
    (hrest : LaidOut chunks found rest) : LaidOut chunks found (part ++ ';' :: rest) := by
  cases hrest with
  | nil hgap => exact .nil (.more h hgap)
  | @cons gap text rest found hgap hrest =>
      have hlonger : LaidOut chunks (text :: found) (part ++ ';' :: gap ++ (text ++ rest)) :=
        .cons (.more h hgap) hrest
      simpa using hlonger

/-- A trimmed text stands in the text with blanks around it. -/
theorem LaidOut.trim_cons (htail : ∀ {after}, (∀ c ∈ after, Text.isBlank c = true) →
      LaidOut chunks found (after ++ tail)) (text : List Char) :
    LaidOut chunks (Text.trim text :: found) (text ++ tail) := by
  obtain ⟨before, after, hbefore, hafter, htext⟩ := Text.exists_trim text
  have hlaid : LaidOut chunks (Text.trim text :: found)
      (before ++ (Text.trim text ++ (after ++ tail))) :=
    .cons (.one (.inl hbefore)) (htail hafter)
  rw [← List.append_assoc _ after, ← List.append_assoc before, ← htext] at hlaid
  exact hlaid

theorem Cut.laidOut {s : List Char} {all : List (List Char)} (h : Cut s chunks)
    (hall : chunks ⊆ all) : LaidOut all ((chunks.map Text.trim).filter holdsSql) s := by
  induction h with
  | @last text h =>
      rw [List.map_singleton, List.filter_cons]
      split
      · have hlaid : LaidOut all [Text.trim text] (text ++ []) :=
          .trim_cons (fun hafter => .nil (.one (.inl (by simpa using hafter)))) text
        rwa [List.append_nil] at hlaid
      · rename_i hholds
        rw [holdsSql_trim, Bool.not_eq_true] at hholds
        exact .nil (.one (.inr ⟨hall List.mem_cons_self, hholds⟩))
  | @cons text rest chunks h hplain hrest ih =>
      obtain ⟨htext, hchunks⟩ := List.cons_subset.mp hall
      rw [List.map_cons, List.filter_cons]
      split
      · exact .trim_cons (fun hafter => (ih hchunks).behind_unused (.inl hafter)) text
      · rename_i hholds
        rw [holdsSql_trim, Bool.not_eq_true] at hholds
        exact (ih hchunks).behind_unused (.inr ⟨htext, hholds⟩)

/-! ### The statements of a script -/

theorem statements_eq (script : String) :
    statements script = (statementsIn script.toList).map String.ofList :=
  rfl

/-- **Nothing of a script is lost, and nothing is run twice.**  A statement by itself is its only
statement.  The script is its statements in their order, and what stands around them is semicolons,
blanks and chunks without a statement.  The statements put one behind the other again, a semicolon
on a line of its own between them, are the statements of that script. -/
theorem statements_laid_out (script : String) :
    (∀ s ∈ statements script, statements s = [s]) ∧
      LaidOut (pieces .plain script.toList) ((statements script).map String.toList)
        script.toList ∧
      statements (String.intercalate "\n;\n" (statements script)) = statements script := by
  have hlisted := listed_statementsIn script.toList
  have hnone : ∀ c ∈ ([] : List Char), Text.isBlank c = true := by simp
  have htexts : (statements script).map String.toList = statementsIn script.toList := by
    simp [statements_eq]
  refine ⟨fun s hs => ?_, ?_, ?_⟩
  · obtain ⟨text, htext, rfl⟩ := List.mem_map.mp (statements_eq script ▸ hs)
    have hown : statementsIn text = [text] := (hlisted.isStatement text htext).statementsIn_eq hnone
    rw [statements_eq, String.toList_ofList]
    exact congrArg (List.map String.ofList) hown
  · rw [htexts]
    exact (cut_pieces script.toList).laidOut (List.Subset.refl _)
  · have hagain : statementsIn (separator.intercalate _) = _ :=
      hlisted.statementsIn_intercalate hnone
    rw [statements_eq (String.intercalate _ _), String.toList_intercalate, htexts]
    exact congrArg (List.map String.ofList) hagain

/-- A statement with a comment on its last line, a chunk that is a comment, and a text that is
still open at the end. -/
theorem commented_and_open_laid_out :
    statements "x -- y;\n ;/* z */; 'a;b " = ["x -- y;", "'a;b"] ∧
      statements "x -- y;" = ["x -- y;"] ∧
      statements "x -- y;\n;\n'a;b" = ["x -- y;", "'a;b"] := by
  have hfound : statements "x -- y;\n ;/* z */; 'a;b " = ["x -- y;", "'a;b"] := by
    decide
  obtain ⟨hown, -, hagain⟩ := statements_laid_out "x -- y;\n ;/* z */; 'a;b "
  rw [hfound] at hown hagain
  exact ⟨hfound, hown _ (by simp), hagain⟩

end Script

end Relational
