import Mathlib.Control.Monad.Basic
import Relational.Dialect.Column
import Relational.Proofs.Quoted
/-
Texts as engines read them.

A text in a definition (a default, a value of an enumeration, a comment) stands between
apostrophes, and an apostrophe in it is doubled.  For three of the engines that is all a literal
knows of.  In MySQL a backslash means something as well: with the character behind it, it stands
for one character, except before a wildcard, where both stay.  Backslashes are not doubled, so
MySQL reads another text if there is one elsewhere, and reads past the closing apostrophe if the
backslash takes it, or one of a doubled pair.
-/
namespace Relational

namespace Text

/-! ### Literals of MySQL -/

/-- A wildcard of patterns. -/
def isWildcard (c : Char) : Bool :=
  c == '%' || c == '_'

/-- The character that a backslash and this one stand for. -/
def control : Char → Char
  | '0' => Char.ofNat 0
  | 'b' => Char.ofNat 8
  | 't' => '\t'
  | 'n' => '\n'
  | 'r' => '\r'
  | 'Z' => Char.ofNat 26
  | c => c

/-- What MySQL reads for a backslash and the character behind it. -/
def escaped (c : Char) : List Char :=
  if isWildcard c then ['\\', c] else [control c]

/-- The text up to the apostrophe that closes it in MySQL, and what is behind that. -/
def readEscaped? : List Char → Option (List Char × List Char)
  | [] => none
  | [c] => if c = '\'' then some ([], []) else none
  | c :: x :: rest =>
    if c = '\\' then (readEscaped? rest).map (Prod.map (escaped x ++ ·) id)
    else if c = '\'' then
      if x = '\'' then (readEscaped? rest).map (Prod.map (c :: ·) id) else some ([], x :: rest)
    else (readEscaped? (x :: rest)).map (Prod.map (c :: ·) id)

/-- What MySQL reads of a text whose apostrophes are doubled, if it gets to its end. -/
def decoded? : List Char → Option (List Char)
  | [] => some []
  | [c] => if c = '\\' then none else some [c]
  | c :: x :: rest =>
    if c = '\\' then if x = '\'' then none else (decoded? rest).map (escaped x ++ ·)
    else (decoded? (x :: rest)).map (c :: ·)

/-- Each backslash has a wildcard behind it. -/
def escapesWildcards : List Char → Bool
  | [] => true
  | c :: rest => (c != '\\' || rest.head?.any isWildcard) && escapesWildcards rest

/-! ### Reading along -/

variable {s t rest : List Char} {c x : Char}

theorem map_eq_some_pair {α β γ : Type} {f : α → γ} {a : Option (α × β)} {text : γ} {behind : β} :
    a.map (Prod.map f id) = some (text, behind) ↔
      ∃ inner, a = some (inner, behind) ∧ f inner = text := by
  rcases a with - | ⟨inner, b⟩
  · simp
  · simp only [Option.map_some, Option.some.injEq, Prod.map_apply, id_eq, Prod.mk.injEq]
    exact ⟨fun ⟨htext, hb⟩ => ⟨inner, ⟨rfl, hb⟩, htext⟩, fun ⟨_, ⟨rfl, hb⟩, htext⟩ => ⟨htext, hb⟩⟩

/-- At least the closing apostrophe is read. -/
theorem length_behind {text behind : List Char} (h : readEscaped? s = some (text, behind)) :
    behind.length < s.length := by
  fun_induction readEscaped? s generalizing text behind with
  | case1 => cases h
  | case2 => cases h; simp
  | case3 c hc => cases h
  | case4 x rest ih | case5 rest _ ih =>
      obtain ⟨inner, hinner, -⟩ := map_eq_some_pair.mp h
      have := ih hinner
      simp only [List.length_cons]
      omega
  | case6 x rest _ hx => cases h; simp
  | case7 c x rest hc hc' ih =>
      obtain ⟨inner, hinner, -⟩ := map_eq_some_pair.mp h
      have := ih hinner
      simp only [List.length_cons] at this ⊢
      omega

theorem readEscaped?_ne_behind {more : List Char} {f : List Char → List Char} (h : s <:+ rest) :
    (readEscaped? s).map (Prod.map f id) ≠ some (more, rest) := by
  intro hread
  obtain ⟨inner, hinner, -⟩ := map_eq_some_pair.mp hread
  have hlonger := length_behind hinner
  have hshorter := h.length_le
  omega

theorem readEscaped?_close (h : rest.head? ≠ some '\'') :
    readEscaped? ('\'' :: rest) = some ([], rest) := by
  cases rest with
  | nil => rfl
  | cons x rest =>
      have hx : x ≠ '\'' := by simpa using h
      simp [readEscaped?, hx]

theorem readEscaped?_ordinary (hc : c ≠ '\\') :
    readEscaped? (doubled '\'' (c :: s) ++ '\'' :: rest) =
      (readEscaped? (doubled '\'' s ++ '\'' :: rest)).map (Prod.map (c :: ·) id) := by
  rw [doubled]
  split
  · rename_i hquote
    rw [List.cons_append, List.cons_append, readEscaped?, if_neg hc, if_pos hquote, if_pos hquote]
  · rename_i hquote
    obtain ⟨x, more, hmore⟩ : ∃ x more, doubled '\'' s ++ '\'' :: rest = x :: more :=
      List.exists_cons_of_ne_nil (by simp)
    rw [List.cons_append, hmore, readEscaped?, if_neg hc, if_neg hquote]

theorem readEscaped?_escape (hx : x ≠ '\'') :
    readEscaped? (doubled '\'' ('\\' :: x :: s) ++ '\'' :: rest) =
      (readEscaped? (doubled '\'' s ++ '\'' :: rest)).map (Prod.map (escaped x ++ ·) id) := by
  rw [doubled, if_neg (by decide), doubled, if_neg hx, List.cons_append,
    List.cons_append, readEscaped?, if_pos rfl]

/-- One apostrophe too few: what is read does not end where the text does. -/
theorem readEscaped?_unpaired (s : List Char) (text : List Char) :
    readEscaped? ('\'' :: (doubled '\'' s ++ '\'' :: rest)) ≠ some (text, rest) := by
  induction s generalizing text with
  | nil =>
      rw [doubled, List.nil_append, readEscaped?, if_neg (by decide), if_pos rfl, if_pos rfl]
      exact readEscaped?_ne_behind (List.suffix_refl rest)
  | cons c s ih =>
      rw [doubled]
      split
      · rename_i hc
        subst hc
        rw [List.cons_append, List.cons_append, readEscaped?, if_neg (by decide), if_pos rfl,
          if_pos rfl]
        intro hread
        obtain ⟨inner, hinner, -⟩ := map_eq_some_pair.mp hread
        exact ih inner hinner
      · rename_i hc
        rw [List.cons_append, readEscaped?, if_neg (by decide), if_pos rfl, if_neg hc]
        intro hread
        have hlength := congrArg List.length (Prod.mk.inj (Option.some.inj hread)).2
        simp only [List.length_cons, List.length_append] at hlength
        omega

/-- MySQL gets to the end of the text exactly if no backslash takes an apostrophe. -/
theorem readEscaped?_doubled_iff (h : rest.head? ≠ some '\'') :
    readEscaped? (doubled '\'' s ++ '\'' :: rest) = some (t, rest) ↔ decoded? s = some t := by
  fun_induction decoded? s generalizing t with
  | case1 =>
      rw [doubled, List.nil_append, readEscaped?_close h]
      simp
  | case2 =>
      rw [doubled, if_neg (by decide), doubled, List.cons_append, List.nil_append,
        readEscaped?, if_pos rfl]
      simpa using readEscaped?_ne_behind (List.suffix_refl rest)
  | case3 c hc =>
      rw [readEscaped?_ordinary hc, doubled, List.nil_append, readEscaped?_close h]
      simp
  | case4 s =>
      have hunpaired := @readEscaped?_unpaired rest s
      rw [doubled, if_neg (by decide), doubled, if_pos rfl, List.cons_append,
        List.cons_append, List.cons_append, readEscaped?, if_pos rfl, map_eq_some_pair]
      simpa using fun inner hinner => absurd hinner (hunpaired inner)
  | case5 x s hx ih =>
      rw [readEscaped?_escape hx, map_eq_some_pair, Option.map_eq_some_iff]
      simp only [ih]
  | case6 c x s hc ih =>
      rw [readEscaped?_ordinary hc, map_eq_some_pair, Option.map_eq_some_iff]
      simp only [ih]

/-! ### Texts that are read back -/

theorem length_escaped (x : Char) : (escaped x).length ≤ 2 ∧
    ((escaped x).length = 2 → isWildcard x = true) := by
  unfold escaped
  split
  · rename_i hx
    exact ⟨le_refl 2, fun _ => hx⟩
  · exact ⟨by simp, by simp⟩

theorem length_decoded (h : decoded? s = some t) : t.length ≤ s.length := by
  fun_induction decoded? s generalizing t with
  | case1 | case3 => cases h; simp
  | case2 | case4 => cases h
  | case5 x s hx ih =>
      obtain ⟨u, hu, rfl⟩ := Option.map_eq_some_iff.mp h
      have hshort := (length_escaped x).1
      have := ih hu
      simp only [List.length_append, List.length_cons]
      omega
  | case6 c x s hc ih =>
      obtain ⟨u, hu, rfl⟩ := Option.map_eq_some_iff.mp h
      simpa using ih hu

/-- A text stands for itself exactly if each backslash has a wildcard behind it. -/
theorem decoded?_eq_self_iff (s : List Char) :
    decoded? s = some s ↔ escapesWildcards s = true := by
  fun_induction decoded? s with
  | case1 => simp [escapesWildcards]
  | case2 => simp [escapesWildcards]
  | case3 c hc => simp [escapesWildcards, hc]
  | case4 s => simp [escapesWildcards, isWildcard]
  | case5 x s hx ih =>
      have hskip : escapesWildcards ('\\' :: x :: s) = (isWildcard x && escapesWildcards s) := by
        by_cases hwild : isWildcard x = true
        · have hx' : x ≠ '\\' := by
            rintro rfl
            exact absurd hwild (by decide)
          simp [escapesWildcards, hwild, hx']
        · simp [escapesWildcards, hwild]
      rw [hskip, Option.map_eq_some_iff, Bool.and_eq_true, ← ih]
      constructor
      · rintro ⟨u, hu, hself⟩
        -- only an escape of two characters makes up for the two that were read
        have hlength := congrArg List.length hself
        have hshorter := length_decoded hu
        have hescaped := length_escaped x
        simp only [List.length_append, List.length_cons] at hlength
        have hwild : isWildcard x = true := hescaped.2 (by omega)
        rw [escaped, if_pos hwild, List.cons_append, List.cons_append, List.nil_append,
          List.cons.injEq, List.cons.injEq] at hself
        exact ⟨hwild, hself.2.2 ▸ hu⟩
      · rintro ⟨hwild, hself⟩
        exact ⟨s, hself, by rw [escaped, if_pos hwild]; rfl⟩
  | case6 c x s hc ih =>
      have hordinary : escapesWildcards (c :: x :: s) = escapesWildcards (x :: s) := by
        rw [escapesWildcards]
        simp [hc]
      rw [hordinary, ← ih, Option.map_eq_some_iff]
      simp

end Text

namespace Dialect

/-! ### Literals of the engines -/

/-- The text of the literal that the engine reads here, and what is behind it. -/
def readText? (d : Dialect) : List Char → Option (List Char × List Char)
  | '\'' :: rest => if d = mysql then Text.readEscaped? rest else readQuoted? '\'' rest
  | 'N' :: '\'' :: rest => if d = sqlServer then readQuoted? '\'' rest else none
  | _ => none

/-- **A written text is read back, in MySQL exactly if each backslash has a wildcard behind it.**
Behind the literal may stand anything that is no apostrophe.  The engine reads the text that was
quoted and stops where its literal ends; MySQL does so only for the texts in which backslashes
stand nowhere but directly before a wildcard. -/
theorem quoteText_read_back (d : Dialect) (text : String) {behind : String}
    (h : behind.toList.head? ≠ some '\'') :
    d.readText? (d.quoteText text ++ behind).toList = some (text.toList, behind.toList) ↔
      (d = mysql → Text.escapesWildcards text.toList = true) := by
  have hliteral : (Text.enclosed '\'' '\'' text ++ behind).toList =
      '\'' :: (Text.doubled '\'' text.toList ++ '\'' :: behind.toList) := by
    rw [String.toList_append, toList_enclosed, List.cons_append, List.append_assoc]
    rfl
  cases d with
  | sqlite | postgres =>
      change readText? _ (Text.enclosed '\'' '\'' text ++ behind).toList = _ ↔ _
      rw [hliteral]
      simpa [readText?] using readQuoted?_doubled '\'' text.toList h
  | mysql =>
      change readText? _ (Text.enclosed '\'' '\'' text ++ behind).toList = _ ↔ _
      rw [hliteral, readText?, if_pos rfl, Text.readEscaped?_doubled_iff h,
        Text.decoded?_eq_self_iff]
      simp
  | sqlServer =>
      rw [quoteText, String.append_assoc, String.toList_append, hliteral]
      simpa [readText?] using readQuoted?_doubled '\'' text.toList h

/-- An apostrophe, and a wildcard that is escaped: MySQL reads them back in a list of values. -/
theorem escaped_wildcard_read_back :
    ", 'new')".toList.head? ≠ some '\'' ∧
      quoteText mysql "that's 50\\% off" = "'that''s 50\\% off'" ∧
      readText? mysql "'that''s 50\\% off', 'new')".toList =
        some ("that's 50\\% off".toList, ", 'new')".toList) := by
  have hquoted : quoteText mysql "that's 50\\% off" = "'that''s 50\\% off'" := by
    decide +kernel
  refine ⟨by decide, hquoted, ?_⟩
  have hfollows : ", 'new')".toList.head? ≠ some '\'' := by
    decide
  have hread := (quoteText_read_back mysql "that's 50\\% off" hfollows).mpr fun _ => by decide
  rwa [hquoted] at hread

/-- A column of MySQL with a comment. -/
def folder : Column :=
  { name := "dir"
    type := .string 9
    default := some (.literal (.text "C:\\"))
    comment := some "home" }

/-- The default takes the apostrophe that closes it, and the one that opens the comment closes it.
-/
theorem backslash_takes_apostrophe :
    columnDefinition mysql folder =
        .ok ("`dir` VARCHAR(9) NOT NULL DEFAULT " ++ quoteText mysql "C:\\" ++ " COMMENT 'home'") ∧
      quoteText mysql "C:\\" ++ " COMMENT 'home'" = "'C:\\' COMMENT 'home'" ∧
      " COMMENT 'home'".toList.head? ≠ some '\'' ∧
      readText? mysql "'C:\\' COMMENT 'home'".toList =
        some ("C:' COMMENT ".toList, "home'".toList) := by
  decide +kernel

end Dialect

end Relational
