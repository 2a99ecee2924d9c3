import Relational.Proofs.Quoted
/-
A stored definition, read by its lexical rules.

The rules say what belongs together before anyone looks for the body: a text or a name in quotes,
where a doubled quote stands for one; a name in brackets; a comment up to the end of its line or to
its closing mark.  What is left are parentheses, commas and other characters.  The body then is what
stands between the first parenthesis and the one that matches it, and the entries are its parts
between the commas that are in no parentheses of their own.  The cutter knows none of this: it goes
through the definition once, character by character, and agrees.
-/
namespace Relational.TableSnapshot

/-! ### Lexemes -/

/-- What a definition consists of. -/
inductive Lexeme where
  /-- What stands in quotes, without them; doubled quotes count as one. -/
  | quoted (left right : Char) (text : List Char)
  | comment
  | opening
  | closing
  | comma
  | other (c : Char)
  deriving DecidableEq, Repr

namespace Lexeme

/-- How an entry shows the lexeme: as it was written, and a comment as a space. -/
def text : Lexeme → List Char
  | quoted left right text => left :: (Text.doubled right text ++ [right])
  | comment => [' ']
  | opening => ['(']
  | closing => [')']
  | comma => [',']
  | other c => [c]

/-- Neither of the parentheses. -/
def IsFlat (l : Lexeme) : Prop :=
  l ≠ opening ∧ l ≠ closing

instance : DecidablePred IsFlat := fun l =>
  inferInstanceAs (Decidable (l ≠ opening ∧ l ≠ closing))

end Lexeme

/-- How an entry shows the lexemes that it consists of. -/
def textOf (lexemes : List Lexeme) : List Char :=
  lexemes.flatMap Lexeme.text

/-- The first lexeme and what is behind it.  There is none at the end, and none if a quote or a
comment that has to be closed is not. -/
def lexeme? : List Char → Option (Lexeme × List Char)
  | [] => none
  | c :: rest =>
    if c = '\'' ∨ c = '"' ∨ c = Dialect.backtick then
      (Dialect.readQuoted? c rest).map fun (text, behind) => (.quoted c c text, behind)
    else if c = '[' then
      (Text.cutAt (· == ']') rest).map fun (text, behind) => (.quoted '[' ']' text, behind)
    else if c = '(' then some (.opening, rest)
    else if c = ')' then some (.closing, rest)
    else if c = ',' then some (.comma, rest)
    else if c = '-' ∧ rest.head? = some '-' then
      some (.comment, (rest.dropWhile (· ≠ '\n')).tail)
    else if c = '/' ∧ rest.head? = some '*' then
      (Text.afterFirst? ['*', '/'] rest.tail).map fun behind => (.comment, behind)
    else some (.other c, rest)

/-- The lexemes at the front of a text, and what is behind them. -/
inductive Reads : List Char → List Lexeme → List Char → Prop where
  | nil {s : List Char} : Reads s [] s
  | cons {s more behind : List Char} {l : Lexeme} {lexemes : List Lexeme}
      (first : lexeme? s = some (l, more)) (others : Reads more lexemes behind) :
      Reads s (l :: lexemes) behind

/-! ### Parentheses that match -/

/-- Every parenthesis has its match among these.  Commas stand inside parentheses; where they are
`free` they may stand outside as well. -/
inductive Matched : (free : Bool) → List Lexeme → Prop where
  | nil {free : Bool} : Matched free []
  | flat {free : Bool} {l : Lexeme} {lexemes : List Lexeme} (isFlat : l.IsFlat)
      (comma : l = .comma → free = true) (others : Matched free lexemes) :
      Matched free (l :: lexemes)
  | group {free : Bool} {inner lexemes : List Lexeme} (nested : Matched true inner)
      (others : Matched free lexemes) : Matched free (.opening :: (inner ++ .closing :: lexemes))

/-- The first parenthesis opens, and has its match: between them is `body`. -/
structure HasBody (definition : List Char) (before body : List Lexeme) (behind : List Char) :
    Prop where
  read : Reads definition (before ++ .opening :: (body ++ [.closing])) behind
  first : ∀ l ∈ before, l.IsFlat
  nested : Matched true body

variable {s rest behind : List Char} {l : Lexeme} {lexemes more : List Lexeme}

theorem reads_append :
    Reads s (lexemes ++ more) behind ↔ ∃ rest, Reads s lexemes rest ∧ Reads rest more behind := by
  induction lexemes generalizing s with
  | nil =>
      refine ⟨fun h => ⟨s, .nil, h⟩, fun ⟨rest, hnil, h⟩ => ?_⟩
      cases hnil
      exact h
  | cons l lexemes ih =>
      constructor
      · intro h
        cases h with
        | cons hfirst hothers =>
            obtain ⟨rest, hread, hmore⟩ := ih.mp hothers
            exact ⟨rest, .cons hfirst hread, hmore⟩
      · rintro ⟨rest, hread, hmore⟩
        cases hread with
        | cons hfirst hothers => exact .cons hfirst (ih.mpr ⟨rest, hothers, hmore⟩)

/-! ### The parts of a body -/

theorem append_intercalate (front part : List Lexeme) (parts : List (List Lexeme)) :
    front ++ List.intercalate [.comma] (part :: parts) =
      List.intercalate [.comma] ((front ++ part) :: parts) := by
  cases parts with
  | nil => simp
  | cons next parts => simp [List.intercalate_cons_cons]

/-- A body falls apart at its free commas. -/
theorem Matched.exists_parts {free : Bool} {body : List Lexeme} (h : Matched free body) :
    ∃ parts, parts ≠ [] ∧ (∀ p ∈ parts, Matched false p) ∧
      body = List.intercalate [.comma] parts := by
  induction h with
  | nil => exact ⟨[[]], List.cons_ne_nil _ _, by simp [Matched.nil], rfl⟩
  | @flat _ l lexemes hflat _ _ ih =>
      obtain ⟨_ | ⟨part, parts⟩, hne, hparts, rfl⟩ := ih
      · exact absurd rfl hne
      obtain ⟨hpart, hothers⟩ := List.forall_mem_cons.mp hparts
      by_cases hcomma : l = .comma
      · exact ⟨[] :: part :: parts, List.cons_ne_nil _ _, List.forall_mem_cons.mpr ⟨.nil, hparts⟩,
          by rw [hcomma, List.intercalate_cons_cons]; rfl⟩
      · have hgrown : Matched false (l :: part) := .flat hflat (fun h => absurd h hcomma) hpart
        exact ⟨(l :: part) :: parts, List.cons_ne_nil _ _,
          List.forall_mem_cons.mpr ⟨hgrown, hothers⟩, append_intercalate [l] part parts⟩
  | @group _ inner lexemes hinner _ _ ih =>
      obtain ⟨_ | ⟨part, parts⟩, hne, hparts, rfl⟩ := ih
      · exact absurd rfl hne
      obtain ⟨hpart, hothers⟩ := List.forall_mem_cons.mp hparts
      refine ⟨(.opening :: (inner ++ .closing :: part)) :: parts, List.cons_ne_nil _ _,
        List.forall_mem_cons.mpr ⟨.group hinner hpart, hothers⟩, ?_⟩
      have hgroup := append_intercalate (.opening :: (inner ++ [.closing])) part parts
      rwa [List.cons_append, List.cons_append, List.append_assoc, List.append_assoc] at hgroup

/-! ### What the cutter does with a lexeme -/

section Cutter

variable {depth : Nat} {current : List Char} {items : List (List Char)} {quote : Char}

/-- In quotes the cutter goes to where the quoted text ends.  It takes a doubled quote for the end
of one text and the start of another. -/
theorem cutItems_inQuotes (h : quote = '\'' ∨ quote = '"' ∨ quote = Dialect.backtick) :
    cutItems (.quoted quote) depth current items s =
      (Dialect.readQuoted? quote s).bind fun (text, behind) =>
        cutItems .plain depth (extended depth (Text.doubled quote text ++ [quote]) current) items
          behind := by
  fun_induction Dialect.readQuoted? quote s generalizing current with
  | case1 => rfl
  | case2 =>
      rw [cutItems_quoted, if_pos rfl]
      rfl
  | case3 c hc =>
      rw [cutItems_quoted, if_neg hc]
      rfl
  | case4 rest ih =>
      rw [cutItems_quoted, if_pos rfl, cutItems_quote _ _ _ h, ih, Option.bind_map]
      refine congrArg _ (funext fun pair => ?_)
      simp [Text.doubled, ← extended_append]
  | case5 =>
      rw [cutItems_quoted, if_pos rfl]
      rfl
  | case6 c next rest hc ih =>
      rw [cutItems_quoted, if_neg hc, ih, Option.bind_map]
      refine congrArg _ (funext fun pair => ?_)
      simp [Text.doubled, hc, ← extended_append]

/-- In brackets nothing is doubled. -/
theorem cutItems_inBrackets :
    cutItems (.quoted ']') depth current items s =
      (Text.cutAt (· == ']') s).bind fun (text, behind) =>
        cutItems .plain depth (extended depth (text ++ [']']) current) items behind := by
  induction s generalizing current with
  | nil => rfl
  | cons c s ih =>
      rw [cutItems_quoted, Text.cutAt]
      by_cases hc : c = ']'
      · rw [if_pos hc, if_pos (beq_iff_eq.mpr hc), hc]
        rfl
      · rw [if_neg hc, if_neg (by simpa using hc), ih, Option.bind_map]
        refine congrArg _ (funext fun pair => ?_)
        simp [← extended_append]

theorem cutItems_inLine :
    cutItems .lineComment depth current items s =
      cutItems .plain depth current items (s.dropWhile (· ≠ '\n')).tail := by
  induction s with
  | nil => rfl
  | cons c s ih =>
      rw [cutItems]
      by_cases hc : c = '\n'
      · simp [hc]
      · simp [hc, ih]

theorem afterFirst?_blockEnd (c : Char) :
    Text.afterFirst? ['*', '/'] (c :: s) =
      if c = '*' ∧ s.head? = some '/' then some s.tail else Text.afterFirst? ['*', '/'] s := by
  rw [Text.afterFirst?, Text.afterLead?]
  by_cases hc : '*' = c
  · subst hc
    cases s with
    | nil => simp [Text.afterLead?]
    | cons next s =>
        by_cases hnext : '/' = next
        · simp [Text.afterLead?, ← hnext]
        · simp [Text.afterLead?, hnext, Ne.symm hnext]
  · simp [hc, Ne.symm hc]

/-- The mark that closes a comment may have its star behind this place already. -/
theorem cutItems_inBlock (star : Bool) :
    cutItems (.blockComment star) depth current items s =
      (Text.afterFirst? ['*', '/'] (if star then '*' :: s else s)).bind
        (cutItems .plain depth current items) := by
  induction s generalizing star with
  | nil => cases star <;> rfl
  | cons c s ih =>
      rw [cutItems]
      by_cases hend : star = true ∧ c = '/'
      · have hmark : Text.afterFirst? ['*', '/'] ('*' :: '/' :: s) = some s :=
          (afterFirst?_blockEnd '*').trans (if_pos ⟨rfl, rfl⟩)
        simp [hend.1, hend.2, hmark]
      · have hnot : ¬(star && c == '/') = true := by simpa using hend
        have hskip : Text.afterFirst? ['*', '/'] (if star then '*' :: c :: s else c :: s) =
            Text.afterFirst? ['*', '/'] (c :: s) := by
          cases star with
          | false => rfl
          | true => exact (afterFirst?_blockEnd '*').trans (if_neg (by simpa using hend))
        rw [if_neg hnot, ih, hskip]
        by_cases hstar : c = '*'
        · simp [hstar]
        · have hnext : Text.afterFirst? ['*', '/'] (c :: s) = Text.afterFirst? ['*', '/'] s :=
            (afterFirst?_blockEnd c).trans (if_neg fun h => hstar h.1)
          simp [hstar, hnext]

/-- What the cutter has to do behind a lexeme. -/
def cutBehind (depth : Nat) (current : List Char) (items : List (List Char)) (behind : List Char) :
    Lexeme → Option (List (List Char) × List Char)
  | .opening => cutItems .plain (depth + 1) (extended depth ['('] current) items behind
  | .closing =>
    match depth with
    | 0 => none
    | 1 => some ((Text.trim current.reverse :: items).reverse, behind)
    | depth + 2 => cutItems .plain (depth + 1) (')' :: current) items behind
  | .comma =>
    if depth = 1 then cutItems .plain 1 [] (Text.trim current.reverse :: items) behind
    else cutItems .plain depth (extended depth [','] current) items behind
  | .comment => cutItems .plain depth (' ' :: current) items behind
  | l => cutItems .plain depth (extended depth l.text current) items behind

/-- The cutter goes from lexeme to lexeme, and is lost where there is none. -/
theorem cutItems_eq_bind (s : List Char) :
    cutItems .plain depth current items s =
      (lexeme? s).bind fun (l, behind) => cutBehind depth current items behind l := by
  cases s with
  | nil => rfl
  | cons c rest =>
      rw [lexeme?]
      by_cases hquote : c = '\'' ∨ c = '"' ∨ c = Dialect.backtick
      · rw [if_pos hquote, cutItems_quote _ _ _ hquote, cutItems_inQuotes hquote, Option.bind_map]
        refine congrArg _ (funext fun pair => ?_)
        simp [cutBehind, Lexeme.text, ← extended_append]
      rw [if_neg hquote]
      by_cases hbracket : c = '['
      · have hopens : cutItems .plain depth current items ('[' :: rest) =
            cutItems (.quoted ']') depth (extended depth ['['] current) items rest := by
          conv => lhs; unfold cutItems
          simp [Dialect.backtick, extended]
        rw [if_pos hbracket, hbracket, hopens, cutItems_inBrackets, Option.bind_map]
        refine Option.bind_congr fun pair hpair => ?_
        obtain ⟨mark, -, hinside, -⟩ := Text.cutAt_eq hpair
        have hmark : ']' ∉ pair.1 := fun hmem => absurd (hinside _ hmem) (by decide)
        simp [cutBehind, Lexeme.text, Value.doubled_of_not_mem hmark, ← extended_append]
      rw [if_neg hbracket]
      by_cases hopen : c = '('
      · rw [hopen, cutItems_open]
        rfl
      by_cases hclose : c = ')'
      · rw [hclose]
        rcases depth with _ | _ | depth
        · conv => lhs; unfold cutItems
          simp [Dialect.backtick, cutBehind]
        · exact cutItems_end _ _ _
        · exact cutItems_close _ _ _
      conv => lhs; unfold cutItems
      dsimp only
      rw [if_neg hquote, if_neg hbracket, if_neg hopen, if_neg hclose, if_neg hopen, if_neg hclose]
      by_cases hcomma : c = ','
      · rw [hcomma]
        by_cases hdepth : depth = 1
        · simp [hdepth, cutBehind]
        · simp [hdepth, cutBehind, extended]
      rw [if_neg fun h => hcomma h.1, if_neg hcomma]
      by_cases hline : c = '-' ∧ rest.head? = some '-'
      · rw [if_pos hline, if_pos hline, cutItems_inLine]
        rfl
      rw [if_neg hline, if_neg hline]
      by_cases hblock : c = '/' ∧ rest.head? = some '*'
      · obtain ⟨more, rfl⟩ : ∃ more, rest = '*' :: more := ⟨rest.tail, by
          cases rest with
          | nil => cases hblock.2
          | cons next more => rw [Option.some.inj hblock.2]; rfl⟩
        rw [if_pos hblock, Option.bind_map, hblock.1]
        exact cutItems_inBlock false
      · rw [if_neg hblock]
        split
        · exact absurd ⟨rfl, rfl⟩ hblock
        · simp [cutBehind, Lexeme.text, extended]

theorem cutItems_of_lexeme (h : lexeme? s = some (l, rest)) :
    cutItems .plain depth current items s = cutBehind depth current items rest l := by
  rw [cutItems_eq_bind, h]
  rfl

/-! ### From the first parenthesis to its match -/

/-- In front of the body the cutter keeps nothing but the spaces that stand for comments. -/
theorem cutItems_outside {before : List Lexeme} (hread : Reads s before rest)
    (hflat : ∀ l ∈ before, l.IsFlat) (hblank : ∀ c ∈ current, c = ' ') :
    ∃ blanks, (∀ c ∈ blanks, c = ' ') ∧
      cutItems .plain 0 current items s = cutItems .plain 0 blanks items rest := by
  induction hread generalizing current with
  | nil => exact ⟨current, hblank, rfl⟩
  | @cons s more behind l lexemes hfirst _ ih =>
      obtain ⟨hl, hothers⟩ := List.forall_mem_cons.mp hflat
      rw [cutItems_of_lexeme hfirst]
      cases l with
      | opening => exact absurd rfl hl.1
      | closing => exact absurd rfl hl.2
      | comment => exact ih hothers (List.forall_mem_cons.mpr ⟨rfl, hblank⟩)
      | quoted | comma | other => exact ih hothers hblank

/-- Inside the body the cutter keeps what stands there, as long as it does not get to a comma of the
body itself. -/
theorem Matched.cutItems {free : Bool} (h : Matched free lexemes) (hread : Reads s lexemes rest)
    (hdepth : free = true → depth ≠ 0) :
    TableSnapshot.cutItems .plain (depth + 1) current items s =
      TableSnapshot.cutItems .plain (depth + 1) ((textOf lexemes).reverse ++ current) items rest := by
  induction h generalizing s rest depth current with
  | nil =>
      cases hread
      rfl
  | @flat _ l lexemes hflat hcomma _ ih =>
      cases hread with
      | @cons _ more _ _ _ hfirst hothers =>
          have hstep : cutBehind (depth + 1) current items more l =
              TableSnapshot.cutItems .plain (depth + 1) (l.text.reverse ++ current) items more := by
            cases l with
            | opening => exact absurd rfl hflat.1
            | closing => exact absurd rfl hflat.2
            | comma => exact if_neg fun hone => hdepth (hcomma rfl) (Nat.succ.inj hone)
            | quoted | comment | other => rfl
          rw [cutItems_of_lexeme hfirst, hstep, ih hothers hdepth]
          simp [textOf]
  | @group _ inner lexemes _ _ hinner hlexemes =>
      cases hread with
      | cons hfirst hothers =>
          obtain ⟨close, hread, hclose⟩ := reads_append.mp hothers
          cases hclose with
          | cons hlast hbehind =>
              rw [cutItems_of_lexeme hfirst, cutBehind,
                hinner hread fun _ => Nat.succ_ne_zero _, cutItems_of_lexeme hlast, cutBehind,
                hlexemes hbehind hdepth]
              simp [textOf, Lexeme.text, extended]

/-- A body is cut into its parts. -/
theorem cutItems_parts {part : List Lexeme} {parts : List (List Lexeme)}
    (hpart : Matched false part) (hparts : ∀ p ∈ parts, Matched false p)
    (hread : Reads s (List.intercalate [.comma] (part :: parts) ++ [.closing]) behind) :
    cutItems .plain 1 current items s =
      some (items.reverse ++ Text.trim (current.reverse ++ textOf part) ::
        parts.map fun p => Text.trim (textOf p), behind) := by
  induction parts generalizing s part current items with
  | nil =>
      rw [List.intercalate_singleton] at hread
      obtain ⟨close, hread, hclose⟩ := reads_append.mp hread
      cases hclose with
      | cons hlast hbehind =>
          cases hbehind
          rw [hpart.cutItems hread nofun, cutItems_of_lexeme hlast]
          simp [cutBehind]
  | cons next parts ih =>
      obtain ⟨hnext, hothers⟩ := List.forall_mem_cons.mp hparts
      rw [List.intercalate_cons_cons, List.append_assoc, List.append_assoc] at hread
      obtain ⟨comma, hread, hcomma⟩ := reads_append.mp hread
      cases hcomma with
      | cons hcut hmore =>
          rw [hpart.cutItems hread nofun, cutItems_of_lexeme hcut, cutBehind,
            if_pos rfl, ih hnext hothers hmore]
          simp

/-- A definition with a body is cut into the parts of the body. -/
theorem cutItems_of_hasBody {before : List Lexeme} {parts : List (List Lexeme)}
    (h : HasBody s before (List.intercalate [.comma] parts) behind) (hne : parts ≠ [])
    (hparts : ∀ p ∈ parts, Matched false p) :
    cutItems .plain 0 [] [] s = some (parts.map fun p => Text.trim (textOf p), behind) := by
  obtain ⟨opening, hbefore, hbody⟩ := reads_append.mp h.read
  obtain ⟨blanks, hblanks, hcut⟩ : ∃ blanks, (∀ c ∈ blanks, c = ' ') ∧
      cutItems .plain 0 [] [] s = cutItems .plain 0 blanks [] opening :=
    cutItems_outside hbefore h.first (List.forall_mem_nil _)
  cases hbody with
  | cons hopen hbody =>
      obtain ⟨part, parts, rfl⟩ := List.exists_cons_of_ne_nil hne
      obtain ⟨hpart, hothers⟩ := List.forall_mem_cons.mp hparts
      have hspaces : ∀ c ∈ blanks.reverse, Text.isBlank c = true := by
        intro c hc
        rw [hblanks c (List.mem_reverse.mp hc)]
        rfl
      have htrim : Text.trim (blanks.reverse ++ textOf part) = Text.trim (textOf part) := by
        rw [Text.trim, Text.trimStart, List.dropWhile_append_of_pos hspaces]
        rfl
      rw [hcut, cutItems_of_lexeme hopen, cutBehind,
        cutItems_parts hpart hothers hbody]
      simp [extended, htrim]

end Cutter

/-! ### A definition that is cut has a body -/

theorem length_afterFirst? {mark s tail : List Char} (h : Text.afterFirst? mark s = some tail) :
    tail.length ≤ s.length := by
  induction s with
  | nil =>
      have hlead := congrArg List.length (Text.afterLead?_eq_some.mp h)
      rw [List.length_append] at hlead
      omega
  | cons c s ih =>
      unfold Text.afterFirst? at h
      split at h
      · rename_i hlead
        cases h
        have hlength := congrArg List.length (Text.afterLead?_eq_some.mp hlead)
        rw [List.length_append] at hlength
        omega
      · exact Nat.le_succ_of_le (ih h)

theorem length_lexeme? (h : lexeme? s = some (l, rest)) : rest.length < s.length := by
  cases s with
  | nil => cases h
  | cons c s =>
      rw [List.length_cons, Nat.lt_succ_iff]
      rw [lexeme?] at h
      split at h
      · obtain ⟨⟨text, behind⟩, hread, hpair⟩ := Option.map_eq_some_iff.mp h
        cases hpair
        exact (Dialect.length_readQuoted? hread).le
      split at h
      · obtain ⟨⟨text, behind⟩, hread, hpair⟩ := Option.map_eq_some_iff.mp h
        cases hpair
        obtain ⟨mark, -, -, rfl⟩ := Text.cutAt_eq hread
        simp only [List.length_append, List.length_cons]
        omega
      iterate 3
        split at h
        · cases h
          exact Nat.le_refl _
      split at h
      · cases h
        rw [List.length_tail]
        exact (Nat.sub_le _ _).trans (List.dropWhile_sublist _).length_le
      split at h
      · obtain ⟨behind, hread, hpair⟩ := Option.map_eq_some_iff.mp h
        cases hpair
        have htail := length_afterFirst? hread
        rw [List.length_tail] at htail
        omega
      · cases h
        exact Nat.le_refl _

/-- The lexemes close so many parentheses that were opened before them, and end with the last of
these. -/
inductive Closes : Nat → List Lexeme → Prop where
  | done : Closes 0 []
  | close {unclosed : Nat} {inner lexemes : List Lexeme} (nested : Matched true inner)
      (others : Closes unclosed lexemes) : Closes (unclosed + 1) (inner ++ .closing :: lexemes)

theorem closes_one {lexemes : List Lexeme} (h : Closes 1 lexemes) :
    ∃ body, Matched true body ∧ lexemes = body ++ [.closing] := by
  cases h with
  | close hbody hnone =>
      cases hnone
      exact ⟨_, hbody, rfl⟩

theorem Closes.flat {unclosed : Nat} (h : Closes (unclosed + 1) lexemes) (hflat : l.IsFlat) :
    Closes (unclosed + 1) (l :: lexemes) := by
  cases h with
  | close hinner hothers => exact .close (.flat hflat (fun _ => rfl) hinner) hothers

/-- An opened parenthesis and its match are among what is closed next. -/
theorem Closes.opening {unclosed : Nat} (h : Closes (unclosed + 2) lexemes) :
    Closes (unclosed + 1) (.opening :: lexemes) := by
  cases h with
  | close hfirst hothers =>
      cases hothers with
      | @close _ inner lexemes hsecond hothers =>
          have hgroup := Closes.close (.group hfirst hsecond) hothers
          rwa [List.cons_append, List.append_assoc, List.cons_append] at hgroup

section Converse

variable {depth : Nat} {current : List Char} {items : List (List Char)}

/-- Behind anything but a parenthesis the cutter goes on where it was. -/
theorem exists_cutItems_of_flat (h : (cutBehind depth current items rest l).isSome)
    (hflat : l.IsFlat) : ∃ current items, (cutItems .plain depth current items rest).isSome := by
  cases l with
  | opening => exact absurd rfl hflat.1
  | closing => exact absurd rfl hflat.2
  | comma =>
      rw [cutBehind] at h
      split at h
      · rename_i hdepth
        rw [hdepth]
        exact ⟨_, _, h⟩
      · exact ⟨_, _, h⟩
  | quoted | comment | other => exact ⟨_, _, h⟩

/-- If the cutter gets to the end of the body, all that is open is closed. -/
theorem exists_closes (h : (cutItems .plain (depth + 1) current items s).isSome) :
    ∃ lexemes behind, Reads s lexemes behind ∧ Closes (depth + 1) lexemes := by
  induction hlength : s.length using Nat.strong_induction_on generalizing s depth current items with
  | _ length ih =>
      cases hlexeme : lexeme? s with
      | none =>
          rw [cutItems_eq_bind, hlexeme] at h
          cases h
      | some pair =>
          obtain ⟨l, rest⟩ := pair
          have hshorter := length_lexeme? hlexeme
          rw [hlength] at hshorter
          rw [cutItems_of_lexeme hlexeme] at h
          by_cases hopening : l = .opening
          · subst hopening
            obtain ⟨lexemes, behind, hread, hcloses⟩ := ih _ hshorter h rfl
            exact ⟨_, behind, .cons hlexeme hread, hcloses.opening⟩
          by_cases hclosing : l = .closing
          · subst hclosing
            cases depth with
            | zero => exact ⟨_, rest, .cons hlexeme .nil, .close .nil .done⟩
            | succ depth =>
                obtain ⟨lexemes, behind, hread, hcloses⟩ := ih _ hshorter h rfl
                exact ⟨_, behind, .cons hlexeme hread, .close .nil hcloses⟩
          · obtain ⟨_, _, hmore⟩ := exists_cutItems_of_flat h ⟨hopening, hclosing⟩
            obtain ⟨lexemes, behind, hread, hcloses⟩ := ih _ hshorter hmore rfl
            exact ⟨_, behind, .cons hlexeme hread, hcloses.flat ⟨hopening, hclosing⟩⟩

/-- A definition that is cut has a body. -/
theorem exists_hasBody (h : (cutItems .plain 0 current items s).isSome) :
    ∃ before body behind, HasBody s before body behind := by
  induction hlength : s.length using Nat.strong_induction_on generalizing s current items with
  | _ length ih =>
      cases hlexeme : lexeme? s with
      | none =>
          rw [cutItems_eq_bind, hlexeme] at h
          cases h
      | some pair =>
          obtain ⟨l, rest⟩ := pair
          have hshorter := length_lexeme? hlexeme
          rw [hlength] at hshorter
          rw [cutItems_of_lexeme hlexeme] at h
          by_cases hopening : l = .opening
          · subst hopening
            obtain ⟨lexemes, behind, hread, hcloses⟩ := exists_closes h
            obtain ⟨body, hbody, rfl⟩ := closes_one hcloses
            exact ⟨[], body, behind, .cons hlexeme hread, List.forall_mem_nil _, hbody⟩
          by_cases hclosing : l = .closing
          · subst hclosing
            cases h
          · obtain ⟨_, _, hmore⟩ := exists_cutItems_of_flat h ⟨hopening, hclosing⟩
            obtain ⟨before, body, behind, hbody⟩ := ih _ hshorter hmore rfl
            exact ⟨l :: before, body, behind, .cons hlexeme hbody.read,
              List.forall_mem_cons.mpr ⟨⟨hopening, hclosing⟩, hbody.first⟩, hbody.nested⟩

end Converse

/-! ### The cutter agrees with the rules -/

/-- **A definition is cut as its lexical rules say.**  There is a result exactly if the first
parenthesis outside quotes and comments opens and has its match.  The entries then are the parts of
the body between its free commas, trimmed, each comment replaced by a space; the options are what is
behind the body, trimmed, without a final run of semicolons and the blanks in front of it. -/
theorem definition_cut_by_lexemes (sql : String) :
    ((splitDefinition? sql).isSome ↔
      ∃ before body behind, HasBody sql.toList before body behind) ∧
    ∀ items options, splitDefinition? sql = some (items, options) ↔
      ∃ before parts behind,
        HasBody sql.toList before (List.intercalate [.comma] parts) behind ∧
        parts ≠ [] ∧ (∀ p ∈ parts, Matched false p) ∧
        items = parts.map (fun p => Text.trim (textOf p)) ∧
        options = Text.trimEnd (Text.dropEndWhile (· == ';') (Text.trim behind)) := by
  have hcut : ∀ {before behind} {parts : List (List Lexeme)},
      HasBody sql.toList before (List.intercalate [.comma] parts) behind → parts ≠ [] →
      (∀ p ∈ parts, Matched false p) →
      splitDefinition? sql = some (parts.map (fun p => Text.trim (textOf p)), optionsOf behind) := by
    intro before behind parts hbody hne hparts
    rw [splitDefinition?, cutItems_of_hasBody hbody hne hparts]
    rfl
  have hsome : ∀ {before body behind}, HasBody sql.toList before body behind →
      ∃ parts, parts ≠ [] ∧ (∀ p ∈ parts, Matched false p) ∧
        body = List.intercalate [.comma] parts := fun hbody => hbody.nested.exists_parts
  have hbody : (splitDefinition? sql).isSome →
      ∃ before body behind, HasBody sql.toList before body behind := by
    intro h
    rw [splitDefinition?, Option.isSome_map] at h
    exact exists_hasBody h
  refine ⟨⟨hbody, ?_⟩, fun items options => ⟨fun h => ?_, ?_⟩⟩
  · rintro ⟨before, body, behind, h⟩
    obtain ⟨parts, hne, hparts, rfl⟩ := hsome h
    rw [hcut h hne hparts]
    rfl
  · obtain ⟨before, body, behind, hread⟩ := hbody (Option.isSome_of_eq_some h)
    obtain ⟨parts, hne, hparts, rfl⟩ := hsome hread
    have hsame := (hcut hread hne hparts).symm.trans h
    cases hsame
    exact ⟨before, parts, behind, hread, hne, hparts, rfl, rfl⟩
  · rintro ⟨before, parts, behind, hread, hne, hparts, rfl, rfl⟩
    exact hcut hread hne hparts

/-- A parenthesis in quotes, a comma in a comment, and options behind the body. -/
example : splitDefinition? "CREATE TABLE t (a TEXT DEFAULT ')', /* b, */ [c(] INT -- d\n) STRICT ;;" =
    some (["a TEXT DEFAULT ')'".toList, "[c(] INT".toList], "STRICT".toList) := by
  decide +kernel

end Relational.TableSnapshot
