import Relational.Proofs.Schema.Copy
/-
What a rebuild carries from the old definition of a changed column into the new one.

A stored column may refer to another table, and its change says nothing of that, so the
reference is written behind the new definition.  What is taken for it is the text from the
first keyword on that has a blank in front, up to the end of the definition.  The grammar
below tells what a reference is; it is read from words, quoted names and the symbols between
them, and it stands by itself, outside quotes and parentheses.  That nothing but a reference
is carried holds exactly if the first keyword opens one and nothing stands behind it: a
decomposition of the definition in which another place would do has a keyword before the
first one.
-/
namespace Relational

namespace Clause

/-! ### Words, quotes and symbols -/

/-- What a definition is made of. -/
inductive Token where
  /-- A bare word, in upper case. -/
  | word (upper : String)
  | quoted (text : String)
  /-- Quotes that are not closed. -/
  | unclosed
  | symbol (c : Char)
  deriving DecidableEq

/-- What the next character belongs to. -/
inductive Region where
  | plain
  | quoted (close : Char)
  /-- The second of two closing quotes that stand for one. -/
  | doubled (close : Char)
  deriving DecidableEq

/-- The quote that closes what `c` opens. -/
def closing? (c : Char) : Option Char :=
  if c = '\'' ∨ c = '"' ∨ c = Dialect.backtick then some c
  else if c = '[' then some ']'
  else none

/-- The word that ends here, if there is one; it is given backwards. -/
def ended (current : List Char) : List Token :=
  if current.isEmpty then [] else [.word (String.ofList (Text.asciiUpper current.reverse))]

/-- The tokens of a text; `current` is the token so far, backwards. -/
def tokensFrom (region : Region) (current : List Char) : List Char → List Token
  | [] => if region = .plain then ended current else [.unclosed]
  | c :: rest =>
    match region with
    | .doubled close => tokensFrom (.quoted close) (c :: current) rest
    | .quoted close =>
      if c ≠ close then tokensFrom region (c :: current) rest
      else if close ≠ ']' ∧ rest.head? = some close then tokensFrom (.doubled close) current rest
      else .quoted (String.ofList current.reverse) :: tokensFrom .plain [] rest
    | .plain =>
      match closing? c with
      | some close => ended current ++ tokensFrom (.quoted close) [] rest
      | none =>
        if Text.isBlank c then ended current ++ tokensFrom .plain [] rest
        else if c = '(' ∨ c = ')' ∨ c = ',' then
          ended current ++ .symbol c :: tokensFrom .plain [] rest
        else tokensFrom .plain (c :: current) rest

/-- The tokens of a text. -/
def tokens (s : List Char) : List Token :=
  tokensFrom .plain [] s

/-- Whether what stands behind the text stands outside quotes and parentheses. -/
def isOutside (before : List Char) : Bool :=
  let read := tokens before
  !read.contains .unclosed && read.count (.symbol '(') == read.count (.symbol ')')

/-! ### References -/

/-- Words that say something of a column, and so are no bare names. -/
def reserved : List String :=
  ["CONSTRAINT", "PRIMARY", "NOT", "NULL", "UNIQUE", "CHECK", "DEFAULT", "COLLATE", "REFERENCES",
    "ON"]

/-- Whether the token can be the name of a table or a column. -/
def Token.isName : Token → Bool
  | word upper => !reserved.contains upper &&
      !(upper.toList.head?.any Char.isDigit) &&
      upper.toList.all fun c => Name.isPart c || 128 ≤ c.toNat
  | quoted _ => true
  | unclosed | symbol _ => false

/-- The tokens behind a list of names that ends with a parenthesis. -/
def afterNames? : List Token → Option (List Token)
  | name :: .symbol c :: rest =>
    if !name.isName then none
    else if c = ')' then some rest
    else if c = ',' then afterNames? rest
    else none
  | _ => none

/-- The tokens behind the columns that are referred to, if they are listed. -/
def afterColumns? : List Token → Option (List Token)
  | .symbol '(' :: rest => afterNames? rest
  | rest => some rest

/-- The tokens of these words. -/
def phrase (words : List String) : List (Token → Bool) :=
  words.map fun w t => t == .word w

/-- What is done with a row when the row that it refers to is deleted or updated. -/
def actions : List (List String) :=
  ["DELETE", "UPDATE"].flatMap fun event =>
    [["CASCADE"], ["RESTRICT"], ["SET", "NULL"], ["SET", "DEFAULT"], ["NO", "ACTION"]].map
      (["ON", event] ++ ·)

/-- When it is checked that the row is there. -/
def deferrals : List (List String) :=
  [["DEFERRABLE"], ["NOT", "DEFERRABLE"]].flatMap fun words =>
    [[], ["INITIALLY", "DEFERRED"], ["INITIALLY", "IMMEDIATE"]].map (words ++ ·)

/-- What can be said behind the table and its columns. -/
def parts : List (List (Token → Bool)) :=
  (actions ++ deferrals).map phrase ++ [phrase ["MATCH"] ++ [Token.isName]]

/-- The tokens behind one part. -/
def follow? : List (Token → Bool) → List Token → Option (List Token)
  | [], rest => some rest
  | _ :: _, [] => none
  | p :: more, t :: rest => if p t then follow? more rest else none

/-- Whether these are at most `n` parts. -/
def areParts : Nat → List Token → Bool
  | _, [] => true
  | 0, _ :: _ => false
  | n + 1, rest => parts.any fun part => (follow? part rest).any (areParts n)

/-- Whether the text is a reference: the keyword, a table, maybe its columns, and the parts behind
them. -/
def isReference (clause : List Char) : Bool :=
  "REFERENCES".toList.isPrefixOf (Text.asciiUpper clause) &&
    match tokens clause with
    | first :: table :: rest =>
      first == .word "REFERENCES" && table.isName &&
        (afterColumns? rest).any fun behind => areParts behind.length behind
    | _ => false

/-- The keyword opens `rest` and has a blank in front; `blank` says whether one stands in front of
`before`. -/
def KeywordBehind (blank : Bool) (before rest : List Char) : Prop :=
  (before.getLast?.map Text.isBlank).getD blank = true ∧
    "REFERENCES".toList <+: Text.asciiUpper rest

/-- The definition is `before` and `rest`, and the first keyword opens `rest`. -/
structure FirstKeyword (definition before rest : List Char) : Prop where
  split : definition = before ++ rest
  keyword : KeywordBehind false before rest
  first : ∀ {before' rest'}, definition = before' ++ rest' → KeywordBehind false before' rest' →
    before.length ≤ before'.length

/-- What is carried is nothing or a reference of the definition, which stands by itself behind a
blank. -/
def CarriesReference (definition carried : List Char) : Prop :=
  carried = [] ∨ ∃ before clause behind, definition = before ++ clause ++ behind ∧
    KeywordBehind false before (clause ++ behind) ∧ isOutside before = true ∧
    isReference clause = true ∧ carried = ' ' :: clause

/-- What a changed column keeps of its definition. -/
inductive Carried (definition : String) : String → Prop where
  | nothing (h : ∀ before rest, definition.toList = before ++ rest →
      ¬ KeywordBehind false before rest) : Carried definition ""
  | tail {before rest : List Char} (h : FirstKeyword definition.toList before rest) :
      Carried definition (" " ++ String.ofList rest)

theorem FirstKeyword.unique {definition before rest before' rest' : List Char}
    (h : FirstKeyword definition before rest) (h' : FirstKeyword definition before' rest') :
    before = before' ∧ rest = rest' :=
  List.append_inj (h.split.symm.trans h'.split)
    (Nat.le_antisymm (h.first h'.split h'.keyword) (h'.first h.split h.keyword))

/-- A reference is carried by itself exactly if the first keyword opens it and it ends there. -/
theorem carriesReference_iff {definition before rest : List Char}
    (h : FirstKeyword definition before rest) :
    CarriesReference definition (' ' :: rest) ↔
      isOutside before = true ∧ isReference rest = true := by
  constructor
  · rintro (hnothing | ⟨before', clause, behind, hsplit, hkeyword, houtside, hreference, hcarried⟩)
    · cases hnothing
    · obtain rfl := (List.cons.inj hcarried).2
      rw [List.append_assoc] at hsplit
      have hlength := h.first hsplit hkeyword
      have hwhole := congrArg List.length (h.split.symm.trans hsplit)
      simp only [List.length_append] at hwhole
      obtain ⟨rfl, -⟩ := List.append_inj (h.split.symm.trans hsplit) (by omega)
      exact ⟨houtside, hreference⟩
  · rintro ⟨houtside, hreference⟩
    refine .inr ⟨before, rest, [], ?_, ?_, houtside, hreference, rfl⟩
    · rw [List.append_nil]
      exact h.split
    · rw [List.append_nil]
      exact h.keyword

theorem Carried.carriesReference_iff {definition carried : String}
    (h : Carried definition carried) : CarriesReference definition.toList carried.toList ↔
      ∀ before rest, FirstKeyword definition.toList before rest →
        isOutside before = true ∧ isReference rest = true := by
  cases h with
  | nothing hnone =>
      exact ⟨fun _ before rest hfirst => absurd hfirst.keyword (hnone before rest hfirst.split),
        fun _ => .inl rfl⟩
  | @tail before rest hfirst =>
      have hcarried : (" " ++ String.ofList rest).toList = ' ' :: rest := by
        simp only [String.toList_append, String.toList_ofList]
        rfl
      rw [hcarried, Clause.carriesReference_iff hfirst]
      constructor
      · intro halone before' rest' hfirst'
        obtain ⟨rfl, rfl⟩ := hfirst.unique hfirst'
        exact halone
      · exact fun hall => hall before rest hfirst

end Clause

namespace TableItem

open Clause

/-! ### The first keyword -/

/-- What is looked for at a place of the definition. -/
theorem opens_iff {blank : Bool} {s : List Char} :
    (blank && (Text.afterLead? "REFERENCES".toList (Text.asciiUpper s)).isSome) = true ↔
      KeywordBehind blank [] s := by
  rw [Bool.and_eq_true, Text.isSome_afterLead?]
  rfl

theorem keywordBehind_cons {blank : Bool} {c : Char} {before rest : List Char} :
    KeywordBehind blank (c :: before) rest ↔ KeywordBehind (Text.isBlank c) before rest := by
  rw [KeywordBehind, KeywordBehind, List.getLast?_cons]
  cases before.getLast? <;> rfl

/-- Where the keyword is found, it stands for the first time. -/
theorem of_referencesFrom?_some {blank : Bool} {s rest : List Char}
    (h : referencesFrom? blank s = some rest) : ∃ before, s = before ++ rest ∧
      KeywordBehind blank before rest ∧
      ∀ {before' rest'}, s = before' ++ rest' → KeywordBehind blank before' rest' →
        before.length ≤ before'.length := by
  induction s generalizing blank with
  | nil => cases h
  | cons c s ih =>
      rw [referencesFrom?] at h
      split at h
      next hhere =>
        cases h
        exact ⟨[], rfl, opens_iff.mp hhere, fun _ _ => Nat.zero_le _⟩
      next hhere =>
        obtain ⟨before, rfl, hkeyword, hfirst⟩ := ih h
        refine ⟨c :: before, rfl, keywordBehind_cons.mpr hkeyword, ?_⟩
        intro before' rest' hsplit h'
        cases before' with
        | nil => exact absurd (opens_iff.mpr (hsplit ▸ h')) hhere
        | cons d before' =>
            obtain ⟨rfl, htail⟩ := List.cons.inj hsplit
            exact Nat.succ_le_succ (hfirst htail (keywordBehind_cons.mp h'))

theorem of_referencesFrom?_none {blank : Bool} {s before rest : List Char}
    (h : referencesFrom? blank s = none) (hsplit : s = before ++ rest) :
    ¬ KeywordBehind blank before rest := by
  induction s generalizing blank before with
  | nil =>
      obtain ⟨rfl, rfl⟩ := List.append_eq_nil_iff.mp hsplit.symm
      rintro ⟨-, hkeyword⟩
      exact absurd (List.prefix_nil.mp hkeyword) (by decide)
  | cons c s ih =>
      rw [referencesFrom?] at h
      split at h
      next => cases h
      next hhere =>
        intro hkeyword
        cases before with
        | nil => exact hhere (opens_iff.mpr (hsplit ▸ hkeyword))
        | cons d before =>
            obtain ⟨rfl, htail⟩ := List.cons.inj hsplit
            exact ih h htail (keywordBehind_cons.mp hkeyword)

/-! ### What is carried -/

theorem firstKeyword_of_found {definition before rest : List Char}
    (hsplit : definition = before ++ rest) (h : referencesFrom? false definition = some rest) :
    FirstKeyword definition before rest := by
  obtain ⟨found, hfound, hkeyword, hfirst⟩ := of_referencesFrom?_some h
  obtain rfl := List.append_cancel_right (hsplit.symm.trans hfound)
  exact ⟨hsplit, hkeyword, hfirst⟩

theorem carried_referenceClause (name definition : String) :
    Carried definition (column name definition).referenceClause := by
  rw [referenceClause, references?]
  cases hfound : referencesFrom? false definition.toList with
  | none => exact .nothing fun _ _ => of_referencesFrom?_none hfound
  | some rest =>
      obtain ⟨before, hsplit, -⟩ := of_referencesFrom?_some hfound
      exact .tail (firstKeyword_of_found hsplit hfound)

end TableItem

/-! ### Changed columns -/

namespace Dialect

open Clause

/-- What becomes of a column that `c` changes: the definition of `c`, with all of the old definition
behind it from the first keyword on.  That is nothing but a reference of the column exactly if this
keyword stands by itself and opens a reference that nothing stands behind. -/
def Rewritten (c : Column) (definition entry : String) : Prop :=
  ∃ written carried, sqlite.columnDefinition c = .ok written ∧ entry = written ++ carried ∧
    Carried definition carried ∧
    (CarriesReference definition.toList carried.toList ↔
      ∀ before rest, FirstKeyword definition.toList before rest →
        isOutside before = true ∧ isReference rest = true)

theorem Copies.rewritten {changes : List Column} {item : TableItem} {copied : CopiedItem}
    (h : Copies changes item copied) {c : Column} (hc : item.change? changes = some c) :
    ∃ name definition, item = .column name definition ∧
      Rewritten c definition copied.definition := by
  cases h with
  | kept hfind =>
      rw [hfind] at hc
      cases hc
  | changed hname hfind hwritten hsource =>
      obtain rfl := Option.some.inj (hfind.symm.trans hc)
      cases item with
      | constraint => cases hname
      | column name definition =>
          have hcarried := TableItem.carried_referenceClause name definition
          exact ⟨name, definition, rfl, _, _, hwritten, rfl, hcarried,
            hcarried.carriesReference_iff⟩

/-- **A change keeps the old definition from its first keyword on.**  In an accepted rebuild the
entry of a changed column is the definition of its change and all of the stored definition from the
first REFERENCES behind a blank on, wherever it stands.  Nothing but the column's own reference is
carried exactly if that keyword stands outside quotes and parentheses and opens a reference at the
end of the definition. -/
theorem rebuild_carries_tail {s : TableSnapshot} {changes : List Column} {script : List String}
    (h : rebuildTable .sqlite s changes = .ok script) :
    ∃ entries transfers, script = rebuildScript s entries transfers ∧
      List.Forall₂ (fun item entry => ∀ c, item.change? changes = some c →
        ∃ name definition, item = .column name definition ∧ Rewritten c definition entry)
        s.items entries := by
  obtain ⟨-, copied, hcopied, rfl⟩ := rebuildTable_eq_ok.mp h
  refine ⟨_, _, rebuildStatements_eq_script s copied, List.forall₂_map_right_iff.mpr ?_⟩
  refine (copies_of_mapM hcopied).imp fun item copied hcopies => ?_
  intro c hc
  exact hcopies.rewritten hc

/-- Books with a key and an author, who goes with all books. -/
def booksSnapshot : TableSnapshot :=
  { table := "books"
    items := [.column "id" "id INTEGER PRIMARY KEY",
      .column "author" "author INTEGER REFERENCES authors (id) ON DELETE CASCADE"]
    options := ""
    dependents := [] }

/-- The author, who may be missing from now on. -/
def optionalAuthor : Column :=
  { name := "author", type := .bigInteger, nullable := true, change := true }

/-- The reference at the end of the definition is carried, and nothing else. -/
theorem author_keeps_reference :
    ∃ script entries transfers, rebuildTable .sqlite booksSnapshot [optionalAuthor] = .ok script ∧
      script = rebuildScript booksSnapshot entries transfers ∧
      ∃ written carried, sqlite.columnDefinition optionalAuthor = .ok written ∧
        entries.getLast? = some (written ++ carried) ∧
        CarriesReference "author INTEGER REFERENCES authors (id) ON DELETE CASCADE".toList
          carried.toList := by
  have haccepted : ∃ script, rebuildTable .sqlite booksSnapshot [optionalAuthor] = .ok script :=
    ⟨_, rfl⟩
  obtain ⟨script, hscript⟩ := haccepted
  obtain ⟨entries, transfers, hentries, hitems⟩ := rebuild_carries_tail hscript
  have hfirst : FirstKeyword "author INTEGER REFERENCES authors (id) ON DELETE CASCADE".toList
      "author INTEGER ".toList "REFERENCES authors (id) ON DELETE CASCADE".toList :=
    TableItem.firstKeyword_of_found (by decide) (by decide)
  cases hitems with
  | cons _ hrest =>
      cases hrest with
      | cons hauthor hnone =>
          cases hnone
          obtain ⟨_, _, hitem, written, carried, hwritten, hentry, -, halone⟩ :=
            hauthor optionalAuthor (by decide)
          cases hitem
          refine ⟨script, _, transfers, hscript, hentries, written, carried, hwritten,
            congrArg some hentry, halone.mpr fun before rest h => ?_⟩
          obtain ⟨rfl, rfl⟩ := hfirst.unique h
          decide +kernel

/-- Books whose author is required behind the reference, and whose notes have a default with the
keyword in it. -/
def notedSnapshot : TableSnapshot :=
  { table := "books"
    items := [.column "id" "id INTEGER PRIMARY KEY",
      .column "author" "author INTEGER REFERENCES authors (id) NOT NULL",
      .column "note" "note TEXT DEFAULT 'see REFERENCES below'"]
    options := ""
    dependents := [] }

/-- The note, which may be missing from now on. -/
def optionalNote : Column :=
  { name := "note", type := .text, nullable := true, change := true }

/-- The author is required still, and a part of the note's default is left behind its type. -/
theorem more_than_reference_carried :
    TableSnapshot.parse "books" ("CREATE TABLE books (id INTEGER PRIMARY KEY, " ++
      "author INTEGER REFERENCES authors (id) NOT NULL, " ++
      "note TEXT DEFAULT 'see REFERENCES below')") [] = .ok notedSnapshot ∧
    sqlite.columnDefinition optionalAuthor = .ok "\"author\" INTEGER NULL" ∧
    sqlite.columnDefinition optionalNote = .ok "\"note\" TEXT NULL" ∧
    (∃ transfers, rebuildTable .sqlite notedSnapshot [optionalAuthor, optionalNote] =
      .ok (rebuildScript notedSnapshot
        ["id INTEGER PRIMARY KEY",
          "\"author\" INTEGER NULL REFERENCES authors (id) NOT NULL",
          "\"note\" TEXT NULL REFERENCES below'"] transfers)) ∧
    ¬ CarriesReference "author INTEGER REFERENCES authors (id) NOT NULL".toList
      " REFERENCES authors (id) NOT NULL".toList ∧
    ¬ CarriesReference "note TEXT DEFAULT 'see REFERENCES below'".toList
      " REFERENCES below'".toList := by
  refine ⟨by decide +kernel, by decide +kernel, by decide +kernel,
    ⟨[("\"id\"", "\"id\""), ("\"author\"", "CAST(\"author\" AS INTEGER)"),
      ("\"note\"", "CAST(\"note\" AS TEXT)")], by decide +kernel⟩, ?_, ?_⟩
  · have hfirst : FirstKeyword "author INTEGER REFERENCES authors (id) NOT NULL".toList
        "author INTEGER ".toList "REFERENCES authors (id) NOT NULL".toList :=
      TableItem.firstKeyword_of_found (by decide) (by decide)
    refine fun halone => absurd ((carriesReference_iff hfirst).mp halone).2 ?_
    decide +kernel
  · have hfirst : FirstKeyword "note TEXT DEFAULT 'see REFERENCES below'".toList
        "note TEXT DEFAULT 'see ".toList "REFERENCES below'".toList :=
      TableItem.firstKeyword_of_found (by decide) (by decide)
    refine fun halone => absurd ((carriesReference_iff hfirst).mp halone).1 ?_
    decide +kernel

end Dialect

end Relational
