import Relational.Proofs.Query.Starred
import Relational.Proofs.Words
/-
Reading a statement for its aliases.

The words outside quotes tell which clause a word stands in: the last keyword that opened one says
so, and within the select list a parenthesis opens the argument of a function.  Each time the
keyword of an alias is read, its place is known.  Pieces put one behind the other are read one after
the other, each from the place that the one in front of it has led to.
-/
namespace Relational

/-! ### Where an alias stands -/

/-- A place in a statement where an alias can stand. -/
inductive Spot where
  /-- In the select list, behind an entry. -/
  | list
  /-- Inside the function that the select list calls. -/
  | argument
  /-- Behind the table or a joined one. -/
  | table
  /-- In any other clause. -/
  | elsewhere
  deriving DecidableEq, Repr

namespace Spot

instance {p : Spot → Prop} [DecidablePred p] : Decidable (∀ spot, p spot) :=
  decidable_of_iff (p list ∧ p argument ∧ p table ∧ p elsewhere)
    ⟨fun h spot => by cases spot <;> simp only [h], fun h => ⟨h _, h _, h _, h _⟩⟩

/-- The keywords that open clauses, with where the reading stands behind them. -/
def keywords : List (List Char × Spot) :=
  [("SELECT".toList, list), ("FROM".toList, table), ("JOIN".toList, table), ("ON".toList, elsewhere),
    ("WHERE".toList, elsewhere), ("GROUP".toList, elsewhere), ("HAVING".toList, elsewhere),
    ("ORDER".toList, elsewhere), ("LIMIT".toList, elsewhere), ("OFFSET".toList, elsewhere)]

/-- Where the reading stands behind one more word or mark. -/
def next (spot : Spot) (token : List Char) : Spot :=
  match keywords.lookup token, spot with
  | some opened, _ => opened
  | none, list => if token = ['('] then argument else list
  | none, argument => if token = [')'] then list else argument
  | none, other => other

/-- Where the reading stands behind these. -/
def after (spot : Spot) (tokens : List (List Char)) : Spot :=
  tokens.foldl next spot

/-- Where the keyword of an alias stands, each time it does. -/
def aliases (spot : Spot) : List (List Char) → List Spot
  | [] => []
  | token :: rest => (if token = "AS".toList then [spot] else []) ++ aliases (spot.next token) rest

/-- An entry of a select list and a table can have an alias. -/
def Takes (spot : Spot) : Prop :=
  spot = list ∨ spot = table

instance : DecidablePred Takes := fun spot =>
  inferInstanceAs (Decidable (spot = list ∨ spot = table))

variable {spot : Spot} {tokens more : List (List Char)}

theorem after_append : spot.after (tokens ++ more) = (spot.after tokens).after more :=
  List.foldl_append

theorem aliases_append :
    spot.aliases (tokens ++ more) = spot.aliases tokens ++ (spot.after tokens).aliases more := by
  induction tokens generalizing spot with
  | nil => rfl
  | cons token rest ih => rw [List.cons_append, aliases, ih, aliases, List.append_assoc]; rfl

/-- No alias is read, and no other clause. -/
def Stays (spot : Spot) (tokens : List (List Char)) : Prop :=
  spot.aliases tokens = [] ∧ spot.after tokens = spot

instance : Decidable (spot.Stays tokens) :=
  inferInstanceAs (Decidable (_ ∧ _))

theorem Stays.append (h : spot.Stays tokens) (h' : spot.Stays more) : spot.Stays (tokens ++ more) :=
  ⟨by rw [aliases_append, h.1, h.2, h'.1, List.append_nil], by rw [after_append, h.2, h'.2]⟩

/-- Without its keyword there is no alias. -/
theorem aliases_eq_nil (h : tokens.count "AS".toList = 0) : spot.aliases tokens = [] := by
  induction tokens generalizing spot with
  | nil => rfl
  | cons token rest ih =>
      obtain ⟨htoken, hrest⟩ := not_or.mp (List.mem_cons.not.mp (List.count_eq_zero.mp h))
      rw [aliases, if_neg (Ne.symm htoken), ih (List.count_eq_zero.mpr hrest), List.nil_append]

/-- A mark other than a parenthesis changes nothing. -/
theorem next_mark {c : Char} (hopening : c ≠ '(') (hclosing : c ≠ ')') : spot.next [c] = spot := by
  have hlong : ∀ k ∈ keywords, k.1.length ≠ 1 := by decide
  have hkeyword : keywords.lookup [c] = none := by
    rw [List.lookup_eq_none_iff]
    intro k hk
    rw [bne_iff_ne]
    exact fun heq => hlong k hk (heq ▸ rfl)
  unfold next
  rw [hkeyword]
  cases spot with
  | list => exact if_neg fun heq => hopening (List.singleton_inj.mp heq)
  | argument => exact if_neg fun heq => hclosing (List.singleton_inj.mp heq)
  | table => rfl
  | elsewhere => rfl

theorem stays_marks {s : List Char} (h : ∀ c ∈ s, c.isAlpha = false ∧ c ≠ '(' ∧ c ≠ ')') :
    spot.Stays (Text.tokens s) := by
  rw [Text.tokens_unlettered fun c hc => (h c hc).1]
  induction s with
  | nil => exact ⟨rfl, rfl⟩
  | cons c s ih =>
      obtain ⟨⟨-, hopening, hclosing⟩, hs⟩ := List.forall_mem_cons.mp h
      have hnext : spot.next [c] = spot := next_mark hopening hclosing
      have hlong : "AS".toList.length ≠ 1 := by decide
      have hword : [c] ≠ "AS".toList := fun heq => hlong (heq ▸ rfl)
      obtain ⟨haliases, hafter⟩ := ih hs
      refine ⟨?_, ?_⟩
      · rw [List.map_cons, aliases, if_neg hword, hnext, haliases, List.append_nil]
      · rw [List.map_cons, after, List.foldl_cons, hnext]
        exact hafter

end Spot

/-! ### Names with an alias -/

namespace Name

/-- The name carries an alias. -/
def HasAlias (name : String) : Prop :=
  (splitAlias? name).isSome = true

instance : DecidablePred HasAlias := fun name =>
  inferInstanceAs (Decidable ((splitAlias? name).isSome = true))

/-- The alias that is read of a name, if it stands there. -/
def aliasAt (spot : Spot) (name : String) : List Spot :=
  if HasAlias name then [spot] else []

theorem splitAlias?_of_isColumn {name : String} (h : isColumn name = true) :
    splitAlias? name = none := by
  rw [isColumn, Bool.and_eq_true] at h
  exact splitAlias?_eq_none fun c hc => isBlank_of_isMark (isMark_of_isIdentifier h.2 hc)

theorem isAliased_of_isColumn {name : String} (h : isColumn name = true) : isAliased name = true := by
  rw [isAliased, splitAlias?_of_isColumn h]
  rw [isColumn, Bool.and_eq_true] at h
  exact h.2

theorem aliasAt_of_isColumn {spot : Spot} {name : String} (h : isColumn name = true) :
    aliasAt spot name = [] := by
  refine if_neg fun halias => ?_
  rw [HasAlias, splitAlias?_of_isColumn h] at halias
  cases halias

/-- Of an accepted name dots and stars are left, and the keyword of its alias. -/
theorem bare_eq_of_isAliased {name : String} (h : isAliased name = true) :
    ∃ parts, bare name = bareDotted parts ++ (if HasAlias name then " AS ".toList else []) := by
  by_cases halias : HasAlias name
  · rw [if_pos halias]
    obtain ⟨⟨inner, label⟩, hsplit⟩ := Option.isSome_iff_exists.mp halias
    obtain ⟨keyword, hbare, ⟨-, hsame⟩ | rfl⟩ := bare_of_isAliased h
    · have hinner : expression name = inner := by rw [expression, hsplit]
      have hshorter := length_splitAlias? hsplit
      rw [← hinner, hsame] at hshorter
      exact absurd hshorter (Nat.lt_irrefl _)
    · exact ⟨_, hbare⟩
  · rw [if_neg halias, bare_of_no_alias (Option.not_isSome_iff_eq_none.mp halias)]
    exact ⟨_, (List.append_nil _).symm⟩

end Name

/-! ### Pieces that are read -/

/-- Read in any place of a statement from this spot on, the pieces have these aliases. -/
def Sql.Shows (d : Dialect) (pieces : List Piece) (spot : Spot) (aliases : List Spot) : Prop :=
  ∀ count, ∃ tokens, d.SaysApart (Sql.text d count pieces).toList tokens ∧
    spot.aliases tokens = aliases

/-- Read in any place of a statement from this spot on, the pieces have these aliases and lead to
that spot. -/
def Sql.Reads (d : Dialect) (pieces : List Piece) (spot : Spot) (aliases : List Spot)
    (last : Spot) : Prop :=
  ∀ count, ∃ tokens, d.SaysApart (Sql.text d count pieces).toList tokens ∧
    spot.aliases tokens = aliases ∧ spot.after tokens = last

namespace Sql

variable {d : Dialect} {pieces others : List Piece} {spot middle last : Spot}
  {aliases more : List Spot}

namespace Reads

theorem shows (h : Reads d pieces spot aliases last) : Shows d pieces spot aliases := by
  intro count
  obtain ⟨tokens, hapart, haliases, -⟩ := h count
  exact ⟨tokens, hapart, haliases⟩

theorem nil : Reads d [] spot [] spot :=
  fun _ => ⟨[], .nil, rfl, rfl⟩

theorem append (h : Reads d pieces spot aliases middle) (h' : Reads d others middle more last) :
    Reads d (pieces ++ others) spot (aliases ++ more) last := by
  intro count
  obtain ⟨tokens, hapart, rfl, rfl⟩ := h count
  obtain ⟨tokens', hapart', rfl, rfl⟩ := h' (count + (Sql.bindings pieces).length)
  refine ⟨tokens ++ tokens', ?_, Spot.aliases_append, Spot.after_append⟩
  rw [Sql.text_append, String.toList_append]
  exact hapart.append hapart'

theorem words (s : String) (h : Dialect.PlainApart s.toList)
    (haliases : spot.aliases (Text.tokens s.toList) = aliases)
    (hafter : spot.after (Text.tokens s.toList) = last) : Reads d [.words s] spot aliases last := by
  intro count
  refine ⟨Text.tokens s.toList, ?_, haliases, hafter⟩
  rw [Sql.text, Sql.text, String.append_empty]
  exact .plain h

/-- Words that lead to a place of their own, wherever they are read. -/
theorem opens (s : String)
    (h : Dialect.PlainApart s.toList ∧ ∀ spot : Spot,
      spot.aliases (Text.tokens s.toList) = [] ∧ spot.after (Text.tokens s.toList) = last)
    (spot : Spot) : Reads d [.words s] spot [] last :=
  words s h.1 (h.2 spot).1 (h.2 spot).2

/-- Words that open no clause and have no alias. -/
theorem stays (s : String)
    (h : Dialect.PlainApart s.toList ∧ spot.Stays (Text.tokens s.toList)) :
    Reads d [.words s] spot [] spot :=
  words s h.1 h.2.1 h.2.2

/-- A name has its own alias only. -/
theorem name {n : String} (h : Name.isAliased n = true) :
    Reads d [.name n] spot (Name.aliasAt spot n) spot := by
  intro count
  obtain ⟨parts, hbare⟩ := Name.bare_eq_of_isAliased h
  have hmarks : ∀ c ∈ Name.bareDotted parts, c.isAlpha = false ∧ c ≠ '(' ∧ c ≠ ')' := by
    intro c hc
    rcases Name.mem_bareDotted hc with rfl | rfl
    · decide
    · decide
  have hdotted : spot.Stays (Text.tokens (Name.bareDotted parts)) := Spot.stays_marks hmarks
  have hstarts : Text.StartsApart (if Name.HasAlias n then " AS ".toList else []) := by
    split
    · decide
    · decide
  refine ⟨Text.tokens (Name.bareDotted parts) ++
    Text.tokens (if Name.HasAlias n then " AS ".toList else []), ?_, ?_, ?_⟩
  · rw [Sql.text, Sql.text, String.append_empty]
    refine ⟨_, Dialect.leaves_quoteName n, ?_, ?_⟩
    · rw [hbare]
      exact (Text.startsApart_of_unlettered fun c hc => (hmarks c hc).1).append hstarts
    · rw [hbare, Text.tokens_append (.inr hstarts)]
  · rw [Spot.aliases_append, hdotted.1, hdotted.2, List.nil_append]
    unfold Name.aliasAt
    split
    · cases spot <;> rfl
    · rfl
  · rw [Spot.after_append, hdotted.2]
    split
    · cases spot <;> rfl
    · rfl

theorem column {n : String} (h : Name.isColumn n = true) : Reads d [.name n] spot [] spot := by
  have hname : Reads d [.name n] spot (Name.aliasAt spot n) spot :=
    name (Name.isAliased_of_isColumn h)
  rwa [Name.aliasAt_of_isColumn h] at hname

theorem bound (v : Value) : Reads d [.bound v] spot [] spot := by
  intro count
  have hparens : ∀ c ∈ (toString (count + 1)).toList, c ≠ '(' ∧ c ≠ ')' := by
    rw [Nat.toString_eq_repr, Nat.toList_repr]
    intro c hc
    have hdigit := Decimal.isDigit_of_mem_digitsOf hc
    refine ⟨?_, ?_⟩
    · rintro rfl
      exact absurd hdigit (by decide)
    · rintro rfl
      exact absurd hdigit (by decide)
  have hnumber : spot.Stays (Text.tokens (toString (count + 1)).toList) :=
    Spot.stays_marks fun c hc => ⟨Dialect.isAlpha_of_mem_number hc, hparens c hc⟩
  have hbehind : d.SaysApart (toString (count + 1)).toList
      (Text.tokens (toString (count + 1)).toList) :=
    .plain ⟨fun c hc => (Dialect.allTame_number _ c hc).2,
      Text.startsApart_of_unlettered fun _ => Dialect.isAlpha_of_mem_number⟩
  have hmarker : spot.Stays (Text.tokens "?".toList) := by cases spot <;> decide
  have hplain : d.SaysApart "?".toList (Text.tokens "?".toList) := .plain (by decide)
  have hdollar : spot.Stays (Text.tokens "$".toList) := by cases spot <;> decide
  have hat : spot.Stays (Text.tokens "@p".toList) := by cases spot <;> decide
  rw [Sql.text, Sql.text, String.append_empty]
  cases d with
  | sqlite => exact ⟨_, hplain, hmarker⟩
  | mysql => exact ⟨_, hplain, hmarker⟩
  | postgres =>
      refine ⟨_, ?_, hdollar.append hnumber⟩
      rw [Piece.text, Dialect.placeholder, String.toList_append]
      exact (Dialect.SaysApart.plain (by decide)).append hbehind
  | sqlServer =>
      refine ⟨_, ?_, hat.append hnumber⟩
      rw [Piece.text, Dialect.placeholder, String.toList_append]
      exact (Dialect.SaysApart.plain (by decide)).append hbehind

theorem flatMap {α : Type} {f : α → List Piece} {g : α → List Spot} {as : List α}
    (h : ∀ a ∈ as, Reads d (f a) spot (g a) spot) :
    Reads d (as.flatMap f) spot (as.flatMap g) spot := by
  induction as with
  | nil => exact .nil
  | cons a as ih =>
      rw [List.flatMap_cons, List.flatMap_cons]
      exact (h a List.mem_cons_self).append (ih fun x hx => h x (List.mem_cons_of_mem a hx))

theorem separated {separator : String} (hseparator : Reads d [.words separator] spot [] spot)
    {α : Type} {f : α → List Piece} {g : α → List Spot} {as : List α}
    (h : ∀ a ∈ as, Reads d (f a) spot (g a) spot) :
    Reads d (Sql.separated separator (as.map f)) spot (as.flatMap g) spot := by
  induction as with
  | nil => exact .nil
  | cons a as ih =>
      cases as with
      | nil => simpa [Sql.separated] using h a List.mem_cons_self
      | cons b as =>
          have hrest := ih fun x hx => h x (List.mem_cons_of_mem a hx)
          have hwhole := ((h a List.mem_cons_self).append hseparator).append hrest
          rw [List.append_nil] at hwhole
          simpa [Sql.separated, List.intercalate_cons_cons] using hwhole

end Reads

namespace Shows

theorem nil : Shows d [] spot [] :=
  fun _ => ⟨[], .nil, rfl⟩

theorem behind (h : Reads d pieces spot aliases middle) (h' : Shows d others middle more) :
    Shows d (pieces ++ others) spot (aliases ++ more) := by
  intro count
  obtain ⟨tokens, hapart, rfl, rfl⟩ := h count
  obtain ⟨tokens', hapart', rfl⟩ := h' (count + (Sql.bindings pieces).length)
  refine ⟨tokens ++ tokens', ?_, Spot.aliases_append⟩
  rw [Sql.text_append, String.toList_append]
  exact hapart.append hapart'

/-- Clauses one behind another; each opens its own place. -/
theorem append (h : Shows d pieces spot aliases) (h' : ∀ spot, Shows d others spot more) :
    Shows d (pieces ++ others) spot (aliases ++ more) := by
  intro count
  obtain ⟨tokens, hapart, rfl⟩ := h count
  obtain ⟨tokens', hapart', rfl⟩ :=
    h' (spot.after tokens) (count + (Sql.bindings pieces).length)
  refine ⟨tokens ++ tokens', ?_, Spot.aliases_append⟩
  rw [Sql.text_append, String.toList_append]
  exact hapart.append hapart'

/-- Words without the keyword of an alias. -/
theorem words {s : String} (h : d.Counts "AS".toList s 0) (spot : Spot) :
    Shows d [.words s] spot [] := by
  intro count
  obtain ⟨tokens, hapart, hcount⟩ := h
  refine ⟨tokens, ?_, Spot.aliases_eq_nil hcount⟩
  rwa [Sql.text, Sql.text, String.append_empty]

theorem flatMap {α : Type} {f : α → List Piece} {g : α → List Spot} {as : List α}
    (h : ∀ a ∈ as, ∀ spot, Shows d (f a) spot (g a)) (spot : Spot) :
    Shows d (as.flatMap f) spot (as.flatMap g) := by
  induction as generalizing spot with
  | nil => exact .nil
  | cons a as ih =>
      rw [List.flatMap_cons, List.flatMap_cons]
      exact (h a List.mem_cons_self spot).append (ih fun x hx => h x (List.mem_cons_of_mem a hx))

end Shows

end Sql

/-- Read in any place of a statement where no word is begun, from this spot on, the pieces have these
aliases. -/
def Sql.Opens (d : Dialect) (pieces : List Piece) (spot : Spot) (aliases : List Spot) : Prop :=
  ∀ count, ∃ tokens, d.Says (Sql.text d count pieces).toList tokens ∧ spot.aliases tokens = aliases

namespace Sql

variable {d : Dialect} {pieces : List Piece} {spot : Spot} {aliases : List Spot}

theorem Shows.opens (h : Shows d pieces spot aliases) : Opens d pieces spot aliases := by
  intro count
  obtain ⟨tokens, hapart, haliases⟩ := h count
  exact ⟨tokens, hapart.told, haliases⟩

/-- Words in front that end by themselves, have no alias and lead to the spot. -/
theorem Opens.behind {front : Spot} {s : String}
    (hs : Dialect.AllPlain s.toList ∧ Text.EndsApart s.toList ∧
      front.aliases (Text.tokens s.toList) = [])
    (hafter : front.after (Text.tokens s.toList) = spot) (h : Opens d pieces spot aliases) :
    Opens d (.words s :: pieces) front aliases := by
  obtain ⟨hplain, hends, hnone⟩ := hs
  intro count
  obtain ⟨tokens, htold, rfl⟩ := h count
  refine ⟨Text.tokens s.toList ++ tokens, ?_, ?_⟩
  · rw [Sql.text, String.toList_append]
    exact htold.behind hplain hends
  · rw [Spot.aliases_append, hnone, hafter, List.nil_append]

end Sql

end Relational
