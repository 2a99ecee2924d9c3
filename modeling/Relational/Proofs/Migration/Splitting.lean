import Mathlib.Data.List.Infix
import Relational.Migration.Statements
import Relational.Proofs.Text.Folded
/-
Where a script is cut.

A script reads as characters that stand for themselves, and as quoted texts and comments,
each from its opener to the first closer behind it or to the end of the script.  There is
one such reading of every script.  The statements are what stands between the semicolons
of this reading, as long as no comment opens with the three characters of a slash, a star
and a slash.  Such a comment is still open when it is looked for a statement, but where
the script is cut its only star counts for the closer as well.
-/
namespace Relational.Script

/-! ### Readings -/

/-- What runs from an opener to the first closer behind it. -/
structure Enclosure where
  opener : List Char
  closer : List Char
  isComment : Bool
  deriving DecidableEq

namespace Enclosure

/-- Text between quotes. -/
def quotation (opening closing : Char) : Enclosure :=
  ⟨[opening], [closing], false⟩

def lineComment : Enclosure :=
  ⟨['-', '-'], ['\n'], true⟩

def blockComment : Enclosure :=
  ⟨['/', '*'], ['*', '/'], true⟩

/-- The quotes of texts and names. -/
def quotes : List (Char × Char) :=
  [('\'', '\''), ('"', '"'), (Dialect.backtick, Dialect.backtick), ('[', ']')]

def all : List Enclosure :=
  quotes.map (fun (opening, closing) => quotation opening closing) ++ [lineComment, blockComment]

end Enclosure

/-- What a script is made of. -/
inductive Lexeme where
  | character (c : Char)
  /-- A quoted text or a comment, as it is written. -/
  | enclosed (e : Enclosure) (text : List Char)
  deriving DecidableEq

namespace Lexeme

/-- The lexeme as it is written. -/
def text : Lexeme → List Char
  | character c => [c]
  | enclosed _ text => text

/-- Whether it is more than a blank or a comment. -/
def isSql : Lexeme → Bool
  | character c => !Text.isBlank c
  | enclosed e _ => !e.isComment

end Lexeme

/-- The text reads as these lexemes. -/
inductive Reading : List Lexeme → List Char → Prop
  | nil : Reading [] []
  | character {c : Char} {rest : List Char} {lexemes : List Lexeme}
      (hplain : ∀ e ∈ Enclosure.all, ¬ e.opener <+: c :: rest) (hrest : Reading lexemes rest) :
      Reading (.character c :: lexemes) (c :: rest)
  /-- The closer stands at the end of what is inside, and not before. -/
  | closed {e : Enclosure} {inside rest : List Char} {lexemes : List Lexeme}
      (he : e ∈ Enclosure.all) (hfirst : ¬ e.closer <:+: (inside ++ e.closer).dropLast)
      (hrest : Reading lexemes rest) :
      Reading (.enclosed e (e.opener ++ (inside ++ e.closer)) :: lexemes)
        (e.opener ++ (inside ++ e.closer ++ rest))
  | unclosed {e : Enclosure} {inside : List Char} (he : e ∈ Enclosure.all)
      (hnone : ¬ e.closer <:+: inside) :
      Reading [.enclosed e (e.opener ++ inside)] (e.opener ++ inside)

/-- What stands between the semicolons outside quotes and comments. -/
def chunks (lexemes : List Lexeme) : List (List Lexeme) :=
  lexemes.splitOn (.character ';')

/-- The chunk as it is written. -/
def chunkText (chunk : List Lexeme) : List Char :=
  chunk.flatMap Lexeme.text

variable {s rest inside : List Char} {lexemes : List Lexeme} {e : Enclosure}

/-! ### There is one reading -/

namespace Enclosure

theorem opener_ne_nil : ∀ e ∈ all, e.opener ≠ [] := by
  decide

theorem closer_ne_nil : ∀ e ∈ all, e.closer ≠ [] := by
  decide

theorem mem_all (he : e ∈ all) :
    (∃ opening closing, (opening, closing) ∈ quotes ∧ e = quotation opening closing) ∨
      e = lineComment ∨ e = blockComment := by
  simpa [all, eq_comm, or_assoc] using he

/-- The first character tells what is opened. -/
theorem eq_of_opener {e' : Enclosure} (he : e ∈ all) (he' : e' ∈ all) (h : e.opener <+: s)
    (h' : e'.opener <+: s) : e = e' := by
  have hheads : ∀ e ∈ all, ∀ e' ∈ all, e.opener.head? = e'.opener.head? → e = e' := by
    decide
  have hhead : ∀ e ∈ all, e.opener <+: s → e.opener.head? = s.head? := by
    rintro e he ⟨rest, rfl⟩
    rw [List.head?_append_of_ne_nil _ (opener_ne_nil e he)]
  exact hheads e he e' he' ((hhead e he h).trans (hhead e' he' h').symm)

end Enclosure

/-- Where a mark occurs, it occurs first. -/
theorem exists_first {mark : List Char} (hne : mark ≠ []) (h : mark <:+: s) :
    ∃ inside rest, s = inside ++ mark ++ rest ∧ ¬ mark <:+: (inside ++ mark).dropLast := by
  induction s with
  | nil => exact absurd (List.infix_nil.mp h) hne
  | cons c s ih =>
      by_cases hhere : mark <+: c :: s
      · obtain ⟨rest, hrest⟩ := hhere
        refine ⟨[], rest, hrest.symm, fun hshort => ?_⟩
        have hlength := hshort.length_le
        have hpos := List.length_pos_iff.mpr hne
        rw [List.nil_append, List.length_dropLast] at hlength
        omega
      · obtain ⟨inside, rest, rfl, hfirst⟩ := ih ((List.infix_cons_iff.mp h).resolve_left hhere)
        refine ⟨c :: inside, rest, rfl, fun hearly => ?_⟩
        have hcons : (c :: inside ++ mark).dropLast = c :: (inside ++ mark).dropLast :=
          List.dropLast_cons_of_ne_nil (by simp [hne])
        rw [hcons] at hearly
        rcases List.infix_cons_iff.mp hearly with hearly | hearly
        · refine hhere (hearly.trans (List.cons_prefix_cons.mpr ⟨rfl, ?_⟩))
          exact (List.dropLast_prefix _).trans (List.prefix_append _ _)
        · exact hfirst hearly

/-- The first occurrence of a mark is at one place. -/
theorem first_unique {mark inside' rest' : List Char}
    (heq : inside ++ mark ++ rest = inside' ++ mark ++ rest') (hne : mark ≠ [])
    (hfirst : ¬ mark <:+: (inside ++ mark).dropLast)
    (hfirst' : ¬ mark <:+: (inside' ++ mark).dropLast) : inside = inside' ∧ rest = rest' := by
  have hshorter : ∀ {a b x y : List Char}, a ++ mark ++ x = b ++ mark ++ y →
      ¬ mark <:+: (b ++ mark).dropLast → b.length ≤ a.length := by
    intro a b x y heq hfirst
    by_contra hlt
    have hpos := List.length_pos_iff.mpr hne
    have hwhole : a ++ mark <+: b ++ mark ++ y := heq ▸ List.prefix_append _ _
    have hprefix : a ++ mark <+: (b ++ mark).dropLast := by
      refine List.prefix_of_prefix_length_le hwhole ?_ ?_
      · exact (List.dropLast_prefix _).trans (List.prefix_append _ _)
      · simp only [List.length_append, List.length_dropLast]
        omega
    exact hfirst ((List.suffix_append a mark).isInfix.trans hprefix.isInfix)
  have hlength : inside.length = inside'.length :=
    Nat.le_antisymm (hshorter heq.symm hfirst) (hshorter heq hfirst')
  obtain ⟨hinside, hrest⟩ := List.append_inj heq (by simp [hlength])
  exact ⟨List.append_cancel_right hinside, hrest⟩

theorem notMem_of_first {mark : Char} (h : ¬ [mark] <:+: (inside ++ [mark]).dropLast) :
    mark ∉ inside := by
  rwa [List.dropLast_concat, List.singleton_infix_iff] at h

theorem exists_reading (s : List Char) : ∃ lexemes, Reading lexemes s := by
  induction hlength : s.length using Nat.strong_induction_on generalizing s with
  | _ n ih =>
      subst hlength
      cases s with
      | nil => exact ⟨[], .nil⟩
      | cons c rest =>
          by_cases hopens : ∃ e ∈ Enclosure.all, e.opener <+: c :: rest
          · obtain ⟨e, he, body, hbody⟩ := hopens
            rw [← hbody] at ih ⊢
            by_cases hcloses : e.closer <:+: body
            · obtain ⟨inside, rest, rfl, hfirst⟩ :=
                exists_first (Enclosure.closer_ne_nil e he) hcloses
              have hpos := List.length_pos_iff.mpr (Enclosure.closer_ne_nil e he)
              obtain ⟨lexemes, hrest⟩ := ih rest.length (by simp; omega) rest rfl
              exact ⟨_, .closed he hfirst hrest⟩
            · exact ⟨_, .unclosed he hcloses⟩
          · have hplain : ∀ e ∈ Enclosure.all, ¬ e.opener <+: c :: rest :=
              fun e he hopen => hopens ⟨e, he, hopen⟩
            obtain ⟨lexemes, hrest⟩ := ih rest.length (by simp) rest rfl
            exact ⟨_, .character hplain hrest⟩

namespace Reading

theorem of_nil (h : Reading lexemes []) : lexemes = [] := by
  generalize hs : ([] : List Char) = s at h
  cases h with
  | nil => rfl
  | character => cases hs
  | closed he => exact absurd (List.append_eq_nil_iff.mp hs.symm).1 (Enclosure.opener_ne_nil _ he)
  | unclosed he =>
      exact absurd (List.append_eq_nil_iff.mp hs.symm).1 (Enclosure.opener_ne_nil _ he)

theorem of_plain {c : Char} (hplain : ∀ e ∈ Enclosure.all, ¬ e.opener <+: c :: rest)
    (h : Reading lexemes (c :: rest)) :
    ∃ more, lexemes = .character c :: more ∧ Reading more rest := by
  generalize hs : c :: rest = s at h
  cases h with
  | nil => cases hs
  | character _ hrest =>
      cases hs
      exact ⟨_, rfl, hrest⟩
  | closed he => exact absurd (hs ▸ List.prefix_append _ _) (hplain _ he)
  | unclosed he => exact absurd (hs ▸ List.prefix_append _ _) (hplain _ he)

theorem of_opened {body : List Char} (he : e ∈ Enclosure.all)
    (h : Reading lexemes (e.opener ++ body)) :
    (∃ inside rest more, body = inside ++ e.closer ++ rest ∧
        ¬ e.closer <:+: (inside ++ e.closer).dropLast ∧
        lexemes = .enclosed e (e.opener ++ (inside ++ e.closer)) :: more ∧ Reading more rest) ∨
      ¬ e.closer <:+: body ∧ lexemes = [.enclosed e (e.opener ++ body)] := by
  generalize hs : e.opener ++ body = s at h
  cases h with
  | nil => exact absurd (List.append_eq_nil_iff.mp hs).1 (Enclosure.opener_ne_nil e he)
  | character hplain => exact absurd (hs ▸ List.prefix_append _ _) (hplain e he)
  | closed he' hfirst hrest =>
      cases Enclosure.eq_of_opener he he' (hs ▸ List.prefix_append _ _) (List.prefix_append _ _)
      exact .inl ⟨_, _, _, List.append_cancel_left hs, hfirst, rfl, hrest⟩
  | unclosed he' hnone =>
      cases Enclosure.eq_of_opener he he' (hs ▸ List.prefix_append _ _) (List.prefix_append _ _)
      cases List.append_cancel_left hs
      exact .inr ⟨hnone, rfl⟩

theorem unique {others : List Lexeme} (h : Reading lexemes s) (h' : Reading others s) :
    lexemes = others := by
  induction h generalizing others with
  | nil => exact h'.of_nil.symm
  | character hplain hrest ih =>
      obtain ⟨more, rfl, hmore⟩ := of_plain hplain h'
      rw [ih hmore]
  | @closed e inside rest lexemes he hfirst hrest ih =>
      rcases of_opened he h' with ⟨inside', rest', more, hbody, hfirst', rfl, hmore⟩ | ⟨hnone, _⟩
      · obtain ⟨rfl, rfl⟩ := first_unique hbody (Enclosure.closer_ne_nil e he) hfirst hfirst'
        rw [ih hmore]
      · exact absurd (List.infix_append _ _ _) hnone
  | @unclosed e inside he hnone =>
      rcases of_opened he h' with ⟨inside', rest', more, rfl, _⟩ | ⟨_, rfl⟩
      · exact absurd (List.infix_append _ _ _) hnone
      · rfl

end Reading

/-! ### The chunks of a reading -/

theorem chunks_semicolon (lexemes : List Lexeme) :
    chunks (.character ';' :: lexemes) = [] :: chunks lexemes := by
  simp [chunks, List.splitOn, List.splitOnP_cons_eq_if_modifyHead]

theorem chunks_cons {l : Lexeme} (h : l ≠ .character ';') (lexemes : List Lexeme) :
    chunks (l :: lexemes) = (chunks lexemes).modifyHead (l :: ·) := by
  simp [chunks, List.splitOn, List.splitOnP_cons_eq_if_modifyHead, h]

/-- Each chunk reads as its own lexemes. -/
theorem Reading.chunks_read (h : Reading lexemes s) :
    ∃ first more, chunks lexemes = first :: more ∧ chunkText first <+: s ∧
      Reading first (chunkText first) ∧ ∀ chunk ∈ more, Reading chunk (chunkText chunk) := by
  induction h with
  | nil => exact ⟨[], [], rfl, List.prefix_rfl, .nil, by simp⟩
  | @character c rest lexemes hplain hrest ih =>
      obtain ⟨first, more, hchunks, hprefix, hfirst, hmore⟩ := ih
      by_cases hc : c = ';'
      · subst hc
        refine ⟨[], first :: more, by rw [chunks_semicolon, hchunks], List.nil_prefix, .nil, ?_⟩
        exact List.forall_mem_cons.mpr ⟨hfirst, hmore⟩
      · have hlonger : c :: chunkText first <+: c :: rest :=
          List.cons_prefix_cons.mpr ⟨rfl, hprefix⟩
        refine ⟨.character c :: first, more, ?_, hlonger, ?_, hmore⟩
        · rw [chunks_cons (by simpa using hc), hchunks]
          rfl
        · exact .character (fun e he hopen => hplain e he (hopen.trans hlonger)) hfirst
  | @closed e inside rest lexemes he hfirst hrest ih =>
      obtain ⟨first, more, hchunks, hprefix, hread, hmore⟩ := ih
      refine ⟨.enclosed e (e.opener ++ (inside ++ e.closer)) :: first, more, ?_, ?_, ?_, hmore⟩
      · rw [chunks_cons (by simp), hchunks]
        rfl
      · simpa [chunkText, Lexeme.text] using hprefix
      · simpa [chunkText, Lexeme.text] using Reading.closed he hfirst hread
  | @unclosed e inside he hnone =>
      refine ⟨[.enclosed e (e.opener ++ inside)], [], by rw [chunks_cons (by simp)]; rfl, ?_⟩
      simpa [chunkText, Lexeme.text] using Reading.unclosed he hnone

/-! ### Reading through a text

A scanner with one character ahead goes from state to state, or stops. -/

section Scanner

variable {σ : Type} {next : σ → Char → Option Char → Option σ} {start middle last : σ}
  {text text' : List Char}

/-- Whatever is behind the text, a scanner in `start` reads through it and is in `last` then. -/
inductive Through (next : σ → Char → Option Char → Option σ) : σ → List Char → σ → Prop
  | nil (state : σ) : Through next state [] state
  | cons {start middle last : σ} {c : Char} {text : List Char}
      (hnext : ∀ tail, next start c (text ++ tail).head? = some middle)
      (htext : Through next middle text last) : Through next start (c :: text) last

namespace Through

theorem append (h : Through next start text middle) (h' : Through next middle text' last) :
    Through next start (text ++ text') last := by
  induction h with
  | nil => exact h'
  | @cons start middle last c text hnext _ ih =>
      have hnext' : ∀ tail, next start c (text ++ text' ++ tail).head? = some middle :=
        fun tail => by rw [List.append_assoc, hnext]
      exact .cons hnext' (ih h')

theorem singleton {c : Char} (hnext : ∀ ahead, next start c ahead = some last) :
    Through next start [c] last :=
  .cons (fun _ => hnext _) (.nil last)

/-- Two characters of which the second one is seen from the first. -/
theorem pair {c d : Char} (hnext : next start c (some d) = some middle)
    (hnext' : ∀ ahead, next middle d ahead = some last) : Through next start [c, d] last :=
  .cons (fun _ => hnext) (singleton hnext')

/-- A state that only one character leads out of holds everything up to that character. -/
theorem held {close : Char} {state : σ} (hnext : ∀ c ahead, next state c ahead =
      some (if c = close then last else state)) (hinside : close ∉ inside) :
    Through next state inside state := by
  induction inside with
  | nil => exact .nil state
  | cons c inside ih =>
      obtain ⟨hc, hinside⟩ := List.ne_and_not_mem_of_not_mem_cons hinside
      exact .cons (fun _ => by rw [hnext, if_neg (Ne.symm hc)]) (ih hinside)

theorem held_closed {close : Char} {state : σ} (hnext : ∀ c ahead, next state c ahead =
      some (if c = close then last else state)) (hinside : close ∉ inside) :
    Through next state (inside ++ [close]) last :=
  (held hnext hinside).append (singleton fun _ => by rw [hnext, if_pos rfl])

/-! A block comment: the states tell whether the character before was a star. -/

variable {comment : Bool → σ} (hnext : ∀ star c ahead, next (comment star) c ahead =
  some (if star = true ∧ c = '/' then last else comment (c == '*')))

include hnext

theorem starred (star : Bool)
    (hinside : ¬ ['*', '/'] <:+: (if star then '*' :: inside else inside)) :
    Through next (comment star) inside
      (comment (inside.foldl (fun _ c => c == '*') star)) := by
  induction inside generalizing star with
  | nil => exact .nil _
  | cons c inside ih =>
      have hstays : ¬ (star = true ∧ c = '/') := by
        rintro ⟨rfl, rfl⟩
        exact hinside ⟨[], inside, rfl⟩
      have hlater : ¬ ['*', '/'] <:+: (if (c == '*') then '*' :: inside else inside) := by
        intro hearly
        refine hinside (hearly.trans ?_)
        by_cases hc : c = '*' <;> cases star <;> simp [hc, List.infix_cons_iff]
      exact .cons (fun _ => by rw [hnext, if_neg hstays]) (ih _ hlater)

theorem starred_closed (star : Bool) (hinside : ¬ ['*', '/'] <:+:
      (if star then '*' :: (inside ++ ['*']) else inside ++ ['*'])) :
    Through next (comment star) (inside ++ ['*', '/']) last := by
  have hstar := starred hnext star hinside
  rw [List.foldl_append, List.foldl_cons, List.foldl_nil] at hstar
  have hslash : Through next (comment true) ['/'] last :=
    singleton fun _ => by rw [hnext, if_pos ⟨rfl, rfl⟩]
  simpa using hstar.append hslash

end Through

end Scanner

/-! ### Cutting a script -/

/-- What the next character belongs to, unless `c` ends a statement. -/
def Region.next (region : Region) (c : Char) (ahead : Option Char) : Option Region :=
  if region = .plain ∧ c = ';' then none else some (region.after c ahead)

theorem pieces_semicolon (rest : List Char) :
    pieces .plain (';' :: rest) = [] :: pieces .plain rest := by
  have hafter : Region.after .plain ';' rest.head? = .plain := by
    simp [Region.after, Dialect.backtick]
  rw [pieces, hafter]
  rfl

theorem pieces_ne_nil (region : Region) (s : List Char) : pieces region s ≠ [] := by
  cases s with
  | nil => simp [pieces]
  | cons c rest =>
      rw [pieces]
      split
      · simp
      · split <;> simp

theorem pieces_cons {region : Region} {c : Char} (h : region = .plain → c ≠ ';')
    (rest : List Char) :
    pieces region (c :: rest) = (pieces (region.after c rest.head?) rest).modifyHead (c :: ·) := by
  have hcut : ¬ (region = .plain ∧ c = ';') := fun hboth => h hboth.1 hboth.2
  rw [pieces, if_neg hcut]
  split
  next hnil => exact absurd hnil (pieces_ne_nil _ _)
  next hlater => rw [hlater, List.modifyHead_cons]

theorem Through.pieces_append {region last : Region} {text : List Char}
    (h : Through Region.next region text last) (tail : List Char) :
    pieces region (text ++ tail) = (pieces last tail).modifyHead (text ++ ·) := by
  induction h with
  | nil => exact (congrFun List.modifyHead_id _).symm
  | @cons region middle last c text hnext _ ih =>
      have hc := hnext tail
      rw [Region.next] at hc
      split at hc
      next => cases hc
      next hcut =>
        rw [List.cons_append, pieces_cons fun hplain hc => hcut ⟨hplain, hc⟩,
          Option.some.inj hc, ih, List.modifyHead_modifyHead]
        rfl

namespace Enclosure

theorem opened_quotation {opening closing : Char} (h : (opening, closing) ∈ quotes) :
    Through Region.next .plain [opening] (.quoted closing) := by
  have hopens : ∀ q ∈ quotes, ∀ ahead, Region.next .plain q.1 ahead = some (.quoted q.2) := by
    simp [quotes, Region.next, Region.after, Dialect.backtick]
  exact .singleton (hopens _ h)

theorem opened_line : Through Region.next .plain ['-', '-'] .lineComment :=
  .pair rfl fun _ => rfl

/-- Inside the comment, the star of its opener is the character before. -/
theorem opened_block : Through Region.next .plain ['/', '*'] (.blockComment true) := by
  have hstar : ∀ ahead, Region.next (.blockComment false) '*' ahead = some (.blockComment true) :=
    fun _ => rfl
  exact .pair rfl hstar

theorem block_next (star : Bool) (c : Char) (ahead : Option Char) :
    Region.next (.blockComment star) c ahead =
      some (if star = true ∧ c = '/' then .plain else .blockComment (c == '*')) :=
  rfl

theorem not_infix_star {body : List Char} (hnone : ¬ ['*', '/'] <:+: body)
    (hslash : ¬ ['/'] <+: body) : ¬ ['*', '/'] <:+: '*' :: body := by
  rw [List.infix_cons_iff, List.cons_prefix_cons, not_or, not_and]
  exact ⟨fun _ => hslash, hnone⟩

/-! Quotes and comments are kept as wholes, up to the comment whose opener seems to close it. -/

theorem kept_closed (he : e ∈ all) (hfirst : ¬ e.closer <:+: (inside ++ e.closer).dropLast)
    (hslash : ¬ ['/', '*', '/'] <+: e.opener ++ (inside ++ e.closer)) :
    Through Region.next .plain (e.opener ++ (inside ++ e.closer)) .plain := by
  rcases mem_all he with ⟨opening, closing, hquotes, rfl⟩ | rfl | rfl
  · have hinside : closing ∉ inside := notMem_of_first hfirst
    exact (opened_quotation hquotes).append (.held_closed (fun _ _ => rfl) hinside)
  · have hinside : '\n' ∉ inside := notMem_of_first hfirst
    exact opened_line.append (.held_closed (fun _ _ => rfl) hinside)
  · have hinside : ¬ ['*', '/'] <:+: '*' :: (inside ++ ['*']) := by
      refine not_infix_star (by simpa [blockComment] using hfirst) fun hearly => hslash ?_
      have hlonger : ['/'] <+: inside ++ ['*', '/'] :=
        hearly.trans ⟨['/'], by simp⟩
      simpa [blockComment] using hlonger
    exact opened_block.append (.starred_closed block_next true hinside)

theorem kept_unclosed (he : e ∈ all) (hnone : ¬ e.closer <:+: inside)
    (hslash : ¬ ['/', '*', '/'] <+: e.opener ++ inside) :
    ∃ last, Through Region.next .plain (e.opener ++ inside) last := by
  rcases mem_all he with ⟨opening, closing, hquotes, rfl⟩ | rfl | rfl
  · have hinside : closing ∉ inside := mt (List.singleton_infix_iff _ _).mpr hnone
    exact ⟨_, (opened_quotation hquotes).append (.held (fun _ _ => rfl) hinside)⟩
  · have hinside : '\n' ∉ inside := mt (List.singleton_infix_iff _ _).mpr hnone
    exact ⟨_, opened_line.append (.held (fun _ _ => rfl) hinside)⟩
  · have hinside : ¬ ['*', '/'] <:+: '*' :: inside :=
      not_infix_star hnone fun hearly => hslash (by simpa [blockComment] using hearly)
    exact ⟨_, opened_block.append (.starred block_next true hinside)⟩

end Enclosure

theorem not_ahead {a b c : Char} (h : ¬ [a, b] <+: c :: rest) :
    ¬ (c = a ∧ rest.head? = some b) := by
  rintro ⟨rfl, hahead⟩
  obtain ⟨rest, rfl⟩ := List.head?_eq_some_iff.mp hahead
  exact h ⟨rest, rfl⟩

theorem after_plain {c : Char} (hplain : ∀ e ∈ Enclosure.all, ¬ e.opener <+: c :: rest) :
    Region.after .plain c rest.head? = .plain := by
  have hquotes : ∀ q ∈ Enclosure.quotes, c ≠ q.1 := by
    intro q hq hc
    have hquotation : Enclosure.quotation q.1 q.2 ∈ Enclosure.all :=
      List.mem_append_left _ (List.mem_map_of_mem hq)
    exact hplain _ hquotation ⟨rest, by rw [hc]; rfl⟩
  simp only [Enclosure.quotes, List.forall_mem_cons] at hquotes
  obtain ⟨hquote, hdouble, hbacktick, hbracket, _⟩ := hquotes
  rw [Region.after, if_neg (by simp [hquote, hdouble, hbacktick]), if_neg hbracket,
    if_neg (not_ahead (hplain .lineComment (by decide))),
    if_neg (not_ahead (hplain .blockComment (by decide)))]

theorem map_chunkText_modifyHead (l : Lexeme) (parts : List (List Lexeme)) :
    (parts.modifyHead (l :: ·)).map chunkText = (parts.map chunkText).modifyHead (l.text ++ ·) := by
  cases parts <;> rfl

/-- The script is cut between its chunks. -/
theorem Reading.pieces_eq (h : Reading lexemes s)
    (hslash : ∀ l ∈ lexemes, ¬ ['/', '*', '/'] <+: l.text) :
    pieces .plain s = (chunks lexemes).map chunkText := by
  induction h with
  | nil => rfl
  | @character c rest lexemes hplain hrest ih =>
      have hlater := ih fun l hl => hslash l (List.mem_cons_of_mem _ hl)
      by_cases hc : c = ';'
      · subst hc
        rw [pieces_semicolon, chunks_semicolon, hlater]
        rfl
      · rw [pieces_cons (fun _ => hc), after_plain hplain, hlater, chunks_cons (by simpa using hc),
          map_chunkText_modifyHead]
        rfl
  | @closed e inside rest lexemes he hfirst hrest ih =>
      have hlater := ih fun l hl => hslash l (List.mem_cons_of_mem _ hl)
      have hkept := Enclosure.kept_closed he hfirst (hslash _ (List.mem_cons_self ..))
      have hpieces := hkept.pieces_append rest
      rw [List.append_assoc, hlater] at hpieces
      rw [hpieces, chunks_cons (by simp), map_chunkText_modifyHead]
      rfl
  | @unclosed e inside he hnone =>
      obtain ⟨last, hkept⟩ := Enclosure.kept_unclosed he hnone (hslash _ (List.mem_cons_self ..))
      have hpieces := hkept.pieces_append []
      rw [List.append_nil] at hpieces
      rw [hpieces, chunks_cons (by simp)]
      simp [pieces, chunks, chunkText, Lexeme.text]

/-! ### Looking for a statement in a chunk -/

theorem Through.holdsSqlFrom_append {gap last : Gap} {text : List Char}
    (h : Through Gap.after? gap text last) (tail : List Char) :
    holdsSqlFrom gap (text ++ tail) = holdsSqlFrom last tail := by
  induction h with
  | nil => rfl
  | cons hnext _ ih =>
      rw [List.cons_append, holdsSqlFrom, hnext tail]
      exact ih

namespace Enclosure

theorem skipped_line : Through Gap.after? .blank ['-', '-'] .lineComment :=
  .pair rfl fun _ => rfl

/-- The star of the opener is passed on its own, and counts for no closer. -/
theorem skipped_block : Through Gap.after? .blank ['/', '*'] (.blockComment false) := by
  have hstar : ∀ ahead, Gap.after? .opening '*' ahead = some (.blockComment false) :=
    fun _ => rfl
  exact .pair rfl hstar

theorem block_after (star : Bool) (c : Char) (ahead : Option Char) :
    Gap.after? (.blockComment star) c ahead =
      some (if star = true ∧ c = '/' then .blank else .blockComment (c == '*')) :=
  rfl

theorem holdsSqlFrom_quotation {opening closing : Char} (h : (opening, closing) ∈ quotes)
    (rest : List Char) : holdsSqlFrom .blank (opening :: rest) = true := by
  have hbegins : ∀ q ∈ quotes, ∀ ahead, Gap.after? .blank q.1 ahead = none := by
    simp [quotes, Gap.after?, Dialect.backtick, Text.isBlank]
  rw [holdsSqlFrom, hbegins _ h]

/-- A quoted text is a statement, behind a comment the search goes on. -/
theorem holdsSqlFrom_closed (he : e ∈ all)
    (hfirst : ¬ e.closer <:+: (inside ++ e.closer).dropLast) (rest : List Char) :
    holdsSqlFrom .blank (e.opener ++ (inside ++ e.closer ++ rest)) =
      (!e.isComment || holdsSqlFrom .blank rest) := by
  rw [← List.append_assoc]
  rcases mem_all he with ⟨opening, closing, hquotes, rfl⟩ | rfl | rfl
  · exact holdsSqlFrom_quotation hquotes _
  · have hinside : '\n' ∉ inside := notMem_of_first hfirst
    exact (skipped_line.append (.held_closed (fun _ _ => rfl) hinside)).holdsSqlFrom_append rest
  · have hinside : ¬ ['*', '/'] <:+: inside ++ ['*'] := by
      simpa [blockComment] using hfirst
    exact (skipped_block.append
      (.starred_closed block_after false hinside)).holdsSqlFrom_append rest

theorem holdsSqlFrom_unclosed (he : e ∈ all) (hnone : ¬ e.closer <:+: inside) :
    holdsSqlFrom .blank (e.opener ++ inside) = !e.isComment := by
  rw [← List.append_nil (e.opener ++ inside)]
  rcases mem_all he with ⟨opening, closing, hquotes, rfl⟩ | rfl | rfl
  · exact holdsSqlFrom_quotation hquotes _
  · have hinside : '\n' ∉ inside := mt (List.singleton_infix_iff _ _).mpr hnone
    exact (skipped_line.append (.held (fun _ _ => rfl) hinside)).holdsSqlFrom_append []
  · exact (skipped_block.append (.starred block_after false hnone)).holdsSqlFrom_append []

end Enclosure

theorem after?_plain {c : Char} (hplain : ∀ e ∈ Enclosure.all, ¬ e.opener <+: c :: rest) :
    Gap.after? .blank c rest.head? = if Text.isBlank c then some .blank else none := by
  rw [Gap.after?, if_neg (not_ahead (hplain .lineComment (by decide))),
    if_neg (not_ahead (hplain .blockComment (by decide)))]

/-- A text holds a statement when one of its lexemes is neither a blank nor a comment. -/
theorem Reading.holdsSql_eq (h : Reading lexemes s) : holdsSql s = lexemes.any Lexeme.isSql := by
  induction h with
  | nil => rfl
  | @character c rest lexemes hplain hrest ih =>
      rw [holdsSql, holdsSqlFrom, after?_plain hplain, List.any_cons, ← ih]
      cases hblank : Text.isBlank c <;> simp [holdsSql, Lexeme.isSql, hblank]
  | @closed e inside rest lexemes he hfirst hrest ih =>
      rw [holdsSql, Enclosure.holdsSqlFrom_closed he hfirst, List.any_cons, ← ih]
      rfl
  | @unclosed e inside he hnone =>
      rw [holdsSql, Enclosure.holdsSqlFrom_unclosed he hnone]
      simp [Lexeme.isSql]

/-! ### Trimming -/

theorem after?_of_isBlank {c : Char} (h : Text.isBlank c = true) (ahead : Option Char) :
    Gap.after? .blank c ahead = some .blank :=
  if_pos h

/-- A blank ahead is as good as the end. -/
theorem after?_blank_ahead (gap : Gap) (c : Char) {blank : Char} (h : Text.isBlank blank = true) :
    gap.after? c (some blank) = gap.after? c none := by
  have hdash : blank ≠ '-' := fun hc => absurd (hc ▸ h) (by decide)
  have hstar : blank ≠ '*' := fun hc => absurd (hc ▸ h) (by decide)
  cases gap <;> simp [Gap.after?, hdash, hstar]

theorem holdsSqlFrom_append_blank (gap : Gap) (s : List Char) {blank : Char}
    (h : Text.isBlank blank = true) : holdsSqlFrom gap (s ++ [blank]) = holdsSqlFrom gap s := by
  induction s generalizing gap with
  | nil =>
      have hmore : ∃ later, gap.after? blank none = some later := by
        cases gap with
        | blank => exact ⟨_, after?_of_isBlank h none⟩
        | lineComment => exact ⟨_, rfl⟩
        | opening => exact ⟨_, rfl⟩
        | blockComment star => exact ⟨_, rfl⟩
      obtain ⟨later, hlater⟩ := hmore
      simp only [List.nil_append, holdsSqlFrom, List.head?_nil, hlater]
  | cons c s ih =>
      have hahead : gap.after? c (s ++ [blank]).head? = gap.after? c s.head? := by
        cases s with
        | nil => exact after?_blank_ahead gap c h
        | cons d s => rfl
      rw [List.cons_append, holdsSqlFrom, holdsSqlFrom, hahead]
      cases gap.after? c s.head? with
      | none => rfl
      | some later => exact ih later

theorem holdsSqlFrom_trimEnd (gap : Gap) (s : List Char) :
    holdsSqlFrom gap (Text.trimEnd s) = holdsSqlFrom gap s := by
  induction s using List.reverseRecOn with
  | nil => rfl
  | append_singleton s c ih =>
      cases hc : Text.isBlank c with
      | true =>
          rw [holdsSqlFrom_append_blank gap s hc, ← ih]
          simp [Text.trimEnd, Text.dropEndWhile, hc]
      | false => simp [Text.trimEnd, Text.dropEndWhile, hc]

theorem holdsSql_trim (s : List Char) : holdsSql (Text.trim s) = holdsSql s := by
  rw [holdsSql, Text.trim, holdsSqlFrom_trimEnd, holdsSql]
  induction s with
  | nil => rfl
  | cons c s ih =>
      cases hc : Text.isBlank c with
      | true =>
          rw [Text.trimStart, List.dropWhile_cons_of_pos hc, holdsSqlFrom, after?_of_isBlank hc]
          exact ih
      | false => rw [Text.trimStart, List.dropWhile_cons_of_neg (by simp [hc])]

/-! ### The statements of a script -/

/-- The statement a chunk is, if it is more than blanks and comments. -/
def statement? (chunk : List Lexeme) : Option String :=
  if chunk.any Lexeme.isSql then some (String.ofList (Text.trim (chunkText chunk))) else none

theorem statements_of_chunks {parts : List (List Lexeme)}
    (h : ∀ chunk ∈ parts, Reading chunk (chunkText chunk)) :
    (((parts.map chunkText).map Text.trim).filter holdsSql).map String.ofList =
      parts.filterMap statement? := by
  induction parts with
  | nil => rfl
  | cons chunk parts ih =>
      obtain ⟨hchunk, hparts⟩ := List.forall_mem_cons.mp h
      have hholds : holdsSql (Text.trim (chunkText chunk)) = chunk.any Lexeme.isSql := by
        rw [holdsSql_trim, hchunk.holdsSql_eq]
      simp only [List.map_cons, List.filter_cons, List.filterMap_cons, statement?, hholds]
      cases chunk.any Lexeme.isSql with
      | false => exact ih hparts
      | true => exact congrArg (_ :: ·) (ih hparts)

/-- **A script is cut at the semicolons outside its quotes and comments.**  Every script has one
reading.  Its statements are the chunks between the semicolons of this reading, trimmed and in
order, without those that are only blanks and comments, unless a comment opens with a slash, a
star and a slash. -/
theorem statements_between_semicolons (script : String) :
    (∃! lexemes, Reading lexemes script.toList) ∧
      ∀ lexemes, Reading lexemes script.toList →
        (∀ l ∈ lexemes, ¬ ['/', '*', '/'] <+: l.text) →
          statements script = (chunks lexemes).filterMap statement? := by
  constructor
  · obtain ⟨lexemes, hread⟩ := exists_reading script.toList
    exact ⟨lexemes, hread, fun others hothers => hothers.unique hread⟩
  · intro lexemes hread hslash
    obtain ⟨first, more, hchunks, _, hfirst, hmore⟩ := hread.chunks_read
    have hreads : ∀ chunk ∈ chunks lexemes, Reading chunk (chunkText chunk) := by
      rw [hchunks]
      exact List.forall_mem_cons.mpr ⟨hfirst, hmore⟩
    rw [statements, hread.pieces_eq hslash, statements_of_chunks hreads]

/-- A semicolon in a quoted text, one in a line comment and one in a chunk that is a comment. -/
theorem quoted_and_commented_semicolons :
    (∃ lexemes, Reading lexemes "x;'y;'--z;\n;/*;*/".toList) ∧
      statements "x;'y;'--z;\n;/*;*/" = ["x", "'y;'--z;"] := by
  have htext : Reading [.character 'x', .character ';',
      .enclosed (.quotation '\'' '\'') ['\'', 'y', ';', '\''],
      .enclosed .lineComment ['-', '-', 'z', ';', '\n'], .character ';',
      .enclosed .blockComment ['/', '*', ';', '*', '/']] "x;'y;'--z;\n;/*;*/".toList := by
    have hblock := @Reading.closed .blockComment [';'] _ _ (by decide) (by decide) .nil
    have hsemicolon := @Reading.character ';' _ _ (by decide) hblock
    have hline := @Reading.closed .lineComment ['z', ';'] _ _ (by decide) (by decide) hsemicolon
    have hquoted :=
      @Reading.closed (.quotation '\'' '\'') ['y', ';'] _ _ (by decide) (by decide) hline
    exact .character (by decide) (.character (by decide) hquoted)
  refine ⟨⟨_, htext⟩, ?_⟩
  rw [(statements_between_semicolons _).2 _ htext (by decide)]
  decide

/-- A comment that opens with a slash, a star and a slash runs to the next star and slash, but the
script is cut at the semicolon inside. -/
theorem comment_cut_inside :
    ∃ lexemes, Reading lexemes "/*/ ; */ SELECT 1".toList ∧
      (chunks lexemes).filterMap statement? = ["/*/ ; */ SELECT 1"] ∧
      statements "/*/ ; */ SELECT 1" = ["*/ SELECT 1"] := by
  have hlater : Reading (" SELECT 1".toList.map .character) " SELECT 1".toList := by
    iterate 9 refine .character (by decide) ?_
    exact .nil
  have htext := @Reading.closed .blockComment "/ ; ".toList _ _ (by decide) (by decide) hlater
  exact ⟨_, htext, by decide, by decide⟩

end Relational.Script
