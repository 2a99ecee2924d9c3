import Relational.Migration.Script
import Relational.Proofs.Results
/-
What the lines of a migration say.

A line is a directive, a remark or SQL, and which of them may come next depends on the part the
reading is in.  The header takes remarks and its own two directives and ends with the directive for
the first part; behind that, directives can only lead to the second part and stay there.  Each part
is followed to its end here, and the three of them put together say which texts are read and where
every line of them goes.
-/
namespace Relational

namespace Text

theorem trim_cons_of_isBlank {c : Char} (hc : isBlank c = true) (s : List Char) :
    trim (c :: s) = trim s := by
  rw [trim, trimStart, List.dropWhile_cons_of_pos hc]
  rfl

end Text

namespace Script

/-! ### Lines -/

/-- The line is a directive. -/
def IsDirective (line : List Char) : Prop :=
  directiveMark.toList <+: Text.trim line

instance : DecidablePred IsDirective := fun line =>
  inferInstanceAs (Decidable (directiveMark.toList <+: Text.trim line))

/-- The line is the directive of that name: the name goes up to the first blank, and the argument is
what follows, without the blanks around it. -/
def Directs (line : List Char) (name argument : String) : Prop :=
  ∃ rest, Text.trim line = directiveMark.toList ++ (name.toList ++ rest) ∧
    (∀ c ∈ name.toList, Text.isBlank c = false) ∧ (∀ c ∈ rest.head?, Text.isBlank c = true) ∧
    argument.toList = Text.trim rest

/-- The line is blank or a comment. -/
def IsRemark (line : List Char) : Prop :=
  ¬IsDirective line ∧ (Text.trim line = [] ∨ "--".toList <+: Text.trim line)

variable {line : List Char} {name argument : String}

theorem Directs.isDirective (h : Directs line name argument) : IsDirective line := by
  obtain ⟨rest, htrim, -⟩ := h
  exact ⟨_, htrim.symm⟩

theorem ofChars_eq_directive_iff :
    Line.ofChars line = .directive ⟨name, argument⟩ ↔ Directs line name argument := by
  unfold Line.ofChars Directs
  dsimp only
  constructor
  · intro h
    split at h
    · rename_i after hlead
      have htrim := Text.afterLead?_eq_some.mp hlead
      split at h
      · rename_i word behind hcut
        obtain ⟨c, hc, hword, rfl⟩ := Text.cutAt_eq hcut
        cases h
        refine ⟨c :: behind, ?_, ?_, ?_, ?_⟩
        · rw [htrim, String.toList_ofList]
        · rwa [String.toList_ofList]
        · simpa using hc
        · rw [String.toList_ofList, Text.trim_cons_of_isBlank hc]
      · rename_i hcut
        cases h
        refine ⟨[], ?_, ?_, by simp, rfl⟩
        · rw [htrim, String.toList_ofList, List.append_nil]
        · rw [String.toList_ofList]
          exact Text.forall_of_cutAt_eq_none hcut
    · split at h <;> cases h
  · rintro ⟨rest, htrim, hname, hrest, hargument⟩
    rw [Text.afterLead?_eq_some.mpr htrim]
    cases rest with
    | nil =>
        have hempty : argument = "" := String.toList_injective hargument
        rw [List.append_nil]
        dsimp only
        rw [Text.cutAt_eq_none hname]
        simp only [String.ofList_toList, hempty]
    | cons c behind =>
        have hc : Text.isBlank c = true := hrest c rfl
        dsimp only
        rw [Text.cutAt_append hname hc]
        simp only [String.ofList_toList]
        rw [← Text.trim_cons_of_isBlank hc, ← hargument, String.ofList_toList]

theorem isDirective_iff : IsDirective line ↔ ∃ d, Line.ofChars line = .directive d := by
  unfold IsDirective Line.ofChars
  dsimp only
  constructor
  · rintro ⟨rest, htrim⟩
    rw [Text.afterLead?_eq_some.mpr htrim.symm]
    dsimp only
    split
    · exact ⟨_, rfl⟩
    · exact ⟨_, rfl⟩
  · rintro ⟨d, h⟩
    split at h
    · rename_i rest hlead
      exact ⟨rest, (Text.afterLead?_eq_some.mp hlead).symm⟩
    · split at h <;> cases h

theorem ofChars_eq_remark_iff : Line.ofChars line = .remark ↔ IsRemark line := by
  have hcomment : (Text.afterLead? "--".toList (Text.trim line)).isSome = true ↔
      "--".toList <+: Text.trim line := by
    rw [Option.isSome_iff_exists]
    exact exists_congr fun rest => Text.afterLead?_eq_some.trans eq_comm
  rw [IsRemark, ← List.isEmpty_iff, ← hcomment, ← Bool.or_eq_true]
  by_cases hdirective : IsDirective line
  · obtain ⟨d, hd⟩ := isDirective_iff.mp hdirective
    simp [hd, hdirective]
  · unfold Line.ofChars
    dsimp only
    split
    · rename_i rest hlead
      exact absurd ⟨rest, (Text.afterLead?_eq_some.mp hlead).symm⟩ hdirective
    · split
      · rename_i hremark
        simp only [hdirective, hremark, not_false_iff, and_self]
      · rename_i hsql
        exact iff_of_false (fun h => by cases h) fun h => hsql h.2

/-- What a line says, by its kind. -/
theorem line_cases (line : List Char) :
    (∃ name argument, Directs line name argument ∧
      Line.ofChars line = .directive ⟨name, argument⟩) ∨
    (IsRemark line ∧ Line.ofChars line = .remark) ∨
    (¬IsDirective line ∧ ¬IsRemark line ∧ Line.ofChars line = .sql) := by
  cases h : Line.ofChars line with
  | directive d => exact .inl ⟨d.name, d.argument, ofChars_eq_directive_iff.mp h, rfl⟩
  | remark => exact .inr (.inl ⟨ofChars_eq_remark_iff.mp h, rfl⟩)
  | sql =>
      refine .inr (.inr ⟨fun hd => ?_, fun hr => ?_, rfl⟩)
      · obtain ⟨d, hd⟩ := isDirective_iff.mp hd
        rw [hd] at h
        cases h
      · rw [ofChars_eq_remark_iff.mpr hr] at h
        cases h

/-- A directive has one name and one argument. -/
theorem Directs.unique {name' argument' : String} (h : Directs line name argument)
    (h' : Directs line name' argument') : name = name' ∧ argument = argument' := by
  rw [← ofChars_eq_directive_iff] at h h'
  rw [h] at h'
  cases h'
  exact ⟨rfl, rfl⟩

theorem Directs.not_isRemark (h : Directs line name argument) : ¬IsRemark line :=
  fun hr => hr.1 h.isDirective

/-! ### Groups of lines -/

/-- The text of lines, each with its end. -/
def joined (ls : List (List Char)) : List Char :=
  ls.flatMap (· ++ ['\n'])

/-- The lines that are no directives. -/
def plain (ls : List (List Char)) : List (List Char) :=
  ls.filter fun line => ¬IsDirective line

/-- The lines up to the first directive. -/
def beforeDirective (ls : List (List Char)) : List (List Char) :=
  ls.takeWhile fun line => ¬IsDirective line

/-- The lines from the first directive on. -/
def fromDirective (ls : List (List Char)) : List (List Char) :=
  ls.dropWhile fun line => ¬IsDirective line

/-- No directive but the one for the second part. -/
def OnlyDown (ls : List (List Char)) : Prop :=
  ∀ line ∈ ls, IsDirective line → ∃ a, Directs line "down" a

variable {ls : List (List Char)}

theorem onlyDown_cons : OnlyDown (line :: ls) ↔
    (IsDirective line → ∃ a, Directs line "down" a) ∧ OnlyDown ls :=
  List.forall_mem_cons

theorem joined_plain_cons_of (h : IsDirective line) :
    joined (plain (line :: ls)) = joined (plain ls) := by
  simp [plain, h]

theorem joined_plain_cons_of_not (h : ¬IsDirective line) :
    joined (plain (line :: ls)) = line ++ ['\n'] ++ joined (plain ls) := by
  simp [plain, joined, h]

/-- A line that the header may have, apart from the one that ends it. -/
def Heads (line : List Char) : Prop :=
  IsRemark line ∨ (∃ a, a ≠ "" ∧ Directs line "connection" a) ∨ ∃ a, Directs line "transaction" a

/-- The lines name this connection last.  Where they name none, it is the one from before. -/
def LastConnection (before : Option String) (ls : List (List Char)) (c : Option String) : Prop :=
  (∃ earlier line later a, ls = earlier ++ line :: later ∧ Directs line "connection" a ∧
    (∀ l ∈ later, ∀ b, ¬Directs l "connection" b) ∧ c = some a) ∨
  ((∀ l ∈ ls, ∀ b, ¬Directs l "connection" b) ∧ c = before)

/-- A line has the directive for a transaction. -/
def AsksTransaction (ls : List (List Char)) : Prop :=
  ∃ line ∈ ls, ∃ a, Directs line "transaction" a

/-- The lines of a migration: a header, the directive for the first part, and lines in which the
only directive is the one for the second. -/
def Divided (ls header body : List (List Char)) : Prop :=
  ∃ opening, ls = header ++ opening :: body ∧ (∀ line ∈ header, Heads line) ∧
    (∃ a, Directs opening "up" a) ∧ OnlyDown body

variable {before c : Option String}

theorem lastConnection_nil : LastConnection before [] c ↔ c = before := by
  simp [LastConnection]

theorem lastConnection_cons_of {a : String} (h : Directs line "connection" a) :
    LastConnection before (line :: ls) c ↔ LastConnection (some a) ls c := by
  constructor
  · rintro (⟨earlier, other, later, b, hls, hother, hlater, rfl⟩ | ⟨hnone, -⟩)
    · rcases List.cons_eq_append_iff.mp hls with ⟨rfl, hrest⟩ | ⟨rest, rfl, hrest⟩
      · cases hrest
        exact .inr ⟨hlater, congrArg some (h.unique hother).2.symm⟩
      · exact .inl ⟨rest, other, later, b, hrest, hother, hlater, rfl⟩
    · exact absurd h (hnone line List.mem_cons_self a)
  · rintro (⟨earlier, other, later, b, rfl, hother, hlater, rfl⟩ | ⟨hnone, rfl⟩)
    · exact .inl ⟨line :: earlier, other, later, b, rfl, hother, hlater, rfl⟩
    · exact .inl ⟨[], line, ls, a, rfl, h, hnone, rfl⟩

theorem lastConnection_cons_of_not (h : ∀ a, ¬Directs line "connection" a) :
    LastConnection before (line :: ls) c ↔ LastConnection before ls c := by
  constructor
  · rintro (⟨earlier, other, later, b, hls, hother, hlater, rfl⟩ | ⟨hnone, rfl⟩)
    · rcases List.cons_eq_append_iff.mp hls with ⟨rfl, hrest⟩ | ⟨rest, rfl, hrest⟩
      · cases hrest
        exact absurd hother (h b)
      · exact .inl ⟨rest, other, later, b, hrest, hother, hlater, rfl⟩
    · exact .inr ⟨(List.forall_mem_cons.mp hnone).2, rfl⟩
  · rintro (⟨earlier, other, later, b, rfl, hother, hlater, rfl⟩ | ⟨hnone, rfl⟩)
    · exact .inl ⟨line :: earlier, other, later, b, rfl, hother, hlater, rfl⟩
    · exact .inr ⟨List.forall_mem_cons.mpr ⟨h, hnone⟩, rfl⟩

theorem exists_lastConnection (before : Option String) (ls : List (List Char)) :
    ∃ c, LastConnection before ls c := by
  induction ls generalizing before with
  | nil => exact ⟨before, lastConnection_nil.mpr rfl⟩
  | cons line ls ih =>
      by_cases h : ∃ a, Directs line "connection" a
      · obtain ⟨a, h⟩ := h
        exact (ih (some a)).imp fun _ => (lastConnection_cons_of h).mpr
      · exact (ih before).imp fun _ => (lastConnection_cons_of_not (not_exists.mp h)).mpr

theorem asksTransaction_cons : AsksTransaction (line :: ls) ↔
    (∃ a, Directs line "transaction" a) ∨ AsksTransaction ls :=
  List.exists_mem_cons_iff _ line ls

theorem Heads.not_up {a : String} (h : Heads line) : ¬Directs line "up" a := by
  intro hup
  rcases h with hremark | ⟨b, -, hother⟩ | ⟨b, hother⟩
  · exact hup.not_isRemark hremark
  · simpa using (hup.unique hother).1
  · simpa using (hup.unique hother).1

theorem not_divided_nil {header body : List (List Char)} : ¬Divided [] header body := by
  rintro ⟨opening, hls, -⟩
  exact absurd hls.symm (List.append_ne_nil_of_right_ne_nil _ (List.cons_ne_nil _ _))

/-- The first line belongs to the header, or the header is empty. -/
theorem divided_cons {header body : List (List Char)} : Divided (line :: ls) header body ↔
    (Heads line ∧ ∃ rest, header = line :: rest ∧ Divided ls rest body) ∨
    ((∃ a, Directs line "up" a) ∧ header = [] ∧ body = ls ∧ OnlyDown ls) := by
  constructor
  · rintro ⟨opening, hls, hheader, hopening, honly⟩
    rcases List.cons_eq_append_iff.mp hls with ⟨rfl, hrest⟩ | ⟨rest, rfl, rfl⟩
    · cases hrest
      exact .inr ⟨hopening, rfl, rfl, honly⟩
    · obtain ⟨hline, hheader⟩ := List.forall_mem_cons.mp hheader
      exact .inl ⟨hline, rest, rfl, opening, rfl, hheader, hopening, honly⟩
  · rintro (⟨hline, rest, rfl, opening, rfl, hheader, hopening, honly⟩ |
      ⟨hopening, rfl, rfl, honly⟩)
    · exact ⟨opening, rfl, List.forall_mem_cons.mpr ⟨hline, hheader⟩, hopening, honly⟩
    · exact ⟨line, rfl, by simp, hopening, honly⟩

/-! ### One line -/

namespace Draft

variable {d d' : Draft} {n : Nat}

/-- The header has two directives of its own, and ends with the one for the first part. -/
theorem direct_header_iff (hpart : d.part = .header) :
    d.direct n ⟨name, argument⟩ = .ok d' ↔
      (name = "connection" ∧ argument ≠ "" ∧ d' = { d with connection := some argument }) ∨
      (name = "transaction" ∧ d' = { d with transaction := true }) ∨
      (name = "up" ∧ d' = { d with part := .up }) := by
  constructor
  · intro h
    unfold direct at h
    split at h
    · rename_i hname _
      cases h
      exact .inr (.inr ⟨hname, rfl⟩)
    · cases h
    · cases h
    · rename_i hlater
      exact absurd hpart hlater
    · rename_i hname _
      split at h
      · cases h
      · rename_i hempty
        cases h
        exact .inl ⟨hname, by simpa using hempty, rfl⟩
    · rename_i hname _
      cases h
      exact .inr (.inl ⟨hname, rfl⟩)
    · cases h
  · rintro (⟨rfl, hargument, rfl⟩ | ⟨rfl, rfl⟩ | ⟨rfl, rfl⟩)
    · have hempty : ¬argument.isEmpty = true := by simpa using hargument
      simp only [direct, hpart, if_neg hempty]
    · simp only [direct, hpart]
    · simp only [direct, hpart]

/-- Behind the header the only directive is the one for the second part. -/
theorem direct_behind_iff (hpart : d.part ≠ .header) :
    d.direct n ⟨name, argument⟩ = .ok d' ↔ name = "down" ∧ d' = { d with part := .down } := by
  constructor
  · intro h
    unfold direct at h
    split at h
    · exact absurd ‹d.part = .header› hpart
    · cases h
    · cases h
    · rename_i hname _
      cases h
      exact ⟨hname, rfl⟩
    · exact absurd ‹d.part = .header› hpart
    · exact absurd ‹d.part = .header› hpart
    · cases h
  · rintro ⟨rfl, rfl⟩
    cases hlater : d.part with
    | header => exact absurd hlater hpart
    | up => simp only [direct, hlater]
    | down => simp only [direct, hlater]

theorem next_of_directs (h : Directs line name argument) :
    d.next (line, n) = d.direct n ⟨name, argument⟩ := by
  rw [next, ofChars_eq_directive_iff.mpr h]

/-- A line that ends the header. -/
theorem next_opening {a : String} (hpart : d.part = .header) (h : Directs line "up" a) :
    d.next (line, n) = .ok { d with part := .up } := by
  rw [next_of_directs h, direct_header_iff hpart]
  exact .inr (.inr ⟨rfl, rfl⟩)

/-- A line that the header has changes nothing but where and how the migration runs. -/
theorem next_heads (hpart : d.part = .header) (h : Heads line) :
    ∃ after, d.next (line, n) = .ok after ∧
      after.part = .header ∧ after.up = d.up ∧ after.down = d.down ∧
      (∀ ls c, LastConnection d.connection (line :: ls) c ↔
        LastConnection after.connection ls c) ∧
      (after.transaction = true ↔ d.transaction = true ∨ ∃ a, Directs line "transaction" a) := by
  rcases h with hremark | ⟨a, hne, hdirects⟩ | ⟨a, hdirects⟩
  · refine ⟨d, ?_, hpart, rfl, rfl, ?_, ?_⟩
    · rw [next, ofChars_eq_remark_iff.mpr hremark, hpart]
    · exact fun _ _ => lastConnection_cons_of_not fun b hb => hb.not_isRemark hremark
    · exact (or_iff_left fun ⟨b, hb⟩ => hb.not_isRemark hremark).symm
  · refine ⟨{ d with connection := some a }, ?_, hpart, rfl, rfl, ?_, ?_⟩
    · rw [next_of_directs hdirects, direct_header_iff hpart]
      exact .inl ⟨rfl, hne, rfl⟩
    · exact fun _ _ => lastConnection_cons_of hdirects
    · exact (or_iff_left fun ⟨b, hb⟩ => by simpa using (hdirects.unique hb).1).symm
  · refine ⟨{ d with transaction := true }, ?_, hpart, rfl, rfl, ?_, ?_⟩
    · rw [next_of_directs hdirects, direct_header_iff hpart]
      exact .inr (.inl ⟨rfl, rfl⟩)
    · exact fun _ _ => lastConnection_cons_of_not fun b hb => by
        simpa using (hdirects.unique hb).1
    · exact iff_of_true rfl (.inr ⟨a, hdirects⟩)

/-- The header has no other lines. -/
theorem heads_or_up_of_next (hpart : d.part = .header) (h : d.next (line, n) = .ok d') :
    Heads line ∨ ∃ a, Directs line "up" a := by
  rcases line_cases line with ⟨name, argument, hdirects, -⟩ | ⟨hremark, -⟩ | ⟨-, -, hline⟩
  · rw [next_of_directs hdirects, direct_header_iff hpart] at h
    rcases h with ⟨rfl, hargument, -⟩ | ⟨rfl, -⟩ | ⟨rfl, -⟩
    · exact .inl (.inr (.inl ⟨argument, hargument, hdirects⟩))
    · exact .inl (.inr (.inr ⟨argument, hdirects⟩))
    · exact .inr ⟨argument, hdirects⟩
  · exact .inl (.inl hremark)
  · rw [next, hline, hpart] at h
    cases h

/-- The draft with one more line in the part that it is in; a header has no lines. -/
def take (d : Draft) (line : List Char) : Draft :=
  match d.part with
  | .header => d
  | .up => { d with up := d.up ++ line ++ ['\n'] }
  | .down => { d with down := d.down ++ line ++ ['\n'] }

/-- A line behind the header: it goes to the part that the reading is in, or to neither as the
directive for the second. -/
theorem next_behind_iff (hpart : d.part ≠ .header) :
    d.next (line, n) = .ok d' ↔
      (¬IsDirective line ∧ d' = d.take line) ∨
      ∃ a, Directs line "down" a ∧ d' = { d with part := .down } := by
  rcases line_cases line with ⟨name, argument, hdirects, -⟩ | hother
  · rw [next_of_directs hdirects, direct_behind_iff hpart]
    constructor
    · rintro ⟨rfl, hd⟩
      exact .inr ⟨argument, hdirects, hd⟩
    · rintro (⟨hdirective, -⟩ | ⟨a, hdown, hd⟩)
      · exact absurd hdirects.isDirective hdirective
      · exact ⟨(hdirects.unique hdown).1, hd⟩
  · have hnext : ¬IsDirective line ∧ d.next (line, n) = .ok (d.take line) := by
      rcases hother with ⟨hremark, hline⟩ | ⟨hdirective, -, hline⟩
      · refine ⟨hremark.1, ?_⟩
        cases hlater : d.part with
        | header => exact absurd hlater hpart
        | up => simp only [next, hline, hlater, take]
        | down => simp only [next, hline, hlater, take]
      · refine ⟨hdirective, ?_⟩
        cases hlater : d.part with
        | header => exact absurd hlater hpart
        | up => simp only [next, hline, hlater, take]
        | down => simp only [next, hline, hlater, take]
    rw [hnext.2]
    constructor
    · intro h
      cases h
      exact .inl ⟨hnext.1, rfl⟩
    · rintro (⟨-, rfl⟩ | ⟨a, hdirects, -⟩)
      · rfl
      · exact absurd hdirects.isDirective hnext.1

/-! ### All lines -/

/-- The draft once the lines are read, the first of them by that number. -/
def read (d : Draft) (ls : List (List Char)) (n : Nat) : Except ScriptFault Draft :=
  (ls.zipIdx n).foldlM next d

theorem read_nil_iff : d.read [] n = .ok d' ↔ d' = d :=
  ⟨fun h => by cases h; rfl, fun h => by rw [h]; rfl⟩

theorem read_cons_iff : d.read (line :: ls) n = .ok d' ↔
    ∃ after, d.next (line, n) = .ok after ∧ after.read ls (n + 1) = .ok d' := by
  unfold read
  rw [List.zipIdx_cons, List.foldlM_cons]
  constructor
  · exact exists_of_bind
  · rintro ⟨after, hnext, hread⟩
    rw [hnext]
    exact hread

/-- The second part takes all lines but the directives, and has but one directive. -/
theorem read_down_iff (hpart : d.part = .down) :
    d.read ls n = .ok d' ↔ OnlyDown ls ∧ d' = { d with down := d.down ++ joined (plain ls) } := by
  induction ls generalizing d n with
  | nil => simp [read_nil_iff, OnlyDown, plain, joined]
  | cons line ls ih =>
      have hbehind : d.part ≠ .header := by simp [hpart]
      rw [read_cons_iff, onlyDown_cons]
      constructor
      · rintro ⟨after, hnext, hread⟩
        rcases (next_behind_iff hbehind).mp hnext with ⟨hline, rfl⟩ | ⟨a, hdirects, rfl⟩
        · obtain ⟨honly, rfl⟩ := (ih (by simp [take, hpart])).mp hread
          refine ⟨⟨fun h => absurd h hline, honly⟩, ?_⟩
          simp [take, hpart, joined_plain_cons_of_not hline]
        · obtain ⟨honly, rfl⟩ := (ih rfl).mp hread
          refine ⟨⟨fun _ => ⟨a, hdirects⟩, honly⟩, ?_⟩
          rw [joined_plain_cons_of hdirects.isDirective, hpart]
      · rintro ⟨⟨hline, honly⟩, rfl⟩
        by_cases hdirective : IsDirective line
        · obtain ⟨a, hdirects⟩ := hline hdirective
          refine ⟨_, (next_behind_iff hbehind).mpr (.inr ⟨a, hdirects, rfl⟩), ?_⟩
          rw [ih rfl, joined_plain_cons_of hdirective, hpart]
          exact ⟨honly, rfl⟩
        · refine ⟨_, (next_behind_iff hbehind).mpr (.inl ⟨hdirective, rfl⟩), ?_⟩
          rw [ih (by simp [take, hpart])]
          exact ⟨honly, by simp [take, hpart, joined_plain_cons_of_not hdirective]⟩

/-- The part that the lines behind the header end in. -/
def partAfter (body : List (List Char)) : Part :=
  if fromDirective body = [] then .up else .down

theorem partAfter_ne_header {body : List (List Char)} : partAfter body ≠ .header := by
  unfold partAfter
  split <;> simp

/-- The first part takes the lines up to the first directive, and the second what follows it. -/
theorem read_up_iff (hpart : d.part = .up) :
    d.read ls n = .ok d' ↔
      OnlyDown ls ∧ d' = { d with
        part := partAfter ls
        up := d.up ++ joined (beforeDirective ls)
        down := d.down ++ joined (plain (fromDirective ls)) } := by
  induction ls generalizing d n with
  | nil =>
      simp [read_nil_iff, OnlyDown, partAfter, beforeDirective, fromDirective, plain, joined,
        ← hpart]
  | cons line ls ih =>
      have hbehind : d.part ≠ .header := by simp [hpart]
      rw [read_cons_iff, onlyDown_cons]
      by_cases hdirective : IsDirective line
      · -- the second part begins here, and the rest of the lines is read in it
        have hfrom : fromDirective (line :: ls) = line :: ls := by simp [fromDirective, hdirective]
        have hbefore : beforeDirective (line :: ls) = [] := by simp [beforeDirective, hdirective]
        rw [partAfter, hfrom, hbefore, joined_plain_cons_of hdirective, joined, List.flatMap_nil,
          List.append_nil, if_neg (List.cons_ne_nil line ls)]
        constructor
        · rintro ⟨after, hnext, hread⟩
          rcases (next_behind_iff hbehind).mp hnext with ⟨hline, -⟩ | ⟨a, hdirects, rfl⟩
          · exact absurd hdirective hline
          · obtain ⟨honly, rfl⟩ := (read_down_iff rfl).mp hread
            exact ⟨⟨fun _ => ⟨a, hdirects⟩, honly⟩, rfl⟩
        · rintro ⟨⟨hline, honly⟩, rfl⟩
          obtain ⟨a, hdirects⟩ := hline hdirective
          exact ⟨_, (next_behind_iff hbehind).mpr (.inr ⟨a, hdirects, rfl⟩),
            (read_down_iff rfl).mpr ⟨honly, rfl⟩⟩
      · have hfrom : fromDirective (line :: ls) = fromDirective ls := by
          simp [fromDirective, hdirective]
        have hbefore : beforeDirective (line :: ls) = line :: beforeDirective ls := by
          simp [beforeDirective, hdirective]
        have htaken : (d.take line).part = .up := by simp [take, hpart]
        have hnext : ∀ after, d.next (line, n) = .ok after ↔ after = d.take line := fun after => by
          rw [next_behind_iff hbehind]
          exact ⟨fun h => h.elim And.right fun ⟨a, ha, _⟩ => absurd ha.isDirective hdirective,
            fun h => .inl ⟨hdirective, h⟩⟩
        simp only [hnext, exists_eq_left, ih htaken, hfrom, hbefore, partAfter, hdirective,
          false_implies, true_and]
        simp [take, hpart, joined]

/-- The header leads to the first part, and says on its way where and how the migration runs. -/
theorem read_header_iff (hpart : d.part = .header) :
    d.read ls n = .ok d' ∧ d'.part ≠ .header ↔
      ∃ header body, Divided ls header body ∧
        LastConnection d.connection header d'.connection ∧
        (d'.transaction = true ↔ d.transaction = true ∨ AsksTransaction header) ∧
        d'.part = partAfter body ∧
        d'.up = d.up ++ joined (beforeDirective body) ∧
        d'.down = d.down ++ joined (plain (fromDirective body)) := by
  induction ls generalizing d n with
  | nil =>
      rw [read_nil_iff]
      exact iff_of_false (fun h => h.2 (h.1 ▸ hpart))
        fun ⟨_, _, hdivided, _⟩ => not_divided_nil hdivided
  | cons line ls ih =>
      rw [read_cons_iff]
      by_cases hline : Heads line
      · obtain ⟨after, hnext, hlater, hup, hdown, hconnection, htransaction⟩ :=
          next_heads (n := n) hpart hline
        have hread := ih (n := n + 1) hlater
        rw [hup, hdown] at hread
        simp only [hnext, Except.ok.injEq, exists_eq_left', hread]
        constructor
        · rintro ⟨header, body, hdivided, hnamed, hasked, hrest⟩
          refine ⟨line :: header, body, divided_cons.mpr (.inl ⟨hline, header, rfl, hdivided⟩),
            (hconnection header _).mpr hnamed, ?_, hrest⟩
          rw [hasked, htransaction, asksTransaction_cons, or_assoc]
        · rintro ⟨_, body, hdivided, hnamed, hasked, hrest⟩
          rcases divided_cons.mp hdivided with ⟨-, header, rfl, hbehind⟩ | ⟨⟨a, hopening⟩, -⟩
          · refine ⟨header, body, hbehind, (hconnection header _).mp hnamed, ?_, hrest⟩
            rw [hasked, htransaction, asksTransaction_cons, or_assoc]
          · exact absurd hopening hline.not_up
      · constructor
        · rintro ⟨⟨after, hnext, hread⟩, -⟩
          obtain ⟨a, hopening⟩ := (heads_or_up_of_next hpart hnext).resolve_left hline
          rw [next_opening hpart hopening] at hnext
          cases hnext
          obtain ⟨honly, rfl⟩ := (read_up_iff rfl).mp hread
          refine ⟨[], ls, divided_cons.mpr (.inr ⟨⟨a, hopening⟩, rfl, rfl, honly⟩),
            lastConnection_nil.mpr rfl, ?_, rfl, rfl, rfl⟩
          simp [AsksTransaction]
        · rintro ⟨header, body, hdivided, hnamed, hasked, hlater, hup, hdown⟩
          obtain ⟨⟨a, hopening⟩, rfl, rfl, honly⟩ :=
            (divided_cons.mp hdivided).resolve_left fun h => hline h.1
          refine ⟨⟨_, next_opening hpart hopening, (read_up_iff rfl).mpr ⟨honly, ?_⟩⟩, ?_⟩
          · have htransaction : d'.transaction = d.transaction := by
              simpa [AsksTransaction] using hasked
            rw [← lastConnection_nil.mp hnamed, ← htransaction, ← hlater, ← hup, ← hdown]
          · rw [hlater]
            exact partAfter_ne_header

end Draft

/-! ### The text -/

variable {source : String} {s : Script}

theorem parse_eq : parse source = (Draft.read {} (lines source.toList) 1) >>= Draft.finish :=
  rfl

theorem Draft.finish_eq_ok_iff {d : Draft} : d.finish = .ok s ↔ d.part ≠ .header ∧
    s = ⟨d.connection, d.transaction, statements (String.ofList d.up),
      statements (String.ofList d.down)⟩ := by
  unfold finish
  split
  · simp_all
  · simp_all [eq_comm]

theorem parse_eq_ok_iff : parse source = .ok s ↔
    ∃ header body, Divided (lines source.toList) header body ∧
      LastConnection none header s.connection ∧
      (s.transaction = true ↔ AsksTransaction header) ∧
      s.up = statements (String.ofList (joined (beforeDirective body))) ∧
      s.down = statements (String.ofList (joined (plain (fromDirective body)))) := by
  have hread := fun draft : Draft => (Draft.read_header_iff rfl :
    Draft.read {} (lines source.toList) 1 = .ok draft ∧ draft.part ≠ .header ↔ _)
  rw [parse_eq]
  constructor
  · intro h
    obtain ⟨draft, hdraft, hfinish⟩ := exists_of_bind h
    obtain ⟨hbehind, rfl⟩ := Draft.finish_eq_ok_iff.mp hfinish
    obtain ⟨header, body, hdivided, hnamed, hasked, -, hup, hdown⟩ :=
      (hread draft).mp ⟨hdraft, hbehind⟩
    refine ⟨header, body, hdivided, hnamed, ?_, ?_, ?_⟩
    · simpa using hasked
    · rw [hup, List.nil_append]
    · rw [hdown, List.nil_append]
  · rintro ⟨header, body, hdivided, hnamed, hasked, hup, hdown⟩
    obtain ⟨hdraft, hbehind⟩ := (hread ⟨Draft.partAfter body, s.connection, s.transaction,
      joined (beforeDirective body), joined (plain (fromDirective body))⟩).mpr
        ⟨header, body, hdivided, hnamed, by simpa using hasked, rfl, rfl, rfl⟩
    rw [hdraft]
    refine Draft.finish_eq_ok_iff.mpr ⟨hbehind, ?_⟩
    rw [← hup, ← hdown]

/-- **A migration is read as its lines divide it.**  The text is read exactly when its lines are
remarks, named connections and requests for a transaction, then the directive for the first part,
then lines in which the only directive is the one for the second.  The migration runs where the
header says last, and in a transaction if the header asks for one.  Its first statements are those
of the lines up to the next directive, and its second those of all lines behind, without the
directives. -/
theorem sections_of_parse :
    ((∃ s, parse source = .ok s) ↔ ∃ header body, Divided (lines source.toList) header body) ∧
    ∀ s, parse source = .ok s ↔
      ∃ header body, Divided (lines source.toList) header body ∧
        LastConnection none header s.connection ∧
        (s.transaction = true ↔ AsksTransaction header) ∧
        s.up = statements (String.ofList (joined (beforeDirective body))) ∧
        s.down = statements (String.ofList (joined (plain (fromDirective body)))) := by
  refine ⟨⟨?_, ?_⟩, fun s => parse_eq_ok_iff⟩
  · rintro ⟨s, h⟩
    obtain ⟨header, body, hdivided, -⟩ := parse_eq_ok_iff.mp h
    exact ⟨header, body, hdivided⟩
  · rintro ⟨header, body, hdivided⟩
    obtain ⟨c, hnamed⟩ := exists_lastConnection none header
    by_cases hasked : AsksTransaction header
    · exact ⟨⟨c, true, _, _⟩, parse_eq_ok_iff.mpr
        ⟨header, body, hdivided, hnamed, iff_of_true rfl hasked, rfl, rfl⟩⟩
    · exact ⟨⟨c, false, _, _⟩, parse_eq_ok_iff.mpr
        ⟨header, body, hdivided, hnamed, iff_of_false Bool.false_ne_true hasked, rfl, rfl⟩⟩

end Script

end Relational
