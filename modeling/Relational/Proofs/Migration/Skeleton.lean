import Relational.Migration.Scaffold
/-
The script that a migration starts with.

The text says no more than the connection, and it is read as a script without statements.
A line carries the connection, so its name has to be on one line, and the blanks around it
do not count.
-/
namespace Relational

namespace Script

/-! ### Lines -/

theorem lines_append {s : List Char} (hline : '\n' ∉ s) (hreturn : s.getLast? ≠ some '\r')
    (rest : List Char) : lines (s ++ '\n' :: rest) = s :: lines rest := by
  induction s with
  | nil => rfl
  | cons c s ih =>
      have hrest : lines (s ++ '\n' :: rest) = s :: lines rest := by
        refine ih (fun h => hline (List.mem_cons_of_mem c h)) fun h => hreturn ?_
        rw [List.getLast?_cons, h]
        rfl
      have hc : c ≠ '\n' := fun h => hline (h ▸ List.mem_cons_self)
      rw [List.cons_append, lines, hrest]
      · exact hc
      · rintro after rfl hnext
        cases s with
        | nil => exact hreturn rfl
        | cons d s => exact hline (by simp [(List.cons.inj hnext).1])

/-- A name that a line can carry: there is one, on one line, and without blanks around it. -/
structure IsCarried (name : String) : Prop where
  given : name ≠ ""
  unbroken : '\n' ∉ name.toList
  trimmed : Text.trim name.toList = name.toList

/-- Such a name does not end in a blank. -/
theorem IsCarried.exists_last {name : String} (h : IsCarried name) :
    ∃ front c, name.toList = front ++ [c] ∧ Text.isBlank c = false := by
  have hne : name.toList ≠ [] := by simpa using h.given
  obtain ⟨front, c, hlast⟩ := (List.eq_nil_or_concat name.toList).resolve_left hne
  rw [List.concat_eq_append] at hlast
  refine ⟨front, c, hlast, ?_⟩
  have hhead := List.head?_dropWhile_not Text.isBlank (Text.trimStart name.toList).reverse
  have htrimmed : (Text.trimStart name.toList).reverse.dropWhile Text.isBlank =
      c :: front.reverse := by
    have hreversed := congrArg List.reverse h.trimmed
    rw [hlast, List.reverse_append] at hreversed
    simpa [Text.trim, Text.trimEnd, Text.dropEndWhile, hlast] using hreversed
  rw [htrimmed] at hhead
  simpa using hhead

/-- The first line of a skeleton is the directive that it was written for. -/
theorem ofChars_connection {name : String} (h : IsCarried name) :
    Line.ofChars (directiveMark ++ "connection " ++ name).toList =
      .directive ⟨"connection", name⟩ := by
  obtain ⟨front, c, hlast, hblank⟩ := h.exists_last
  have hline : (directiveMark ++ "connection " ++ name).toList =
      directiveMark.toList ++ ("connection".toList ++ ' ' :: name.toList) := by
    simp
  have htrim : Text.trim (directiveMark ++ "connection " ++ name).toList =
      (directiveMark ++ "connection " ++ name).toList := by
    have hstart : Text.trimStart (directiveMark ++ "connection " ++ name).toList =
        (directiveMark ++ "connection " ++ name).toList := by
      rw [hline]
      rfl
    rw [Text.trim, hstart, hline, hlast]
    simp [Text.trimEnd, Text.dropEndWhile, hblank]
  have hmark : Text.afterLead? directiveMark.toList
      (directiveMark ++ "connection " ++ name).toList =
        some ("connection".toList ++ ' ' :: name.toList) :=
    Text.afterLead?_eq_some.mpr hline
  have hword : ∀ c ∈ "connection".toList, Text.isBlank c = false := fun c hc =>
    Bool.eq_false_iff.mpr (List.any_eq_false.mp (by decide) c hc)
  have hcut : Text.cutAt Text.isBlank ("connection".toList ++ ' ' :: name.toList) =
      some ("connection".toList, name.toList) :=
    Text.cutAt_append hword (by decide) _
  unfold Line.ofChars
  simp only [htrim, hmark, hcut, h.trimmed, String.ofList_toList]

end Script

namespace Scaffold

open Script

/-- The sections of a skeleton have no statements, whatever line they start on. -/
theorem read_sections (connection : Option String) (line : Nat) :
    (((lines (skeleton none).toList).zipIdx line).foldlM Draft.next { connection } >>=
      Draft.finish) = .ok { connection, up := [], down := [] } := by
  have hsections : ((lines (skeleton none).toList).zipIdx line).foldlM Draft.next
      { connection } = .ok { part := .down, connection, up := ['\n', '\n'], down := ['\n'] } :=
    rfl
  have hup : statements (String.ofList ['\n', '\n']) = [] := by decide +kernel
  have hdown : statements (String.ofList ['\n']) = [] := by decide +kernel
  have hfinish : Draft.finish { part := .down, connection, up := ['\n', '\n'], down := ['\n'] } =
      .ok { connection, up := [], down := [] } := by
    simp only [Draft.finish, hup, hdown, reduceCtorEq, if_false]
  rw [hsections]
  exact hfinish

/-- The script of a skeleton. -/
theorem parse_skeleton {connection : Option String}
    (h : ∀ name, connection = some name → IsCarried name) :
    parse (skeleton connection) = .ok { connection, up := [], down := [] } := by
  cases connection with
  | none => exact read_sections none 1
  | some name =>
      have hname := h name rfl
      obtain ⟨front, c, hlast, hblank⟩ := hname.exists_last
      have htext : (skeleton (some name)).toList =
          (directiveMark ++ "connection " ++ name).toList ++ '\n' :: (skeleton none).toList := by
        simp [skeleton]
      have hunbroken : '\n' ∉ (directiveMark ++ "connection " ++ name).toList := by
        have hmark : '\n' ∉ (directiveMark ++ "connection ").toList := by decide
        rw [String.toList_append, List.mem_append]
        exact fun h => h.elim hmark hname.unbroken
      have hreturn : (directiveMark ++ "connection " ++ name).toList.getLast? ≠ some '\r' := by
        rw [String.toList_append, hlast, ← List.append_assoc, List.getLast?_append]
        rintro ⟨⟩
        cases hblank
      have hfirst : Draft.next {} ((directiveMark ++ "connection " ++ name).toList, 1) =
          .ok { connection := some name } := by
        simp only [Draft.next, ofChars_connection hname, Draft.direct]
        rw [if_neg (by simpa using hname.given)]
      rw [parse, htext, lines_append hunbroken hreturn, List.zipIdx_cons, List.foldlM_cons, hfirst]
      exact read_sections (some name) 2

end Scaffold

end Relational
