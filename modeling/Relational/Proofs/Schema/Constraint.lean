import Relational.Dialect.Index
import Relational.Proofs.Schema.Cutting
/-
Constraints, written and read back.

A constraint of a new table passes the cutter as one entry and opens with a keyword that
is no quoted name, so it is read back as a constraint.
-/
namespace Relational

open TableSnapshot

/-- An entry that is read as a constraint. -/
structure ReadsAsConstraint (s : String) : Prop where
  passes : Passes 1 s.toList
  tight : Tight s.toList
  read : TableItem.ofChars s.toList = .constraint s

namespace Dialect

theorem passes_key (names : List String) :
    Passes 1 ("(" ++ sqlite.quoteNames names ++ ")").toList := by
  have htext : ("(" ++ sqlite.quoteNames names ++ ")").toList =
      '(' :: ((sqlite.quoteNames names).toList ++ [')']) := by
    simp
  rw [htext]
  exact (passes_quoteNames names).group

/-- What opens with the keyword of a constraint is one. -/
theorem ofChars_constraint {word : String} (hword : word ∈ ["CONSTRAINT", "PRIMARY"]) {s : String}
    {rest : List Char} (h : s.toList = word.toList ++ ' ' :: rest) :
    TableItem.ofChars s.toList = .constraint s := by
  have hread : TableItem.leadingName? s.toList = some (word.toList, false) := by
    rw [h]
    simp only [List.mem_cons, List.not_mem_nil, or_false] at hword
    rcases hword with rfl | rfl
    · rfl
    · rfl
  rw [TableItem.ofChars, hread]
  simp only [String.ofList_toList]
  simp only [List.mem_cons, List.not_mem_nil, or_false] at hword
  rcases hword with rfl | rfl
  · rfl
  · rfl

theorem readsAsConstraint (word : String) (rest : List Char) (hword : word ∈ ["CONSTRAINT", "PRIMARY"])
    {s : String} (h : s.toList = word.toList ++ ' ' :: rest) (hpasses : Passes 1 s.toList)
    (hends : Ends s.toList) : ReadsAsConstraint s := by
  refine ⟨hpasses, ⟨?_, hends.resolve_left ?_⟩, ofChars_constraint hword h⟩
  · rw [h]
    simp only [List.mem_cons, List.not_mem_nil, or_false] at hword
    rcases hword with rfl | rfl
    · exact ⟨'C', _, rfl, rfl⟩
    · exact ⟨'P', _, rfl, rfl⟩
  · rw [h]
    simp

theorem passes_action (word : String) (hword : word.toList.all isOrdinary = true)
    (a : Option ForeignAction) : Passes 1 (match a with
      | some a => word ++ a.sql
      | none => "").toList := by
  cases a with
  | none => exact .nil
  | some a =>
      have hsql : a.sql.toList.all isOrdinary = true := by
        cases a <;> decide
      rw [String.toList_append]
      exact (passes_of_ordinary hword).append (passes_of_ordinary hsql)

theorem ends_action (word : String) (a : Option ForeignAction) : Ends (match a with
      | some a => word ++ a.sql
      | none => "").toList := by
  cases a with
  | none => exact .inl rfl
  | some a =>
      have hsql : ∃ front x, a.sql.toList = front ++ [x] ∧ Text.isBlank x = false := by
        cases a with
        | cascade => exact ⟨"CASCAD".toList, 'E', rfl, rfl⟩
        | setNull => exact ⟨"SET NUL".toList, 'L', rfl, rfl⟩
        | restrict => exact ⟨"RESTRIC".toList, 'T', rfl, rfl⟩
        | noAction => exact ⟨"NO ACTIO".toList, 'N', rfl, rfl⟩
      obtain ⟨front, x, hfront, hx⟩ := hsql
      exact .inr ⟨word.toList ++ front, x, by simp [hfront], hx⟩

theorem primaryConstraint_reads (table : String) (i : Index) :
    ReadsAsConstraint (sqlite.primaryConstraint table i) := by
  have hkey : Passes 1 ("PRIMARY KEY ".toList ++ ("(" ++ sqlite.quoteNames i.columns ++ ")").toList) :=
    (passes_of_ordinary (by decide)).append (passes_key i.columns)
  unfold primaryConstraint
  cases i.name with
  | none =>
      have htext : ("PRIMARY KEY (" ++ sqlite.quoteNames i.columns ++ ")").toList =
          "PRIMARY KEY ".toList ++ ("(" ++ sqlite.quoteNames i.columns ++ ")").toList := by
        simp
      refine readsAsConstraint "PRIMARY"
        ("KEY (".toList ++ (sqlite.quoteNames i.columns).toList ++ [')']) (by decide)
        (by simp) (by rw [htext]; exact hkey) ?_
      exact .inr ⟨_, ')', String.toList_append, rfl⟩
  | some name =>
      have htext : ("CONSTRAINT " ++ sqlite.quoteName name ++ " " ++
          ("PRIMARY KEY (" ++ sqlite.quoteNames i.columns ++ ")")).toList =
          "CONSTRAINT ".toList ++ ((sqlite.quoteName name).toList ++ ([' '] ++
            ("PRIMARY KEY ".toList ++ ("(" ++ sqlite.quoteNames i.columns ++ ")").toList))) := by
        simp
      refine readsAsConstraint "CONSTRAINT"
        ((sqlite.quoteName name).toList ++ " PRIMARY KEY (".toList ++
          (sqlite.quoteNames i.columns).toList ++ [')']) (by decide) (by simp) ?_ ?_
      · rw [htext]
        exact (passes_of_ordinary (by decide)).append ((passes_quoteName name).append
          ((passes_of_ordinary (by decide)).append hkey))
      · exact .inr ⟨("CONSTRAINT " ++ sqlite.quoteName name ++ " " ++
          ("PRIMARY KEY (" ++ sqlite.quoteNames i.columns)).toList, ')', by simp, rfl⟩

/-- A reference, whatever stands in its places, as long as it passes. -/
theorem reference_reads {name key table referenced onDelete onUpdate : String}
    (hname : Passes 1 name.toList) (hkey : Passes 1 ("(" ++ key ++ ")").toList)
    (htable : Passes 1 table.toList) (hreferenced : Passes 1 ("(" ++ referenced ++ ")").toList)
    (hdelete : Passes 1 onDelete.toList) (hupdate : Passes 1 onUpdate.toList)
    (hends : Ends (onDelete.toList ++ onUpdate.toList)) :
    ReadsAsConstraint ("CONSTRAINT " ++ name ++ " FOREIGN KEY (" ++ key ++ ") REFERENCES " ++ table ++
      " (" ++ referenced ++ ")" ++ onDelete ++ onUpdate) := by
  have htext : ("CONSTRAINT " ++ name ++ " FOREIGN KEY (" ++ key ++ ") REFERENCES " ++ table ++
      " (" ++ referenced ++ ")" ++ onDelete ++ onUpdate).toList =
      "CONSTRAINT".toList ++ (" ".toList ++ (name.toList ++ (" FOREIGN KEY ".toList ++
        (("(" ++ key ++ ")").toList ++ (" REFERENCES ".toList ++ (table.toList ++ (" ".toList ++
          (("(" ++ referenced ++ ")").toList ++ (onDelete.toList ++ onUpdate.toList))))))))) := by
    simp
  have hclosed : Ends ("(" ++ referenced ++ ")").toList :=
    .inr ⟨("(" ++ referenced).toList, ')', String.toList_append, rfl⟩
  refine readsAsConstraint "CONSTRAINT" _ (by decide) htext ?_ ?_
  · rw [htext]
    refine Passes.append (passes_of_ordinary (by decide)) (.append (passes_of_ordinary (by decide))
      (hname.append (.append (passes_of_ordinary (by decide)) (hkey.append (.append
        (passes_of_ordinary (by decide)) (htable.append (.append (passes_of_ordinary (by decide))
          (hreferenced.append (hdelete.append hupdate)))))))))
  · have hsplit : ("CONSTRAINT " ++ name ++ " FOREIGN KEY (" ++ key ++ ") REFERENCES " ++ table ++
        " (" ++ referenced ++ ")" ++ onDelete ++ onUpdate).toList =
        ("CONSTRAINT " ++ name ++ " FOREIGN KEY (" ++ key ++ ") REFERENCES " ++ table ++ " ").toList ++
          (("(" ++ referenced ++ ")").toList ++ (onDelete.toList ++ onUpdate.toList)) := by
      simp
    have hne : ("(" ++ referenced ++ ")").toList ++ (onDelete.toList ++ onUpdate.toList) ≠ [] := by
      simp
    obtain ⟨front, x, hfront, hx⟩ := (hclosed.append hends).resolve_left hne
    rw [hsplit, hfront]
    exact .inr ⟨_, x, (List.append_assoc ..).symm, hx⟩

theorem foreignKeyClause_reads (fk : ForeignKey) : ReadsAsConstraint (sqlite.foreignKeyClause fk) :=
  reference_reads (passes_quoteName _) (passes_key _) (passes_quoteName _) (passes_key _)
    (passes_action " ON DELETE " (by decide) fk.onDelete)
    (passes_action " ON UPDATE " (by decide) fk.onUpdate)
    ((ends_action " ON DELETE " fk.onDelete).append (ends_action " ON UPDATE " fk.onUpdate))

end Dialect

end Relational
