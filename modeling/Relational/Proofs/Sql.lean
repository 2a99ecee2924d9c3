import Relational.Proofs.Name
import Relational.Sql
/-
Rendering numbers the markers of a statement from left to right.

A statement is rendered piece by piece, with the number of values in front carried
along.  This is the same as rendering it with a mark for every placeholder and then
numbering the marks of the whole text, as long as every piece is `Fit`: it leaves no
quoted text open and has as many markers as values.
-/
namespace Relational

/-! ### Rendering with any placeholder -/

/-- The text of the piece with the given placeholders. -/
def Piece.textWith (placeholder : Nat → String) (d : Dialect) (count : Nat) : Piece → String
  | words s => s
  | name n => d.quoteName n
  | raw sql _ => Marker.renumber placeholder count sql
  | bound _ => placeholder (count + 1)

/-- The text of a sequence of pieces with the given placeholders. -/
def Sql.textWith (placeholder : Nat → String) (d : Dialect) (count : Nat) : List Piece → String
  | [] => ""
  | p :: rest =>
    p.textWith placeholder d count ++ textWith placeholder d (count + p.bindings.length) rest

/-- The mark that stands for a placeholder whose number is left open. -/
def Sql.mark (_ : Nat) : String := "?"

theorem Sql.toList_mark (n : Nat) : (mark n).toList = ['?'] := by
  simp [mark]

theorem Piece.text_eq (d : Dialect) (count : Nat) (p : Piece) :
    p.text d count = p.textWith d.placeholder d count := by
  cases p with
  | words s => rfl
  | name n => rfl
  | raw sql bindings => rfl
  | bound v => rfl

theorem Sql.text_eq (d : Dialect) (count : Nat) (pieces : List Piece) :
    text d count pieces = textWith d.placeholder d count pieces := by
  induction pieces generalizing count with
  | nil => rfl
  | cons p rest ih => rw [text, textWith, Piece.text_eq, ih]

/-! ### Pieces that can be numbered -/

/-- Texts are closed, and every value has a marker. -/
def Piece.Fit : Piece → Prop
  | words s => Marker.Silent s.toList
  | name n => ∀ d : Dialect, Marker.Silent (d.quoteName n).toList
  | raw sql bindings => Marker.quotedAfter false sql.toList = false ∧ Marker.count sql = bindings.length
  | bound _ => True

namespace Piece.Fit

variable {p : Piece}

theorem quotedAfter_eq (h : p.Fit) (d : Dialect) (count : Nat) :
    Marker.quotedAfter false (p.textWith Sql.mark d count).toList = false := by
  cases p with
  | words s => exact Marker.Silent.quotedAfter_eq h false
  | name n => exact (h d).quotedAfter_eq false
  | raw sql bindings =>
      rw [textWith, Marker.renumber, String.toList_ofList]
      exact (congrArg _ (Marker.renumberFrom_mark false count _)).trans h.1
  | bound v => simp [textWith, Sql.toList_mark, Marker.quotedAfter]

theorem count_eq (h : p.Fit) (d : Dialect) (count : Nat) :
    Marker.countFrom false (p.textWith Sql.mark d count).toList = p.bindings.length := by
  cases p with
  | words s => exact Marker.Silent.countFrom_eq h false
  | name n => exact (h d).countFrom_eq false
  | raw sql bindings =>
      rw [textWith, Marker.renumber, String.toList_ofList]
      exact (congrArg _ (Marker.renumberFrom_mark false count _)).trans h.2
  | bound v => simp [textWith, Sql.toList_mark, Marker.countFrom, bindings]

theorem renumber_eq (h : p.Fit) (placeholder : Nat → String) (d : Dialect) (count start : Nat) :
    Marker.renumberFrom placeholder false count (p.textWith Sql.mark d start).toList =
      (p.textWith placeholder d count).toList := by
  cases p with
  | words s => exact Marker.Silent.renumberFrom_eq h placeholder false count
  | name n => exact (h d).renumberFrom_eq placeholder false count
  | raw sql bindings =>
      rw [textWith, textWith, Marker.renumber, Marker.renumber, String.toList_ofList,
        String.toList_ofList]
      exact congrArg _ (Marker.renumberFrom_mark false start _)
  | bound v => simp [textWith, Sql.toList_mark, Marker.renumberFrom]

end Piece.Fit

namespace Sql

/-- Every piece can be numbered. -/
def Fit (pieces : List Piece) : Prop :=
  ∀ p ∈ pieces, p.Fit

namespace Fit

theorem nil : Fit [] := by
  simp [Fit]

theorem cons {p : Piece} {rest : List Piece} (hp : p.Fit) (hrest : Fit rest) : Fit (p :: rest) := by
  intro q hq
  rcases List.mem_cons.mp hq with rfl | hq
  · exact hp
  · exact hrest q hq

theorem append {a b : List Piece} (ha : Fit a) (hb : Fit b) : Fit (a ++ b) := by
  intro q hq
  rcases List.mem_append.mp hq with hq | hq
  · exact ha q hq
  · exact hb q hq

theorem flatMap {α : Type} {f : α → List Piece} {xs : List α} (h : ∀ x ∈ xs, Fit (f x)) :
    Fit (xs.flatMap f) := by
  intro q hq
  obtain ⟨x, hx, hq⟩ := List.mem_flatMap.mp hq
  exact h x hx q hq

theorem separated {separator : String} (hseparator : Marker.Silent separator.toList)
    {parts : List (List Piece)} (h : ∀ part ∈ parts, Fit part) :
    Fit (Sql.separated separator parts) := by
  intro q hq
  rcases Text.mem_intercalate hq with hq | ⟨part, hpart, hq⟩
  · rw [List.mem_singleton.mp hq]
    exact hseparator
  · exact h part hpart q hq

end Fit

variable {pieces : List Piece}

/-- Marked, a statement has as many markers as values. -/
theorem count_textWith (h : Fit pieces) (d : Dialect) (count : Nat) :
    Marker.countFrom false (textWith mark d count pieces).toList = (bindings pieces).length := by
  induction pieces generalizing count with
  | nil => rfl
  | cons p rest ih =>
      have hp := h p (by simp)
      rw [textWith, String.toList_append, Marker.countFrom_append, hp.count_eq,
        hp.quotedAfter_eq, ih fun q hq => h q (by simp [hq])]
      simp [bindings]

/-- Numbering the marks of the whole text is numbering them piece by piece. -/
theorem renumberFrom_textWith (h : Fit pieces) (placeholder : Nat → String) (d : Dialect)
    (count start : Nat) :
    Marker.renumberFrom placeholder false count (textWith mark d start pieces).toList =
      (textWith placeholder d count pieces).toList := by
  induction pieces generalizing count start with
  | nil => rfl
  | cons p rest ih =>
      have hp := h p (by simp)
      rw [textWith, textWith, String.toList_append, String.toList_append,
        Marker.renumberFrom_append, hp.renumber_eq, hp.quotedAfter_eq, hp.count_eq,
        ih fun q hq => h q (by simp [hq])]

theorem text_eq_renumber (h : Fit pieces) (d : Dialect) :
    text d 0 pieces = Marker.renumber d.placeholder 0 (textWith mark d 0 pieces) := by
  rw [text_eq, Marker.renumber, renumberFrom_textWith h, String.ofList_toList]

end Sql

end Relational
