import Relational.Proofs.Query.Numbering
/-
Placeholders and values keep in step.

The statement of every dialect comes from the same text with a mark for each placeholder:
there are as many marks as values, numbering the marks from left to right gives the
dialect's text, and the values are the same for all dialects.  So the n-th placeholder in
reading order carries the number n, where the dialect numbers at all, and belongs to the
n-th value.
-/
namespace Relational

/-- The statement of some pieces: marks numbered from left to right, and a value for each. -/
structure Statement.Numbered (d : Dialect) (pieces : List Piece) (s : Statement) : Prop where
  /-- The text is the one with marks, its marks numbered. -/
  text : s.sql = Marker.renumber d.placeholder 0 (Sql.textWith Sql.mark d 0 pieces)
  /-- There are as many marks as values. -/
  marks : Marker.count (Sql.textWith Sql.mark d 0 pieces) = s.bindings.length
  /-- A dialect whose placeholder is the mark keeps the text with marks. -/
  unnumbered : d = .sqlite ∨ d = .mysql → s.sql = Sql.textWith Sql.mark d 0 pieces
  /-- A piece is numbered from the number of values in front of it on, and its own values come
  right behind those. -/
  owned : ∀ front p back, pieces = front ++ p :: back →
    s.sql = Sql.text d 0 front ++ p.text d (Sql.bindings front).length ++
        Sql.text d ((Sql.bindings front).length + p.bindings.length) back ∧
      s.bindings = Sql.bindings front ++ p.bindings ++ Sql.bindings back

theorem Sql.numbered_render {pieces : List Piece} (h : Fit pieces) (d : Dialect) :
    (render d pieces).Numbered d pieces where
  text := text_eq_renumber h d
  marks := count_textWith h d 0
  unnumbered := by
    rintro (rfl | rfl)
    · exact text_eq .sqlite 0 pieces
    · exact text_eq .mysql 0 pieces
  owned := by
    rintro front p back rfl
    refine ⟨?_, ?_⟩
    · show text d 0 (front ++ p :: back) = _
      rw [text_append, Nat.zero_add, text, String.append_assoc]
    · show bindings (front ++ p :: back) = _
      rw [bindings_append, List.append_assoc]
      rfl

namespace Query

/-- **Placeholders belong to values.**  A query built by any calls whose raw fragments close their
texts fails in the same way for all dialects, or has the same values for all of them, numbered
from left to right in the text. -/
theorem numbered_statement (calls : List QueryCall)
    (heven : ∀ call ∈ calls, ∀ sql ∈ call.fragments, Marker.Even sql) (k : StatementKind) :
    (∃ e, ∀ d, (built calls).statement k d = .error e) ∨
    ∃ bindings, ∀ d, ∃ pieces s, (built calls).statementPieces k d = .ok pieces ∧
      (built calls).statement k d = .ok s ∧ s.bindings = bindings ∧ s.Numbered d pieces ∧
      (d = .sqlite ∨ d = .mysql → Marker.count s.sql = bindings.length) := by
  have hchecked := checked_built calls heven
  rcases (built calls).agrees_statementPieces k with ⟨e, he⟩ | ⟨bindings, hbindings⟩
  · refine Or.inl ⟨e, fun d => ?_⟩
    rw [statement_eq, he d]
    rfl
  · refine Or.inr ⟨bindings, fun d => ?_⟩
    obtain ⟨pieces, hpieces, rfl⟩ := hbindings d
    have hnumbered := Sql.numbered_render (hchecked.fit_statementPieces hpieces) d
    refine ⟨pieces, Sql.render d pieces, hpieces, ?_, rfl, hnumbered, fun hd => ?_⟩
    · rw [statement_eq, hpieces]
      rfl
    · rw [hnumbered.unnumbered hd]
      exact hnumbered.marks

/-- The same of a query that is counted, with values in most clauses and a mark inside a text. -/
theorem numbered_count_of_orders :
    let calls : List QueryCall :=
      [.source "orders as o", .groupBy ["o.user_id"],
        .joinWith .left "users as u" [.on .and "u.id" "=" "o.user_id",
          .filter .or "u.role" (.value (.text "admin"))],
        .filtered (.filterRaw .and "note <> 'why?' OR note = ?" [.text "why"]),
        .filtered (.filterGroup .or [.filterIn false "o.id" (.list [.int 1, .int 2]),
          .filterBetween "o.total" (.int 3) (.int 4)]),
        .havingRaw "count(*) > ?" [.int 5]]
    (∀ call ∈ calls, ∀ sql ∈ call.fragments, Marker.Even sql) ∧
    ((∃ e, ∀ d, (built calls).statement .count d = .error e) ∨
      ∃ bindings, ∀ d, ∃ pieces s, (built calls).statementPieces .count d = .ok pieces ∧
        (built calls).statement .count d = .ok s ∧ s.bindings = bindings ∧ s.Numbered d pieces ∧
        (d = .sqlite ∨ d = .mysql → Marker.count s.sql = bindings.length)) := by
  exact ⟨by decide, numbered_statement _ (by decide) .count⟩

end Query

end Relational
