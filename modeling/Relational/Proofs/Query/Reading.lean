import Relational.Proofs.Query.Grammar
/-
Reading conditions back from a statement.

What a statement says is read off its pieces alone, without the tokens they were written
from.  One piece is read at a time; a condition takes several, and which `AND` belongs to
a range and which parenthesis closes a list of values is known from where the reading of
the condition stands.  Everything that is not understood is refused.
-/
namespace Relational

/-- A raw fragment as it is read: some formula, with parentheses and connectives of its own. -/
structure Fragment where
  symbols : List Symbol
  value : Bool
  isFormula : IsFormula symbols value

/-- What conditions say of a row. -/
structure Meaning where
  /-- Whether a condition holds that is neither raw nor membership in no values. -/
  condition : Leaf → Bool
  fragment : String → List Value → Fragment

namespace Meaning

/-- Whether a condition holds, a raw fragment as a whole. -/
def holds (m : Meaning) : Leaf → Bool
  | .member _ false [] => false
  | .member _ true [] => true
  | .raw sql bindings => (m.fragment sql bindings).value
  | l => m.condition l

/-- A token as it is meant: a condition is one proposition. -/
def symbol (m : Meaning) : Token → Symbol
  | .leaf l => .holds (m.holds l)
  | .connector .and => .and
  | .connector .or => .or
  | .groupOpen => .opening
  | .groupClose => .closing

/-- A token as it is written: a raw fragment is spelled out. -/
def spelled (m : Meaning) (shared : Bool) : Token → List Symbol
  | .leaf (.raw sql bindings) =>
    if shared then .opening :: ((m.fragment sql bindings).symbols ++ [.closing])
    else (m.fragment sql bindings).symbols
  | t => [m.symbol t]

end Meaning

/-! ### One piece at a time -/

/-- Where the reading of a condition stands. -/
inductive Reading where
  /-- In front of a condition, a connective or a parenthesis. -/
  | start
  | column (n : String)
  | operand (n : String) (c : Comparison)
  /-- In front of the lower end of a range, of the word between the ends, and of the upper end. -/
  | low (n : String) (negated : Bool)
  | between (n : String) (negated : Bool) (low : Value)
  | high (n : String) (negated : Bool) (low : Value)
  /-- In front of a value of a list, and behind one. -/
  | value (n : String) (negated : Bool) (values : List Value)
  | comma (n : String) (negated : Bool) (values : List Value)

/-- The comparison of two columns or of a column and a value. -/
def Comparison.ofWords? (w : String) : Option Comparison :=
  [equal, notEqual, less, lessEqual, greater, greaterEqual, like, notLike].find? fun c =>
    " " ++ c.sql ++ " " == w

namespace Reading

/-- Words where a condition may start. -/
def startWords? (w : String) : Option (List Symbol) :=
  [("(", [.opening]), (")", [.closing]), (" AND ", [.and]), (" OR ", [.or]),
    (") AND ", [.closing, .and]), ("1 = 0", [.holds false]), ("1 = 1", [.holds true])].lookup w

/-- Words behind a column. -/
def columnWords? (m : Meaning) (n w : String) : Option (List Symbol × Reading) :=
  match [(" IS NULL", ([.holds (m.condition (.null n false))], start)),
      (" IS NOT NULL", ([.holds (m.condition (.null n true))], start)),
      (" BETWEEN ", ([], low n false)), (" NOT BETWEEN ", ([], low n true)),
      (" IN (", ([], value n false [])), (" NOT IN (", ([], value n true []))].lookup w with
  | some found => some found
  | none => (Comparison.ofWords? w).map fun c => ([], operand n c)

/-- Reads one piece: the symbols that are complete, and where the reading stands behind it. -/
def step (m : Meaning) : Reading → Piece → Option (List Symbol × Reading)
  | start, .words w => (startWords? w).map (·, start)
  | start, .name n => some ([], column n)
  | start, .raw sql bindings => some ((m.fragment sql bindings).symbols, start)
  | column n, .words w => columnWords? m n w
  | operand n c, .bound v => some ([.holds (m.condition (.compare n c v))], start)
  | operand n c, .name other => some ([.holds (m.condition (.columns n c other))], start)
  | low n negated, .bound v => some ([], between n negated v)
  | between n negated v, .words w => if w = " AND " then some ([], high n negated v) else none
  | high n negated v, .bound v' => some ([.holds (m.condition (.range n negated v v'))], start)
  | value n negated vs, .bound v => some ([], comma n negated (vs ++ [v]))
  | comma n negated vs, .words w =>
    if w = ", " then some ([], value n negated vs)
    else if w = ")" then some ([.holds (m.condition (.member n negated vs))], start)
    else none
  | _, _ => none

/-- The symbols that are read up to the end, where no condition may be left half-way. -/
def symbols? (m : Meaning) : Reading → List Piece → Option (List Symbol)
  | start, [] => some []
  | _, [] => none
  | r, p :: rest => (r.step m p).bind fun (front, r) => (r.symbols? m rest).map (front ++ ·)

end Reading

/-- The value of a clause: of the formula behind its keyword.  A clause that is not there asks for
nothing. -/
def clauseValue? (m : Meaning) (keyword : String) : List Piece → Option Bool
  | [] => some true
  | .words w :: body =>
    if w = keyword then (Reading.start.symbols? m body).bind value? else none
  | _ => none

/-- The value of a sequence of conditions, each taken as a whole. -/
def conditionsValue? (m : Meaning) (c : Conditions) : Option Bool :=
  if c.isEmpty then some true else value? (c.tokens.map m.symbol)

/-! ### What is read of a condition -/

namespace Reading

variable {m : Meaning} {r next : Reading} {p : Piece}

/-- Reading on behind one piece. -/
theorem symbols?_cons {front : List Symbol} (h : r.step m p = some (front, next))
    (rest : List Piece) : r.symbols? m (p :: rest) = (next.symbols? m rest).map (front ++ ·) := by
  rw [symbols?, h]
  rfl

/-- Reading on where nothing is complete yet. -/
theorem symbols?_on (h : r.step m p = some ([], next)) (rest : List Piece) :
    r.symbols? m (p :: rest) = next.symbols? m rest := by
  rw [symbols?_cons h]
  exact Option.map_id'

/-- Reading on behind a condition that is complete. -/
theorem symbols?_holds {b : Bool} (h : r.step m p = some ([.holds b], start)) (rest : List Piece) :
    r.symbols? m (p :: rest) = (start.symbols? m rest).map (.holds b :: ·) :=
  symbols?_cons h rest

theorem symbols?_values (n : String) (negated : Bool) (v : Value) (vs seen : List Value)
    (rest : List Piece) :
    (value n negated seen).symbols? m
        (Sql.separated ", " ((v :: vs).map fun v => [.bound v]) ++ .words ")" :: rest) =
      (start.symbols? m rest).map
        (.holds (m.condition (.member n negated (seen ++ v :: vs))) :: ·) := by
  induction vs generalizing v seen with
  | nil =>
      show (value n negated seen).symbols? m (.bound v :: .words ")" :: rest) = _
      rw [symbols?_on rfl]
      exact symbols?_holds rfl rest
  | cons w vs ih =>
      have hsplit : Sql.separated ", " ((v :: w :: vs).map fun v => [.bound v]) =
          .bound v :: .words ", " :: Sql.separated ", " ((w :: vs).map fun v => [.bound v]) := by
        simp [Sql.separated, List.intercalate_cons_cons]
      have hcomma : (comma n negated (seen ++ [v])).step m (.words ", ") =
          some ([], value n negated (seen ++ [v])) := rfl
      rw [hsplit, List.cons_append, List.cons_append, symbols?_on rfl, symbols?_on hcomma, ih,
        List.append_assoc, List.singleton_append]

/-- A condition that is not raw is read as one proposition. -/
theorem symbols?_leaf (l : Leaf) (hraw : ∀ sql bindings, l ≠ .raw sql bindings)
    (rest : List Piece) :
    start.symbols? m (l.pieces ++ rest) =
      (start.symbols? m rest).map (.holds (m.holds l) :: ·) := by
  cases l with
  | compare n comparison v =>
      have hoperator : (column n).step m (.words (" " ++ comparison.sql ++ " ")) =
          some ([], operand n comparison) := by
        cases comparison <;> rfl
      show start.symbols? m (.name n :: _ :: .bound v :: rest) = _
      rw [symbols?_on rfl, symbols?_on hoperator]
      exact symbols?_holds rfl rest
  | member n negated vs =>
      rcases vs with _ | ⟨v, vs⟩
      · rcases negated with _ | _
        · exact symbols?_holds rfl rest
        · exact symbols?_holds rfl rest
      · have hpieces : (Leaf.member n negated (v :: vs)).pieces =
            [.name n, .words (" " ++ Operator.memberSql negated ++ " (")] ++
              Sql.separated ", " ((v :: vs).map fun v => [.bound v]) ++ [.words ")"] := by
          cases negated <;> rfl
        have hlist : (column n).step m (.words (" " ++ Operator.memberSql negated ++ " (")) =
            some ([], value n negated []) := by
          cases negated <;> rfl
        have hholds : m.holds (.member n negated (v :: vs)) =
            m.condition (.member n negated (v :: vs)) := by
          cases negated <;> rfl
        rw [hpieces, hholds, List.append_assoc, List.append_assoc, List.cons_append,
          List.singleton_append, symbols?_on rfl, symbols?_on hlist]
        exact symbols?_values n negated v vs [] rest
  | range n negated low high =>
      have hends : (column n).step m (.words (" " ++ Operator.rangeSql negated ++ " ")) =
          some ([], .low n negated) := by
        cases negated <;> rfl
      show start.symbols? m (.name n :: _ :: .bound low :: .words " AND " :: .bound high :: rest) = _
      rw [symbols?_on rfl, symbols?_on hends, symbols?_on rfl, symbols?_on rfl]
      exact symbols?_holds rfl rest
  | columns first comparison second =>
      have hoperator : (column first).step m (.words (" " ++ comparison.sql ++ " ")) =
          some ([], operand first comparison) := by
        cases comparison <;> rfl
      show start.symbols? m (.name first :: _ :: .name second :: rest) = _
      rw [symbols?_on rfl, symbols?_on hoperator]
      exact symbols?_holds rfl rest
  | null n negated =>
      have htest : (column n).step m (.words (if negated then " IS NOT NULL" else " IS NULL")) =
          some ([.holds (m.condition (.null n negated))], start) := by
        cases negated <;> rfl
      show start.symbols? m (.name n :: _ :: rest) = _
      rw [symbols?_on rfl]
      exact symbols?_holds htest rest
  | raw sql bindings => exact absurd rfl (hraw sql bindings)

/-- Every token is read as it is spelled. -/
theorem symbols?_token (shared : Bool) (t : Token) (rest : List Piece) :
    start.symbols? m (t.pieces shared ++ rest) =
      (start.symbols? m rest).map (m.spelled shared t ++ ·) := by
  rcases t with l | c | _ | _
  · by_cases hraw : ∃ sql bindings, l = .raw sql bindings
    · obtain ⟨sql, bindings, rfl⟩ := hraw
      rcases shared with _ | _
      · exact symbols?_cons (by rfl) rest
      · show start.symbols? m (.words "(" :: .raw sql bindings :: .words ")" :: rest) = _
        have hfragment : start.step m (.raw sql bindings) =
            some ((m.fragment sql bindings).symbols, start) := rfl
        rw [symbols?_cons (show start.step m (.words "(") = some ([.opening], start) from rfl),
          symbols?_cons hfragment,
          symbols?_cons (show start.step m (.words ")") = some ([.closing], start) from rfl)]
        simp [Meaning.spelled, Function.comp_def]
    · have hraw : ∀ sql bindings, l ≠ .raw sql bindings :=
        fun sql bindings h => hraw ⟨sql, bindings, h⟩
      have hpieces : (Token.leaf l).pieces shared = l.pieces := by
        unfold Token.pieces
        split
        · rename_i h
          cases h
          exact absurd rfl (hraw _ _)
        · rename_i h
          cases h
          rfl
        all_goals contradiction
      have hspelled : m.spelled shared (.leaf l) = [.holds (m.holds l)] := by
        unfold Meaning.spelled
        split
        · rename_i h
          cases h
          exact absurd rfl (hraw _ _)
        · rfl
      rw [hpieces, hspelled]
      exact symbols?_leaf l hraw rest
  · rcases c with _ | _
    · exact symbols?_cons (by rfl) rest
    · exact symbols?_cons (by rfl) rest
  · exact symbols?_cons (by rfl) rest
  · exact symbols?_cons (by rfl) rest

/-- Conditions are read as their tokens are spelled. -/
theorem symbols?_conditions (c : Conditions) (rest : List Piece) :
    start.symbols? m (c.pieces ++ rest) =
      (start.symbols? m rest).map (c.tokens.flatMap (m.spelled c.isShared) ++ ·) := by
  unfold Conditions.pieces
  generalize c.isShared = shared
  induction c.tokens with
  | nil => exact Option.map_id'.symm
  | cons t tokens ih =>
      rw [List.flatMap_cons, List.append_assoc, symbols?_token, ih, List.flatMap_cons]
      simp [Function.comp_def]

end Reading

end Relational
