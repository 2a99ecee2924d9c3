import Relational.Proofs.Query.Checked
import Relational.Proofs.Query.Reading
import Relational.Proofs.Results
/-
A clause says what its conditions say.

The conditions of a clause are written side by side, and a raw fragment with an `OR` of
its own would take in what stands beside it.  Parentheses keep a fragment apart.  It goes
without them only if there is no other condition, and then only parentheses stand beside
it.  So the clause is a formula with the value that the conditions have when every
fragment is taken as a whole.
-/
namespace Relational

variable {m : Meaning} {s t : List Symbol} {b : Bool}

/-! ### Tokens behind the symbols of a formula -/

/-- The token behind a symbol, unless it is a condition. -/
def Symbol.token? : Symbol → Option Token
  | .holds _ => none
  | .and => some (.connector .and)
  | .or => some (.connector .or)
  | .opening => some .groupOpen
  | .closing => some .groupClose

namespace Meaning

theorem token?_symbol (m : Meaning) (token : Token) :
    (m.symbol token).token? = if token.isLeaf then none else some token := by
  rcases token with l | (_ | _) | _ | _ <;> rfl

/-- What is no condition is known by its symbol. -/
theorem eq_of_symbol_eq {token other : Token} (hleaf : other.isLeaf = false)
    (h : m.symbol token = m.symbol other) : token = other := by
  have htoken := congrArg Symbol.token? h
  rw [token?_symbol, token?_symbol, hleaf] at htoken
  by_cases hl : token.isLeaf = true
  · rw [if_pos hl] at htoken
    cases htoken
  · rw [if_neg hl] at htoken
    exact Option.some.inj htoken

theorem exists_leaf {token : Token} (h : m.symbol token = .holds b) :
    ∃ l, token = .leaf l ∧ m.holds l = b := by
  have htoken := congrArg Symbol.token? h
  rw [token?_symbol] at htoken
  rcases token with l | c | _ | _
  · cases h
    exact ⟨l, rfl, rfl⟩
  all_goals cases htoken

/-- The tokens behind a formula in parentheses. -/
theorem exists_group {tokens : List Token}
    (h : tokens.map m.symbol = .opening :: (s ++ [.closing])) :
    ∃ inner, tokens = .groupOpen :: (inner ++ [.groupClose]) ∧ inner.map m.symbol = s := by
  obtain ⟨first, rest, rfl, hfirst, hrest⟩ := List.map_eq_cons_iff.mp h
  obtain ⟨inner, last, rfl, hinner, hlast⟩ := List.map_eq_append_iff.mp hrest
  obtain ⟨final, rfl, hfinal⟩ := List.map_eq_singleton_iff.mp hlast
  have hopen : first = .groupOpen := eq_of_symbol_eq rfl hfirst
  have hclose : final = .groupClose := eq_of_symbol_eq rfl hfinal
  exact ⟨inner, by rw [hopen, hclose], hinner⟩

/-- The tokens around a connective. -/
theorem exists_connector {tokens : List Token} (c : Connector)
    (h : tokens.map m.symbol = s ++ m.symbol (.connector c) :: t) :
    ∃ front back, tokens = front ++ .connector c :: back ∧
      front.map m.symbol = s ∧ back.map m.symbol = t := by
  obtain ⟨front, rest, rfl, hfront, hrest⟩ := List.map_eq_append_iff.mp h
  obtain ⟨token, back, rfl, htoken, hback⟩ := List.map_eq_cons_iff.mp hrest
  have hconnector : token = .connector c := eq_of_symbol_eq rfl htoken
  exact ⟨front, back, by rw [hconnector], hfront, hback⟩

end Meaning

/-! ### Conditions that are not alone -/

mutual

theorem IsOperand.isFactor (m : Meaning) : ∀ {tokens : List Token}, IsOperand tokens →
    ∃ v, IsFactor (tokens.map m.symbol) v
  | _, .leaf l => ⟨m.holds l, .holds _⟩
  | _, .group h => by
      obtain ⟨v, hv⟩ := h.isFormula m
      refine ⟨v, ?_⟩
      rw [List.map_cons, List.map_append]
      exact .group hv

/-- Conditions are a formula when every fragment is taken as a whole. -/
theorem IsChain.isFormula (m : Meaning) : ∀ {tokens : List Token}, IsChain tokens →
    ∃ v, IsFormula (tokens.map m.symbol) v
  | _, .operand h => by
      obtain ⟨v, hv⟩ := h.isFactor m
      exact ⟨v, .term (.factor hv)⟩
  | _, .next hs c ht => by
      obtain ⟨a, ha⟩ := hs.isFormula m
      obtain ⟨b, hb⟩ := ht.isFactor m
      rw [List.map_append, List.map_cons]
      rcases c with _ | _
      · exact ha.and hb
      · exact ⟨a || b, .or ha (.factor hb)⟩

end

/-- In parentheses a fragment counts as one condition. -/
theorem Meaning.isFactor_spelled (m : Meaning) (l : Leaf) :
    IsFactor (m.spelled true (.leaf l)) (m.holds l) := by
  cases l with
  | raw sql bindings => exact .group (m.fragment sql bindings).isFormula
  | compare n c v => exact .holds _
  | member n negated vs => exact .holds _
  | range n negated low high => exact .holds _
  | columns first c second => exact .holds _
  | null n negated => exact .holds _

mutual

theorem IsFactor.spelled {s : List Symbol} {b : Bool} : IsFactor s b →
    ∀ tokens : List Token, tokens.map m.symbol = s → IsFactor (tokens.flatMap (m.spelled true)) b
  | .holds b, tokens, h => by
      obtain ⟨token, rfl, htoken⟩ := List.map_eq_singleton_iff.mp h
      obtain ⟨l, rfl, rfl⟩ := Meaning.exists_leaf htoken
      rw [List.flatMap_singleton]
      exact m.isFactor_spelled l
  | .group hs, tokens, h => by
      obtain ⟨inner, rfl, hinner⟩ := Meaning.exists_group h
      rw [List.flatMap_cons, List.flatMap_append, List.flatMap_singleton]
      exact .group (hs.spelled inner hinner)

theorem IsTerm.spelled {s : List Symbol} {b : Bool} : IsTerm s b →
    ∀ tokens : List Token, tokens.map m.symbol = s → IsTerm (tokens.flatMap (m.spelled true)) b
  | .factor hs, tokens, h => .factor (hs.spelled tokens h)
  | .and hs ht, tokens, h => by
      obtain ⟨front, back, rfl, hfront, hback⟩ := Meaning.exists_connector .and h
      rw [List.flatMap_append, List.flatMap_cons]
      exact .and (hs.spelled front hfront) (ht.spelled back hback)

/-- A formula keeps its value when every fragment in it is spelled out in parentheses. -/
theorem IsFormula.spelled {s : List Symbol} {b : Bool} : IsFormula s b →
    ∀ tokens : List Token, tokens.map m.symbol = s → IsFormula (tokens.flatMap (m.spelled true)) b
  | .term hs, tokens, h => .term (hs.spelled tokens h)
  | .or hs ht, tokens, h => by
      obtain ⟨front, back, rfl, hfront, hback⟩ := Meaning.exists_connector .or h
      rw [List.flatMap_append, List.flatMap_cons]
      exact .or (hs.spelled front hfront) (ht.spelled back hback)

end

/-! ### A condition that is alone -/

/-- A fragment as it is given. -/
theorem Meaning.isFormula_spelled (m : Meaning) (l : Leaf) :
    IsFormula (m.spelled false (.leaf l)) (m.holds l) := by
  cases l with
  | raw sql bindings => exact (m.fragment sql bindings).isFormula
  | compare n c v => exact .term (.factor (.holds _))
  | member n negated vs => exact .term (.factor (.holds _))
  | range n negated low high => exact .term (.factor (.holds _))
  | columns first c second => exact .term (.factor (.holds _))
  | null n negated => exact .term (.factor (.holds _))

mutual

theorem IsOperand.countP_pos : ∀ {tokens : List Token}, IsOperand tokens →
    0 < tokens.countP Token.isLeaf
  | _, .leaf l => Nat.one_pos
  | _, .group (s := s) h => by
      have hpos := h.countP_pos
      rw [List.countP_cons, List.countP_append]
      omega

theorem IsChain.countP_pos : ∀ {tokens : List Token}, IsChain tokens →
    0 < tokens.countP Token.isLeaf
  | _, .operand h => h.countP_pos
  | _, .next hs c ht => by
      have hpos := hs.countP_pos
      rw [List.countP_append]
      omega

end

mutual

theorem IsOperand.isFormula_alone (m : Meaning) : ∀ {tokens : List Token}, IsOperand tokens →
    tokens.countP Token.isLeaf ≤ 1 →
      ∃ v, IsFactor (tokens.map m.symbol) v ∧ IsFormula (tokens.flatMap (m.spelled false)) v
  | _, .leaf l, _ => by
      refine ⟨m.holds l, .holds _, ?_⟩
      rw [List.flatMap_singleton]
      exact m.isFormula_spelled l
  | _, .group (s := s) h, hcount => by
      rw [List.countP_cons, List.countP_append] at hcount
      obtain ⟨v, hmeant, hspelled⟩ := h.isFormula_alone m (by omega)
      refine ⟨v, ?_, ?_⟩
      · rw [List.map_cons, List.map_append]
        exact .group hmeant
      · rw [List.flatMap_cons, List.flatMap_append, List.flatMap_singleton]
        exact .term (.factor (.group hspelled))

/-- One condition has no connective beside it, so it is a formula however it is spelled. -/
theorem IsChain.isFormula_alone (m : Meaning) : ∀ {tokens : List Token}, IsChain tokens →
    tokens.countP Token.isLeaf ≤ 1 →
      ∃ v, IsFormula (tokens.map m.symbol) v ∧ IsFormula (tokens.flatMap (m.spelled false)) v
  | _, .operand h, hcount => by
      obtain ⟨v, hmeant, hspelled⟩ := h.isFormula_alone m hcount
      exact ⟨v, .term (.factor hmeant), hspelled⟩
  | _, .next hs c ht, hcount => by
      have hfront := hs.countP_pos
      have hback := ht.countP_pos
      rw [List.countP_append, List.countP_cons] at hcount
      omega

end

/-! ### Clauses -/

/-- Conditions that can be written are a formula, and have the same value as they are spelled. -/
theorem Conditions.Reached.isFormula {given : String → Prop} {c : Conditions} (h : c.Reached given)
    (hne : c.isEmpty = false) (m : Meaning) :
    ∃ v, IsFormula (c.tokens.map m.symbol) v ∧
      IsFormula (c.tokens.flatMap (m.spelled c.isShared)) v := by
  have hchain : IsChain c.tokens := by
    refine h.isChain.resolve_left fun hnil => ?_
    rw [isEmpty, hnil] at hne
    cases hne
  by_cases hshared : c.isShared = true
  · obtain ⟨v, hv⟩ := hchain.isFormula m
    rw [hshared]
    exact ⟨v, hv, hv.spelled c.tokens rfl⟩
  · rw [Bool.not_eq_true] at hshared
    rw [hshared]
    exact hchain.isFormula_alone m (by simpa [isShared] using hshared)

/-- What a clause says is what its conditions say, and `more` besides. -/
def Means (m : Meaning) (keyword : String) (clause : List Piece) (c : Conditions) (more : Bool) :
    Prop :=
  ∃ v, conditionsValue? m c = some v ∧ clauseValue? m keyword clause = some (v && more)

theorem clauseValue?_eq {body : List Piece} (hs : Reading.start.symbols? m body = some s)
    (hb : IsFormula s b) (keyword : String) :
    clauseValue? m keyword (.words keyword :: body) = some b := by
  rw [clauseValue?, if_pos rfl, hs]
  exact hb.value?_eq

/-- A clause of conditions only. -/
theorem Conditions.Reached.means {given : String → Prop} {c : Conditions} (h : c.Reached given)
    (m : Meaning) (keyword : String) :
    Means m keyword (if c.isEmpty then [] else .words keyword :: c.pieces) c true := by
  by_cases hne : c.isEmpty = true
  · rw [if_pos hne]
    exact ⟨true, by rw [conditionsValue?, if_pos hne], rfl⟩
  · rw [if_neg hne]
    rw [Bool.not_eq_true] at hne
    obtain ⟨v, hmeant, hspelled⟩ := h.isFormula hne m
    refine ⟨v, ?_, ?_⟩
    · rw [conditionsValue?, hne]
      exact hmeant.value?_eq
    · have hsymbols := Reading.symbols?_conditions (m := m) c []
      rw [List.append_nil] at hsymbols
      rw [Bool.and_true]
      refine clauseValue?_eq hsymbols ?_ keyword
      show IsFormula (_ ++ []) v
      rw [List.append_nil]
      exact hspelled

namespace Query

/-- Whether a row lies past the cursor. -/
def isPast (q : Query) (m : Meaning) : Bool :=
  match q.bound? with
  | none => true
  | some (cursor, v) => m.condition (.compare cursor.column cursor.direction.past v)

theorem symbols?_past (m : Meaning) (column : String) (direction : Direction) (v : Value) :
    Reading.start.symbols? m
        [.name column, .words (" " ++ direction.past.sql ++ " "), .bound v] =
      some [.holds (m.condition (.compare column direction.past v))] :=
  Reading.symbols?_leaf (.compare column direction.past v) (by simp) []

/-- The cursor is asked for beside all conditions, whatever stands between them. -/
theorem means_wherePieces {given : String → Prop} {q : Query} (h : q.filters.Reached given)
    (m : Meaning) : Means m " WHERE " q.wherePieces q.filters (q.isPast m) := by
  unfold wherePieces isPast
  rcases q.bound? with _ | ⟨cursor, v⟩
  · exact h.means m " WHERE "
  · have hpast := symbols?_past m cursor.column cursor.direction v
    by_cases hne : q.filters.isEmpty = true
    · refine ⟨true, by rw [conditionsValue?, if_pos hne], ?_⟩
      simp only [if_pos hne]
      exact clauseValue?_eq hpast (.term (.factor (.holds _))) " WHERE "
    · simp only [if_neg hne]
      rw [Bool.not_eq_true] at hne
      obtain ⟨b, hmeant, hspelled⟩ := h.isFormula hne m
      refine ⟨b, ?_, ?_⟩
      · rw [conditionsValue?, hne]
        exact hmeant.value?_eq
      · refine clauseValue?_eq ?_ (.term (.and (.factor (.group hspelled)) (.holds _))) " WHERE "
        show Reading.start.symbols? m (.words "(" :: (q.filters.pieces ++ [.words ") AND "] ++ _)) = _
        rw [Reading.symbols?_cons (show Reading.start.step m (.words "(") =
            some ([.opening], .start) from rfl), List.append_assoc, Reading.symbols?_conditions,
          List.singleton_append, Reading.symbols?_cons (show Reading.start.step m (.words ") AND ") =
            some ([.closing, .and], .start) from rfl), hpast]
        simp

/-! ### The statement the clauses are in -/

/-- The clause of a join. -/
def onPieces (j : Join) : List Piece :=
  if j.conditions.isEmpty then [] else .words " ON " :: j.conditions.pieces

/-- The statement that reads the rows of a table, clause by clause. -/
def readPieces (q : Query) (table : String) (d : Dialect) : List Piece :=
  .words "SELECT " :: (q.selectPieces ++ [.words " FROM ", .name table] ++
    q.joins.flatMap (fun j => [.words (" " ++ j.kind.sql ++ " "), .name j.table] ++ onPieces j) ++
    q.wherePieces ++ q.groupPieces ++ q.havingPieces ++ q.orderPieces ++ q.limitPieces d)

/-- There is no statement. -/
def Refused (q : Query) : Prop :=
  q.error ≠ none ∨ q.table = none ∨
    ∃ j ∈ q.joins, j.kind ≠ .cross ∧ j.conditions.isEmpty = true

theorem error_fail_ne_none (q : Query) (e : QueryError) : (q.fail e).error ≠ none := by
  simp [error, fail]

theorem mapM_joinPieces {joins : List Join}
    (h : ∀ j ∈ joins, ¬(j.kind ≠ .cross ∧ j.conditions.isEmpty = true)) :
    joins.mapM joinPieces =
      .ok (joins.map fun j => [.words (" " ++ j.kind.sql ++ " "), .name j.table] ++ onPieces j) := by
  induction joins with
  | nil => rfl
  | cons j rest ih =>
      have hj : joinPieces j =
          .ok ([.words (" " ++ j.kind.sql ++ " "), .name j.table] ++ onPieces j) := by
        unfold joinPieces
        rw [if_neg (h j (by simp))]
        rfl
      rw [List.mapM_cons, hj, ih fun k hk => h k (by simp [hk])]
      rfl

/-- A query that is not refused has the statement of its clauses. -/
theorem refused_or_toSql_eq (q : Query) (d : Dialect) :
    q.Refused ∨ ∃ table, q.table = some table ∧
      q.toSql d = .ok (Sql.render d (q.readPieces table d)) := by
  by_cases hrefused : q.Refused
  · exact Or.inl hrefused
  · unfold Refused at hrefused
    push Not at hrefused
    obtain ⟨herror, htable, hjoins⟩ := hrefused
    obtain ⟨table, htable⟩ := Option.ne_none_iff_exists'.mp htable
    refine Or.inr ⟨table, htable, ?_⟩
    have hvalid : q.validTable = .ok table := by
      rw [validTable, herror, htable]
    unfold toSql pieces
    rw [hvalid, mapM_joinPieces fun j hj ⟨hkind, hempty⟩ => hjoins j hj hkind hempty]
    simp [bind, Except.bind, Except.map, pure, Except.pure, readPieces, List.flatMap_def]

/-- A query that has a statement is not refused. -/
theorem not_refused_of_toSql {q : Query} {d : Dialect} {s : Statement} (h : q.toSql d = .ok s) :
    ¬q.Refused := by
  unfold toSql at h
  cases hpieces : q.pieces d with
  | error e =>
      rw [hpieces] at h
      cases h
  | ok pieces =>
      obtain ⟨table, hvalid, hpieces⟩ := exists_of_bind hpieces
      obtain ⟨joins, hjoins, -⟩ := exists_of_bind hpieces
      rintro (herror | htable | ⟨j, hj, hcondition⟩)
      · obtain ⟨e, he⟩ := Option.ne_none_iff_exists'.mp herror
        rw [validTable, he] at hvalid
        cases hvalid
      · cases herror : q.error with
        | none =>
            rw [validTable, herror, htable] at hvalid
            cases hvalid
        | some e =>
            rw [validTable, herror] at hvalid
            cases hvalid
      · obtain ⟨pieces, -, hfound⟩ := exists_mapM_of_mem hjoins hj
        rw [joinPieces, if_pos hcondition] at hfound
        cases hfound

theorem exists_toSql_iff (q : Query) (d : Dialect) : (∃ s, q.toSql d = .ok s) ↔ ¬q.Refused := by
  refine ⟨fun ⟨s, hs⟩ => not_refused_of_toSql hs, fun h => ?_⟩
  obtain ⟨table, -, hsql⟩ := (q.refused_or_toSql_eq d).resolve_left h
  exact ⟨_, hsql⟩

/-- **Clauses say what their conditions say.**  However a query is built and whatever its
conditions mean, each clause in its statement is a formula with the value of its conditions. -/
theorem clauses_mean_conditions (calls : List QueryCall) (m : Meaning) (d : Dialect) :
    let q := built calls
    Means m " WHERE " q.wherePieces q.filters (q.isPast m) ∧
      Means m " HAVING " q.havingPieces q.havings true ∧
      (∀ j ∈ q.joins, Means m " ON " (onPieces j) j.conditions true) ∧
      (q.Refused ∨ ∃ table, q.table = some table ∧
        q.toSql d = .ok (Sql.render d (q.readPieces table d))) := by
  intro q
  have hchecked : q.Checked fun _ => True := checked_built calls fun _ _ _ _ => trivial
  refine ⟨means_wherePieces hchecked.filters m, hchecked.havings.means m " HAVING ", ?_,
    q.refused_or_toSql_eq d⟩
  intro j hj
  exact (hchecked.joins j hj).2.means m " ON "

end Query

end Relational
