import Relational.Marker
import Relational.Name
import Relational.Query.Error
import Relational.Query.Operand
import Relational.Query.Operator
/-
Conditions of a WHERE, HAVING or ON clause.

Conditions are kept as the flat sequence they are written in: conditions, connectives, and the
parentheses of groups.  Each call checks its input before it adds anything; a call that fails adds
nothing, and the first failure is kept.
-/
namespace Relational

/-- AND or OR. -/
inductive Connector where
  | and
  | or
  deriving DecidableEq, Repr

/-- The connective between two conditions. -/
def Connector.sql : Connector → String
  | and => " AND "
  | or => " OR "

/-- A single condition. -/
inductive Leaf where
  /-- A column compared with a value. -/
  | compare (column : String) (comparison : Comparison) (value : Value)
  /-- A column that is, or is not, among some values. -/
  | member (column : String) (negated : Bool) (values : List Value)
  /-- A column that lies, or does not lie, in a closed range. -/
  | range (column : String) (negated : Bool) (low high : Value)
  /-- Two columns compared. -/
  | columns (first : String) (comparison : Comparison) (second : String)
  /-- A column that is, or is not, `NULL`. -/
  | null (column : String) (negated : Bool)
  /-- Raw SQL with one value per marker. -/
  | raw (sql : String) (bindings : List Value)
  deriving DecidableEq, Repr

/-- One token of a sequence of conditions. -/
inductive Token where
  | leaf (l : Leaf)
  | connector (c : Connector)
  | groupOpen
  | groupClose
  deriving DecidableEq, Repr

/-- Whether the token is a condition. -/
def Token.isLeaf : Token → Bool
  | leaf _ => true
  | _ => false

/-- A sequence of conditions, and the first fault met while it was written. -/
structure Conditions where
  tokens : List Token
  error : Option QueryError
  deriving DecidableEq, Repr, Inhabited

namespace Conditions

/-- No conditions. -/
def empty : Conditions := ⟨[], none⟩

/-- Whether no condition was added. -/
def isEmpty (c : Conditions) : Bool :=
  c.tokens.isEmpty

/-! ### Steps the calls are made of -/

/-- Notes a fault, unless there is one already. -/
def fail (c : Conditions) (e : QueryError) : Conditions :=
  { c with error := c.error.or (some e) }

/-- Whether the next token goes in without a connective: at the start, and in a fresh group. -/
def atStart (tokens : List Token) : Bool :=
  match tokens.getLast? with
  | none | some .groupOpen => true
  | some _ => false

/-- The connective, where one is due. -/
def joint (tokens : List Token) (connector : Connector) : List Token :=
  if atStart tokens then [] else [.connector connector]

/-- Adds a condition. -/
def push (c : Conditions) (connector : Connector) (leaf : Leaf) : Conditions :=
  { c with tokens := c.tokens ++ joint c.tokens connector ++ [.leaf leaf] }

/-- Refuses a name that is no column. -/
def checkColumn (clause : Clause) (column : String) : Except QueryError Unit :=
  if Name.isColumn column then .ok () else .error (.invalidIdentifier clause column)

/-- Makes a condition of a column, an operator and an operand.  Equality with `NULL` asks for
`NULL`, equality with a list for membership, and membership in one value for a list of one. -/
def shape (clause : Clause) (column : String) (operator : Operator) (operand : Operand) :
    Except QueryError Leaf :=
  match operator, operand with
  | .single .equal, .value .null => .ok (.null column false)
  | .single .notEqual, .value .null => .ok (.null column true)
  | op, .value .null => .error (.invalidOperand clause (.nullCompared op.sql))
  | .single c, .value v => .ok (.compare column c v)
  | .member negated, .value v => .ok (.member column negated [v])
  | .range negated, .value _ =>
    .error (.invalidOperand clause (.rangeValue (Operator.rangeSql negated)))
  | .single .equal, .list vs => .ok (.member column false vs)
  | .single .notEqual, .list vs => .ok (.member column true vs)
  | .single c, .list _ => .error (.invalidOperand clause (.unexpectedList c.sql))
  | .member negated, .list vs => .ok (.member column negated vs)
  | .range negated, .list [low, high] => .ok (.range column negated low high)
  | .range negated, .list vs =>
    .error (.invalidOperand clause (.rangeLength (Operator.rangeSql negated) vs.length))

/-- Adds the condition, or notes the fault. -/
def add (c : Conditions) (connector : Connector) : Except QueryError Leaf → Conditions
  | .ok leaf => c.push connector leaf
  | .error e => c.fail e

/-- A condition whose operator is known. -/
def compareBy (c : Conditions) (clause : Clause) (connector : Connector) (column : String)
    (operator : Operator) (operand : Operand) : Conditions :=
  c.add connector do
    checkColumn clause column
    shape clause column operator operand

/-- A condition whose operator has to be read. -/
def compare (c : Conditions) (clause : Clause) (connector : Connector) (column operator : String)
    (operand : Operand) : Conditions :=
  c.add connector do
    checkColumn clause column
    match Operator.parse? operator with
    | some op => shape clause column op operand
    | none => .error (.unknownOperator clause operator)

/-- A comparison of two columns. -/
def compareColumns (c : Conditions) (clause : Clause) (connector : Connector)
    (first operator second : String) : Conditions :=
  c.add connector do
    checkColumn clause first
    checkColumn clause second
    match Operator.parse? operator with
    | some (.single op) => .ok (.columns first op second)
    | _ => .error (.unknownOperator clause operator)

/-- A test for `NULL`. -/
def testNull (c : Conditions) (clause : Clause) (connector : Connector) (column : String)
    (negated : Bool) : Conditions :=
  c.add connector do
    checkColumn clause column
    .ok (.null column negated)

/-- A raw fragment, refused if it is blank or its markers and values differ in number. -/
def fragment (c : Conditions) (clause : Clause) (connector : Connector) (sql : String)
    (bindings : List Value) : Conditions :=
  c.add connector <|
    if sql.toList.all Text.isBlank then .error (.invalidOperand clause .emptyFragment)
    else if Marker.count sql ≠ bindings.length then
      .error (.bindingMismatch clause (Marker.count sql) bindings.length)
    else .ok (.raw sql bindings)

/-- The conditions of `inner` in parentheses; its fault if it has one, nothing if it is empty. -/
def group (c : Conditions) (connector : Connector) (inner : Conditions) : Conditions :=
  match inner.error with
  | some e => c.fail e
  | none =>
    if inner.tokens.isEmpty then c
    else { c with
      tokens := c.tokens ++ joint c.tokens connector ++
        (.groupOpen :: (inner.tokens ++ [.groupClose])) }

/-! ### The calls -/

/-- `column = value`; a list means membership. -/
def filter (c : Conditions) (column : String) (operand : Operand) : Conditions :=
  c.compareBy .filter .and column (.single .equal) operand

/-- `OR column = value`. -/
def orFilter (c : Conditions) (column : String) (operand : Operand) : Conditions :=
  c.compareBy .orFilter .or column (.single .equal) operand

/-- `column operator value`. -/
def filterOp (c : Conditions) (column operator : String) (operand : Operand) : Conditions :=
  c.compare .filter .and column operator operand

/-- `OR column operator value`. -/
def orFilterOp (c : Conditions) (column operator : String) (operand : Operand) : Conditions :=
  c.compare .orFilter .or column operator operand

/-- `column IN (…)`. -/
def filterIn (c : Conditions) (column : String) (operand : Operand) : Conditions :=
  c.compareBy .filterIn .and column (.member false) operand

/-- `column NOT IN (…)`. -/
def filterNotIn (c : Conditions) (column : String) (operand : Operand) : Conditions :=
  c.compareBy .filterNotIn .and column (.member true) operand

/-- `column IS NULL`. -/
def filterNull (c : Conditions) (column : String) : Conditions :=
  c.testNull .filterNull .and column false

/-- `column IS NOT NULL`. -/
def filterNotNull (c : Conditions) (column : String) : Conditions :=
  c.testNull .filterNotNull .and column true

/-- `column BETWEEN low AND high`. -/
def filterBetween (c : Conditions) (column : String) (low high : Value) : Conditions :=
  c.compareBy .filterBetween .and column (.range false) (.list [low, high])

/-- `first operator second`, both columns. -/
def filterColumn (c : Conditions) (first operator second : String) : Conditions :=
  c.compareColumns .filterColumn .and first operator second

/-- A raw fragment. -/
def filterRaw (c : Conditions) (sql : String) (bindings : List Value) : Conditions :=
  c.fragment .filterRaw .and sql bindings

/-- `OR` a raw fragment. -/
def orFilterRaw (c : Conditions) (sql : String) (bindings : List Value) : Conditions :=
  c.fragment .orFilterRaw .or sql bindings

/-- A group in parentheses, written by `build`. -/
def filterGroup (c : Conditions) (build : Conditions → Conditions) : Conditions :=
  c.group .and (build empty)

/-- `OR` a group in parentheses. -/
def orFilterGroup (c : Conditions) (build : Conditions → Conditions) : Conditions :=
  c.group .or (build empty)

end Conditions

end Relational
