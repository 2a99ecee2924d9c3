import Relational.Value
/-
What a column is compared with: one value or a list of them.

Anything that can be a value can be compared with; a list turns equality into membership.  Bytes
are a value of their own when bound, but as an operand they are a list of integers like any other
list.
-/
namespace Relational

/-- The right-hand side of a comparison. -/
inductive Operand where
  | value (v : Value)
  | list (vs : List Value)
  deriving DecidableEq, Repr

/-- Types whose elements can be bound as values. -/
class ToValue (α : Type) where
  toValue : α → Value

export ToValue (toValue)

instance : ToValue Value := ⟨id⟩
instance : ToValue Bool := ⟨.bool⟩
instance : ToValue Int64 := ⟨.int⟩
instance : ToValue Int32 := ⟨fun n => .int n.toInt64⟩
instance : ToValue Int16 := ⟨fun n => .int n.toInt64⟩
instance : ToValue UInt32 := ⟨fun n => .int (Int64.ofInt n.toNat)⟩
instance : ToValue UInt16 := ⟨fun n => .int (Int64.ofInt n.toNat)⟩
instance : ToValue UInt8 := ⟨fun n => .int (Int64.ofInt n.toNat)⟩
instance : ToValue Binary64 := ⟨.float⟩
instance : ToValue String := ⟨.text⟩
instance : ToValue (List UInt8) := ⟨.blob⟩

instance {α : Type} [ToValue α] : ToValue (Option α) where
  toValue
    | some a => toValue a
    | none => .null

/-- Types whose elements can be compared with. -/
class ToOperand (α : Type) where
  toOperand : α → Operand

export ToOperand (toOperand)

instance {α : Type} [ToValue α] : ToOperand (List α) := ⟨fun as => .list (as.map toValue)⟩
instance : ToOperand Value := ⟨.value⟩
instance : ToOperand Bool := ⟨fun a => .value (toValue a)⟩
instance : ToOperand Int64 := ⟨fun a => .value (toValue a)⟩
instance : ToOperand Int32 := ⟨fun a => .value (toValue a)⟩
instance : ToOperand Int16 := ⟨fun a => .value (toValue a)⟩
instance : ToOperand UInt32 := ⟨fun a => .value (toValue a)⟩
instance : ToOperand UInt16 := ⟨fun a => .value (toValue a)⟩
instance : ToOperand UInt8 := ⟨fun a => .value (toValue a)⟩
instance : ToOperand Binary64 := ⟨fun a => .value (toValue a)⟩
instance : ToOperand String := ⟨fun a => .value (toValue a)⟩
instance {α : Type} [ToValue α] : ToOperand (Option α) := ⟨fun a => .value (toValue a)⟩

end Relational
