import OneStep.Encoding
import OneStep.Symbolic.Value

namespace OneStep

abbrev Operand := Option SymValue

namespace Operand

def get : Operand → Except Fault SymValue
  | some v => .ok v
  | none => .error .noOperand

def unary (op : UnaryOp) (x : Operand) (result : StreamType) (position : Option Int) : Except Fault SymValue := do
  match x, op with
  | some x, op => Operator.unary op x result position
  | none, .unknown name => Operator.unknownUnary name
  | none, .cast =>
    let _ ← Operator.castTarget result
    throw .noOperand
  | none, _ => throw .noOperand

def binary (op : BinaryOp) (x y : Operand) (encode : SymValue → SymValue → Encoding SymValue) :
    Encoding SymValue := do
  match x, y, op with
  | some x, some y, _ => encode x y
  | _, _, .unknown name => Operator.unknownBinary (α := SymValue) name
  | some x, none, .index =>
    let _ ← Operator.indexedItems x
    throw .noOperand
  | _, _, _ => throw .noOperand

def ternary (op : TernaryOp) (x y z : Operand) : Except Fault SymValue := do
  match op with
  | .unknown name => Operator.refuseName "ternary" name
  | .mux => SymValue.select (← Operator.muxCondition (← x.get)) (← y.get) (← z.get)

def select (cond x y : Operand) : Except Fault SymValue := do
  SymValue.selectBy (← cond.get) (← x.get) (← y.get)

def same (x y : Operand) : Except Fault Bool :=
  return (← x.get) = (← y.get)

def outside (element : StreamType) (array index : Operand) : Encoding SymValue := do
  Encoding.outsideOf element (← array.get) (← index.get)

end Operand

end OneStep
