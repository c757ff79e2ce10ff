import OneStep.Fault

namespace OneStep

inductive Function where
  | exp | log | sin | cos | tan | asin | acos | atan
  | sinh | cosh | tanh | asinh | acosh | atanh
  deriving DecidableEq, Hashable, Repr

namespace Function

def name : Function → String
  | .exp => "exp" | .log => "log" | .sin => "sin" | .cos => "cos" | .tan => "tan"
  | .asin => "asin" | .acos => "acos" | .atan => "atan"
  | .sinh => "sinh" | .cosh => "cosh" | .tanh => "tanh"
  | .asinh => "asinh" | .acosh => "acosh" | .atanh => "atanh"

def all : List Function := [
  .exp, .log, .sin, .cos, .tan, .asin, .acos, .atan, .sinh, .cosh, .tanh, .asinh, .acosh, .atanh]

end Function

inductive Function2 where
  | pow | logb | atan2
  deriving DecidableEq, Hashable, Repr

namespace Function2

def name : Function2 → String
  | .pow => "pow" | .logb => "logb" | .atan2 => "atan2"

def all : List Function2 := [.pow, .logb, .atan2]

end Function2

inductive UnaryOp where
  | not | abs | sign | recip | sqrt | ceiling | floor | bitNot | cast | getField
  | call (f : Function)
  | unknown (name : Datum)

namespace UnaryOp

def known : List UnaryOp :=
  [.not, .abs, .sign, .recip, .sqrt, .ceiling, .floor, .bitNot, .cast, .getField] ++
    Function.all.map .call

def name : UnaryOp → String
  | .not => "not" | .abs => "abs" | .sign => "sign" | .recip => "recip" | .sqrt => "sqrt"
  | .ceiling => "ceiling" | .floor => "floor" | .bitNot => "bw_not" | .cast => "cast"
  | .getField => "get_field"
  | .call f => f.name
  | .unknown name => name.plainText

def ofName (name : String) : UnaryOp :=
  (known.find? (·.name == name)).getD (.unknown (.text name))

def ofDatum : Datum → UnaryOp
  | .text name => ofName name
  | d => .unknown d

def toDatum : UnaryOp → Datum
  | .unknown d => d
  | op => .text op.name

def takesField : UnaryOp → Bool
  | .getField => true
  | _ => false

end UnaryOp

inductive Arithmetic where
  | add | sub | mul
  deriving DecidableEq, Hashable, Repr

inductive Comparison where
  | lt | le | gt | ge
  deriving DecidableEq, Hashable, Repr

namespace Comparison

def converse : Comparison → Comparison
  | .lt => .gt
  | .le => .ge
  | .gt => .lt
  | .ge => .le

end Comparison

inductive Bitwise where
  | and | or | xor
  deriving DecidableEq, Hashable, Repr

inductive BinaryOp where
  | and | or
  | arith (op : Arithmetic)
  | div | mod | fdiv | eq | ne
  | compare (op : Comparison)
  | bitwise (op : Bitwise)
  | shiftLeft | shiftRight | index
  | call (f : Function2)
  | unknown (name : Datum)

namespace BinaryOp

def known : List BinaryOp :=
  [.and, .or, .arith .add, .arith .sub, .arith .mul, .div, .mod, .fdiv, .eq, .ne,
    .compare .lt, .compare .le, .compare .gt, .compare .ge,
    .bitwise .and, .bitwise .or, .bitwise .xor, .shiftLeft, .shiftRight, .index] ++
    Function2.all.map .call

def name : BinaryOp → String
  | .and => "and" | .or => "or"
  | .arith .add => "add" | .arith .sub => "sub" | .arith .mul => "mul"
  | .div => "div" | .mod => "mod" | .fdiv => "fdiv" | .eq => "eq" | .ne => "ne"
  | .compare .lt => "lt" | .compare .le => "le" | .compare .gt => "gt" | .compare .ge => "ge"
  | .bitwise .and => "bw_and" | .bitwise .or => "bw_or" | .bitwise .xor => "bw_xor"
  | .shiftLeft => "bw_shift_l" | .shiftRight => "bw_shift_r" | .index => "index"
  | .call f => f.name
  | .unknown name => name.plainText

def ofName (name : String) : BinaryOp :=
  (known.find? (·.name == name)).getD (.unknown (.text name))

def ofDatum : Datum → BinaryOp
  | .text name => ofName name
  | d => .unknown d

def toDatum : BinaryOp → Datum
  | .unknown d => d
  | op => .text op.name

def isComparison : BinaryOp → Bool
  | .eq | .ne | .compare _ => true
  | _ => false

end BinaryOp

inductive TernaryOp where
  | mux
  | unknown (name : Datum)

namespace TernaryOp

def name : TernaryOp → String
  | .mux => "mux"
  | .unknown name => name.plainText

def ofName (name : String) : TernaryOp :=
  if name = "mux" then .mux else .unknown (.text name)

def ofDatum : Datum → TernaryOp
  | .text name => ofName name
  | d => .unknown d

def toDatum : TernaryOp → Datum
  | .unknown d => d
  | op => .text op.name

end TernaryOp

inductive Expr where
  | const (type : StreamType) (value : Datum)
  | drop (type : StreamType) (count stream : Int)
  | input (type : StreamType) (name : String)
  | letIn (type : StreamType) (name : String) (boundType : StreamType) (bound body : Expr)
  | var (type : StreamType) (name : String)
  | label (type : StreamType) (label : String) (body : Expr)
  | unary (type : StreamType) (op : UnaryOp) (arg : Expr) (field : Datum)
  | binary (type : StreamType) (op : BinaryOp) (left right : Expr)
  | ternary (type : StreamType) (op : TernaryOp) (first second third : Expr)
  | bare (type : StreamType)

namespace Expr

instance : Inhabited Expr := ⟨.bare .bool⟩

def type : Expr → StreamType
  | .const t _ | .drop t _ _ | .input t _ | .letIn t .. | .var t _ | .label t _ _ | .unary t .. | .binary t ..
  | .ternary t .. | .bare t => t

def stream (type : StreamType) (id : Int) : Expr :=
  .drop type 0 id

def apply (op : UnaryOp) (arg : Expr) (type? : Option StreamType) (field : Datum) : Expr :=
  .unary (type?.getD arg.type) op arg field

def apply2 (op : BinaryOp) (left right : Expr) (type? : Option StreamType) : Expr :=
  .binary (type?.getD (if op.isComparison then .bool else left.type)) op left right

def mux (cond whenTrue whenFalse : Expr) : Expr :=
  .ternary whenTrue.type .mux cond whenTrue whenFalse

def not (e : Expr) : Expr :=
  apply .not e (some .bool) (.text "")

def and (a b : Expr) : Expr :=
  apply2 .and a b (some .bool)

def or (a b : Expr) : Expr :=
  apply2 .or a b (some .bool)

def describe : Expr → Except Fault String
  | .const .. => .ok "Const"
  | .drop _ count stream => return s!"Drop(s{← writeInt stream}, {← writeInt count})"
  | .input _ name => .ok s!"ExternVar({name})"
  | .letIn .. => .ok "Local"
  | .var .. => .ok "Var"
  | .label .. => .ok "Label"
  | .unary _ op .. => .ok s!"Op1({op.name})"
  | .binary _ op .. => .ok s!"Op2({op.name})"
  | .ternary _ op .. => .ok s!"Op3({op.name})"
  | .bare _ => .ok "Expr"

end Expr

structure Stream where
  id : Int
  type : StreamType
  buffer : List Datum
  expr : Expr

structure Property where
  name : String
  expr : Expr

structure Spec where
  streams : List Stream := []
  properties : List Property := []

end OneStep
