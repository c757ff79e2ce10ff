import Mathlib.Algebra.Group.Int.Defs
import Mathlib.Algebra.Group.Nat.Defs
import OneStep.Datum.Text
import OneStep.Symbolic.Constant

namespace OneStep

def Arithmetic.onIntegers : Arithmetic → Int → Int → Int
  | .add, a, b => a + b
  | .sub, a, b => a - b
  | .mul, a, b => a * b

namespace Data

def integer? : Data → Option Int
  | .scalar (.int _) x => some x.toInt
  | .scalar (.word _) x => some x.toNat
  | _ => none

def pattern? : Data → Option Nat
  | .scalar (.int _) x => some x.toNat
  | .scalar (.word _) x => some x.toNat
  | _ => none

def number? : Data → Option Int
  | .scalar .bool b => some b.toInt
  | x => x.integer?

def ofInteger : Scalar → Int → Option Data
  | .int w, n => some (.scalar (.int w) (.ofInt w.size n))
  | .word w, n => some (.scalar (.word w) (.ofInt w.size n))
  | _, _ => none

def inWord (w : Width) (n : Int) : Bool :=
  0 ≤ n && n < 2 ^ w.size

def inInt (w : Width) (n : Int) : Bool :=
  -2 ^ (w.size - 1) ≤ n && n < 2 ^ (w.size - 1)

def double? : Datum → Option (Binary .double)
  | .int n => some (.ofInt n)
  | .float x => some x
  | _ => none

def ofDouble (bits : Int) (x : Binary .double) : Option Data :=
  if bits = 32 then some (.scalar (.float .single) x.convert)
  else if bits = 64 then some (.scalar (.float .double) x)
  else none

def fieldData? (fields : List (String × StreamType)) (d : Datum) : Option (List Datum) :=
  match d.unroll with
  | .map entries => fields.mapM fun (name, _) => Datum.find? entries name
  | _ => Constant.sequence? d

mutual

def read? : StreamType → Datum → Option Data
  | .bool, .bool b => some (.scalar .bool b)
  | .int bits, .int n => do
    let w ← Width.ofSize? bits
    if inInt w n then ofInteger (.int w) n else none
  | .word bits, .int n => do
    let w ← Width.ofSize? bits
    if inWord w n then ofInteger (.word w) n else none
  | .float bits, d => (double? d).bind (ofDouble bits)
  | .array length element, d =>
    if length = 0 then some (.array [])
    else do
      let items ← Constant.elements? d
      if items.length = length then .array <$> items.mapM fun d => read? element d else none
  | .struct _ fields, d => do .struct <$> readFields? fields (← fieldData? fields d)
  | _, _ => none

def readFields? : List (String × StreamType) → List Datum → Option (List Data)
  | [], [] => some []
  | (_, t) :: fields, d :: values => do return (← read? t d) :: (← readFields? fields values)
  | _, _ => none

end

def onInteger (f : Int → Int) : Data → Option Data
  | .scalar s x => ((Data.integer? (.scalar s x)).map f).bind (ofInteger s)
  | _ => none

def onIntegers (f : Int → Int → Int) : Data → Data → Option Data
  | .scalar s x, .scalar t y =>
    if s = t then do ofInteger t (f (← Data.integer? (.scalar s x)) (← Data.integer? (.scalar t y))) else none
  | _, _ => none

theorem onInteger_int (f : Int → Int) {w : Width} (x : BitVec w.size) :
    onInteger f (.scalar (.int w) x) = some (.scalar (.int w) (.ofInt w.size (f (readBits true x)))) := rfl

theorem onInteger_word (f : Int → Int) {w : Width} (x : BitVec w.size) :
    onInteger f (.scalar (.word w) x) = some (.scalar (.word w) (.ofInt w.size (f (readBits false x)))) := rfl

theorem onIntegers_int (f : Int → Int → Int) {w : Width} (x y : BitVec w.size) :
    onIntegers f (.scalar (.int w) x) (.scalar (.int w) y) =
      some (.scalar (.int w) (.ofInt w.size (f (readBits true x) (readBits true y)))) :=
  if_pos rfl

theorem onIntegers_word (f : Int → Int → Int) {w : Width} (x y : BitVec w.size) :
    onIntegers f (.scalar (.word w) x) (.scalar (.word w) y) =
      some (.scalar (.word w) (.ofInt w.size (f (readBits false x) (readBits false y)))) :=
  if_pos rfl

def onBits (f : (w : Width) → BitVec w.size → BitVec w.size → BitVec w.size) : Data → Data → Option Data
  | .scalar (.int v) x, .scalar (.int w) y => if h : v = w then some (.scalar (.int w) (f w (h ▸ x) y)) else none
  | .scalar (.word v) x, .scalar (.word w) y => if h : v = w then some (.scalar (.word w) (f w (h ▸ x) y)) else none
  | _, _ => none

def onFloat (f : (p : Precision) → Binary p → Binary p) : Data → Option Data
  | .scalar (.float p) x => some (.scalar (.float p) (f p x))
  | _ => none

def onFloats (f : (p : Precision) → Binary p → Binary p → Binary p) : Data → Data → Option Data
  | .scalar (.float p) x, .scalar (.float q) y =>
    if h : p = q then some (.scalar (.float q) (f q (h ▸ x) y)) else none
  | _, _ => none

def testFloats (f : (p : Precision) → Binary p → Binary p → Bool) : Data → Data → Option Bool
  | .scalar (.float p) x, .scalar (.float q) y => if h : p = q then some (f q (h ▸ x) y) else none
  | _, _ => none

def testIntegers (f : Int → Int → Bool) : Data → Data → Option Bool
  | .scalar s x, .scalar t y =>
    if s = t then return f (← Data.integer? (.scalar s x)) (← Data.integer? (.scalar t y)) else none
  | _, _ => none

theorem testIntegers_int (f : Int → Int → Bool) {w : Width} (x y : BitVec w.size) :
    testIntegers f (.scalar (.int w) x) (.scalar (.int w) y) = some (f (readBits true x) (readBits true y)) :=
  if_pos rfl

theorem testIntegers_word (f : Int → Int → Bool) {w : Width} (x y : BitVec w.size) :
    testIntegers f (.scalar (.word w) x) (.scalar (.word w) y) = some (f (readBits false x) (readBits false y)) :=
  if_pos rfl

def testBools (f : Bool → Bool → Bool) : Data → Data → Option Bool
  | .scalar .bool a, .scalar .bool b => some (f a b)
  | _, _ => none

def truth (b : Bool) : Data :=
  .scalar .bool b

variable (model : FloatModel)

def absFloat (p : Precision) (x : Binary p) : Binary p :=
  if model.binary (.compare .lt p) x (Binary.ofInt 0) then model.binary (.arith .sub p) (Binary.ofInt 0) x else x

def signFloat (p : Precision) (x : Binary p) : Binary p :=
  if model.binary (.eq p) x (Binary.ofInt 0) then .ofInt 0
  else if model.binary (.compare .lt p) x (Binary.ofInt 0) then .ofInt (-1) else .ofInt 1

def castTo : Data → Scalar → Option Data
  | .scalar (.float p) x, .int w => some (.scalar (.int w) (model.unary (.toBits true p w) x))
  | .scalar (.float p) x, .word w => some (.scalar (.word w) (model.unary (.toBits false p w) x))
  | .scalar (.float p) x, .float q =>
    some (.scalar (.float q) (if h : p = q then h ▸ x else model.unary (.convert p q) x))
  | .scalar (.int w) x, .float p => some (.scalar (.float p) (model.unary (.ofBits true w p) x))
  | .scalar (.word w) x, .float p => some (.scalar (.float p) (model.unary (.ofBits false w p) x))
  | .scalar .bool b, .float p => some (.scalar (.float p) (.ofInt b.toInt))
  | .scalar .bool b, .bool => some (truth b)
  | x, t => x.number?.bind (ofInteger t)

def unary (op : UnaryOp) (x : Data) (result : StreamType) (position : Option Nat) : Option Data :=
  match op with
  | .not => (testBools (fun a _ => !a) x x).map truth
  | .abs => onInteger (fun n => n.natAbs) x <|> onFloat (absFloat model) x
  | .sign => onInteger Int.sign x <|> onFloat (signFloat model) x
  | .recip => onFloat (fun p x => model.binary (.div p) (Binary.ofInt 1) x) x
  | .sqrt => onFloat (fun p => model.unary (.sqrt p)) x
  | .ceiling => onFloat (fun p => model.unary (.toIntegral true p)) x
  | .floor => onFloat (fun p => model.unary (.toIntegral false p)) x
  | .bitNot => onBits (fun _ a _ => ~~~a) x x
  | .cast => result.scalar?.bind (castTo model x)
  | .getField =>
    match x with
    | .struct items => position.bind (items[·]?)
    | _ => none
  | .call f => onFloat (fun p => model.unary (.call f p)) x
  | .unknown _ => none

def quotient (a b : Int) : Int :=
  if b = 0 then if a < 0 then 1 else -1 else a.tdiv b

def bitwise (op : Bitwise) (w : Width) (x y : BitVec w.size) : BitVec w.size :=
  match op with
  | .and => x &&& y
  | .or => x ||| y
  | .xor => x ^^^ y

def equal? (x y : Data) : Option Bool :=
  testBools (· == ·) x y <|> testIntegers (· == ·) x y <|> testFloats (fun p => model.binary (.eq p)) x y

def binary (op : BinaryOp) (x y : Data) : Option Data :=
  match op with
  | .and => (testBools (· && ·) x y).map truth
  | .or => (testBools (· || ·) x y).map truth
  | .arith op => onIntegers op.onIntegers x y <|> onFloats (fun p => model.binary (.arith op p)) x y
  | .div => onIntegers quotient x y
  | .mod => onIntegers Int.tmod x y
  | .fdiv => onFloats (fun p => model.binary (.div p)) x y
  | .eq => (equal? model x y).map truth
  | .ne => (equal? model x y).map fun b => truth (!b)
  | .compare op =>
    (testIntegers op.test x y <|> testFloats (fun p => model.binary (.compare op p)) x y).map truth
  | .bitwise op => onBits (bitwise op) x y
  | .shiftLeft => y.pattern?.bind fun n => onInteger (· * 2 ^ n) x
  | .shiftRight => y.pattern?.bind fun n => onInteger (· / 2 ^ n) x
  | .call f => onFloats (fun p => model.binary (.call f p)) x y
  | .index | .unknown _ => none

def lookup? (items : List Data) (i : Int) : Option Data :=
  if 0 ≤ i then items[i.toNat]? else none

end Data

end OneStep
