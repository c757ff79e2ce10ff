import OneStep.Binary.Arithmetic
import OneStep.Term

namespace OneStep

def Comparison.test (op : Comparison) (a b : Int) : Bool :=
  match op with
  | .lt => a < b
  | .le => a ≤ b
  | .gt => b < a
  | .ge => b ≤ a

def readBits (isSigned : Bool) {n : Nat} (x : BitVec n) : Int :=
  if isSigned then x.toInt else x.toNat

namespace CoreUnary

def apply {a b : Kind} : CoreUnary a b → a.Carrier → b.Carrier
  | .not, x => !x
  | .bitNot _, x => ~~~x
  | .truncate _ w, x => BitVec.setWidth w.size x
  | .signExtend _ w, x => BitVec.signExtend w.size x
  | .zeroExtend _ w, x => BitVec.setWidth w.size x

end CoreUnary

namespace CoreBinary

def shiftLeftBits {n : Nat} (x y : BitVec n) : BitVec n :=
  if y.toNat < n then x <<< y.toNat else 0

def shiftRightBits (isSigned : Bool) {n : Nat} (x y : BitVec n) : BitVec n :=
  if isSigned then x.sshiftRight (min y.toNat n)
  else if y.toNat < n then x >>> y.toNat else 0

def arithBits (op : Arithmetic) {n : Nat} (x y : BitVec n) : BitVec n :=
  match op with
  | .add => x + y
  | .sub => x - y
  | .mul => x * y

def bitwiseBits (op : Bitwise) {n : Nat} (x y : BitVec n) : BitVec n :=
  match op with
  | .and => x &&& y
  | .or => x ||| y
  | .xor => x ^^^ y

def apply {a b c : Kind} : CoreBinary a b c → a.Carrier → b.Carrier → c.Carrier
  | .and, x, y => x && y
  | .or, x, y => x || y
  | .iff, x, y => x == y
  | .eq _, x, y => x == y
  | .arith op _, x, y => arithBits op x y
  | .div isSigned _, x, y => if isSigned then BitVec.smtSDiv x y else BitVec.smtUDiv x y
  | .rem isSigned _, x, y => if isSigned then BitVec.srem x y else BitVec.umod x y
  | .bitwise op _, x, y => bitwiseBits op x y
  | .shiftLeft _, x, y => shiftLeftBits x y
  | .shiftRight isSigned _, x, y => shiftRightBits isSigned x y
  | .compare isSigned op _, x, y => op.test (readBits isSigned x) (readBits isSigned y)

end CoreBinary

structure FloatModel where
  unary : {a b : Kind} → FloatUnary a b → a.Carrier → b.Carrier
  binary : {a b c : Kind} → FloatBinary a b c → a.Carrier → b.Carrier → c.Carrier

namespace FloatUnary

def fit? (isSigned : Bool) (w : Width) (z : Int) : Option (BitVec w.size) :=
  if isSigned then
    if -(Nat.pow 2 (w.size - 1) : Int) ≤ z ∧ z < Nat.pow 2 (w.size - 1) then some (BitVec.ofInt w.size z) else none
  else if 0 ≤ z ∧ z < Nat.pow 2 w.size then some (BitVec.ofInt w.size z) else none

def ieee? {a b : Kind} : FloatUnary a b → a.Carrier → Option b.Carrier
  | .sqrt _, x => some (Binary.sqrt x)
  | .toIntegral up _, x => some (Binary.toIntegral up x)
  | .convert _ _, x => some (Binary.convert x)
  | .ofBits isSigned _ _, x => some (Binary.ofInt (readBits isSigned x))
  | .toBits isSigned _ w, x => do fit? isSigned w (← Binary.truncate? x)
  | .call _ _, _ => none

end FloatUnary

namespace FloatBinary

def arithFloat (op : Arithmetic) {p : Precision} (x y : Binary p) : Binary p :=
  match op with
  | .add => x.add y
  | .sub => x.sub y
  | .mul => x.mul y

def ieee? {a b c : Kind} : FloatBinary a b c → a.Carrier → b.Carrier → Option c.Carrier
  | .arith op _, x, y => some (arithFloat op x y)
  | .div _, x, y => some (Binary.div x y)
  | .eq _, x, y => some (Binary.compare (· == ·) x y)
  | .compare op _, x, y => some (Binary.compare op.test x y)
  | .call _ _, _, _ => none

end FloatBinary

def FloatModel.ieee : FloatModel where
  unary {_ b} op x := (op.ieee? x).getD b.default
  binary {_ _ c} op x y := (op.ieee? x y).getD c.default

abbrev Assignment := Symbol → (k : Kind) → k.Carrier

namespace Term

def eval (model : FloatModel) (ρ : Assignment) {k : Kind} : Term k → k.Carrier
  | .bool b => b
  | .bits v => v
  | .float x => x
  | .symbol s k => ρ s k
  | .unary op x => op.apply (x.eval model ρ)
  | .binary op x y => op.apply (x.eval model ρ) (y.eval model ρ)
  | .floatUnary op x => model.unary op (x.eval model ρ)
  | .floatBinary op x y => model.binary op (x.eval model ρ) (y.eval model ρ)
  | .ite c x y => if c.eval model ρ then x.eval model ρ else y.eval model ρ

def foldBinary {a b c : Kind} (op : CoreBinary a b c) (x : Option a.Carrier) (y : Option b.Carrier) :
    Option c.Carrier :=
  match op, x, y with
  | .and, some false, _ => some false
  | .and, _, some false => some false
  | .or, some true, _ => some true
  | .or, _, some true => some true
  | op, some x, some y => some (op.apply x y)
  | _, _, _ => none

def fold? (σ : Symbol → (k : Kind) → Option k.Carrier) {k : Kind} : Term k → Option k.Carrier
  | .bool b => some b
  | .bits v => some v
  | .float x => some x
  | .symbol s k => σ s k
  | .unary op x => (x.fold? σ).map op.apply
  | .binary op x y => foldBinary op (x.fold? σ) (y.fold? σ)
  | .floatUnary op x => (x.fold? σ).bind op.ieee?
  | .floatBinary op x y => do op.ieee? (← x.fold? σ) (← y.fold? σ)
  | .ite c x y =>
    match c.fold? σ with
    | some true => x.fold? σ
    | some false => y.fold? σ
    | none => none

end Term

end OneStep
