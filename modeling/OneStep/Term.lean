import OneStep.Expr
import OneStep.Kind

namespace OneStep

structure Symbol where
  hint : String
  index : Option Nat
  deriving DecidableEq, Hashable, Repr

namespace Symbol

def fullName (hint : String) (index : Nat) : String :=
  s!"{hint}!{index}"

def name (s : Symbol) : String :=
  match s.index with
  | some index => fullName s.hint index
  | none => if s.hint.isEmpty then "<null>" else s.hint

def isIndex : List Char → Bool
  | [] => false
  | ['0'] => true
  | c :: rest => c != '0' && (c :: rest).all Char.isDigit

def ofName (name : List Char) : Symbol :=
  let digits := (name.reverse.takeWhile Char.isDigit).reverse
  match name.reverse.dropWhile Char.isDigit with
  | '!' :: hint =>
    if isIndex digits then ⟨String.ofList hint.reverse, some (Nat.ofDigitChars 10 digits 0)⟩
    else ⟨String.ofList name, none⟩
  | _ => ⟨String.ofList name, none⟩

def ofHint (hint : String) (index : Nat) : Symbol :=
  if hint.toList.contains '\x00' then ofName (hint.toList.takeWhile (· != '\x00')) else ⟨hint, some index⟩

end Symbol

inductive CoreUnary : Kind → Kind → Type where
  | not : CoreUnary .bool .bool
  | bitNot (w : Width) : CoreUnary (.bits w) (.bits w)
  | truncate (v w : Width) : CoreUnary (.bits v) (.bits w)
  | signExtend (v w : Width) : CoreUnary (.bits v) (.bits w)
  | zeroExtend (v w : Width) : CoreUnary (.bits v) (.bits w)
  deriving DecidableEq, Hashable

inductive CoreBinary : Kind → Kind → Kind → Type where
  | and : CoreBinary .bool .bool .bool
  | or : CoreBinary .bool .bool .bool
  | iff : CoreBinary .bool .bool .bool
  | eq (w : Width) : CoreBinary (.bits w) (.bits w) .bool
  | arith (op : Arithmetic) (w : Width) : CoreBinary (.bits w) (.bits w) (.bits w)
  | div (isSigned : Bool) (w : Width) : CoreBinary (.bits w) (.bits w) (.bits w)
  | rem (isSigned : Bool) (w : Width) : CoreBinary (.bits w) (.bits w) (.bits w)
  | bitwise (op : Bitwise) (w : Width) : CoreBinary (.bits w) (.bits w) (.bits w)
  | shiftLeft (w : Width) : CoreBinary (.bits w) (.bits w) (.bits w)
  | shiftRight (isSigned : Bool) (w : Width) : CoreBinary (.bits w) (.bits w) (.bits w)
  | compare (isSigned : Bool) (op : Comparison) (w : Width) : CoreBinary (.bits w) (.bits w) .bool
  deriving DecidableEq, Hashable

inductive FloatUnary : Kind → Kind → Type where
  | sqrt (p : Precision) : FloatUnary (.float p) (.float p)
  | toIntegral (up : Bool) (p : Precision) : FloatUnary (.float p) (.float p)
  | convert (p q : Precision) : FloatUnary (.float p) (.float q)
  | ofBits (isSigned : Bool) (w : Width) (p : Precision) : FloatUnary (.bits w) (.float p)
  | toBits (isSigned : Bool) (p : Precision) (w : Width) : FloatUnary (.float p) (.bits w)
  | call (f : Function) (p : Precision) : FloatUnary (.float p) (.float p)
  deriving DecidableEq, Hashable

inductive FloatBinary : Kind → Kind → Kind → Type where
  | arith (op : Arithmetic) (p : Precision) : FloatBinary (.float p) (.float p) (.float p)
  | div (p : Precision) : FloatBinary (.float p) (.float p) (.float p)
  | eq (p : Precision) : FloatBinary (.float p) (.float p) .bool
  | compare (op : Comparison) (p : Precision) : FloatBinary (.float p) (.float p) .bool
  | call (f : Function2) (p : Precision) : FloatBinary (.float p) (.float p) (.float p)
  deriving DecidableEq, Hashable

inductive Term : Kind → Type where
  | bool (b : Bool) : Term .bool
  | bits {w : Width} (v : BitVec w.size) : Term (.bits w)
  | float {p : Precision} (x : Binary p) : Term (.float p)
  | symbol (s : Symbol) (k : Kind) : Term k
  | unary {a b : Kind} (op : CoreUnary a b) (x : Term a) : Term b
  | binary {a b c : Kind} (op : CoreBinary a b c) (x : Term a) (y : Term b) : Term c
  | floatUnary {a b : Kind} (op : FloatUnary a b) (x : Term a) : Term b
  | floatBinary {a b c : Kind} (op : FloatBinary a b c) (x : Term a) (y : Term b) : Term c
  | ite {k : Kind} (cond : Term .bool) (whenTrue whenFalse : Term k) : Term k
with
  @[computed_field] digest : (k : Kind) → Term k → UInt64
    | _, .bool b => mixHash 1 (hash b)
    | _, .bits v => mixHash 2 (hash v.toNat)
    | _, .float x => mixHash 3 (hash x.toBits)
    | _, .symbol s k => mixHash 4 (mixHash (hash s) (hash k))
    | _, .unary op x => mixHash 5 (mixHash (hash op) (x.digest _))
    | _, .binary op x y => mixHash 6 (mixHash (hash op) (mixHash (x.digest _) (y.digest _)))
    | _, .floatUnary op x => mixHash 7 (mixHash (hash op) (x.digest _))
    | _, .floatBinary op x y => mixHash 8 (mixHash (hash op) (mixHash (x.digest _) (y.digest _)))
    | _, .ite c x y => mixHash 9 (mixHash (c.digest _) (mixHash (x.digest _) (y.digest _)))
  deriving DecidableEq

namespace Term

def decEq {k : Kind} (x y : Term k) : Decidable (x = y) :=
  withPtrEqDecEq x y fun _ =>
    if h : x.digest k = y.digest k then
      match x, y with
      | .bool b, .bool c => decidable_of_iff (b = c) (by simp)
      | .bits v, .bits w => decidable_of_iff (v = w) (by simp)
      | .float v, .float w => decidable_of_iff (v = w) (by simp)
      | .symbol s k, .symbol t _ => decidable_of_iff (s = t) (by simp)
      | @unary a _ op x, @unary a' _ op' x' =>
        if ha : a = a' then by
          subst ha
          have := decEq x x'
          exact decidable_of_iff (op = op' ∧ x = x') (by simp)
        else isFalse (by simp [ha])
      | @floatUnary a _ op x, @floatUnary a' _ op' x' =>
        if ha : a = a' then by
          subst ha
          have := decEq x x'
          exact decidable_of_iff (op = op' ∧ x = x') (by simp)
        else isFalse (by simp [ha])
      | @binary a b _ op x y, @binary a' b' _ op' x' y' =>
        if hab : a = a' ∧ b = b' then by
          obtain ⟨rfl, rfl⟩ := hab
          have := decEq x x'
          have := decEq y y'
          exact decidable_of_iff (op = op' ∧ x = x' ∧ y = y') (by simp)
        else isFalse (by simp; intro ha hb; exact absurd ⟨ha, hb⟩ hab)
      | @floatBinary a b _ op x y, @floatBinary a' b' _ op' x' y' =>
        if hab : a = a' ∧ b = b' then by
          obtain ⟨rfl, rfl⟩ := hab
          have := decEq x x'
          have := decEq y y'
          exact decidable_of_iff (op = op' ∧ x = x' ∧ y = y') (by simp)
        else isFalse (by simp; intro ha hb; exact absurd ⟨ha, hb⟩ hab)
      | .ite c x y, .ite c' x' y' =>
        have := decEq c c'
        have := decEq x x'
        have := decEq y y'
        decidable_of_iff (c = c' ∧ x = x' ∧ y = y') (by simp)
      | x, y => instDecidableEqTerm x y
    else isFalse fun e => h (e ▸ rfl)

instance {k : Kind} : DecidableEq (Term k) := decEq

def isLiteral {k : Kind} : Term k → Bool
  | .bool _ | .bits _ | .float _ => true
  | _ => false

def negate (t : Term .bool) : Term .bool :=
  .unary .not t

def symbols {k : Kind} : Term k → List (Symbol × Kind)
  | .bool _ | .bits _ | .float _ => []
  | .symbol s k => [(s, k)]
  | .unary _ x | .floatUnary _ x => x.symbols
  | .binary _ x y | .floatBinary _ x y => x.symbols ++ y.symbols
  | .ite c x y => c.symbols ++ x.symbols ++ y.symbols

end Term

end OneStep
