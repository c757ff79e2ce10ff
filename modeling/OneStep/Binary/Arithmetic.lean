import OneStep.Binary.Basic

namespace OneStep

namespace Binary

variable {p : Precision}

def signed (negative : Bool) (n : Nat) : Int :=
  if negative then -n else n

def neg : Binary p → Binary p
  | .nan => .nan
  | .number negative rank h => .number (!negative) rank h

def add : Binary p → Binary p → Binary p
  | .number s a ha, .number t b hb =>
    if a = p.top then
      if b = p.top ∧ s ≠ t then .nan else .number s a ha
    else if b = p.top then .number t b hb
    else
      let sum := signed s (p.quanta a) + signed t (p.quanta b)
      if sum = 0 then zero (s && t) else ofQuotient (sum < 0) sum.natAbs 1
  | _, _ => .nan

def sub (x y : Binary p) : Binary p :=
  x.add y.neg

def mul : Binary p → Binary p → Binary p
  | .number s a _, .number t b _ =>
    if a = p.top ∨ b = p.top then
      if a = 0 ∨ b = 0 then .nan else infinity (s != t)
    else ofQuotient (s != t) (p.quanta a * p.quanta b) (Nat.pow 2 p.scale)
  | _, _ => .nan

def div : Binary p → Binary p → Binary p
  | .number s a _, .number t b _ =>
    if a = p.top then if b = p.top then .nan else infinity (s != t)
    else if b = p.top then zero (s != t)
    else if b = 0 then if a = 0 then .nan else infinity (s != t)
    else ofQuotient (s != t) (p.quanta a * Nat.pow 2 p.scale) (p.quanta b)
  | _, _ => .nan

def rootFrom (n : Nat) : Nat → Nat → Nat
  | 0, x => x
  | fuel + 1, x =>
    let y := (x + n / x) / 2
    if y < x then rootFrom n fuel y else x

def root (n : Nat) : Nat :=
  rootFrom n (n.log2 + 2) (Nat.pow 2 (n.log2 / 2 + 1))

def sqrt : Binary p → Binary p
  | .nan => .nan
  | .number negative rank h =>
    if rank = 0 then .number negative rank h
    else if negative then .nan
    else if rank = p.top then .number negative rank h
    else
      let n := p.quanta rank * Nat.pow 2 p.scale
      let r := root n
      ofQuotient false (2 * r + if r * r = n then 0 else 1) 2

def toIntegral (up : Bool) : Binary p → Binary p
  | .nan => .nan
  | .number negative rank h =>
    if rank = p.top then .number negative rank h
    else
      let n := p.quanta rank
      let unit := Nat.pow 2 p.scale
      let whole := if up = negative then n / unit else (n + (unit - 1)) / unit
      ofQuotient negative (whole * unit) 1

def convert {q : Precision} : Binary p → Binary q
  | .nan => .nan
  | .number negative rank _ =>
    if rank = p.top then infinity negative
    else ofQuotient negative (p.quanta rank * Nat.pow 2 q.scale) (Nat.pow 2 p.scale)

def isFinite : Binary p → Bool
  | .nan => false
  | .number _ rank _ => rank != p.top

def copySign {q : Precision} : Binary p → Binary q → Binary p
  | .number _ rank h, .number negative _ _ => .number negative rank h
  | x, _ => x

def pack? (x : Binary .double) : Option (Binary .single) :=
  let y : Binary .single := x.convert
  if x.isFinite && !y.isFinite then none else some y

def toSingle (x : Binary .double) : Binary .single :=
  match x.pack? with
  | some y => y
  | none => (infinity false).copySign x

def truncate? : Binary p → Option Int
  | .nan => none
  | .number negative rank _ =>
    if rank = p.top then none else some (signed negative (p.quanta rank / Nat.pow 2 p.scale))

def compare (test : Int → Int → Bool) (x y : Binary p) : Bool :=
  match x.position?, y.position? with
  | some a, some b => test a b
  | _, _ => false

end Binary

end OneStep
