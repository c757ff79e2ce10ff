import OneStep.Term
import Std.Data.HashMap

namespace OneStep

abbrev Pool := Std.HashMap UInt64 (List ((k : Kind) × Term k))

namespace Pool

def search? {k : Kind} (t : Term k) : List ((k : Kind) × Term k) → Option { u : Term k // u = t }
  | [] => none
  | ⟨l, u⟩ :: rest =>
    if h : l = k then
      match Term.decEq (h ▸ u) t with
      | isTrue same => some ⟨h ▸ u, same⟩
      | isFalse _ => search? t rest
    else search? t rest

def find? (pool : Pool) {k : Kind} (t : Term k) : Option { u : Term k // u = t } :=
  search? t (pool.getD (t.digest k) [])

def add (pool : Pool) {k : Kind} (t : Term k) : Pool :=
  pool.insert (t.digest k) (⟨k, t⟩ :: pool.getD (t.digest k) [])

end Pool

namespace Term

def fromPool {k : Kind} (t : Term k) (make : StateM Pool { u : Term k // u = t }) :
    StateM Pool { u : Term k // u = t } := do
  match (← get).find? t with
  | some u => return u
  | none =>
    let u ← make
    modify fun pool => pool.add u.1
    return u

def share {k : Kind} : (t : Term k) → StateM Pool { u : Term k // u = t }
  | .bool b => return ⟨.bool b, rfl⟩
  | .bits v => return ⟨.bits v, rfl⟩
  | .float x => return ⟨.float x, rfl⟩
  | .symbol s k => fromPool (.symbol s k) (return ⟨.symbol s k, rfl⟩)
  | .unary op x => fromPool (.unary op x) do
    let x' ← share x
    return ⟨.unary op x'.1, by rw [x'.2]⟩
  | .binary op x y => fromPool (.binary op x y) do
    let x' ← share x
    let y' ← share y
    return ⟨.binary op x'.1 y'.1, by rw [x'.2, y'.2]⟩
  | .floatUnary op x => fromPool (.floatUnary op x) do
    let x' ← share x
    return ⟨.floatUnary op x'.1, by rw [x'.2]⟩
  | .floatBinary op x y => fromPool (.floatBinary op x y) do
    let x' ← share x
    let y' ← share y
    return ⟨.floatBinary op x'.1 y'.1, by rw [x'.2, y'.2]⟩
  | .ite c x y => fromPool (.ite c x y) do
    let c' ← share c
    let x' ← share x
    let y' ← share y
    return ⟨.ite c'.1 x'.1 y'.1, by rw [c'.2, x'.2, y'.2]⟩

end Term

end OneStep
