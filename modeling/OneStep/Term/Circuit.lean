import OneStep.Term.Eval
import Std.Data.HashMap

namespace OneStep

abbrev Sample := (k : Kind) × k.Carrier

def Sample.ofKind? (v : Sample) (k : Kind) : Option k.Carrier :=
  if h : v.1 = k then some (h ▸ v.2) else none

inductive Gate where
  | literal (v : Sample)
  | symbol (s : Symbol) (k : Kind)
  | unary {a b : Kind} (op : CoreUnary a b) (x : Nat)
  | binary {a b c : Kind} (op : CoreBinary a b c) (x y : Nat)
  | floatUnary {a b : Kind} (op : FloatUnary a b) (x : Nat)
  | floatBinary {a b c : Kind} (op : FloatBinary a b c) (x y : Nat)
  | ite (cond whenTrue whenFalse : Nat)

structure Circuit where
  gates : Array Gate := #[]
  places : Std.HashMap UInt64 (List (((k : Kind) × Term k) × Nat)) := {}

namespace Circuit

def place? {k : Kind} (t : Term k) : List (((k : Kind) × Term k) × Nat) → Option Nat
  | [] => none
  | (⟨l, u⟩, place) :: rest =>
    if h : l = k then if h ▸ u = t then some place else place? t rest else place? t rest

def find? (c : Circuit) {k : Kind} (t : Term k) : Option Nat :=
  place? t (c.places.getD (t.digest k) [])

def push (c : Circuit) {k : Kind} (t : Term k) (g : Gate) : Nat × Circuit :=
  let place := c.gates.size
  let known := (⟨k, t⟩, place) :: c.places.getD (t.digest k) []
  (place, { gates := c.gates.push g, places := c.places.insert (t.digest k) known })

def enter {k : Kind} (t : Term k) (gate : StateM Circuit Gate) : StateM Circuit Nat := do
  match (← get).find? t with
  | some place => return place
  | none =>
    let g ← gate
    modifyGet fun c => c.push t g

def add {k : Kind} : Term k → StateM Circuit Nat
  | .bool b => enter (.bool b) (return .literal ⟨.bool, b⟩)
  | @Term.bits w v => enter (.bits v) (return .literal ⟨.bits w, v⟩)
  | @Term.float p x => enter (.float x) (return .literal ⟨.float p, x⟩)
  | .symbol s k => enter (.symbol s k) (return .symbol s k)
  | .unary op x => enter (.unary op x) do return .unary op (← add x)
  | .binary op x y => enter (.binary op x y) do return .binary op (← add x) (← add y)
  | .floatUnary op x => enter (.floatUnary op x) do return .floatUnary op (← add x)
  | .floatBinary op x y => enter (.floatBinary op x y) do return .floatBinary op (← add x) (← add y)
  | .ite c x y => enter (.ite c x y) do return .ite (← add c) (← add x) (← add y)

def symbols (c : Circuit) : List (Symbol × Kind) :=
  c.gates.toList.filterMap fun
    | .symbol s k => some (s, k)
    | _ => none

def literals (c : Circuit) : List Sample :=
  c.gates.toList.filterMap fun
    | .literal v => some v
    | _ => none

end Circuit

inductive Known where
  | value (v : Sample)
  | symbol (s : Symbol) (k : Kind)
  | unknown

namespace Known

instance : Inhabited Known := ⟨.unknown⟩

def value? (k : Kind) : Known → Option k.Carrier
  | .value v => v.ofKind? k
  | _ => none

def ofValue? {k : Kind} : Option k.Carrier → Known
  | some v => .value ⟨k, v⟩
  | none => .unknown

end Known

namespace Gate

def known (σ : Symbol → (k : Kind) → Option k.Carrier) (earlier : Array Known) : Gate → Known
  | .literal v => .value v
  | .symbol s k =>
    match σ s k with
    | some v => .value ⟨k, v⟩
    | none => .symbol s k
  | @unary a b op x => .ofValue? (k := b) (((earlier.getD x .unknown).value? a).map op.apply)
  | @binary a b c op x y =>
    .ofValue? (k := c) (Term.foldBinary op ((earlier.getD x .unknown).value? a) ((earlier.getD y .unknown).value? b))
  | @floatUnary a b op x => .ofValue? (k := b) (((earlier.getD x .unknown).value? a).bind op.ieee?)
  | @floatBinary a b c op x y =>
    .ofValue? (k := c) do op.ieee? (← (earlier.getD x .unknown).value? a) (← (earlier.getD y .unknown).value? b)
  | .ite c x y =>
    match (earlier.getD c .unknown).value? .bool with
    | some true => earlier.getD x .unknown
    | some false => earlier.getD y .unknown
    | none => .unknown

end Gate

namespace Circuit

def known (c : Circuit) (σ : Symbol → (k : Kind) → Option k.Carrier) : Array Known :=
  c.gates.foldl (fun earlier g => earlier.push (g.known σ earlier)) (Array.mkEmpty c.gates.size)

end Circuit

namespace Term

def foldShared? (σ : Symbol → (k : Kind) → Option k.Carrier) {k : Kind} (t : Term k) : Option k.Carrier :=
  let (place, c) := (Circuit.add t).run {}
  ((c.known σ).getD place .unknown).value? k

end Term

end OneStep
