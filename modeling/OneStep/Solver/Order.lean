import OneStep.Term.Circuit

namespace OneStep

abbrev Spot := Symbol × Kind

structure Place where
  spot : Option Spot
  above : Int

namespace Place

def ofSample? : Sample → Option Place
  | ⟨.bool, _⟩ => none
  | ⟨.bits _, v⟩ => some ⟨none, v.toNat⟩
  | ⟨.float _, x⟩ => x.position?.map fun n => ⟨none, n⟩

def ofSpot (s : Spot) : Place :=
  ⟨some s, 0⟩

def valueAt (n : Int) : (k : Kind) → k.Carrier
  | .bool => n != 0
  | .bits w => BitVec.ofInt w.size n
  | .float p => if h : n.natAbs ≤ p.top then .number (n < 0) n.natAbs h else .nan

def range : Kind → Int × Int
  | .bool => (0, 1)
  | .bits w => (0, Nat.pow 2 w.size - 1)
  | .float p => (-p.top, p.top)

end Place

structure Bound where
  lower : Option Spot
  upper : Option Spot
  gap : Int

namespace Bound

def between (x y : Place) (gap : Int := 0) : Bound :=
  ⟨x.spot, y.spot, x.above + gap - y.above⟩

def equal (x y : Place) : List Bound :=
  [between x y, between y x]

def inRange (s : Spot) : List Bound :=
  let (low, high) := Place.range s.2
  [between ⟨none, low⟩ (.ofSpot s), between (.ofSpot s) ⟨none, high⟩]

abbrev Positions := List (Option Spot × Int)

def position (ps : Positions) (s : Option Spot) : Int :=
  (ps.lookup s).getD 0

def raise (ps : Positions) (s : Option Spot) (n : Int) : Positions :=
  match ps with
  | [] => [(s, n)]
  | (t, m) :: rest => if t = s then (t, n) :: rest else (t, m) :: raise rest s n

def pass (bounds : List Bound) (ps : Positions) : Positions × Bool :=
  bounds.foldl (fun (ps, isDone) b =>
    let least := position ps b.lower + b.gap
    if least ≤ position ps b.upper then (ps, isDone) else (raise ps b.upper least, false)) (ps, true)

def settle (bounds : List Bound) : Nat → Positions → Option Positions
  | 0, _ => none
  | fuel + 1, ps =>
    let (ps, isDone) := pass bounds ps
    if isDone then some ps else settle bounds fuel ps

def spots (bounds : List Bound) : List (Option Spot) :=
  (none :: bounds.flatMap fun b => [b.lower, b.upper]).eraseDups

def solve? (bounds : List Bound) : Option Positions :=
  settle bounds ((spots bounds).length + 1) []

def height (ps : Positions) (s : Spot) : Int :=
  position ps (some s) - position ps none

end Bound

end OneStep
