import OneStep.Solver.Order
import OneStep.Symbolic.Value

/-!
The built-in solver: a search by cases. Truth values, and narrow words of up to sixteen bits together, are tried one
after the other. Comparisons of other symbols, with each other and with literals, are taken to hold or to fail, as long
as some order of the symbols allows it. Where a formula does more with a symbol than to compare it, some values are
sampled; a search that finds nothing then proves nothing, and the answer is that it is not known.
-/

namespace OneStep.Search

def narrowBits : Kind → Nat
  | .bool => 1
  | .bits .w8 => 8
  | .bits .w16 => 16
  | _ => 0

def isTried (exhaustive : Bool) : Kind → Bool
  | .bool => true
  | k => exhaustive && narrowBits k != 0

def allWords (w : Width) : List (BitVec w.size) :=
  (List.range (Nat.pow 2 w.size)).map (BitVec.ofNat w.size)

def allValues : (k : Kind) → List k.Carrier
  | .bool => [false, true]
  | .bits w => allWords w
  | .float _ => []

def wordsAbove {n : Nat} : Nat → BitVec n → List (BitVec n)
  | 0, x => [x]
  | count + 1, x => x :: wordsAbove count (x + 1)

def above {p : Precision} : Nat → Binary p → List (Binary p)
  | 0, x => [x]
  | n + 1, x => x :: above n x.up

def samples (count : Nat) (literals : List Sample) : (k : Kind) → List k.Carrier
  | .bool => [false, true]
  | .bits w =>
    let bases := 0 :: BitVec.intMin w.size :: literals.filterMap (·.ofKind? (.bits w))
    (bases.flatMap (wordsAbove count)).eraseDups
  | .float p =>
    let ends := [.infinity true, .zero true, .zero false, .infinity false]
    let bases := ends ++ literals.filterMap (·.ofKind? (.float p))
    (Binary.nan :: bases.flatMap (above count)).eraseDups

def chosen? (choices : List (Symbol × Sample)) (s : Symbol) (k : Kind) : Option k.Carrier :=
  choices.findSome? fun (t, v) => if t = s then v.ofKind? k else none

def assign (choices : List (Symbol × Sample)) : Assignment := fun s k =>
  (chosen? choices s k).getD k.default

structure Case where
  choices : List (Symbol × Sample) := []
  decided : List (Nat × Bool) := []
  placed : List Spot := []
  signs : List (Spot × Bool) := []
  bounds : List Bound := []

namespace Case

def choose (c : Case) (s : Spot) (v : s.2.Carrier) : Case :=
  { c with choices := (s.1, ⟨s.2, v⟩) :: c.choices }

def place (c : Case) (s : Spot) : Case :=
  { c with placed := s :: c.placed, bounds := Bound.inRange s ++ c.bounds }

def suppose (c : Case) (bounds : List Bound) : Case :=
  { c with bounds := bounds ++ c.bounds }

def decide (c : Case) (gate : Nat) (holds : Bool) : Case :=
  { c with decided := (gate, holds) :: c.decided }

def isChosen (c : Case) (s : Spot) : Bool :=
  (chosen? c.choices s.1 s.2).isSome

def sample (c : Case) (s : Spot) (v : s.2.Carrier) : Case :=
  let chosen := c.choose s v
  if c.placed.contains s then
    match Place.ofSample? ⟨s.2, v⟩ with
    | some p => chosen.suppose (Bound.equal (.ofSpot s) p)
    | none => chosen.suppose [Bound.between (.ofSpot s) (.ofSpot s) 1]
  else chosen

end Case

inductive Relation where
  | equal
  | ordered (op : Comparison)

namespace Relation

def ways : Relation → Place → Place → List (Bool × List Bound)
  | .equal, x, y =>
    [(true, Bound.equal x y), (false, [Bound.between x y 1]), (false, [Bound.between y x 1])]
  | .ordered .lt, x, y => [(true, [Bound.between x y 1]), (false, [Bound.between y x])]
  | .ordered .le, x, y => [(true, [Bound.between x y]), (false, [Bound.between y x 1])]
  | .ordered .gt, x, y => [(true, [Bound.between y x 1]), (false, [Bound.between x y])]
  | .ordered .ge, x, y => [(true, [Bound.between y x]), (false, [Bound.between x y 1])]

def acrossZero : Relation → (isFirstBelow : Bool) → Bool
  | .equal, _ => false
  | .ordered .lt, b | .ordered .le, b => b
  | .ordered .gt, b | .ordered .ge, b => !b

end Relation

structure Atom where
  gate : Nat
  relation : Relation
  isSigned : Bool
  x : Known
  y : Known

namespace Atom

def ofGate? (known : Array Known) (place : Nat) (g : Gate) : Option Atom :=
  let atom (relation : Relation) (isSigned : Bool) (x y : Nat) : Option Atom :=
    match known.getD place .unknown, known.getD x .unknown, known.getD y .unknown with
    | .value _, _, _ => none
    | _, .unknown, _ => none
    | _, _, .unknown => none
    | _, x, y => some { gate := place, relation, isSigned, x, y }
  match g with
  | .binary (.eq _) x y => atom .equal false x y
  | .binary (.compare isSigned op _) x y => atom (.ordered op) isSigned x y
  | .floatBinary (.eq _) x y => atom .equal false x y
  | .floatBinary (.compare op _) x y => atom (.ordered op) false x y
  | _ => none

def symbol? (a : Atom) (p : Spot → Bool) : Option Spot :=
  [a.x, a.y].findSome? fun
    | .symbol s k => if p (s, k) then some (s, k) else none
    | _ => none

def place? : Known → Option Place
  | .value v => Place.ofSample? v
  | .symbol s k => some (.ofSpot (s, k))
  | .unknown => none

def sign? (c : Case) : Known → Option Bool
  | .value ⟨.bits _, v⟩ => some v.msb
  | .symbol s k => c.signs.lookup (s, k)
  | _ => none

def withoutOrder (a : Atom) : Bool :=
  [a.x, a.y].any fun
    | .value ⟨.float _, .nan⟩ => true
    | _ => false

def placings (c : Case) (s : Spot) : List Case :=
  c.place s ::
    match s with
    | (s, .float p) => [c.choose (s, .float p) Binary.nan]
    | _ => []

def signings (c : Case) (s : Spot) : List Case :=
  match s.2 with
  | .bits w =>
    let half : Int := Nat.pow 2 (w.size - 1)
    let clear := c.suppose [Bound.between (.ofSpot s) ⟨none, half - 1⟩]
    let set := c.suppose [Bound.between ⟨none, half⟩ (.ofSpot s)]
    [{ clear with signs := (s, false) :: c.signs }, { set with signs := (s, true) :: c.signs }]
  | _ => []

def cases (c : Case) (a : Atom) : List Case :=
  if a.withoutOrder then [c.decide a.gate false]
  else
    match a.symbol? fun s => !c.placed.contains s with
    | some s => placings c s
    | none =>
      let split :=
        match place? a.x, place? a.y with
        | some x, some y => (a.relation.ways x y).map fun (holds, bounds) => (c.decide a.gate holds).suppose bounds
        | _, _ => []
      if a.isSigned then
        match a.symbol? fun s => (c.signs.lookup s).isNone with
        | some s => signings c s
        | none =>
          match sign? c a.x, sign? c a.y with
          | some true, some false => [c.decide a.gate (a.relation.acrossZero true)]
          | some false, some true => [c.decide a.gate (a.relation.acrossZero false)]
          | _, _ => split
      else split

end Atom

inductive Answer where
  | sat (choices : List (Symbol × Sample))
  | unsat
  | unknown

namespace Answer

def ofCases (answer : Case → Answer) : List Case → Answer
  | [] => .unsat
  | c :: rest =>
    match answer c with
    | .sat choices => .sat choices
    | .unsat => ofCases answer rest
    | .unknown =>
      match ofCases answer rest with
      | .unsat => .unknown
      | found => found

def leavingOut : Answer → Answer
  | .unsat => .unknown
  | found => found

end Answer

structure Problem where
  circuit : Circuit
  roots : List Nat
  symbols : List Spot
  exhaustive : Bool

namespace Problem

def ofFormulas (formulas : List (Term .bool)) : Problem :=
  let (roots, circuit) := (formulas.mapM Circuit.add).run {}
  let symbols := circuit.symbols
  { circuit, roots, symbols, exhaustive := (symbols.map fun (_, k) => narrowBits k).foldl (· + ·) 0 ≤ 16 }

def isTrue : Known → Bool
  | .value ⟨.bool, b⟩ => b
  | _ => false

def isFalse : Known → Bool
  | .value ⟨.bool, b⟩ => !b
  | _ => false

def known (p : Problem) (c : Case) : Array Known :=
  p.circuit.gates.foldl (fun earlier g =>
    earlier.push (match c.decided.lookup earlier.size with
      | some holds => .value ⟨.bool, holds⟩
      | none => g.known (chosen? c.choices) earlier)) (Array.mkEmpty p.circuit.gates.size)

def holds (p : Problem) (choices : List (Symbol × Sample)) : Bool :=
  let known := p.circuit.known fun s k => some (assign choices s k)
  p.roots.all fun r => isTrue (known.getD r .unknown)

def completed (p : Problem) (c : Case) (ps : Bound.Positions) : List (Symbol × Sample) :=
  p.symbols.map fun s =>
    let v := match chosen? c.choices s.1 s.2 with
      | some v => v
      | none => if c.placed.contains s then Place.valueAt (Bound.height ps s) s.2 else s.2.default
    (s.1, ⟨s.2, v⟩)

def firstAtom? (p : Problem) (known : Array Known) : Option Atom :=
  p.circuit.gates.toList.zipIdx.findSome? fun (g, place) => Atom.ofGate? known place g

def answer (p : Problem) : Nat → Case → Answer
  | 0, _ => .unknown
  | fuel + 1, c =>
    match Bound.solve? c.bounds with
    | none => .unsat
    | some ps =>
      let known := p.known c
      let roots := p.roots.map fun r => known.getD r .unknown
      if roots.any isFalse then .unsat
      else if roots.all isTrue then
        let choices := p.completed c ps
        if p.holds choices then .sat choices else .unknown
      else
        let free := p.symbols.filter fun s => !c.isChosen s
        match free.find? fun s => isTried p.exhaustive s.2 with
        | some s => .ofCases (p.answer fuel) ((allValues s.2).map (c.choose s))
        | none =>
          match p.firstAtom? known with
          | some a => .ofCases (p.answer fuel) (a.cases c)
          | none =>
            match free with
            | s :: _ =>
              let sampled := samples free.length p.circuit.literals s.2
              (Answer.ofCases (p.answer fuel) (sampled.map (c.sample s))).leavingOut
            | [] => .unknown

def questions (p : Problem) : Nat :=
  3 * p.symbols.length + p.circuit.gates.size

end Problem

def solve (formulas : List (Term .bool)) : Answer :=
  let p := Problem.ofFormulas formulas
  p.answer (p.questions + 1) {}

end OneStep.Search
