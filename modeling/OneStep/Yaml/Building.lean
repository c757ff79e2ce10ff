import OneStep.Yaml.Node

namespace OneStep.Yaml

inductive Part where
  | datum (d : Datum)
  | nan (origin : Option Nat)
  | collection (number : Nat)

namespace Part

def isKey : Part → Bool
  | .collection _ => false
  | _ => true

def sameKey : Part → Part → Bool
  | .datum a, .datum b => a.sameKey b
  | .nan a, .nan b => a == b
  | _, _ => false

def insert (entries : List (Part × Part)) (key value : Part) : List (Part × Part) :=
  match entries with
  | [] => [(key, value)]
  | (k, v) :: rest => if sameKey k key then (k, value) :: rest else (k, v) :: insert rest key value

end Part

inductive Content where
  | list (items : List Part)
  | pairs (items : List (Part × Part))
  | set (items : List Part)
  | map (entries : List (Part × Part))

structure Workshop where
  graph : Graph
  parts : Array (Option Part)
  contents : Array (Option Content)
  begun : List Nat := []

abbrev Building := StateT Workshop (Except Problem)

namespace Building

def fail {α : Type} : Building α :=
  throw .malformed

def node (number : Nat) : Building Node :=
  return (← get).graph.getD number .empty

def setNode (number : Nat) (node : Node) : Building Unit :=
  modify fun w => { w with graph := w.graph.setIfInBounds number node }

def hasTag (tag : Tag) (number : Nat) : Building Bool :=
  return (← node number).tag == tag

def findEntry? (tag : Tag) : List (Nat × Nat) → Building (Option (Nat × List (Nat × Nat)))
  | [] => return none
  | (key, value) :: rest => do
    if ← hasTag tag key then return some (value, rest)
    else return (← findEntry? tag rest).map fun (found, others) => (found, (key, value) :: others)

def nameKey (key : Nat) : Building Unit := do
  let n ← node key
  if n.tag = .value then setNode key { n with tag := .text }

def entriesOf (number : Nat) : Building (List (Nat × Nat)) := do
  match (← node number).shape with
  | .mapping entries => return entries
  | _ => fail

def setEntries (number : Nat) (entries : List (Nat × Nat)) : Building Unit := do
  setNode number { ← node number with shape := .mapping entries }

def flatten : Nat → List (Nat × Nat) → Nat → Building Unit
  | 0, _, _ => fail
  | fuel + 1, merged, number => do
    let entries ← entriesOf number
    match ← findEntry? .merge entries with
    | none =>
      entries.forM fun (key, _) => nameKey key
      setEntries number (merged ++ entries)
    | some (value, others) =>
      setEntries number others
      let found ← match (← node value).shape with
        | .mapping _ => do
          flatten fuel [] value
          entriesOf value
        | .sequence items => do
          let parts ← items.mapM fun item => do
            let _ ← entriesOf item
            flatten fuel [] item
            entriesOf item
          pure parts.reverse.flatten
        | .scalar _ => fail
      flatten fuel (merged ++ found) number

def countEntries (graph : Graph) : Nat :=
  graph.foldl (fun n node => match node.shape with
    | .mapping entries => n + entries.length
    | _ => n) 0

def scalarText : Nat → Nat → Building String
  | 0, _ => throw (.fault .endless)
  | fuel + 1, number => do
    match (← node number).shape with
    | .scalar text => return text
    | .sequence _ => fail
    | .mapping entries =>
      match ← findEntry? .value entries with
      | some (value, _) => scalarText fuel value
      | none => fail

def textOf (number : Nat) : Building String := do
  scalarText ((← get).graph.size + 1) number

def scalar (number : Nat) : Building Part := do
  let node ← node number
  match node.tag with
  | .null => do
    let _ ← textOf number
    return .datum .null
  | .bool => do return .datum (.bool (← Problem.ofFault (Tag.boolValue (← textOf number))))
  | .int => do return .datum (.int (← Problem.ofFault (Tag.intValue (← textOf number))))
  | .float => do
    let (x, isConstant) ← Problem.ofFault (Tag.floatValue (← textOf number))
    if x = .nan then return .nan (if isConstant then none else some number)
    else return .datum (.float x)
  | .text => do return .datum (.text (← textOf number))
  | .binary => do return .datum (.bytes (← Tag.binaryValue (← textOf number)))
  | .timestamp => do
    let text ← textOf number
    match node.shape with
    | .scalar _ => return .datum (← Problem.ofFault (Tag.timestampValue text))
    | _ => throw (.fault .timestampShape)
  | .sequence | .pairs | .mapping | .set | .merge | .value | .other => fail

def isCollection : Tag → Bool
  | .sequence | .pairs | .mapping | .set => true
  | _ => false

def part (number : Nat) : Building Part := do
  match (← get).parts.getD number none with
  | some p => return p
  | none =>
    let p ←
      if isCollection (← node number).tag then do
        modify fun w => { w with begun := number :: w.begun }
        pure (.collection number)
      else scalar number
    modify fun w => { w with parts := w.parts.setIfInBounds number (some p) }
    return p

def pair (number : Nat) : Building (Part × Part) := do
  match (← node number).shape with
  | .mapping [(key, value)] => return (← part key, ← part value)
  | _ => fail

def addEntry (done : List (Part × Part)) (entry : Nat × Nat) : Building (List (Part × Part)) := do
  let key ← part entry.1
  if !key.isKey then fail
  return Part.insert done key (← part entry.2)

def entries (number : Nat) : Building (List (Part × Part)) := do
  let _ ← entriesOf number
  flatten (countEntries (← get).graph + 1) [] number
  (← entriesOf number).foldlM addEntry []

def content (number : Nat) : Building Content := do
  let node ← node number
  match node.tag, node.shape with
  | .sequence, .sequence items => return .list (← items.mapM part)
  | .pairs, .sequence items => return .pairs (← items.mapM pair)
  | .mapping, .mapping _ => return .map (← entries number)
  | .set, .mapping _ => return .set ((← entries number).map (·.1))
  | _, _ => fail

def complete (number : Nat) : Building Unit := do
  let content ← content number
  modify fun w => { w with contents := w.contents.setIfInBounds number (some content) }

def completeAll : Nat → Building Unit
  | 0 => return
  | fuel + 1 => do
    let begun := (← get).begun.reverse
    if begun.isEmpty then return
    modify fun w => { w with begun := [] }
    begun.forM complete
    completeAll fuel

end Building

def memberNumber? : Datum → Option Int
  | .int n => some (if n = -1 then -2 else n.tmod 0x1FFFFFFFFFFFFFFF)
  | .bool b => some (if b then 1 else 0)
  | _ => none

def memberPlaces (count : Nat) : Nat :=
  if count ≤ 4 then 8 else Nat.pow 2 ((2 * count).log2 + 1)

def memberPlace (size : Nat) (taken : List Nat) : Nat → Nat → Nat → Nat
  | 0, start, _ => start
  | fuel + 1, start, number =>
    let near := if start + 10 ≤ size then 10 else 1
    match ((List.range near).map (start + ·)).find? fun place => !taken.contains place with
    | some place => place
    | none =>
      let number := number / 32
      memberPlace size taken fuel ((start * 5 + 1 + number) % size) number

def placeMembers (size : Nat) (members : List (Datum × Int)) : List (Nat × Datum) :=
  members.foldl (fun done (d, n) =>
    let number := (n % 0x10000000000000000).toNat
    (memberPlace size (done.map (·.1)) (size + 16) (number % size) number, d) :: done) []

def orderMembers (items : List Datum) : List Datum :=
  let before (a b : Int × Int) := a.1 < b.1 || (a.1 == b.1 && a.2 ≤ b.2)
  match items.mapM fun d => (memberNumber? d).map (d, ·) with
  | some members =>
    ((placeMembers (memberPlaces items.length) members).mergeSort fun a b => a.1 ≤ b.1).map (·.2)
  | none =>
    if items.all fun d => d.position?.isSome then
      items.mergeSort fun a b => before (a.position?.getD (0, 0)) (b.position?.getD (0, 0))
    else items

structure Unfolded (α : Type) where
  value : α
  outer : List Nat := []
  loops : List Nat := []

namespace Unfolded

def gather {α : Type} (items : List (Unfolded α)) : Unfolded (List α) where
  value := items.map (·.value)
  outer := (items.flatMap (·.outer)).eraseDups
  loops := (items.flatMap (·.loops)).eraseDups

def pair {α β : Type} (x : Unfolded α) (y : Unfolded β) : Unfolded (α × β) where
  value := (x.value, y.value)
  outer := x.outer ++ y.outer
  loops := x.loops ++ y.loops

def map {α β : Type} (f : α → β) (x : Unfolded α) : Unfolded β :=
  { x with value := f x.value }

def close (number : Nat) (x : Unfolded Datum) : Unfolded Datum :=
  if x.outer.isEmpty then x
  else { value := .loop number x.value, outer := x.outer.erase number, loops := number :: x.loops }

end Unfolded

abbrev Finished := StateM (Array (Option (Unfolded Datum)))

def finished? (number : Nat) (outer : List Nat) : Finished (Option (Unfolded Datum)) := do
  return ((← get).getD number none).filter fun x => !x.loops.any outer.contains

def Part.toDatum (contents : Array (Option Content)) : Nat → List Nat → Part → Finished (Unfolded Datum)
  | _, _, .datum d => return { value := d }
  | _, _, .nan _ => return { value := .float .nan }
  | 0, _, .collection number => return { value := .again number, outer := [number] }
  | fuel + 1, outer, .collection number => do
    if outer.contains number then return { value := .again number, outer := [number] }
    if let some x ← finished? number outer then return x
    let part := toDatum contents fuel (number :: outer)
    let parts (items : List Part) : Finished (Unfolded (List Datum)) :=
      return .gather (← items.mapM part)
    let pairs (items : List (Part × Part)) : Finished (Unfolded (List (Datum × Datum))) :=
      return .gather (← items.mapM fun (k, v) => return (← part k).pair (← part v))
    let x : Unfolded Datum ← match contents.getD number none with
      | some (.list items) => (·.map .list) <$> parts items
      | some (.set items) => (·.map (.set ∘ orderMembers)) <$> parts items
      | some (.pairs items) => (·.map fun items => .list (items.map fun (k, v) => .tuple [k, v])) <$> pairs items
      | some (.map entries) => (·.map .map) <$> pairs entries
      | none => pure { value := .null }
    let x := x.close number
    if x.outer.isEmpty then modify fun done => done.setIfInBounds number (some x)
    return x

def Graph.toDatum (graph : Graph) (root : Nat) : Except Problem Datum := do
  let size := graph.size
  let build : Building Part := do
    let p ← Building.part root
    Building.completeAll (size + 1)
    return p
  let (p, w) ← build.run { graph, parts := Array.replicate size none, contents := Array.replicate size none }
  return ((p.toDatum w.contents (size + 1) []).run (Array.replicate size none)).run.1.value

def read (text : String) : Except Problem Datum := do
  let tokens ← Problem.orMalformed (tokens? text)
  match ← Node.ofTokens tokens with
  | (some root, graph) => graph.toDatum root
  | (none, _) => return .null

end OneStep.Yaml
