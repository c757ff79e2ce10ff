import OneStep.Spec.Registry
import OneStep.Symbolic.Fresh

namespace OneStep

structure Lookup where
  element : StreamType
  array : SymValue
  kind : Kind
  index : Term kind
  deriving DecidableEq

structure Memo where
  past : Table (Int × Int) SymValue := {}
  inputs : Table (String × Int) SymValue := {}
  lookups : Table Lookup SymValue := {}
  hits : Nat := 0
  misses : Nat := 0

namespace Memo

def size (m : Memo) : Nat :=
  m.past.size + m.inputs.size + m.lookups.size

end Memo

structure Encoder where
  supply : Supply := {}
  memo : Memo := {}
  pool : Pool := {}

abbrev Encoding := ExceptT Fault (StateM Encoder)

namespace Encoding

def draw (t : StreamType) (hint : String) : Encoding SymValue := fun encoder =>
  let (result, supply) := (Supply.draw t hint).run encoder.supply
  (result, { encoder with supply })

def drawNamed (t : StreamType) (hint : Datum) : Encoding SymValue := do
  match hint, t with
  | .text hint, t => draw t hint
  | hint, .array 0 element => draw (.array 0 element) hint.plainText
  | hint, .array length element => draw (.array length element) (← hint.asText)
  | hint, .struct name fields => draw (.struct name fields) (← hint.asText)
  | _, t =>
    let _ ← t.tag
    throw .notText

def note (e : Event) : Encoding Unit :=
  modify fun encoder => { encoder with supply.journal := e :: encoder.supply.journal }

def share (v : SymValue) : Encoding SymValue :=
  modifyGet fun encoder =>
    let (v, pool) := (SymValue.share v).run encoder.pool
    (v, { encoder with pool })

def hit : Encoding Unit :=
  modify fun encoder => { encoder with memo.hits := encoder.memo.hits + 1 }

def miss : Encoding Unit :=
  modify fun encoder => { encoder with memo.misses := encoder.memo.misses + 1 }

def past (registry : Registry) (id offset : Int) : Encoding SymValue := do
  if offset ≥ 0 then throw (.pastOffset offset)
  match (← get).memo.past.find? (id, offset) with
  | some v =>
    hit
    return v
  | none =>
    miss
    let s ← registry.get id
    let v ← draw s.type s!"s{← writeInt id}_{← writeInt offset}"
    modify fun encoder => { encoder with memo.past := encoder.memo.past.add (id, offset) v }
    note (.pastSymbol id offset)
    return v

def input (name : String) (t : StreamType) (offset : Int) : Encoding SymValue := do
  if offset > 0 then throw (.inputOffset offset)
  match (← get).memo.inputs.find? (name, offset) with
  | some v =>
    hit
    return v
  | none =>
    miss
    let v ← draw t s!"{name}_{← writeInt offset}"
    modify fun encoder => { encoder with memo.inputs := encoder.memo.inputs.add (name, offset) v }
    return v

def outside (key : Lookup) : Encoding SymValue := do
  match (← get).memo.lookups.find? key with
  | some v =>
    hit
    return v
  | none =>
    miss
    let v ← draw key.element "index_out_of_range"
    modify fun encoder => { encoder with memo.lookups := encoder.memo.lookups.add key v }
    return v

def outsideOf (element : StreamType) (array index : SymValue) : Encoding SymValue :=
  match index with
  | .scalar s t => outside { element, array, kind := s.kind, index := t }
  | _ => throw .noTerm

end Encoding

end OneStep
