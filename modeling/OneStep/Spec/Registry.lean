import OneStep.Expr
import OneStep.Fault

namespace OneStep

structure Table (κ ν : Type) where
  entries : List (κ × ν) := []

namespace Table

variable {κ ν : Type}

def add (t : Table κ ν) (key : κ) (value : ν) : Table κ ν :=
  ⟨t.entries ++ [(key, value)]⟩

def keys (t : Table κ ν) : List κ :=
  t.entries.map (·.1)

def size (t : Table κ ν) : Nat :=
  t.entries.length

def find? [BEq κ] (t : Table κ ν) (key : κ) : Option ν :=
  (t.entries.find? (·.1 == key)).map (·.2)

def contains [BEq κ] (t : Table κ ν) (key : κ) : Bool :=
  (t.find? key).isSome

def ofList [BEq κ] (pairs : List (κ × ν)) : Except κ (Table κ ν) :=
  pairs.foldlM (fun t (key, value) => if t.contains key then .error key else .ok (t.add key value)) {}

end Table

structure Key where
  datum : Datum

instance : BEq Key := ⟨fun a b => a.datum.sameKey b.datum⟩

abbrev Registry := Table Int Stream

namespace Registry

def ofStreams (streams : List Stream) : Except Fault Registry :=
  match Table.ofList (streams.map fun s => (s.id, s)) with
  | .ok t => .ok t
  | .error id => .error (.duplicateStream (.int id))

def get (r : Registry) (id : Int) : Except Fault Stream :=
  match r.find? id with
  | some s => .ok s
  | none => do
    let _ ← writeInt id
    .error (.reported (.missingStream (.int id)))

end Registry

abbrev Catalog := Table Key StreamType

namespace Catalog

def key (id : Datum) : Except Fault Key :=
  if id.isKey then .ok ⟨id⟩ else .error .unusableKey

def add (c : Catalog) (id : Datum) (t : StreamType) : Except Fault Catalog := do
  let key ← key id
  if c.contains key then .error (.duplicateStream id) else .ok (Table.add c key t)

def ofPairs (streams : List (Datum × StreamType)) : Except Fault Catalog :=
  streams.foldlM (fun c (id, t) => c.add id t) {}

def get (c : Catalog) (id : Datum) : Except Fault StreamType := do
  match c.find? (← key id) with
  | some t => .ok t
  | none => do
    let _ ← id.asText
    .error (.reported (.missingStream id))

end Catalog

end OneStep
