import OneStep.Binary.Basic
import OneStep.Calendar

namespace OneStep

inductive Datum where
  | null
  | bool (b : Bool)
  | int (n : Int)
  | float (x : Binary .double)
  | text (s : String)
  | bytes (content : List UInt8)
  | day (d : Day)
  | moment (m : Moment)
  | list (items : List Datum)
  | tuple (items : List Datum)
  | set (items : List Datum)
  | map (entries : List (Datum × Datum))
  | loop (label : Nat) (whole : Datum)
  | again (label : Nat)

namespace Datum

instance : Inhabited Datum := ⟨.null⟩

mutual

def fill (label : Nat) (value : Datum) : Datum → Datum
  | .again l => if l = label then value else .again l
  | .loop l d => if l = label then .loop l d else .loop l (fill label value d)
  | .list items => .list (fillItems label value items)
  | .tuple items => .tuple (fillItems label value items)
  | .set items => .set (fillItems label value items)
  | .map entries => .map (fillEntries label value entries)
  | d => d

def fillItems (label : Nat) (value : Datum) : List Datum → List Datum
  | [] => []
  | d :: rest => fill label value d :: fillItems label value rest

def fillEntries (label : Nat) (value : Datum) : List (Datum × Datum) → List (Datum × Datum)
  | [] => []
  | (k, v) :: rest => (fill label value k, fill label value v) :: fillEntries label value rest

end

def unroll : Datum → Datum
  | .loop label d => fill label (.loop label d) d
  | d => d

mutual

def countLoops : Datum → Nat
  | .loop _ d => countLoops d + 1
  | .list items | .tuple items | .set items => itemLoops items
  | .map entries => entryLoops entries
  | _ => 0

def itemLoops : List Datum → Nat
  | [] => 0
  | d :: rest => countLoops d + itemLoops rest

def entryLoops : List (Datum × Datum) → Nat
  | [] => 0
  | (k, v) :: rest => countLoops k + countLoops v + entryLoops rest

end

def isNan : Datum → Bool
  | .float .nan => true
  | _ => false

def position? : Datum → Option (Int × Int)
  | .bool b => some (0, if b then Nat.pow 2 Precision.double.scale else 0)
  | .int n => some (0, n * Nat.pow 2 Precision.double.scale)
  | .float (.number negative rank _) =>
    if rank = Precision.double.top then some (if negative then -1 else 1, 0)
    else
      let n : Int := Precision.double.quanta rank
      some (0, if negative then -n else n)
  | _ => none

def sameKey (a b : Datum) : Bool :=
  match a, b with
  | .null, .null => true
  | .text s, .text t => s == t
  | .bytes s, .bytes t => s == t
  | .day s, .day t => s == t
  | .moment s, .moment t => s.zone.isSome == t.zone.isSome && s.instant == t.instant
  | a, b =>
    match a.position?, b.position? with
    | some m, some n => m == n
    | _, _ => a.isNan && b.isNan

def isKey : Datum → Bool
  | .list _ | .set _ | .map _ | .loop .. | .again _ => false
  | _ => true

def insert (entries : List (Datum × Datum)) (key value : Datum) : List (Datum × Datum) :=
  match entries with
  | [] => [(key, value)]
  | (k, v) :: rest => if sameKey k key then (k, value) :: rest else (k, v) :: insert rest key value

def find? (entries : List (Datum × Datum)) (key : String) : Option Datum :=
  match entries with
  | [] => none
  | (.text s, v) :: rest => if s = key then some v else find? rest key
  | _ :: rest => find? rest key

def findOpen? (entries : List (Datum × Datum)) (key : String) : Option Datum :=
  (find? entries key).map unroll

def entries (d : Datum) : List (Datum × Datum) :=
  match d.unroll with
  | .map entries => entries
  | _ => []

def isTruthy : Datum → Bool
  | .null => false
  | .bool b => b
  | .int n => n != 0
  | .float x => x.position? != some 0
  | .text s => !s.isEmpty
  | .bytes content => !content.isEmpty
  | .list items | .tuple items | .set items => !items.isEmpty
  | .map entries => !entries.isEmpty
  | .day _ | .moment _ | .loop .. | .again _ => true

def object (entries : List (String × Datum)) : Datum :=
  .map (entries.map fun (k, v) => (.text k, v))

end Datum

end OneStep
