import OneStep.Binary.Arithmetic
import OneStep.Datum.Text
import OneStep.Symbolic.Value

namespace OneStep.Constant

def refuse {α : Type} (expected actual : String) : Except Fault α :=
  .error (mismatch "encode_constant" expected actual)

def refuseDatum {α : Type} (t : StreamType) (d : Datum) : Except Fault α := do
  refuse (← t.describe) (← d.describe)

def inRange (t : StreamType) (low high n : Int) : Except Fault Unit :=
  if low ≤ n ∧ n ≤ high then .ok ()
  else do refuse s!"{← t.describe} in [{← writeInt low}, {← writeInt high}]" (← writeInt n)

def power (exponent : Int) : Except Fault Int :=
  if exponent < 0 then .error .negativeWidth
  else if 0x3C000000000000000 ≤ exponent then .error .hugeWidth
  else if 0x10000000000 ≤ exponent then .error .noMemory
  else .ok (Nat.pow 2 exponent.toNat)

def encodeInt (bits : Int) (n : Int) : Except Fault SymValue := do
  let half ← power (bits - 1)
  inRange (.int bits) (-half) (half - 1) n
  match Width.ofSize? bits with
  | some w => return .scalar (.int w) (.bits (BitVec.ofInt w.size n))
  | none => throw (.unknownTag s!"INT{← writeInt bits}")

def encodeWord (bits : Int) (n : Int) : Except Fault SymValue := do
  inRange (.word bits) 0 ((← power bits) - 1) n
  match Width.ofSize? bits with
  | some w => return .scalar (.word w) (.bits (BitVec.ofInt w.size n))
  | none => throw (.unknownTag s!"WORD{← writeInt bits}")

def encodeFloat (bits : Int) (x : Binary .double) : Except Fault SymValue :=
  if bits = 32 then .ok (.scalar (.float .single) (.float x.toSingle))
  else if bits = 64 then .ok (.scalar (.float .double) (.float x))
  else .error (.notScalar (.float bits))

def elements? (d : Datum) : Option (List Datum) :=
  match d.unroll with
  | .list items | .tuple items => some items
  | _ => none

def sequence? (d : Datum) : Option (List Datum) :=
  match d.unroll with
  | .list items | .tuple items => some items
  | .text s => some (s.toList.map fun c => .text c.toString)
  | .bytes content => some (content.map fun b => .int b.toNat)
  | _ => none

def missingFields (fields : List (String × StreamType)) (entries : List (Datum × Datum)) : List Datum :=
  (fields.filter fun (name, _) => (Datum.find? entries name).isNone).map fun (name, _) => .text name

def fieldValues (t : StreamType) (fields : List (String × StreamType)) (d : Datum) :
    Except Fault (List Datum) :=
  match d.unroll with
  | .map entries =>
    let missing := missingFields fields entries
    if missing.isEmpty then .ok (fields.filterMap fun (name, _) => Datum.find? entries name)
    else do refuse (← t.describe) s!"missing fields {(Datum.list missing).toText}"
  | _ =>
    match sequence? d with
    | some values => if values.length = fields.length then .ok values else refuseDatum t d
    | none => refuseDatum t d

mutual

def encode : StreamType → Datum → Except Fault SymValue
  | .unknown, _ => refuse "a stream type" "StreamType()"
  | .bool, d =>
    match d with
    | .bool b => .ok (.scalar .bool (.bool b))
    | d => do refuse "bool" (← d.describe)
  | .int bits, d =>
    match d with
    | .int n => encodeInt bits n
    | d => refuseDatum (.int bits) d
  | .word bits, d =>
    match d with
    | .int n => encodeWord bits n
    | d => refuseDatum (.word bits) d
  | .float bits, d =>
    match d with
    | .int n => encodeFloat bits (Binary.ofInt n)
    | .float x => encodeFloat bits x
    | d => refuseDatum (.float bits) d
  | .array length element, d =>
    if length = 0 then .ok (.array [])
    else
      match elements? d with
      | some items =>
        if items.length = length then return .array (← items.mapM fun d => encode element d)
        else refuseDatum (.array length element) d
      | none => refuseDatum (.array length element) d
  | .struct name fields, d => do
    let values ← fieldValues (.struct name fields) fields d
    return .struct (← encodeFields fields values)

def encodeFields : List (String × StreamType) → List Datum → Except Fault (List SymValue)
  | (_, t) :: fields, d :: values => do
    let v ← encode t d
    return v :: (← encodeFields fields values)
  | _, _ => .ok []

end

end OneStep.Constant
