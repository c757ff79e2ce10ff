import OneStep.Binary.Decimal
import OneStep.Fault
import OneStep.Term.Circuit
import OneStep.Term.Sharing
import OneStep.Value

namespace OneStep

abbrev SymValue := Value fun s => Term s.kind

abbrev Data := Value fun s => s.kind.Carrier

namespace StreamType

def tag : StreamType → Except Fault Tag
  | .unknown => .error (mismatch "tag_of" "a stream type" "StreamType()")
  | .bool => .ok (.scalar .bool)
  | .int bits =>
    match Width.ofSize? bits with
    | some w => .ok (.scalar (.int w))
    | none => do .error (.unknownTag s!"INT{← writeInt bits}")
  | .word bits =>
    match Width.ofSize? bits with
    | some w => .ok (.scalar (.word w))
    | none => do .error (.unknownTag s!"WORD{← writeInt bits}")
  | .float bits => .ok (.scalar (.float (if bits = 32 then .single else .double)))
  | .array length _ => .ok (if length = 0 then .emptyArray else .array)
  | .struct .. => .ok .struct

def arrayOf (length : Int) (element : StreamType) : Except Fault StreamType :=
  if length < 0 then .error (.negativeLength length) else .ok (.array length.toNat element)

def findNamed? (fields : List (String × StreamType)) : Datum → Option (Nat × StreamType)
  | .text name => findField? fields name
  | _ => none

def field (t : StreamType) (name : Datum) : Except Fault (Nat × StreamType) :=
  match t with
  | .struct record fields =>
    match findNamed? fields name with
    | some found => .ok found
    | none => do
      let _ ← name.asText
      .error (.noField record name)
  | _ => .error .noName

def scalar (t : StreamType) : Except Fault Scalar :=
  match t.scalar? with
  | some s => .ok s
  | none => .error (.notScalar t)

end StreamType

namespace SymValue

def eval (model : FloatModel) (ρ : Assignment) (v : SymValue) : Data :=
  Value.map (fun _ t => t.eval model ρ) v

def fold (σ : Symbol → (k : Kind) → Option k.Carrier) (v : SymValue) : Value fun s => Option s.kind.Carrier :=
  Value.map (fun _ t => t.foldShared? σ) v

def share (v : SymValue) : StateM Pool SymValue :=
  Value.mapM (fun _ t => (·.1) <$> t.share) v

def symbols (v : SymValue) : List (Symbol × Kind) :=
  v.leaves.flatMap fun ⟨_, t⟩ => t.symbols

def describe (vs : List SymValue) : String :=
  ", ".intercalate (vs.map (·.tag.name))

end SymValue

def Kind.valueText : (k : Kind) → k.Carrier → String
  | .bool, b => if b then "True" else "False"
  | .bits _, v => toString v.toNat
  | .float _, x => x.toModelText

namespace SymValue

def termText {k : Kind} : Term k → String
  | .bool b => Kind.valueText .bool b
  | @Term.bits w v => Kind.valueText (.bits w) v
  | @Term.float p x => Kind.valueText (.float p) x
  | .symbol s _ => s.name
  | _ => "..."

mutual

def text : SymValue → String
  | .scalar s t => s.name ++ "(" ++ termText t ++ ")"
  | .array items => "[" ++ itemsText items ++ "]"
  | .struct items => "\x7b" ++ itemsText items ++ "\x7d"

def itemsText : List SymValue → String
  | [] => ""
  | [v] => text v
  | v :: rest => text v ++ ", " ++ itemsText rest

end

def differ {α : Type} (x y : SymValue) : Except Fault α :=
  .error (mismatch "ite" x.tag.name y.tag.name)

def differInLength {α : Type} (xs ys : List SymValue) : Except Fault α :=
  .error (mismatch "ite" s!"{xs.length} elements" s!"{ys.length} elements")

abbrev Combining := {k : Kind} → Term k → Term k → Except Fault (Term k)

mutual

def zip (combine : Combining) : SymValue → SymValue → Except Fault SymValue
  | .scalar s a, .scalar t b =>
    if h : s = t then return .scalar t (← combine (h ▸ a) b)
    else differ (.scalar s a) (.scalar t b)
  | .array xs, .array ys =>
    if (Value.array xs).tag = (Value.array ys).tag then
      if xs.length = ys.length then return .array (← zipItems combine xs ys)
      else differInLength xs ys
    else differ (.array xs) (.array ys)
  | .struct xs, .struct ys =>
    if xs.length = ys.length then return .struct (← zipItems combine xs ys)
    else differInLength xs ys
  | x, y => differ x y

def zipItems (combine : Combining) : List SymValue → List SymValue → Except Fault (List SymValue)
  | x :: xs, y :: ys => do
    let v ← zip combine x y
    return v :: (← zipItems combine xs ys)
  | _, _ => .ok []

end

def select (cond : Term .bool) (x y : SymValue) : Except Fault SymValue :=
  zip (fun a b => .ok (.ite cond a b)) x y

def condition? : SymValue → Option (Term .bool)
  | .scalar .bool t => some t
  | _ => none

def selectBy (cond x y : SymValue) : Except Fault SymValue :=
  match condition? cond with
  | some cond => select cond x y
  | none => zip (fun _ _ => .error .notCondition) x y

end SymValue

end OneStep
