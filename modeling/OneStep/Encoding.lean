import OneStep.Memo
import OneStep.Symbolic.Constant
import OneStep.Symbolic.Operator

/-!
Expressions as symbolic values. An expression is encoded at an offset: zero is the instant under test,
negative offsets lie before it. A stream dropped by `k` at offset `o` is read at `o + k`. Before the
instant that is an unknown of the memo; otherwise the stream's recurrence is unrolled, at `o + k` less the
length of its buffer, since the buffer holds the first values.
-/

namespace OneStep.Encoding

def checked (e : Expr) (v : SymValue) : Encoding SymValue := do
  let expected ← e.type.tag
  if v.tag = expected then share v
  else throw (mismatch (← e.describe) expected.name v.tag.name)

def fieldPosition (arg : Expr) (field : Datum) : Except Fault Nat :=
  match arg.type with
  | .struct name fields =>
    match StreamType.findNamed? fields field with
    | some (i, _) => .ok i
    | none => do
      let _ ← field.asText
      let expected := s!"a field of {(StreamType.struct name fields).text}"
      .error (.reported (.mismatch (.text "get_field") (.text expected) field))
  | t => do .error (mismatch "get_field" "a struct operand" (← t.describe))

def lookup (array index : SymValue) (fallback : (k : Kind) → Term k → Encoding SymValue) :
    Encoding SymValue := do
  let (items, i) ← Operator.indexOperands array index
  let outside ← fallback (.bits i.width) i.term
  Operator.lookup items i outside

def binary (op : BinaryOp) (x y : SymValue) (result : StreamType) : Encoding SymValue :=
  match op with
  | .index => lookup x y fun kind index => outside { element := result, array := x, kind, index }
  | op => Operator.binary op x y

def binaryAlone (op : BinaryOp) (x y : SymValue) (result : StreamType) : Encoding SymValue :=
  match op with
  | .index => lookup x y fun _ _ => draw result "index_out_of_range"
  | op => Operator.binary op x y

def unsupported {α : Type} (construct : String) (details : List (String × String)) : Encoding α :=
  throw (.reported (.unsupported (.text construct) (details.map fun (k, v) => (.text k, .text v))))

def encodeWith (registry : Registry) (present : Stream → Int → Encoding SymValue) (offset : Int) :
    Expr → Encoding SymValue
  | .const t d => Constant.encode t d
  | .drop t count id => do
    let total := offset + count
    if total < 0 then checked (.drop t count id) (← past registry id total)
    else
      let s ← registry.get id
      checked (.drop t count id) (← present s total)
  | .input t name => do checked (.input t name) (← input name t offset)
  | .unary t op arg field => do
    let x ← encodeWith registry present offset arg
    let position ← if op.takesField then some <$> fieldPosition arg field else pure none
    checked (.unary t op arg field) (← Operator.unary op x t (position.map Int.ofNat))
  | .binary t op left right => do
    let x ← encodeWith registry present offset left
    let y ← encodeWith registry present offset right
    checked (.binary t op left right) (← binary op x y t)
  | .ternary t op first second third => do
    let x ← encodeWith registry present offset first
    let y ← encodeWith registry present offset second
    let z ← encodeWith registry present offset third
    checked (.ternary t op first second third) (← Operator.ternary op x y z)
  | .letIn _ name .. => unsupported "local" [("name", name)]
  | .var _ name => unsupported "var" [("name", name)]
  | .label _ label _ => unsupported "label" [("label", label)]
  | .bare _ => unsupported "Expr" []

def encodeAt (registry : Registry) (present : Stream → Int → Encoding SymValue) (e : Expr) (offset : Int) :
    Encoding SymValue := do
  if offset > 0 then throw (.instantOffset offset)
  encodeWith registry present offset e

def unroll (registry : Registry) : Nat → List (Int × Int) → Stream → Int → Encoding SymValue
  | 0, _, _, _ => throw .endless
  | fuel + 1, active, s, total => do
    note (.unrolling s.id total s.buffer.length)
    if (s.id, total) ∈ active then throw .endless
    encodeAt registry (unroll registry fuel ((s.id, total) :: active)) s.expr (total - s.buffer.length)

def places (registry : Registry) : Nat :=
  registry.entries.foldl (fun n (_, s) => n + (s.buffer.length + 1)) 0

def encode (registry : Registry) (e : Expr) (offset : Int) : Encoding SymValue :=
  encodeAt registry (unroll registry (places registry + 1) []) e offset

def encodeProperty (registry : Registry) (e : Expr) : Encoding (Term .bool) := do
  match ← encode registry e 0 with
  | .scalar .bool t => return t
  | v => throw (mismatch "property" "BOOL" v.tag.name)

end OneStep.Encoding
