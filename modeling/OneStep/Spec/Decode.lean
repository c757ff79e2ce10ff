import OneStep.Datum.Order
import OneStep.Datum.Text
import OneStep.Expr
import OneStep.Fault
import OneStep.Text.Case
import OneStep.Text.Numeral

namespace OneStep.Spec.Decode

def malformed {α : Type} (message path : String) : Except Fault α :=
  .error (malformedAt message path)

def noType {α : Type} (d : Datum) (path : String) : Except Fault α := do
  malformed s!"cannot decode type {← d.describe}" path

def noField {α : Type} (path : String) (i : Nat) : Except Fault α :=
  malformed "struct field must be [name, type]" s!"{path}.fields[{i}]"

def loopFields (turn : String → Datum → Except Fault StreamType) (path : String) (i : Nat) :
    List Datum → Except Fault (List (String × StreamType))
  | [] => .ok []
  | d :: rest =>
    match d.unroll with
    | .list [name, d] | .tuple [name, d] => do
      let name ← name.asText
      let t ← turn s!"{path}.fields[{i}]" d
      return (name, t) :: (← loopFields turn path (i + 1) rest)
    | _ => noField path i

mutual

def typeIn (turn : String → Datum → Except Fault StreamType) (whole : Datum) (path : String) :
    Datum → Except Fault StreamType
  | .text name =>
    match StreamType.named.lookup name with
    | some t => .ok t
    | none => malformed s!"unknown type '{name}'" path
  | .map entries =>
    match Datum.find? entries "array" with
    | some (.int length) =>
      if length < 0 then malformed "array length must be a non-negative integer" path
      else
        match element turn path entries with
        | some t => return .array length.toNat (← t)
        | none => malformed "array type needs an element type under 'of'" path
    | some _ => malformed "array length must be a non-negative integer" path
    | none =>
      match Datum.find? entries "struct" with
      | some name => do
        let fields ← recordFields turn path entries
        return .struct (← name.asText) fields
      | none => noType whole path
  | .loop label d => turn path (.loop label d)
  | _ => noType whole path

def element (turn : String → Datum → Except Fault StreamType) (path : String) :
    List (Datum × Datum) → Option (Except Fault StreamType)
  | [] => none
  | (.text "of", d) :: _ => some (typeIn turn d (path ++ ".of") d)
  | _ :: rest => element turn path rest

def recordFields (turn : String → Datum → Except Fault StreamType) (path : String) :
    List (Datum × Datum) → Except Fault (List (String × StreamType))
  | [] => .ok []
  | (.text "fields", .list items) :: _ => fields turn path 0 items
  | (.text "fields", .loop label d) :: _ =>
    match (Datum.loop label d).unroll with
    | .list items => loopFields turn path 0 items
    | _ => noField path 0
  | (.text "fields", .text s) :: _ => if s.isEmpty then .ok [] else noField path 0
  | (.text "fields", .bytes content) :: _ => if content.isEmpty then .ok [] else noField path 0
  | (.text "fields", .set items) :: _ => if items.isEmpty then .ok [] else noField path 0
  | (.text "fields", .map entries) :: _ => if entries.isEmpty then .ok [] else noField path 0
  | (.text "fields", _) :: _ => .error .notIterable
  | _ :: rest => recordFields turn path rest

def fields (turn : String → Datum → Except Fault StreamType) (path : String) (i : Nat) :
    List Datum → Except Fault (List (String × StreamType))
  | [] => .ok []
  | .list [name, d] :: rest | .tuple [name, d] :: rest => do
    let name ← name.asText
    let t ← typeIn turn d s!"{path}.fields[{i}]" d
    return (name, t) :: (← fields turn path (i + 1) rest)
  | .loop label d :: rest => do
    let loop ← loopFields turn path i [.loop label d]
    return loop ++ (← fields turn path (i + 1) rest)
  | _ :: _ => noField path i

end

def typeAt : Nat → String → Datum → Except Fault StreamType
  | 0, _, _ => .error .endless
  | turns + 1, path, d => typeIn (typeAt turns) d path d.unroll

def type (path : String) (d : Datum) : Except Fault StreamType :=
  typeAt (3 * d.countLoops + 1) path d

def specialFloats : List (String × Binary .double) := [
  ("nan", .nan), ("inf", Binary.infinity false), ("+inf", Binary.infinity false),
  ("-inf", Binary.infinity true)]

def floatLiteral (s : String) : Except Fault Datum :=
  match specialFloats.lookup (Text.lower s) with
  | some x => .ok (.float x)
  | none =>
    match Text.readFloat? s with
    | some x => .ok (.float x)
    | none => .error (.floatText s)

mutual

def literal : StreamType → Datum → Except Fault Datum
  | .float _, .text s => floatLiteral s
  | .array _ element, d =>
    match d.unroll with
    | .list items => return .tuple (← items.mapM fun d => literal element d)
    | _ => .ok d
  | .struct _ fields, d =>
    match d.unroll with
    | .map entries => return .map (← fieldLiterals fields entries [])
    | _ => .ok d
  | _, d => .ok d

def fieldLiterals : List (String × StreamType) → List (Datum × Datum) → List (Datum × Datum) →
    Except Fault (List (Datum × Datum))
  | [], _, done => .ok done
  | (name, t) :: rest, entries, done =>
    match Datum.find? entries name with
    | some d => do fieldLiterals rest entries (Datum.insert done (.text name) (← literal t d))
    | none => fieldLiterals rest entries done

end

def constant (t : StreamType) (d : Datum) (path : String) : Except Fault Expr :=
  match literal t d with
  | .ok value => .ok (.const t value)
  | .error (.floatText s) => malformed (Fault.floatText s).message path
  | .error fault => .error fault

def declaredType (entries : List (Datum × Datum)) (path : String) : Except Fault (Option StreamType) :=
  match Datum.find? entries "type" with
  | some d => return some (← type (path ++ ".type") d)
  | none => .ok none

def requiredType (entries : List (Datum × Datum)) (path : String) : Except Fault StreamType := do
  match ← declaredType entries path with
  | some t => return t
  | none => malformed "missing 'type'" path

def fieldName (entries : List (Datum × Datum)) : Except Fault String :=
  match Datum.find? entries "field" with
  | some d => d.asText
  | none => .ok ""

def drop (streamTypes : List (Int × StreamType)) (count : Datum) (entries : List (Datum × Datum))
    (path : String) : Except Fault Expr :=
  match count with
  | .int k =>
    if k < 0 then malformed "drop must be a non-negative integer" path
    else
      match Datum.find? entries "stream" with
      | some (.int id) => do
        match (← declaredType entries path) <|> streamTypes.lookup id with
        | some t => return .drop t k id
        | none => malformed s!"reference to undefined stream {← writeInt id}" path
      | _ => malformed "drop needs an integer 'stream'" path
  | _ => malformed "drop must be a non-negative integer" path

def inferUnary (op : UnaryOp) (arg : Expr) (entries : List (Datum × Datum)) (path : String) :
    Except Fault StreamType :=
  match op with
  | .not => .ok .bool
  | .getField =>
    match arg.type with
    | .struct name fields => do
      let field ← fieldName entries
      match StreamType.findField? fields field with
      | some (_, t) => return t
      | none => malformed (Fault.noField name (.text field)).message path
    | _ => malformed "get_field needs a struct operand" path
  | .cast => malformed "cast needs an explicit target 'type'" path
  | _ => .ok arg.type

def inferBinary (op : BinaryOp) (left : Expr) (path : String) : Except Fault StreamType :=
  match op with
  | .and | .or | .eq | .ne | .compare _ => .ok .bool
  | .index =>
    match left.type with
    | .array _ element => .ok element
    | _ => malformed "index needs an array operand" path
  | _ => .ok left.type

def inferTernary (second : Expr) : StreamType :=
  second.type

def unknownOperator {α : Type} (op : Datum) (arity : Nat) (path : String) : Except Fault α := do
  malformed s!"unknown {arity}-ary operator '{← op.asText}'" path

def isLookedUp : Datum → Bool
  | .set _ => true
  | d => d.isKey

def operation (op : Datum) (args : List Expr) (entries : List (Datum × Datum)) (path : String) :
    Except Fault Expr := do
  if !isLookedUp op then throw .unusableKey
  match op, args with
  | .text name, [a] =>
    match UnaryOp.ofName name with
    | .unknown _ => unknownOperator op 1 path
    | known =>
      match ← declaredType entries path with
      | some t => return .unary t known a (.text (← fieldName entries))
      | none =>
        let t ← inferUnary known a entries path
        return .unary t known a (.text (← fieldName entries))
  | .text name, [a, b] =>
    match BinaryOp.ofName name with
    | .unknown _ => unknownOperator op 2 path
    | known =>
      match ← declaredType entries path with
      | some t => return .binary t known a b
      | none => return .binary (← inferBinary known a path) known a b
  | .text name, [a, b, c] =>
    match TernaryOp.ofName name with
    | .unknown _ => unknownOperator op 3 path
    | known =>
      match ← declaredType entries path with
      | some t => return .ternary t known a b c
      | none => return .ternary (inferTernary b) known a b c
  | _, args => unknownOperator op args.length path

def sortedKeys (keys : List Datum) : Except Fault (List Datum) :=
  match Sorting.sort? Datum.less? keys with
  | some keys => .ok keys
  | none => .error .unorderedKeys

def notMapping {α : Type} (d : Datum) (path : String) : Except Fault α := do
  malformed s!"expression must be a mapping, got {← d.describe}" path

def loopExprs (turn : String → Datum → Except Fault Expr) (path : String) (i : Nat) :
    List Datum → Except Fault (List Expr)
  | [] => .ok []
  | d :: rest => do
    let e ← turn s!"{path}.args[{i}]" d
    return e :: (← loopExprs turn path (i + 1) rest)

mutual

def exprIn (streamTypes : List (Int × StreamType)) (turn : String → Datum → Except Fault Expr) (whole : Datum)
    (path : String) : Datum → Except Fault Expr
  | .map entries =>
    match Datum.find? entries "const" with
    | some d => do constant (← requiredType entries path) d path
    | none =>
    match Datum.find? entries "drop" with
    | some count => drop streamTypes count entries path
    | none =>
    match Datum.find? entries "extern" with
    | some name => do
      let t ← requiredType entries path
      return .input t (← name.asText)
    | none =>
    match Datum.find? entries "op" with
    | some op => do operation op (← operands streamTypes turn path entries) entries path
    | none =>
    match Datum.find? entries "local" with
    | some name => do
      let bound ← entryExpr streamTypes turn path "bound" entries
      let body ← entryExpr streamTypes turn path "body" entries
      let t ← declaredType entries path
      return .letIn (t.getD body.type) (← name.asText) bound.type bound body
    | none =>
    match Datum.find? entries "var" with
    | some name => do
      let t ← declaredType entries path
      return .var (t.getD .bool) (← name.asText)
    | none =>
    match Datum.find? entries "label" with
    | some label => do
      let body ← entryExpr streamTypes turn path "expr" entries
      return .label body.type (← label.asText) body
    | none => do
      let keys ← sortedKeys (entries.map (·.1))
      malformed s!"unrecognised expression keys {← (Datum.list keys).describe}" path
  | .loop label d => turn path (.loop label d)
  | _ => notMapping whole path

def entryExpr (streamTypes : List (Int × StreamType)) (turn : String → Datum → Except Fault Expr)
    (path key : String) : List (Datum × Datum) → Except Fault Expr
  | [] => notMapping .null s!"{path}.{key}"
  | (.text k, d) :: rest =>
    if k = key then exprIn streamTypes turn d s!"{path}.{key}" d
    else entryExpr streamTypes turn path key rest
  | _ :: rest => entryExpr streamTypes turn path key rest

def operands (streamTypes : List (Int × StreamType)) (turn : String → Datum → Except Fault Expr)
    (path : String) : List (Datum × Datum) → Except Fault (List Expr)
  | [] => .ok []
  | (.text "args", .list items) :: _ => exprs streamTypes turn path 0 items
  | (.text "args", .loop label d) :: _ =>
    match (Datum.loop label d).unroll with
    | .list items => loopExprs turn path 0 items
    | _ => malformed "'args' must be a list" path
  | (.text "args", _) :: _ => malformed "'args' must be a list" path
  | _ :: rest => operands streamTypes turn path rest

def exprs (streamTypes : List (Int × StreamType)) (turn : String → Datum → Except Fault Expr)
    (path : String) (i : Nat) : List Datum → Except Fault (List Expr)
  | [] => .ok []
  | d :: rest => do
    let e ← exprIn streamTypes turn d s!"{path}.args[{i}]" d
    return e :: (← exprs streamTypes turn path (i + 1) rest)

end

def exprAt (streamTypes : List (Int × StreamType)) : Nat → String → Datum → Except Fault Expr
  | 0, _, _ => .error .endless
  | turns + 1, path, d => exprIn streamTypes (exprAt streamTypes turns) d path d.unroll

def expr (streamTypes : List (Int × StreamType)) (path : String) (d : Datum) : Except Fault Expr :=
  exprAt streamTypes (2 * d.countLoops + 1) path d

def listOr (entries : List (Datum × Datum)) (key : String) : Option (List Datum) :=
  match Datum.findOpen? entries key with
  | none => some []
  | some (.list items) => some items
  | some d => if d.isTruthy then none else some []

def streamTypes (done : List (Int × StreamType)) (i : Nat) : List Datum → Except Fault (List (Int × StreamType))
  | [] => .ok done
  | d :: rest =>
    let path := s!"streams[{i}]"
    match d.unroll with
    | .map entries =>
      match Datum.find? entries "id", Datum.find? entries "type" with
      | some (.int id), some t => do
        if (done.lookup id).isSome then malformed s!"duplicate stream id {← writeInt id}" s!"{path}.id"
        let t ← type s!"{path}.type" t
        streamTypes (done ++ [(id, t)]) (i + 1) rest
      | some _, some _ => malformed "stream id must be an integer" s!"{path}.id"
      | _, _ => malformed "stream needs 'id' and 'type'" path
    | _ => malformed "stream needs 'id' and 'type'" path

def stream (types : List (Int × StreamType)) (id : Int) (t : StreamType) (entries : List (Datum × Datum))
    (path : String) : Except Fault Stream := do
  let some buffer := listOr entries "buffer" | malformed "buffer must be a list" s!"{path}.buffer"
  let some e := Datum.find? entries "expr" | malformed "stream needs 'expr'" path
  let buffer ← buffer.mapM (literal t)
  return { id, type := t, buffer, expr := ← expr types s!"{path}.expr" e }

def streams (types : List (Int × StreamType)) (i : Nat) :
    List (Int × StreamType) → List Datum → Except Fault (List Stream)
  | (id, t) :: declared, d :: rest => do
    let s ← stream types id t d.entries s!"streams[{i}]"
    return s :: (← streams types (i + 1) declared rest)
  | _, _ => .ok []

def properties (types : List (Int × StreamType)) (i : Nat) : List Datum → Except Fault (List Property)
  | [] => .ok []
  | d :: rest => do
    let path := s!"properties[{i}]"
    match d.unroll with
    | .map entries =>
      match Datum.find? entries "name", Datum.find? entries "expr" with
      | some name, some e =>
        let name ← name.asText
        let e ← expr types s!"{path}.expr" e
        return { name, expr := e } :: (← properties types (i + 1) rest)
      | _, _ => malformed "property needs 'name' and 'expr'" path
    | _ => malformed "property needs 'name' and 'expr'" path

end Decode

def ofDatum (d : Datum) : Except Fault Spec := do
  match d.unroll with
  | .map entries =>
    match Decode.listOr entries "streams", Decode.listOr entries "properties" with
    | some streams, some properties =>
      let types ← Decode.streamTypes [] 0 streams
      return {
        streams := ← Decode.streams types 0 types streams
        properties := ← Decode.properties types 0 properties }
    | _, _ => Decode.malformed "'streams' and 'properties' must be lists" ""
  | _ => Decode.malformed "specification must be a mapping" ""

end OneStep.Spec
