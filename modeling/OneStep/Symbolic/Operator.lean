import OneStep.Symbolic.Value

namespace OneStep.Operator

inductive Family where
  | bool
  | integral
  | float
  | numeric
  deriving DecidableEq, Repr

namespace Family

def admits : Family → Scalar → Bool
  | .bool, .bool => true
  | .integral, .int _ | .integral, .word _ => true
  | .float, .float _ => true
  | .numeric, .int _ | .numeric, .word _ | .numeric, .float _ => true
  | _, _ => false

def text : Family → String
  | .bool => "BOOL"
  | .float => "FLOAT/DOUBLE"
  | .integral | .numeric => "numeric"

end Family

def refuse {α : Type} (op : String) (family : Family) (vs : List SymValue) : Except Fault α :=
  .error (mismatch op family.text (SymValue.describe vs))

def swapsOperands {w : Width} (x y : Term (.bits w)) : Bool :=
  y.isLiteral && !x.isLiteral

def equalBits {w : Width} (x y : Term (.bits w)) : Term .bool :=
  if swapsOperands x y then .binary (.eq w) y x else .binary (.eq w) x y

def compareSigned (op : Comparison) {w : Width} (x y : Term (.bits w)) : Term .bool :=
  if swapsOperands x y then .binary (.compare true op.converse w) y x else .binary (.compare true op w) x y

def compareUnsigned (op : Comparison) {w : Width} (x y : Term (.bits w)) : Term .bool :=
  .binary (.compare false op w) x y

def literal {w : Width} (n : Int) : Term (.bits w) :=
  .bits (BitVec.ofInt w.size n)

def floatLiteral {p : Precision} (n : Int) : Term (.float p) :=
  .float (Binary.ofInt n)

def not : SymValue → Except Fault SymValue
  | .scalar .bool x => .ok (.scalar .bool x.negate)
  | x => refuse "not" .bool [x]

def negateBits {w : Width} (x : Term (.bits w)) : Term (.bits w) :=
  .binary (.arith .sub w) (literal 0) x

def abs : SymValue → Except Fault SymValue
  | .scalar (.int w) x => .ok (.scalar (.int w) (.ite (compareSigned .lt x (literal 0)) (negateBits x) x))
  | .scalar (.word w) x => .ok (.scalar (.word w) (.ite (compareUnsigned .lt x (literal 0)) (negateBits x) x))
  | .scalar (.float p) x => .ok (.scalar (.float p)
      (.ite (.floatBinary (.compare .lt p) x (floatLiteral 0))
        (.floatBinary (.arith .sub p) (floatLiteral 0) x) x))
  | x => refuse "abs" .numeric [x]

def signBits {w : Width} (isNegative : Term .bool) (x : Term (.bits w)) : Term (.bits w) :=
  .ite (equalBits x (literal 0)) (literal 0) (.ite isNegative (literal (-1)) (literal 1))

def sign : SymValue → Except Fault SymValue
  | .scalar (.int w) x => .ok (.scalar (.int w) (signBits (compareSigned .lt x (literal 0)) x))
  | .scalar (.word w) x => .ok (.scalar (.word w) (signBits (compareUnsigned .lt x (literal 0)) x))
  | .scalar (.float p) x => .ok (.scalar (.float p)
      (.ite (.floatBinary (.eq p) x (floatLiteral 0)) (floatLiteral 0)
        (.ite (.floatBinary (.compare .lt p) x (floatLiteral 0)) (floatLiteral (-1)) (floatLiteral 1))))
  | x => refuse "sign" .numeric [x]

def recip : SymValue → Except Fault SymValue
  | .scalar (.float p) x => .ok (.scalar (.float p) (.floatBinary (.div p) (floatLiteral 1) x))
  | x => refuse "recip" .float [x]

def onFloat (op : String) (build : (p : Precision) → FloatUnary (.float p) (.float p)) :
    SymValue → Except Fault SymValue
  | .scalar (.float p) x => .ok (.scalar (.float p) (.floatUnary (build p) x))
  | x => refuse op .float [x]

def bitNot : SymValue → Except Fault SymValue
  | .scalar (.int w) x => .ok (.scalar (.int w) (.unary (.bitNot w) x))
  | .scalar (.word w) x => .ok (.scalar (.word w) (.unary (.bitNot w) x))
  | x => refuse "bw_not" .integral [x]

def getField (x : SymValue) (position : Option Int) : Except Fault SymValue :=
  match x with
  | .struct items =>
    let outside := .error (mismatch "get_field" s!"field index < {items.length}"
      (match position with | some i => toString i | none => "None"))
    match position with
    | some (.ofNat i) => match items[i]? with
      | some v => .ok v
      | none => outside
    | _ => outside
  | x => .error (mismatch "get_field" "STRUCT" x.tag.name)

def resize (isSigned : Bool) {v : Width} (w : Width) (x : Term (.bits v)) : Term (.bits w) :=
  if h : v = w then h ▸ x
  else if v.size < w.size then
    .unary (if isSigned then .signExtend v w else .zeroExtend v w) x
  else .unary (.truncate v w) x

def castBits (isSigned : Bool) {v : Width} (x : Term (.bits v)) : Scalar → Option SymValue
  | .bool => none
  | .int w => some (.scalar (.int w) (resize isSigned w x))
  | .word w => some (.scalar (.word w) (resize isSigned w x))
  | .float p => some (.scalar (.float p) (.floatUnary (.ofBits isSigned v p) x))

def castBool (x : Term .bool) : Scalar → SymValue
  | .bool => .scalar .bool x
  | .int w => .scalar (.int w) (.ite x (literal 1) (literal 0))
  | .word w => .scalar (.word w) (.ite x (literal 1) (literal 0))
  | .float p => .scalar (.float p) (.ite x (floatLiteral 1) (floatLiteral 0))

def castFloat {p : Precision} (x : Term (.float p)) : Scalar → Option SymValue
  | .bool => none
  | .int w => some (.scalar (.int w) (.floatUnary (.toBits true p w) x))
  | .word w => some (.scalar (.word w) (.floatUnary (.toBits false p w) x))
  | .float q =>
    if h : p = q then some (.scalar (.float q) (h ▸ x))
    else some (.scalar (.float q) (.floatUnary (.convert p q) x))

def castScalar : SymValue → Scalar → Option SymValue
  | .scalar .bool x, t => some (castBool x t)
  | .scalar (.int _) x, t => castBits true x t
  | .scalar (.word _) x, t => castBits false x t
  | .scalar (.float _) x, t => castFloat x t
  | _, _ => none

def castTarget (target : StreamType) : Except Fault Scalar :=
  match target.scalar? with
  | some t => .ok t
  | none => do .error (mismatch "cast" "scalar target type" (← target.describe))

def cast (x : SymValue) (target : StreamType) : Except Fault SymValue := do
  match castScalar x (← castTarget target) with
  | some v => return v
  | none => throw (mismatch "cast" s!"castable to {target.text}" x.tag.name)

def refuseName {α : Type} (arity : String) (name : Datum) : Except Fault α := do
  let _ ← name.asText
  throw (.reported (.mismatch name (.text s!"a {arity} operator") name))

def unknownUnary {α : Type} (name : Datum) : Except Fault α :=
  if name.isKey then refuseName "unary" name else .error .unusableKey

def unary (op : UnaryOp) (x : SymValue) (result : StreamType) (position : Option Int) :
    Except Fault SymValue :=
  match op with
  | .not => not x
  | .abs => abs x
  | .sign => sign x
  | .recip => recip x
  | .sqrt => onFloat "sqrt" .sqrt x
  | .ceiling => onFloat "ceiling" (.toIntegral true) x
  | .floor => onFloat "floor" (.toIntegral false) x
  | .bitNot => bitNot x
  | .cast => cast x result
  | .getField => getField x position
  | .call f => onFloat f.name (.call f) x
  | .unknown name => unknownUnary name

def pair (op : String) (family : Family) (x y : SymValue) :
    Except Fault ((s : Scalar) × Term s.kind × Term s.kind) :=
  match x, y with
  | .scalar s a, .scalar t b =>
    if family.admits s && family.admits t then
      if h : s = t then .ok ⟨t, h ▸ a, b⟩
      else .error (mismatch op "matching operands" (SymValue.describe [.scalar s a, .scalar t b]))
    else refuse op family [.scalar s a, .scalar t b]
  | x, y => refuse op family [x, y]

def logic (op : String) (core : CoreBinary .bool .bool .bool) (x y : SymValue) : Except Fault SymValue :=
  match x, y with
  | .scalar .bool a, .scalar .bool b => .ok (.scalar .bool (.binary core a b))
  | x, y => refuse op .bool [x, y]

def arith (op : Arithmetic) (x y : SymValue) : Except Fault SymValue := do
  let name := (BinaryOp.arith op).name
  match ← pair name .numeric x y with
  | ⟨.int w, a, b⟩ => return .scalar (.int w) (.binary (.arith op w) a b)
  | ⟨.word w, a, b⟩ => return .scalar (.word w) (.binary (.arith op w) a b)
  | ⟨.float p, a, b⟩ => return .scalar (.float p) (.floatBinary (.arith op p) a b)
  | ⟨.bool, _, _⟩ => refuse name .numeric [x, y]

def integral (op : String) (build : Bool → (w : Width) → CoreBinary (.bits w) (.bits w) (.bits w))
    (x y : SymValue) : Except Fault SymValue := do
  match ← pair op .integral x y with
  | ⟨.int w, a, b⟩ => return .scalar (.int w) (.binary (build true w) a b)
  | ⟨.word w, a, b⟩ => return .scalar (.word w) (.binary (build false w) a b)
  | _ => refuse op .integral [x, y]

def onFloats (op : String) (build : (p : Precision) → FloatBinary (.float p) (.float p) (.float p))
    (x y : SymValue) : Except Fault SymValue := do
  match ← pair op .float x y with
  | ⟨.float p, a, b⟩ => return .scalar (.float p) (.floatBinary (build p) a b)
  | _ => refuse op .float [x, y]

def equal (x y : SymValue) : Except Fault (Term .bool) :=
  if x.tag = y.tag then
    match x, y with
    | .scalar .bool a, .scalar .bool b => .ok (.binary .iff a b)
    | .scalar (.int v) a, .scalar (.int w) b =>
      if h : v = w then .ok (equalBits (h ▸ a) b) else refuse "eq" .numeric [.scalar (.int v) a, .scalar (.int w) b]
    | .scalar (.word v) a, .scalar (.word w) b =>
      if h : v = w then .ok (equalBits (h ▸ a) b) else refuse "eq" .numeric [.scalar (.word v) a, .scalar (.word w) b]
    | .scalar (.float p) a, .scalar (.float q) b =>
      if h : p = q then .ok (.floatBinary (.eq q) (h ▸ a) b)
      else refuse "eq" .numeric [.scalar (.float p) a, .scalar (.float q) b]
    | x, y => .error (mismatch "eq" "scalar operands" (SymValue.describe [x, y]))
  else .error (mismatch "eq" "matching operands" (SymValue.describe [x, y]))

def compare (op : Comparison) (x y : SymValue) : Except Fault SymValue := do
  let name := (BinaryOp.compare op).name
  match ← pair name .numeric x y with
  | ⟨.int _, a, b⟩ => return .scalar .bool (compareSigned op a b)
  | ⟨.word _, a, b⟩ => return .scalar .bool (compareUnsigned op a b)
  | ⟨.float p, a, b⟩ => return .scalar .bool (.floatBinary (.compare op p) a b)
  | ⟨.bool, _, _⟩ => refuse name .numeric [x, y]

def wider (v w : Width) : Width :=
  if v.size < w.size then w else v

def shiftBits (left isSigned : Bool) {v w : Width} (x : Term (.bits v)) (amount : Term (.bits w)) :
    Term (.bits v) :=
  let u := wider v w
  let core : CoreBinary (.bits u) (.bits u) (.bits u) := if left then .shiftLeft u else .shiftRight isSigned u
  resize isSigned v (.binary core (resize isSigned u x) (resize false u amount))

def shift (left : Bool) (x y : SymValue) : Except Fault SymValue :=
  let name := (if left then BinaryOp.shiftLeft else BinaryOp.shiftRight).name
  match x, y with
  | .scalar (.int v) a, .scalar (.int _) b => .ok (.scalar (.int v) (shiftBits left true a b))
  | .scalar (.int v) a, .scalar (.word _) b => .ok (.scalar (.int v) (shiftBits left true a b))
  | .scalar (.word v) a, .scalar (.int _) b => .ok (.scalar (.word v) (shiftBits left false a b))
  | .scalar (.word v) a, .scalar (.word _) b => .ok (.scalar (.word v) (shiftBits left false a b))
  | x, y => refuse name .integral [x, y]

def unknownBinary {α : Type} (name : Datum) : Except Fault α :=
  if name.isKey then refuseName "binary" name else .error .unusableKey

def binary (op : BinaryOp) (x y : SymValue) : Except Fault SymValue :=
  match op with
  | .and => logic "and" .and x y
  | .or => logic "or" .or x y
  | .arith op => arith op x y
  | .div => integral "div" .div x y
  | .mod => integral "mod" .rem x y
  | .fdiv => onFloats "fdiv" .div x y
  | .eq => return .scalar .bool (← equal x y)
  | .ne => return .scalar .bool (← equal x y).negate
  | .compare op => compare op x y
  | .bitwise op => integral (BinaryOp.bitwise op).name (fun _ => .bitwise op) x y
  | .shiftLeft => shift true x y
  | .shiftRight => shift false x y
  | .call f => onFloats f.name (.call f) x y
  | .index => unknownBinary (.text "index")
  | .unknown name => unknownBinary name

structure Index where
  isSigned : Bool
  width : Width
  term : Term (.bits width)

def Index.limit (i : Index) : Nat :=
  if i.isSigned then Nat.pow 2 (i.width.size - 1) else Nat.pow 2 i.width.size

def indexedItems : SymValue → Except Fault (List SymValue)
  | .array items => .ok items
  | x => .error (mismatch "index" "ARRAY" x.tag.name)

def indexOperands (x y : SymValue) : Except Fault (List SymValue × Index) := do
  let items ← indexedItems x
  match y with
  | .scalar (.int w) i => return (items, ⟨true, w, i⟩)
  | .scalar (.word w) i => return (items, ⟨false, w, i⟩)
  | y => refuse "index" .integral [y]

def lookupFrom (i : Index) (outside : SymValue) (position : Nat) : List SymValue → Except Fault SymValue
  | [] => .ok outside
  | v :: rest => do
    let others ← lookupFrom i outside (position + 1) rest
    if i.limit ≤ position then return others
    else if v.tag = others.tag then
      SymValue.select (equalBits i.term (literal position)) v others
    else throw (mismatch "index" others.tag.name v.tag.name)

def lookup (items : List SymValue) (i : Index) (outside : SymValue) : Except Fault SymValue :=
  lookupFrom i outside 0 items

def muxCondition : SymValue → Except Fault (Term .bool)
  | .scalar .bool c => .ok c
  | x => .error (mismatch "mux" "BOOL condition" x.tag.name)

def ternary (op : TernaryOp) (x y z : SymValue) : Except Fault SymValue :=
  match op with
  | .mux => do SymValue.select (← muxCondition x) y z
  | .unknown name => refuseName "ternary" name

end OneStep.Operator
