import OneStep.Term.Circuit
import OneStep.Text.Basic

namespace OneStep

abbrev Printer := List (Term .bool) → String

structure Script where
  head : List String := []
  formulas : List (Term .bool) := []

namespace Script

def body (smt2 : Printer) (formulas : List (Term .bool)) : String :=
  Text.trimEnd (smt2 formulas)

def text (smt2 : Printer) (s : Script) : String :=
  "\n".intercalate (s.head ++ [body smt2 s.formulas, "(get-model)", "(exit)"]) ++ "\n"

def kindText : Kind → String
  | .bool => "Bool"
  | .bits w => s!"(_ BitVec {w.size})"
  | .float .single => "(_ FloatingPoint 8 24)"
  | .float .double => "(_ FloatingPoint 11 53)"

def barred (name : String) : String :=
  "|" ++ name ++ "|"

def signs (isSigned : Bool) : String :=
  if isSigned then "s" else "u"

def comparisonText : Comparison → String
  | .lt => "lt"
  | .le => "le"
  | .gt => "gt"
  | .ge => "ge"

def floatComparisonText : Comparison → String
  | .lt => "fp.lt"
  | .le => "fp.leq"
  | .gt => "fp.gt"
  | .ge => "fp.geq"

def arithText : Arithmetic → String
  | .add => "add"
  | .sub => "sub"
  | .mul => "mul"

def bitwiseText : Bitwise → String
  | .and => "and"
  | .or => "or"
  | .xor => "xor"

def formatText : Precision → String
  | .single => "8 24"
  | .double => "11 53"

def coreUnaryText {a b : Kind} : CoreUnary a b → String
  | .not => "not"
  | .bitNot _ => "bvnot"
  | .truncate _ w => s!"(_ extract {w.size - 1} 0)"
  | .signExtend v w => s!"(_ sign_extend {w.size - v.size})"
  | .zeroExtend v w => s!"(_ zero_extend {w.size - v.size})"

def coreBinaryText {a b c : Kind} : CoreBinary a b c → String
  | .and => "and"
  | .or => "or"
  | .iff => "="
  | .eq _ => "="
  | .arith op _ => "bv" ++ arithText op
  | .div isSigned _ => s!"bv{signs isSigned}div"
  | .rem isSigned _ => s!"bv{signs isSigned}rem"
  | .bitwise op _ => "bv" ++ bitwiseText op
  | .shiftLeft _ => "bvshl"
  | .shiftRight isSigned _ => if isSigned then "bvashr" else "bvlshr"
  | .compare isSigned op _ => s!"bv{signs isSigned}{comparisonText op}"

def functionText (name : String) (p : Precision) : String :=
  s!"{name}_f{p.size}"

def floatUnaryText {a b : Kind} : FloatUnary a b → String
  | .sqrt _ => "fp.sqrt RNE"
  | .toIntegral up _ => if up then "fp.roundToIntegral RTP" else "fp.roundToIntegral RTN"
  | .convert _ q => s!"(_ to_fp {formatText q}) RNE"
  | .ofBits isSigned _ p =>
    if isSigned then s!"(_ to_fp {formatText p}) RNE" else s!"(_ to_fp_unsigned {formatText p}) RNE"
  | .toBits isSigned _ w => if isSigned then s!"(_ fp.to_sbv {w.size}) RTZ" else s!"(_ fp.to_ubv {w.size}) RTZ"
  | .call f p => functionText f.name p

def floatBinaryText {a b c : Kind} : FloatBinary a b c → String
  | .arith op _ => s!"fp.{arithText op} RNE"
  | .div _ => "fp.div RNE"
  | .eq _ => "fp.eq"
  | .compare op _ => floatComparisonText op
  | .call f p => functionText f.name p

def bitText (width n : Nat) : String :=
  let digits := Nat.toDigits 2 n
  String.ofList ('#' :: 'b' :: List.replicate (width - digits.length) '0' ++ digits)

def floatText {p : Precision} : Binary p → String
  | .nan => s!"(_ NaN {formatText p})"
  | .number negative rank _ =>
    let fraction := p.digits - 1
    let sign := if negative then "#b1" else "#b0"
    s!"(fp {sign} {bitText (p.size - p.digits) (rank / p.block)} {bitText fraction (rank % p.block)})"

def termText {k : Kind} : Term k → String
  | .bool b => if b then "true" else "false"
  | @Term.bits w v => bitText w.size v.toNat
  | .float x => floatText x
  | .symbol s _ => barred s.name
  | .unary op x => s!"({coreUnaryText op} {termText x})"
  | .binary op x y => s!"({coreBinaryText op} {termText x} {termText y})"
  | .floatUnary op x => s!"({floatUnaryText op} {termText x})"
  | .floatBinary op x y => s!"({floatBinaryText op} {termText x} {termText y})"
  | .ite c x y => s!"(ite {termText c} {termText x} {termText y})"

def functions {k : Kind} : Term k → List String
  | .bool _ | .bits _ | .float _ | .symbol .. => []
  | .unary _ x => functions x
  | .binary _ x y => functions x ++ functions y
  | .floatUnary op x =>
    (match op with
      | .call f p => [s!"(declare-fun {functionText f.name p} ({kindText (.float p)}) {kindText (.float p)})"]
      | _ => []) ++ functions x
  | .floatBinary op x y =>
    (match op with
      | .call f p =>
        let sort := kindText (.float p)
        [s!"(declare-fun {functionText f.name p} ({sort} {sort}) {sort})"]
      | _ => []) ++ functions x ++ functions y
  | .ite c x y => functions c ++ functions x ++ functions y

def symbols (formulas : List (Term .bool)) : List (Symbol × Kind) :=
  ((formulas.mapM Circuit.add).run {}).2.symbols

def symbolNames (formulas : List (Term .bool)) : List String :=
  ((symbols formulas).map (·.1.name)).eraseDups.mergeSort fun a b => !(b < a)

-- a last assertion that is the literal truth goes without saying
def spoken (formulas : List (Term .bool)) : List (Term .bool) :=
  match formulas.getLast? with
  | some (.bool true) => formulas.dropLast
  | _ => formulas

def lines (formulas : List (Term .bool)) : List String :=
  ((symbols formulas).map fun (symbol, kind) => s!"(declare-fun {barred symbol.name} () {kindText kind})") ++
    (formulas.flatMap functions).eraseDups ++ (formulas.map fun t => s!"(assert {termText t})") ++ ["(check-sat)"]

def print : Printer := fun formulas =>
  String.join ((lines (spoken formulas)).map (· ++ "\n"))

end Script

end OneStep
