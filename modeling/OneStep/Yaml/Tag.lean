import OneStep.Binary.Arithmetic
import OneStep.Fault
import OneStep.Text.Case
import OneStep.Yaml.Cursor

namespace OneStep.Yaml

namespace Base64

def value? (c : Char) : Option Nat :=
  let n := c.toNat
  if 'A' ≤ c && c ≤ 'Z' then some (n - 0x41)
  else if 'a' ≤ c && c ≤ 'z' then some (n - 0x61 + 26)
  else if c.isDigit then some (n - 0x30 + 52)
  else if c = '+' then some 62
  else if c = '/' then some 63
  else none

def decodeFrom (position left signs : Nat) : List Char → Option (List UInt8)
  | [] => if position = 0 then some [] else none
  | c :: rest =>
    if c = '=' then
      if 2 ≤ position then
        if 4 ≤ position + signs + 1 then some [] else decodeFrom position left (signs + 1) rest
      else decodeFrom position left signs rest
    else
      match value? c with
      | none => decodeFrom position left signs rest
      | some v =>
        match position with
        | 0 => decodeFrom 1 v 0 rest
        | 1 => (decodeFrom 2 (v % 16) 0 rest).map ((left * 4 + v / 16).toUInt8 :: ·)
        | 2 => (decodeFrom 3 (v % 4) 0 rest).map ((left * 16 + v / 4).toUInt8 :: ·)
        | _ => (decodeFrom 0 0 0 rest).map ((left * 64 + v).toUInt8 :: ·)

def decode? (cs : List Char) : Option (List UInt8) :=
  decodeFrom 0 0 0 cs

end Base64

inductive Tag where
  | null
  | bool
  | int
  | float
  | text
  | binary
  | timestamp
  | sequence
  | pairs
  | mapping
  | set
  | merge
  | value
  | other
  deriving DecidableEq

namespace Tag

def family : String :=
  "tag:yaml.org,2002:"

def names : List (String × Tag) := [
  ("null", .null), ("bool", .bool), ("int", .int), ("float", .float), ("str", .text), ("binary", .binary),
  ("timestamp", .timestamp), ("seq", .sequence), ("omap", .pairs), ("pairs", .pairs), ("map", .mapping),
  ("set", .set), ("merge", .merge), ("value", .value)]

def ofName (s : String) : Tag :=
  match names.find? fun (name, _) => s = family ++ name with
  | some (_, tag) => tag
  | none => .other

def trueWords : List String :=
  ["yes", "Yes", "YES", "true", "True", "TRUE", "on", "On", "ON"]

def falseWords : List String :=
  ["no", "No", "NO", "false", "False", "FALSE", "off", "Off", "OFF"]

def nullWords : List String :=
  ["", "~", "null", "Null", "NULL"]

def bareMarks : List String :=
  ["!", "&", "*"]

def isSpaced (test : Char → Bool) (c : Char) : Bool :=
  test c || c == '_'

def afterSign : List Char → List Char
  | '-' :: rest => rest
  | '+' :: rest => rest
  | cs => cs

def isNumeral : List Char → Bool
  | d :: rest => d.isDigit && rest.all (isSpaced Char.isDigit)
  | [] => false

def isSixty : List Char → Bool
  | [d] => d.isDigit
  | [t, d] => t.isDigit && t.toNat < 0x36 && d.isDigit
  | _ => false

def splitColons (part : List Char) : List Char → List (List Char)
  | [] => [part.reverse]
  | c :: rest => if c = ':' then part.reverse :: splitColons [] rest else splitColons (c :: part) rest

def isExponent : List Char → Bool
  | [] => true
  | e :: sign :: digits =>
    (e == 'e' || e == 'E') && (sign == '-' || sign == '+') && !digits.isEmpty && digits.all Char.isDigit
  | _ => false

def isFraction (cs : List Char) : Bool :=
  isExponent (cs.dropWhile (isSpaced Char.isDigit))

def isFloat (cs : List Char) : Bool :=
  let digits := afterSign cs
  let word := String.ofList digits
  let whole := digits.takeWhile (· != '.')
  let rest := digits.dropWhile (· != '.')
  let special := word = ".inf" || word = ".Inf" || word = ".INF"
  let nan := ([".nan", ".NaN", ".NAN"] : List String).contains (String.ofList cs)
  special || nan ||
    (match rest with
    | _ :: fraction =>
      match splitColons [] whole with
      | [whole] =>
        if whole.isEmpty then
          digits.length == cs.length && fraction.head?.any Char.isDigit && isFraction fraction
        else isNumeral whole && isFraction fraction
      | whole :: parts =>
        isNumeral whole && parts.all isSixty && fraction.all (isSpaced Char.isDigit)
      | [] => false
    | [] => false)

def isBit (c : Char) : Bool :=
  c == '0' || c == '1'

def isOctal (c : Char) : Bool :=
  c.isDigit && c.toNat < 0x38

def isHex (c : Char) : Bool :=
  c.isDigit || ('a' ≤ c && c ≤ 'f') || ('A' ≤ c && c ≤ 'F')

def isInt (cs : List Char) : Bool :=
  match afterSign cs with
  | ['0'] => true
  | '0' :: 'b' :: digits => !digits.isEmpty && digits.all (isSpaced isBit)
  | '0' :: 'x' :: digits => !digits.isEmpty && digits.all (isSpaced isHex)
  | '0' :: digits => digits.all (isSpaced isOctal)
  | digits =>
    match splitColons [] digits with
    | whole :: parts => isNumeral whole && parts.all isSixty
    | [] => false

def digits? (least most : Nat) (cs : List Char) : Option (Nat × List Char) := do
  let taken := (cs.take most).takeWhile Char.isDigit
  guard (least ≤ taken.length)
  return (Text.natOf taken, cs.drop taken.length)

def mark? (mark : Char) : List Char → Option (List Char)
  | c :: rest => if c = mark then some rest else none
  | [] => none

def day? (cs : List Char) : Option (Day × List Char) := do
  let (year, cs) ← digits? 4 4 cs
  let (month, cs) ← digits? 1 2 (← mark? '-' cs)
  let (day, cs) ← digits? 1 2 (← mark? '-' cs)
  return ({ year, month, day }, cs)

def timeGap? : List Char → Option (List Char)
  | 'T' :: rest | 't' :: rest => some rest
  | cs =>
    let isGap (c : Char) := c == ' ' || c == '\t'
    if cs.head?.any isGap then some (cs.dropWhile isGap) else none

def fraction (cs : List Char) : Nat × List Char :=
  match cs with
  | '.' :: rest =>
    let taken := rest.takeWhile Char.isDigit
    (Text.natOf ((taken ++ List.replicate 6 '0').take 6), rest.dropWhile Char.isDigit)
  | cs => (0, cs)

def zone? (cs : List Char) : Option (Option Int) :=
  match cs.dropWhile fun c => c == ' ' || c == '\t' with
  | [] => if cs.isEmpty then some none else none
  | ['Z'] => some (some 0)
  | sign :: rest => do
    guard (sign == '-' || sign == '+')
    let (hours, rest) ← digits? 1 2 rest
    let (minutes, rest) ← match rest with
      | ':' :: rest => digits? 2 2 rest
      | rest => some (0, rest)
    guard rest.isEmpty
    let n : Int := hours * 60 + minutes
    return some (if sign = '-' then -n else n)

def timestamp? (cs : List Char) : Option (Day ⊕ Moment) := do
  let (day, rest) ← day? cs
  if rest.isEmpty then return .inl day
  let (hour, rest) ← digits? 1 2 (← timeGap? rest)
  let (minute, rest) ← digits? 2 2 (← mark? ':' rest)
  let (second, rest) ← digits? 2 2 (← mark? ':' rest)
  let (microsecond, rest) := fraction rest
  return .inr { day, hour, minute, second, microsecond, zone := ← zone? rest }

def isTimestamp (cs : List Char) : Bool :=
  match timestamp? cs with
  | some (.inl _) => cs.length == 10
  | some (.inr _) => true
  | none => false

def withoutBreak (s : String) : String :=
  match s.toList.reverse with
  | '\n' :: c :: rest => String.ofList (c :: rest).reverse
  | _ => s

def ofPlain (s : String) : Tag :=
  let s := withoutBreak s
  if trueWords.contains s || falseWords.contains s then .bool
  else if isFloat s.toList then .float
  else if isInt s.toList then .int
  else if s = "<<" then .merge
  else if nullWords.contains s then .null
  else if isTimestamp s.toList then .timestamp
  else if s = "=" then .value
  else if bareMarks.contains s then .other
  else .text

def whole (base : Nat) (digits : List Char) : Except Fault Int :=
  let text := String.ofList digits
  match Text.readIntIn base text with
  | .ok n => .ok n
  | .error e => .error (.ofNumeral (Text.quoted text) base e)

def real (digits : List Char) : Except Fault (Binary .double) :=
  match Text.readFloat? (String.ofList digits) with
  | some x => .ok x
  | none => .error (.floatText (String.ofList digits))

def sixties (places : List Int) : Int :=
  places.foldl (fun n place => n * 60 + place) 0

def realSixties (base : Int) (sum : Binary .double) : List (Binary .double) → Except Fault (Binary .double)
  | [] => .ok sum
  | place :: rest =>
    let weight : Binary .double := .ofInt base
    if weight = .infinity false then .error .hugeInteger
    else realSixties (base * 60) (sum.add (place.mul weight)) rest

def withoutUnderscores (s : String) : List Char :=
  s.toList.filter (· != '_')

def intValue (s : String) : Except Fault Int := do
  let cs := withoutUnderscores s
  let n ← match afterSign cs with
    | [] => throw .noDigits
    | ['0'] => pure 0
    | '0' :: 'b' :: digits => whole 2 digits
    | '0' :: 'x' :: digits => whole 16 digits
    | '0' :: digits => whole 8 ('0' :: digits)
    | digits =>
      match splitColons [] digits with
      | [digits] => whole 10 digits
      | parts => sixties <$> parts.mapM (whole 10)
  return if cs.head? = some '-' then -n else n

def floatValue (s : String) : Except Fault (Binary .double × Bool) := do
  let cs := (Text.lower (String.ofList (withoutUnderscores s))).toList
  if cs.isEmpty then throw .noDigits
  let digits := afterSign cs
  if digits = ".nan".toList then return (.nan, true)
  let x ←
    if digits = ".inf".toList then pure (.infinity false)
    else
      match splitColons [] digits with
      | [digits] => real digits
      | parts => do realSixties 1 (.zero false) (← parts.mapM real).reverse
  return (if cs.head? = some '-' then x.neg else x, false)

def boolValue (s : String) : Except Fault Bool :=
  let word := Text.lower s
  if trueWords.contains word then .ok true
  else if falseWords.contains word then .ok false
  else .error (.noEntry word)

def binaryValue (s : String) : Except Problem (List UInt8) :=
  if s.toList.all fun c => c.toNat < 0x80 then Problem.orMalformed (Base64.decode? s.toList)
  else .error .malformed

def timestampValue (s : String) : Except Fault Datum :=
  match timestamp? (withoutBreak s).toList with
  | none => .error .noTimestamp
  | some (.inl d) =>
    match d.check with
    | .ok d => .ok (.day d)
    | .error e => .error (.calendar e)
  | some (.inr m) =>
    match m.check with
    | .ok m => .ok (.moment m)
    | .error e => .error (.calendar e)

end Tag

end OneStep.Yaml
