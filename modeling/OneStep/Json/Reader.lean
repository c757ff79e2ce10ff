import OneStep.Datum.Basic
import OneStep.Text.Basic
import OneStep.Text.Numeral

namespace OneStep.Json

def isSpace (c : Char) : Bool :=
  c == ' ' || c == '\t' || c == '\n' || c == '\r'

def skipSpace (cs : List Char) : List Char :=
  cs.dropWhile isSpace

def hexValue? (c : Char) : Option Nat :=
  let n := c.toNat
  if 0x30 ≤ n && n ≤ 0x39 then some (n - 0x30)
  else if 0x41 ≤ n && n ≤ 0x46 then some (n - 0x37)
  else if 0x61 ≤ n && n ≤ 0x66 then some (n - 0x57)
  else none

def unit? : List Char → Option (Nat × List Char)
  | a :: b :: c :: d :: rest => do
    let value := ((← hexValue? a) * 16 + (← hexValue? b)) * 256 + (← hexValue? c) * 16 + (← hexValue? d)
    return (value, rest)
  | _ => none

def lowHalf? : List Char → Option (Nat × List Char)
  | '\\' :: 'u' :: rest => do
    let (low, rest) ← unit? rest
    if 0xDC00 ≤ low ∧ low < 0xE000 then return (low, rest) else none
  | _ => none

def escapedUnit? (cs : List Char) : Option (Char × List Char) := do
  let (code, rest) ← unit? cs
  if 0xD800 ≤ code ∧ code < 0xDC00 then
    match lowHalf? rest with
    | some (low, rest) => return (Text.joinHalves code low, rest)
    | none => return (Text.charOfCode code, rest)
  else return (Text.charOfCode code, rest)

def escaped? (c : Char) : Option Char :=
  match c with
  | 'b' => some '\x08'
  | 'f' => some '\x0c'
  | 'n' => some '\n'
  | 'r' => some '\r'
  | 't' => some '\t'
  | '\x22' => some '\x22'
  | '\\' => some '\\'
  | '/' => some '/'
  | _ => none

def string? : Nat → List Char → List Char → Option (String × List Char)
  | 0, _, _ => none
  | fuel + 1, done, cs =>
    match cs with
    | [] => none
    | '\x22' :: rest => some (String.ofList done.reverse, rest)
    | '\\' :: 'u' :: rest => do
      let (c, rest) ← escapedUnit? rest
      string? fuel (c :: done) rest
    | '\\' :: c :: rest => do
      let c ← escaped? c
      string? fuel (c :: done) rest
    | c :: rest => if c.toNat < 0x20 then none else string? fuel (c :: done) rest

def exponentPart (cs : List Char) : List Char × List Char :=
  match cs with
  | mark :: rest =>
    if mark = 'e' ∨ mark = 'E' then
      let (sign, digits) := match rest with
        | '-' :: tail => (['-'], tail)
        | '+' :: tail => (['+'], tail)
        | tail => ([], tail)
      let taken := digits.takeWhile Char.isDigit
      if taken.isEmpty then ([], cs) else (mark :: sign ++ taken, digits.dropWhile Char.isDigit)
    else ([], cs)
  | [] => ([], [])

def fractionPart (cs : List Char) : List Char × List Char :=
  match cs with
  | '.' :: rest =>
    let taken := rest.takeWhile Char.isDigit
    if taken.isEmpty then ([], cs) else ('.' :: taken, rest.dropWhile Char.isDigit)
  | _ => ([], cs)

def wholePart? : List Char → Option (List Char × List Char)
  | '0' :: rest => some (['0'], rest)
  | cs =>
    let taken := cs.takeWhile Char.isDigit
    if taken.isEmpty then none else some (taken, cs.dropWhile Char.isDigit)

def number (negative : Bool) (cs : List Char) : Except Text.NumeralError (Datum × List Char) := do
  let some (whole, rest) := wholePart? cs | throw .malformed
  let (fraction, rest) := fractionPart rest
  let (exponent, rest) := exponentPart rest
  if fraction.isEmpty ∧ exponent.isEmpty then
    let n ← Text.readInt (String.ofList whole)
    return (.int (if negative then -n else n), rest)
  else
    let some x := Text.readDecimal? negative (whole ++ fraction ++ exponent) | throw .malformed
    return (.float x, rest)

def afterWord? : List Char → List Char → Option (List Char)
  | [], cs => some cs
  | w :: word, c :: cs => if w = c then afterWord? word cs else none
  | _ :: _, [] => none

def words : List (String × Datum) := [
  ("null", .null), ("true", .bool true), ("false", .bool false), ("NaN", .float .nan),
  ("Infinity", .float (Binary.infinity false)), ("-Infinity", .float (Binary.infinity true))]

def word? (cs : List Char) : Option (Datum × List Char) :=
  words.findSome? fun (word, value) => (afterWord? word.toList cs).map (value, ·)

mutual

def value : Nat → List Char → Except Text.NumeralError (Datum × List Char)
  | 0, _ => .error .malformed
  | fuel + 1, cs =>
    match cs with
    | '\x22' :: rest =>
      match string? (rest.length + 1) [] rest with
      | some (s, rest) => .ok (.text s, rest)
      | none => .error .malformed
    | '[' :: rest =>
      match skipSpace rest with
      | ']' :: rest => .ok (.list [], rest)
      | rest => items fuel [] rest
    | '\x7b' :: rest =>
      match skipSpace rest with
      | '\x7d' :: rest => .ok (.map [], rest)
      | rest => entries fuel [] rest
    | cs =>
      match word? cs with
      | some found => .ok found
      | none =>
        match cs with
        | '-' :: rest => number true rest
        | cs => number false cs

def items : Nat → List Datum → List Char → Except Text.NumeralError (Datum × List Char)
  | 0, _, _ => .error .malformed
  | fuel + 1, done, cs => do
    let (item, rest) ← value fuel cs
    match skipSpace rest with
    | ']' :: rest => .ok (.list (item :: done).reverse, rest)
    | ',' :: rest => items fuel (item :: done) (skipSpace rest)
    | _ => .error .malformed

def entries : Nat → List (Datum × Datum) → List Char → Except Text.NumeralError (Datum × List Char)
  | 0, _, _ => .error .malformed
  | fuel + 1, done, cs =>
    match cs with
    | '\x22' :: rest => do
      let some (key, rest) := string? (rest.length + 1) [] rest | .error .malformed
      match skipSpace rest with
      | ':' :: rest =>
        let (value, rest) ← value fuel (skipSpace rest)
        let done := Datum.insert done (.text key) value
        match skipSpace rest with
        | '\x7d' :: rest => .ok (.map done, rest)
        | ',' :: rest => entries fuel done (skipSpace rest)
        | _ => .error .malformed
      | _ => .error .malformed
    | _ => .error .malformed

end

def read (text : String) : Except Text.NumeralError Datum := do
  let cs := skipSpace text.toList
  let (value, rest) ← value (2 * cs.length + 2) cs
  if (skipSpace rest).isEmpty then return value else throw .malformed

end OneStep.Json
