import OneStep.Binary.Basic
import OneStep.Binary.Decimal
import OneStep.Text.Basic

namespace OneStep.Text

def plainDigit (c : Char) : Char :=
  match digit? c with
  | some d => Char.ofNat (0x30 + d)
  | none => c

def joinDigits? (previous : Char) : List Char → Option (List Char)
  | [] => if previous = '_' then none else some []
  | c :: rest =>
    if c = '_' then
      if previous.isDigit then joinDigits? c rest else none
    else if previous = '_' ∧ ¬c.isDigit then none
    else (joinDigits? c rest).map (c :: ·)

def isNumberBlank (c : Char) : Bool :=
  isBlank c && !(28 ≤ c.toNat && c.toNat ≤ 31)

def number? (s : String) : Option (List Char) :=
  joinDigits? ' ' ((strip isNumberBlank s.toList).map plainDigit)

def natOf (digits : List Char) : Nat :=
  digits.foldl (fun n c => n * 10 + (c.toNat - 0x30)) 0

def splitSign : List Char → Bool × List Char
  | '-' :: rest => (true, rest)
  | '+' :: rest => (false, rest)
  | cs => (false, cs)

inductive NumeralError where
  | malformed
  | tooLong (digits : Nat)
  deriving DecidableEq, Repr

def digitLimit : Nat :=
  4300

@[irreducible] def isWritable (n : Int) : Bool :=
  n.natAbs < Nat.pow 10 digitLimit

def digitIn? (base : Nat) (c : Char) : Option Nat := do
  let n := c.toNat
  let d ←
    if c.isDigit then some (n - 0x30)
    else if 'a' ≤ c && c ≤ 'z' then some (n - 0x57)
    else if 'A' ≤ c && c ≤ 'Z' then some (n - 0x37)
    else none
  if d < base then some d else none

def baseLetter? : Nat → Option Char
  | 2 => some 'b'
  | 8 => some 'o'
  | 16 => some 'x'
  | _ => none

def dropBase (base : Nat) (cs : List Char) : List Char :=
  match cs with
  | '0' :: letter :: rest =>
    if (baseLetter? base).any (· == letter.toLower) then
      match rest with
      | '_' :: rest => rest
      | rest => rest
    else cs
  | cs => cs

def takeDigits? (base : Nat) (previous : Char) : List Char → Option (List Nat × List Char)
  | [] => if previous = '_' then none else some ([], [])
  | c :: rest =>
    if c = '_' then
      if (digitIn? base previous).isSome then takeDigits? base c rest else none
    else
      match digitIn? base c with
      | some d => (takeDigits? base c rest).map fun (digits, rest) => (d :: digits, rest)
      | none => if previous = '_' then none else some ([], c :: rest)

def isPowerOfTwo (base : Nat) : Bool :=
  Nat.pow 2 base.log2 == base

def readIntIn (base : Nat) (s : String) : Except NumeralError Int :=
  let (negative, cs) := splitSign ((strip isNumberBlank s.toList).map plainDigit)
  match takeDigits? base ' ' (dropBase base cs) with
  | none | some ([], _) => .error .malformed
  | some (digits, rest) =>
    if !isPowerOfTwo base && digitLimit < digits.length then .error (.tooLong digits.length)
    else if !rest.isEmpty then .error .malformed
    else
      let n : Nat := digits.foldl (fun n d => n * base + d) 0
      .ok (if negative then -(n : Int) else n)

def readInt (s : String) : Except NumeralError Int :=
  readIntIn 10 s

def exponent? : List Char → Option Int
  | [] => some 0
  | mark :: rest => do
    guard (mark == 'e' || mark == 'E')
    let (negative, digits) := splitSign rest
    guard (!digits.isEmpty && digits.all Char.isDigit)
    return if negative then -(natOf digits : Int) else natOf digits

def readDecimal? (negative : Bool) (cs : List Char) : Option (Binary .double) := do
  let whole := cs.takeWhile Char.isDigit
  let afterWhole := cs.dropWhile Char.isDigit
  let (fraction, rest) := match afterWhole with
    | '.' :: tail => (tail.takeWhile Char.isDigit, tail.dropWhile Char.isDigit)
    | tail => ([], tail)
  guard (!(whole.isEmpty && fraction.isEmpty))
  let e ← exponent? rest
  return Binary.ofDecimal negative (natOf (whole ++ fraction)) (e - fraction.length)

def readFloat? (s : String) : Option (Binary .double) := do
  let (negative, cs) := splitSign (← number? s)
  let word := String.ofList (cs.map Char.toLower)
  if word = "inf" ∨ word = "infinity" then return Binary.infinity negative
  else if word = "nan" then return .nan
  else readDecimal? negative cs

end OneStep.Text
