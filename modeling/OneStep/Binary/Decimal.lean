import OneStep.Binary.Basic

namespace OneStep

def decimalDigits (n : Nat) : List Char :=
  Nat.toDigits 10 n

namespace Binary

variable {p : Precision}

def ofDecimal (negative : Bool) (n : Nat) (e : Int) : Binary p :=
  if n = 0 then zero negative
  else
    let magnitude : Int := (decimalDigits n).length + e
    if magnitude > 400 then infinity negative
    else if magnitude < -400 then zero negative
    else ofQuotient negative (n * Nat.pow 10 e.toNat * Nat.pow 2 p.scale) (Nat.pow 10 (-e).toNat)

def belowPower (n d : Nat) (e : Int) : Bool :=
  n * Nat.pow 10 (-e).toNat < d * Nat.pow 10 e.toNat

def decimalExponent (n d : Nat) : Int :=
  let bits : Int := n.log2 - d.log2
  let e := (bits - 1) * 30103 / 100000
  if belowPower n d e then e
  else if belowPower n d (e + 1) then e + 1
  else if belowPower n d (e + 2) then e + 2
  else e + 3

def gridDecimal? (p : Precision) (rank quanta : Nat) (e : Int) (count : Nat) : Option Nat :=
  let grid := e - count
  let n := quanta * Nat.pow 10 (-grid).toNat
  let d := Nat.pow 2 p.scale * Nat.pow 10 grid.toNat
  let low := n / d
  let readsBack := fun c : Nat =>
    p.nearest (c * Nat.pow 10 grid.toNat * Nat.pow 2 p.scale) (Nat.pow 10 (-grid).toNat) == rank
  let first := roundDiv n d
  let second := if first = low then low + 1 else low
  if readsBack first then some first else if readsBack second then some second else none

def shortestFrom (p : Precision) (rank quanta : Nat) (e : Int) : Nat → Nat → Nat × Nat
  | 0, count =>
    (roundDiv (quanta * Nat.pow 10 (count - e).toNat) (Nat.pow 2 p.scale * Nat.pow 10 (e - count).toNat), count)
  | fuel + 1, count =>
    match gridDecimal? p rank quanta e count with
    | some c => (c, count)
    | none => shortestFrom p rank quanta e fuel (count + 1)

def dropZeros (digits : List Char) : List Char :=
  (digits.reverse.dropWhile (· == '0')).reverse

def shortest (p : Precision) (rank : Nat) : List Char × Int :=
  let quanta := p.quanta rank
  let e := decimalExponent quanta (Nat.pow 2 p.scale)
  let (c, count) := shortestFrom p rank quanta e 16 1
  let digits := decimalDigits c
  (dropZeros digits, e - count + digits.length)

def layout (digits : List Char) (k : Int) : List Char :=
  let zeros := fun n : Nat => List.replicate n '0'
  if -3 ≤ k ∧ k ≤ 16 then
    if k ≤ 0 then '0' :: '.' :: zeros (-k).toNat ++ digits
    else
      let whole := k.toNat
      if digits.length ≤ whole then digits ++ zeros (whole - digits.length) ++ ['.', '0']
      else digits.take whole ++ '.' :: digits.drop whole
  else
    let e := k - 1
    let exponent := decimalDigits e.natAbs
    let padded := if exponent.length < 2 then '0' :: exponent else exponent
    let mantissa := match digits with
      | [] => []
      | [d] => [d]
      | d :: rest => d :: '.' :: rest
    mantissa ++ 'e' :: (if e < 0 then '-' else '+') :: padded

def toText : Binary p → String
  | .nan => "nan"
  | .number negative rank _ =>
    let magnitude :=
      if rank = p.top then ['i', 'n', 'f']
      else if rank = 0 then ['0', '.', '0']
      else
        let (digits, k) := shortest p rank
        layout digits k
    String.ofList (if negative then '-' :: magnitude else magnitude)

def exactText (n bits : Nat) : List Char :=
  let fraction := decimalDigits (n % Nat.pow 2 bits * Nat.pow 5 bits)
  let padded := dropZeros (List.replicate (bits - fraction.length) '0' ++ fraction)
  let whole := decimalDigits (n / Nat.pow 2 bits)
  if padded.isEmpty then whole else whole ++ '.' :: padded

def toModelText : Binary p → String
  | .nan => "NaN"
  | .number negative rank _ =>
    if rank = p.top then if negative then "-oo" else "+oo"
    else if rank = 0 then if negative then "-0.0" else "+0.0"
    else
      let significand := if rank < p.block then rank else p.block + rank % p.block
      let e : Int := (max 1 (rank / p.block) : Nat) - 1 + (p.digits - 1 : Nat) - (p.scale : Nat)
      let sign := if negative then "-" else ""
      let power := if e = 0 then "" else s!"*(2**{e})"
      sign ++ String.ofList (exactText significand (p.digits - 1)) ++ power

def roundPlaces (places : Nat) : Binary p → Binary p
  | .nan => .nan
  | .number negative rank h =>
    if rank = p.top then .number negative rank h
    else
      let c := roundDiv (p.quanta rank * Nat.pow 10 places) (Nat.pow 2 p.scale)
      ofQuotient negative (c * Nat.pow 2 p.scale) (Nat.pow 10 places)

end Binary

end OneStep
