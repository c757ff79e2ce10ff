/-!
Binary floating point numbers of the two interchange formats. A number is its sign and its rank: the
position of its magnitude among the non-negative numbers of the format, in increasing order and up to
infinity. Order, neighbours and bit patterns are then plain arithmetic on ranks.
-/

namespace OneStep

inductive Precision where
  | single
  | double
  deriving DecidableEq, Hashable, Repr

namespace Precision

def size : Precision → Nat
  | .single => 32
  | .double => 64

def digits : Precision → Nat
  | .single => 24
  | .double => 53

def scale : Precision → Nat
  | .single => 149
  | .double => 1074

def block (p : Precision) : Nat :=
  Nat.pow 2 (p.digits - 1)

def top : Precision → Nat
  | .single => 0x7f800000
  | .double => 0x7ff0000000000000

def quanta (p : Precision) (rank : Nat) : Nat :=
  if rank < p.block then rank
  else (p.block + rank % p.block) * Nat.pow 2 (rank / p.block - 1)

end Precision

def roundDiv (n d : Nat) : Nat :=
  if 2 * (n % d) < d then n / d
  else if d < 2 * (n % d) then n / d + 1
  else n / d + n / d % 2

def Precision.nearest (p : Precision) (n d : Nat) : Nat :=
  let shift := (n / d).log2 + 1 - p.digits
  min p.top (shift * p.block + roundDiv n (d * Nat.pow 2 shift))

theorem Precision.nearest_le_top (p : Precision) (n d : Nat) : p.nearest n d ≤ p.top :=
  Nat.min_le_left ..

inductive Binary (p : Precision) where
  | nan
  | number (negative : Bool) (rank : Nat) (le_top : rank ≤ p.top)
  deriving DecidableEq

namespace Binary

variable {p : Precision}

def ofQuotient (negative : Bool) (n d : Nat) : Binary p :=
  .number negative (p.nearest n d) (p.nearest_le_top n d)

def zero (negative : Bool) : Binary p :=
  .number negative 0 (Nat.zero_le _)

def infinity (negative : Bool) : Binary p :=
  .number negative p.top (Nat.le_refl _)

instance : Inhabited (Binary p) := ⟨zero false⟩

def ofInt (z : Int) : Binary p :=
  ofQuotient (z < 0) (z.natAbs * Nat.pow 2 p.scale) 1

def toBits : Binary p → Nat
  | .nan => p.top + p.block / 2
  | .number negative rank _ => (if negative then Nat.pow 2 (p.size - 1) else 0) + rank

def ofBits (bits : Nat) : Binary p :=
  let rank := bits % Nat.pow 2 (p.size - 1)
  if h : rank ≤ p.top then .number (Nat.pow 2 (p.size - 1) ≤ bits) rank h else .nan

def position? : Binary p → Option Int
  | .nan => none
  | .number negative rank _ => some (if negative then -rank else rank)

def up : Binary p → Binary p
  | .nan => .nan
  | .number false rank h => if h' : rank + 1 ≤ p.top then .number false (rank + 1) h' else .number false rank h
  | .number true 0 h => if h' : 1 ≤ p.top then .number false 1 h' else .number true 0 h
  | .number true (rank + 1) h => .number true rank (Nat.le_of_succ_le h)

end Binary

end OneStep
