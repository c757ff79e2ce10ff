import OneStep.Binary.Basic

namespace OneStep

inductive Width where
  | w8
  | w16
  | w32
  | w64
  deriving DecidableEq, Hashable, Repr

namespace Width

def size : Width → Nat
  | .w8 => 8
  | .w16 => 16
  | .w32 => 32
  | .w64 => 64

def ofSize? (n : Int) : Option Width :=
  if n = 8 then some .w8
  else if n = 16 then some .w16
  else if n = 32 then some .w32
  else if n = 64 then some .w64
  else none

theorem ofSize?_size (w : Width) : ofSize? w.size = some w := by
  cases w <;> rfl

theorem size_pos (w : Width) : 0 < w.size := by
  cases w <;> decide

end Width

inductive Kind where
  | bool
  | bits (w : Width)
  | float (p : Precision)
  deriving DecidableEq, Hashable, Repr

namespace Kind

abbrev Carrier : Kind → Type
  | .bool => Bool
  | .bits w => BitVec w.size
  | .float p => Binary p

def default : (k : Kind) → k.Carrier
  | .bool => false
  | .bits _ => 0
  | .float _ => Binary.zero false

instance (k : Kind) : Inhabited k.Carrier := ⟨k.default⟩

instance : (k : Kind) → DecidableEq k.Carrier
  | .bool => inferInstanceAs (DecidableEq Bool)
  | .bits w => inferInstanceAs (DecidableEq (BitVec w.size))
  | .float p => inferInstanceAs (DecidableEq (Binary p))

end Kind

inductive Scalar where
  | bool
  | int (w : Width)
  | word (w : Width)
  | float (p : Precision)
  deriving DecidableEq, Repr

namespace Scalar

abbrev kind : Scalar → Kind
  | .bool => .bool
  | .int w | .word w => .bits w
  | .float p => .float p

def name : Scalar → String
  | .bool => "BOOL"
  | .int w => s!"INT{w.size}"
  | .word w => s!"WORD{w.size}"
  | .float .single => "FLOAT"
  | .float .double => "DOUBLE"

end Scalar

inductive Tag where
  | scalar (s : Scalar)
  | array
  | emptyArray
  | struct
  deriving DecidableEq, Repr

namespace Tag

def name : Tag → String
  | .scalar s => s.name
  | .array => "ARRAY"
  | .emptyArray => "EMPTY_ARRAY"
  | .struct => "STRUCT"

end Tag

end OneStep
