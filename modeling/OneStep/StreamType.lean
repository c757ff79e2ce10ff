import OneStep.Kind
import OneStep.Text.Numeral

namespace OneStep

inductive StreamType where
  | unknown
  | bool
  | int (bits : Int)
  | word (bits : Int)
  | float (bits : Int)
  | array (length : Nat) (element : StreamType)
  | struct (name : String) (fields : List (String × StreamType))

namespace StreamType

instance : Inhabited StreamType := ⟨.bool⟩

mutual

def same : StreamType → StreamType → Bool
  | .unknown, .unknown => true
  | .bool, .bool => true
  | .int m, .int n => m == n
  | .word m, .word n => m == n
  | .float m, .float n => m == n
  | .array m s, .array n t => m == n && same s t
  | .struct a fs, .struct b gs => a == b && sameFields fs gs
  | _, _ => false

def sameFields : List (String × StreamType) → List (String × StreamType) → Bool
  | [], [] => true
  | (a, s) :: fs, (b, t) :: gs => a == b && same s t && sameFields fs gs
  | _, _ => false

end

mutual

theorem same_iff : ∀ s t : StreamType, same s t = true ↔ s = t
  | .unknown, t => by cases t <;> simp [same]
  | .bool, t => by cases t <;> simp [same]
  | .int _, t => by cases t <;> simp [same]
  | .word _, t => by cases t <;> simp [same]
  | .float _, t => by cases t <;> simp [same]
  | .array _ s, t => by cases t <;> simp [same, same_iff s]
  | .struct _ fs, t => by cases t <;> simp [same, sameFields_iff fs]

theorem sameFields_iff : ∀ fs gs : List (String × StreamType), sameFields fs gs = true ↔ fs = gs
  | [], gs => by cases gs <;> simp [sameFields]
  | (a, s) :: fs, gs => by
    cases gs with
    | nil => simp [sameFields]
    | cons g gs =>
      obtain ⟨b, t⟩ := g
      simp [sameFields, same_iff s, sameFields_iff fs, and_assoc]

end

instance : DecidableEq StreamType := fun s t => decidable_of_iff _ (same_iff s t)

def scalar? : StreamType → Option Scalar
  | .bool => some .bool
  | .int bits => (Width.ofSize? bits).map .int
  | .word bits => (Width.ofSize? bits).map .word
  | .float bits =>
    if bits = 32 then some (.float .single) else if bits = 64 then some (.float .double) else none
  | _ => none

def ofScalar : Scalar → StreamType
  | .bool => .bool
  | .int w => .int w.size
  | .word w => .word w.size
  | .float p => .float p.size

theorem scalar?_ofScalar (s : Scalar) : (ofScalar s).scalar? = some s := by
  cases s with
  | bool => rfl
  | int w => cases w <;> rfl
  | word w => cases w <;> rfl
  | float p => cases p <;> rfl

def isIntegral (t : StreamType) : Bool :=
  match t.scalar? with
  | some (.int _) | some (.word _) => true
  | _ => false

def isFloating (t : StreamType) : Bool :=
  match t.scalar? with
  | some (.float _) => true
  | _ => false

def isNumeric (t : StreamType) : Bool :=
  t.isIntegral || t.isFloating

def isScalar (t : StreamType) : Bool :=
  t.scalar?.isSome

def text : StreamType → String
  | .unknown => "Unknown"
  | .bool => "Bool"
  | .int bits => s!"Int{bits}"
  | .word bits => s!"Word{bits}"
  | .float bits => if bits = 32 then "Float" else "Double"
  | .array length element => s!"Array<{length}, " ++ element.text ++ ">"
  | .struct name _ => if name.isEmpty then "Struct" else name

def isWritable : StreamType → Bool
  | .int bits | .word bits => Text.isWritable bits
  | .array length element => Text.isWritable length && element.isWritable
  | _ => true

def named : List (String × StreamType) := [
  ("Bool", .bool),
  ("Int8", .int 8), ("Int16", .int 16), ("Int32", .int 32), ("Int64", .int 64),
  ("Word8", .word 8), ("Word16", .word 16), ("Word32", .word 32), ("Word64", .word 64),
  ("Float", .float 32), ("Double", .float 64)]

def findField? (fields : List (String × StreamType)) (name : String) : Option (Nat × StreamType) :=
  match fields with
  | [] => none
  | (f, t) :: rest => if f = name then some (0, t) else (findField? rest name).map fun (i, t) => (i + 1, t)

end StreamType

end OneStep
