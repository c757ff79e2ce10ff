import OneStep.Kind
import OneStep.StreamType

namespace OneStep

inductive Value (α : Scalar → Type) where
  | scalar (s : Scalar) (leaf : α s)
  | array (items : List (Value α))
  | struct (items : List (Value α))

namespace Value

variable {α β : Scalar → Type}

def tag : Value α → Tag
  | .scalar s _ => .scalar s
  | .array [] => .emptyArray
  | .array (_ :: _) => .array
  | .struct _ => .struct

def items : Value α → List (Value α)
  | .scalar .. => []
  | .array items | .struct items => items

mutual

def map (f : (s : Scalar) → α s → β s) : Value α → Value β
  | .scalar s leaf => .scalar s (f s leaf)
  | .array items => .array (mapItems f items)
  | .struct items => .struct (mapItems f items)

def mapItems (f : (s : Scalar) → α s → β s) : List (Value α) → List (Value β)
  | [] => []
  | v :: rest => map f v :: mapItems f rest

end

mutual

def mapM {m : Type → Type} [Monad m] (f : (s : Scalar) → α s → m (β s)) : Value α → m (Value β)
  | .scalar s leaf => .scalar s <$> f s leaf
  | .array items => .array <$> mapMItems f items
  | .struct items => .struct <$> mapMItems f items

def mapMItems {m : Type → Type} [Monad m] (f : (s : Scalar) → α s → m (β s)) :
    List (Value α) → m (List (Value β))
  | [] => pure []
  | v :: rest => do return (← mapM f v) :: (← mapMItems f rest)

end

mutual

def leaves : Value α → List ((s : Scalar) × α s)
  | .scalar s leaf => [⟨s, leaf⟩]
  | .array items => leavesOf items
  | .struct items => leavesOf items

def leavesOf : List (Value α) → List ((s : Scalar) × α s)
  | [] => []
  | v :: rest => leaves v ++ leavesOf rest

end

section Same

variable [(s : Scalar) → DecidableEq (α s)]

mutual

def same : Value α → Value α → Bool
  | .scalar s a, .scalar t b => if h : s = t then decide (h ▸ a = b) else false
  | .array xs, .array ys => sameItems xs ys
  | .struct xs, .struct ys => sameItems xs ys
  | _, _ => false

def sameItems : List (Value α) → List (Value α) → Bool
  | [], [] => true
  | x :: xs, y :: ys => same x y && sameItems xs ys
  | _, _ => false

end

mutual

theorem same_iff : ∀ x y : Value α, same x y = true ↔ x = y
  | .scalar s a, y => by
    cases y with
    | scalar t b =>
      simp only [same]
      split
      · next h => subst h; simp
      · next h => simp [h]
    | array _ => simp [same]
    | struct _ => simp [same]
  | .array xs, y => by cases y <;> simp [same, sameItems_iff xs]
  | .struct xs, y => by cases y <;> simp [same, sameItems_iff xs]

theorem sameItems_iff : ∀ xs ys : List (Value α), sameItems xs ys = true ↔ xs = ys
  | [], ys => by cases ys <;> simp [sameItems]
  | x :: xs, ys => by cases ys <;> simp [sameItems, same_iff x, sameItems_iff xs]

end

instance : DecidableEq (Value α) := fun x y => decidable_of_iff _ (same_iff x y)

end Same

mutual

def Conforms : StreamType → Value α → Prop
  | .array length element, .array items => items.length = length ∧ ∀ v ∈ items, Conforms element v
  | .struct _ fields, .struct items => FieldsConform fields items
  | t, .scalar s _ => t.scalar? = some s
  | _, _ => False

def FieldsConform : List (String × StreamType) → List (Value α) → Prop
  | [], [] => True
  | (_, t) :: fields, v :: items => Conforms t v ∧ FieldsConform fields items
  | _, _ => False

end

end Value

end OneStep
