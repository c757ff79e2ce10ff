import OneStep.Journal
import OneStep.Symbolic.Value
import OneStep.Text.Basic

namespace OneStep

structure Supply where
  count : Nat := 0
  journal : List Event := []

abbrev Drawing := ExceptT Fault (StateM Supply)

namespace Supply

def isMasked (c : Char) : Bool :=
  Text.isBlank c || c == '|' || c == '\\'

def plainHint (afterMask : Bool) : List Char → List Char
  | [] => []
  | c :: rest =>
    if isMasked c then if afterMask then plainHint true rest else '_' :: plainHint true rest
    else c :: plainHint false rest

def hintText (hint : String) : String :=
  let plain := String.ofList (plainHint false hint.toList)
  if plain.isEmpty then "fresh" else plain

def drawScalar (t : StreamType) (hint : String) : Drawing SymValue := do
  let _ ← t.tag
  let supply ← get
  let hint := hintText hint
  let event := Event.fresh (Symbol.fullName hint supply.count) t
  set { supply with count := supply.count + 1, journal := event :: supply.journal }
  let s ← t.scalar
  if Text.hasHalves hint then throw .halfInName
  return .scalar s (.symbol (.ofHint hint supply.count) s.kind)

mutual

def draw : StreamType → String → Drawing SymValue
  | .array length element, hint =>
    return .array (← (List.range length).mapM fun i => draw element s!"{hint}[{i}]")
  | .struct _ fields, hint => return .struct (← drawFields fields hint)
  | .unknown, hint => drawScalar .unknown hint
  | .bool, hint => drawScalar .bool hint
  | .int bits, hint => drawScalar (.int bits) hint
  | .word bits, hint => drawScalar (.word bits) hint
  | .float bits, hint => drawScalar (.float bits) hint

def drawFields : List (String × StreamType) → String → Drawing (List SymValue)
  | [], _ => return []
  | (name, t) :: fields, hint => do
    let v ← draw t s!"{hint}.{name}"
    return v :: (← drawFields fields hint)

end

end Supply

end OneStep
