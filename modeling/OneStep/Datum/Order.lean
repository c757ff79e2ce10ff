import OneStep.Datum.Basic

namespace OneStep

namespace Datum

def isNumber : Datum → Bool
  | .bool _ | .int _ | .float _ => true
  | _ => false

def less? (a b : Datum) : Option Bool :=
  match a, b with
  | .text s, .text t => some (s < t)
  | .bytes s, .bytes t => some (s < t)
  | .day s, .day t => some (s.number < t.number)
  | .moment s, .moment t => if s.zone.isSome = t.zone.isSome then some (s.instant < t.instant) else none
  | a, b =>
    if a.isNumber && b.isNumber then
      match a.position?, b.position? with
      | some (m, x), some (n, y) => some (m < n || (m == n && x < y))
      | _, _ => some false
    else none

end Datum

namespace Sorting

variable {α : Type} (less? : α → α → Option Bool)

def takeRun (goesOn? : α → α → Option Bool) (last : α) : List α → Option (List α × List α)
  | [] => some ([], [])
  | x :: rest => do
    if ← goesOn? last x then
      let (run, rest) ← takeRun goesOn? x rest
      return (x :: run, rest)
    else return ([], x :: rest)

def place? (x : α) (sorted : Array α) (low high : Nat) : Option Nat :=
  if _h : low < high then
    let middle := low + (high - low) / 2
    match sorted[middle]? with
    | none => none
    | some y => do
      if ← less? x y then place? x sorted low middle else place? x sorted (middle + 1) high
  else some low
termination_by high - low

def insert? (sorted : List α) (x : α) : Option (List α) := do
  let i ← place? less? x sorted.toArray 0 sorted.length
  return sorted.take i ++ x :: sorted.drop i

def sort? : List α → Option (List α)
  | x :: y :: rest => do
    let descends ← less? y x
    let (run, rest) ← takeRun (fun last x => (less? x last).map (· == descends)) y rest
    let run := x :: y :: run
    rest.foldlM (insert? less?) (if descends then run.reverse else run)
  | xs => some xs

end Sorting

end OneStep
