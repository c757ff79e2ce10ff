import OneStep.Binary.Arithmetic
import OneStep.Fault
import OneStep.Text.Numeral

namespace OneStep

structure Settings where
  solver : String := "z3"
  solverPath : String := ""
  solverArgs : List String := ["-in", "-smt2"]
  timeout : Option Int := some 0
  solverOptions : List (Datum × Datum) := []
  format : String := "pretty"
  includeCounterexamples : Bool := true

namespace Settings

def usesExternal (s : Settings) : Bool :=
  s.solver == "external" || !s.solverPath.isEmpty

def sessionOptions (s : Settings) : Except Fault (List (Datum × Datum)) :=
  match s.timeout with
  | none => .error .noLimit
  | some timeout =>
    if timeout > 0 ∧ (Datum.find? s.solverOptions "timeout").isNone then
      .ok (s.solverOptions ++ [(.text "timeout", .int timeout)])
    else .ok s.solverOptions

def readWhole (text quoted : String) : Except Fault Int :=
  match Text.readInt text with
  | .ok n => .ok n
  | .error e => .error (.ofNumeral quoted 10 e)

def wholeNumber : Datum → Except Fault Int
  | .int n => .ok n
  | .bool b => .ok (if b then 1 else 0)
  | .float x =>
    match x.truncate? with
    | some n => .ok n
    | none => .error (match x with
      | .nan => .nanInteger
      | .number .. => .infiniteInteger)
  | .text s => readWhole s (Text.quoted s)
  | .bytes content =>
    let quoted := Datum.bytesText content
    if content.all (· < 0x80) then readWhole (String.ofList (content.map fun b => Char.ofNat b.toNat)) quoted
    else .error (.integerText quoted)
  | _ => .error .notInteger

def ofEntries (entries : List (Datum × Datum)) : Except Fault Settings := do
  let base : Settings := {}
  let get := Datum.findOpen? entries
  let textOr (key default : String) : Except Fault String :=
    match Datum.find? entries key with
    | some d => d.asText
    | none => .ok default
  let solver ← textOr "solver" base.solver
  let solverPath ← if (get "solver_path").any Datum.isTruthy then textOr "solver_path" "" else pure base.solverPath
  let solverArgs ← match get "solver_args" with
    | some (.list items) => items.mapM Datum.asText
    | _ => pure base.solverArgs
  let timeout ← match get "timeout_ms" with
    | some d => some <$> wholeNumber d
    | none => pure base.timeout
  let solverOptions := match get "solver_options" with
    | some (.map options) => options
    | _ => base.solverOptions
  let format ← textOr "format" base.format
  let includeCounterexamples :=
    ((get "include_counterexamples").map Datum.isTruthy).getD base.includeCounterexamples
  return { solver, solverPath, solverArgs, timeout, solverOptions, format, includeCounterexamples }

def keys : List String :=
  ["solver", "solver_path", "solver_args", "timeout_ms", "solver_options", "format", "include_counterexamples"]

def ofDatum (d : Datum) : Except Fault Settings :=
  match d.unroll with
  | .map entries => ofEntries entries
  | .text s => if keys.any fun key => (s.splitOn key).length > 1 then .error .notIterable else .ok {}
  | .list items | .tuple items | .set items =>
    if keys.any fun key => items.any (Datum.text key).sameKey then .error .notIterable else .ok {}
  | _ => .error .notIterable

end Settings

end OneStep
