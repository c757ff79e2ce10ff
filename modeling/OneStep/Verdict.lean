import OneStep.Fault
import OneStep.Solver.Reply

namespace OneStep

inductive Verdict where
  | valid
  | invalid
  | unknown
  deriving DecidableEq, Repr

namespace Verdict

def all : List Verdict :=
  [.valid, .invalid, .unknown]

def name : Verdict → String
  | .valid => "valid"
  | .invalid => "invalid"
  | .unknown => "unknown"

def ofDatum (d : Datum) : Except Fault Verdict :=
  match all.find? fun v => (Datum.text v.name).sameKey d with
  | some v => .ok v
  | none => .error (.unknownVerdict d)

def ofStatus : Status → Verdict
  | .unsat => .valid
  | .sat => .invalid
  | .unknown => .unknown

def mark : Verdict → String
  | .valid => "✓ VALID"
  | .invalid => "✗ INVALID"
  | .unknown => "? UNKNOWN"

end Verdict

structure Outcome where
  name : Datum
  verdict : Verdict
  counterexample : Datum := .map []
  reason : Datum := .text ""
  error : Datum := .null
  duration : Datum := .int 0

namespace Outcome

def isProved (o : Outcome) : Bool :=
  o.verdict == .valid

def roundedDuration (o : Outcome) : Except Fault Datum :=
  match o.duration with
  | .float x => .ok (.float (x.roundPlaces 3))
  | .int n => .ok (.int n)
  | .bool b => .ok (.int (if b then 1 else 0))
  | _ => .error .notInteger

def toDatum (o : Outcome) : Except Fault Datum := do
  let duration ← o.roundedDuration
  return .object ([("name", o.name), ("verdict", .text o.verdict.name)] ++
    (if o.counterexample.isTruthy then [("counterexample", o.counterexample)] else []) ++
    (if o.reason.isTruthy then [("reason", o.reason)] else []) ++
    (if o.error.isTruthy then [("error", o.error)] else []) ++
    [("duration_ms", duration)])

def toJson (o : Outcome) : Except Fault String := do
  let d ← o.toDatum
  if d.isWritable then return Json.toBlock 2 d else throw .unwritable

def padded (width : Nat) (s : String) : String :=
  s ++ String.ofList (List.replicate (width - s.length) ' ')

def cause (o : Outcome) : Except Fault (List String) :=
  if o.error.isTruthy then
    match o.error with
    | .map entries =>
      match Datum.find? entries "message" with
      | some message => return [s!"      error: {← message.asText}"]
      | none => .error (.noEntry "message")
    | _ => .error .notIterable
  else if o.reason.isTruthy then return [s!"      reason: {← o.reason.asText}"]
  else .ok []

def assignment (o : Outcome) : Except Fault (List String) :=
  match o.counterexample with
  | .map entries => entries.mapM fun (name, value) => return s!"      {← name.asText} = {← value.asText}"
  | _ => .error .noEntries

def lines (o : Outcome) : Except Fault (List String) := do
  let head := s!"  {padded 12 o.verdict.mark} {← o.name.asText}"
  let cause ← o.cause
  return head :: cause ++ (← o.assignment)

def report (outcomes : List Outcome) : Except Fault String := do
  let lines ← outcomes.mapM Outcome.lines
  let proved := (outcomes.filter Outcome.isProved).length
  return "\n".intercalate (lines.flatten ++ [s!"\n  {proved}/{outcomes.length} properties proved"])

end Outcome

end OneStep
