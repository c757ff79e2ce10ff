import OneStep.Encoding
import OneStep.Solver.Session
import OneStep.Verdict

namespace OneStep.Prover

def encodeProperty (registry : Registry) (e : Expr) : Checking (Except Fault (Term .bool) × Memo) := do
  let p ← get
  let (result, encoder) := (Encoding.encodeProperty registry e).run { supply := p.supply }
  set { p with supply := encoder.supply }
  return (result, encoder.memo)

variable {σ : Type}

def question (solvers : Solvers σ) (settings : Settings) (formula : Term .bool) : Solving σ Finding := do
  Session.configure solvers.engine (← settings.sessionOptions)
  Session.assert solvers.engine formula
  Session.check solvers

def ask (solvers : Solvers σ) (settings : Settings) (path : String) (formula : Term .bool) : Checking Finding := do
  let number := (← get).sessions
  modify fun p => { p with sessions := p.sessions + 1 }
  let session ← Session.start solvers.engine settings path number
  (question solvers settings formula).alone session

def outcomeOf (settings : Settings) (p : Property) (found : Finding) : Outcome where
  name := .text p.name
  verdict := .ofStatus found.status
  counterexample :=
    .object (if settings.includeCounterexamples then found.model.map fun (k, v) => (k, .text v) else [])
  reason := .text found.reason

def proveProperty (solvers : Solvers σ) (settings : Settings) (path : String) (registry : Registry) (p : Property) :
    Checking Outcome := do
  match ← encodeProperty registry p.expr with
  | (.ok formula, memo) =>
    Checking.note (.freeSymbols p.name memo.size)
    let outcome := outcomeOf settings p (← ask solvers settings path formula.negate)
    Checking.note (.verdict p.name outcome.verdict.name)
    return outcome
  | (.error (.reported (.unsupported construct details)), _) =>
    let e := Error.unsupported construct details
    Checking.note (.unsupported p.name e.text)
    return { name := .text p.name, verdict := .unknown, error := e.toDatum, reason := e.message }
  | (.error f, _) => throw f

def prove (solvers : Solvers σ) (settings : Settings) (path : String) (spec : Spec) : Checking (List Outcome) := do
  let registry ← Registry.ofStreams spec.streams
  spec.properties.mapM (proveProperty solvers settings path registry)

end OneStep.Prover
