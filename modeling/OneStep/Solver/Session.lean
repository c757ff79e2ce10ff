import OneStep.Settings
import OneStep.Solver.Reply
import OneStep.Solver.Script
import OneStep.Symbolic.Fresh

/-!
Solver sessions: options and formulas are collected, then checked. What a solver does is not defined here; the solver
inside the process, its printer of formulas and the programs that are launched are given.
-/

namespace OneStep

structure Launch where
  path : String
  args : List String
  timeout : Option (Binary .double)
  script : Script
  input : String

structure Engine (σ : Type) where
  start : Nat → σ
  configure : Datum → Datum → σ → σ × Except String Unit
  assert : Term .bool → σ → σ × Except String Unit
  check : σ → σ × Except String Finding

structure Solvers (σ : Type) where
  engine : Engine σ
  smt2 : Printer
  launch : Nat → Launch → Reply

structure Progress where
  supply : Supply := {}
  sessions : Nat := 0
  launches : List Launch := []

abbrev Checking := ExceptT Fault (StateM Progress)

def Checking.note (e : Event) : Checking Unit :=
  modify fun p => { p with supply.journal := e :: p.supply.journal }

structure External where
  path : String
  args : List String
  timeout : Int
  options : List String := []
  formulas : List (Term .bool) := []

inductive Session (σ : Type) where
  | builtIn (state : Option σ)
  | external (solver : External)
  | abstract

-- what a step has changed stays so if it fails
abbrev Solving (σ : Type) := ExceptT Fault (StateT (Session σ) (StateM Progress))

namespace Solving

variable {σ α : Type}

def lift (x : Checking α) : Solving σ α :=
  ExceptT.mk fun session p =>
    let (result, p) := x.run.run p
    ((result, session), p)

def alone (x : Solving σ α) (session : Session σ) : Checking α :=
  ExceptT.mk fun p =>
    let ((result, _), p) := (x.run.run session).run p
    (result, p)

end Solving

namespace External

def literalText : Datum → Except Fault String
  | .bool b => .ok (if b then "true" else "false")
  | d => d.asText

def optionText (key value : Datum) : Except Fault String := do
  let key ← key.asText
  let value ← literalText value
  return s!"(set-option :{key} {value})"

def script (e : External) : Script where
  head := "(set-option :produce-models true)" :: e.options
  formulas := e.formulas

-- the program gets five seconds more than its own limit
def limit (e : External) : Except Fault (Option (Binary .double)) :=
  if e.timeout ≤ 0 then .ok none
  else
    let milliseconds : Binary .double := .ofInt e.timeout
    if milliseconds = .infinity false then .error .hugeInteger
    else .ok (some ((milliseconds.div (.ofInt 1000)).add (.ofInt 5)))

def unusable (path cause : String) : Fault :=
  solverFailure s!"Cannot run solver '{path}': {cause}" []

def check {σ : Type} (solvers : Solvers σ) (e : External) : Checking Finding := do
  let input := e.script.text solvers.smt2
  Checking.note (.script e.path input)
  let launch : Launch := { path := e.path, args := e.args, timeout := ← e.limit, script := e.script, input }
  let number := (← get).launches.length
  modify fun p => { p with launches := launch :: p.launches }
  match solvers.launch number launch with
  | .output stdout stderr => Finding.ofOutput stdout stderr
  | .failed cause => throw (unusable e.path cause)
  | .timeout => return { status := .unknown, reason := "timeout" }
  | .raised f => throw f.fault

end External

namespace Session

variable {σ : Type}

def start (engine : Engine σ) (settings : Settings) (path : String) (number : Nat) : Except Fault (Session σ) :=
  let chosen := if path.isEmpty then settings.solverPath else path
  if !path.isEmpty || settings.usesExternal then
    if chosen.isEmpty then
      .error (solverFailure "External solver selected but no solver_path configured" [])
    else .ok (.external { path := chosen, args := settings.solverArgs, timeout := settings.timeout.getD 0 })
  else if settings.solver = "z3" then .ok (.builtIn (some (engine.start number)))
  else .error (solverFailure s!"Unknown solver backend '{settings.solver}'" [])

def closed : Fault :=
  solverFailure "Session already closed" []

def onEngine {α : Type} (state : Option σ) (step : σ → σ × Except String α) : Solving σ α := do
  match state with
  | none => throw closed
  | some s =>
    let (s, result) := step s
    set (Session.builtIn (some s))
    result.mapError Fault.engine

def configureOne (engine : Engine σ) (key value : Datum) : Solving σ Unit := do
  match ← get with
  | .builtIn state => onEngine state (engine.configure key value)
  | .external e =>
    let text ← External.optionText key value
    set (Session.external { e with options := e.options ++ [text] } : Session σ)
  | .abstract => throw .abstractSession

def configure (engine : Engine σ) (options : List (Datum × Datum)) : Solving σ Unit := do
  if let .abstract ← get then throw .abstractSession
  options.forM fun (key, value) => configureOne engine key value

def assert (engine : Engine σ) (formula : Term .bool) : Solving σ Unit := do
  match ← get with
  | .builtIn state => onEngine state (engine.assert formula)
  | .external e => set (Session.external { e with formulas := e.formulas ++ [formula] } : Session σ)
  | .abstract => throw .abstractSession

def check (solvers : Solvers σ) : Solving σ Finding := do
  match ← get with
  | .builtIn state => onEngine state solvers.engine.check
  | .external e => Solving.lift (e.check solvers)
  | .abstract => throw .abstractSession

def script : Session σ → Except Fault Script
  | .external e => .ok e.script
  | _ => .error .noScript

def close : Session σ → Session σ
  | .builtIn _ => .builtIn none
  | .external e => .external { e with formulas := [] }
  | .abstract => .abstract

end Session

end OneStep
