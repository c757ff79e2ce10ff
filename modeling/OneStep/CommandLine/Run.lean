import OneStep.CommandLine.Request
import OneStep.Loading
import OneStep.Prover

/-!
Runs of the program on the files that it can read. What the program relies on but does not do itself is its host: the
solvers, the reader of YAML, and where it prints.
-/

namespace OneStep

inductive PrintFault where
  | unencodable
  | broken

def PrintFault.fault : PrintFault → Fault
  | .unencodable => .unencodable
  | .broken => .brokenOutput

structure Host (σ : Type) extends Solvers σ where
  yaml : Document.Reader
  console : String → Option PrintFault

namespace CommandLine

variable {σ : Type}

structure Ending where
  code : UInt32
  stdout : String := ""
  stderr : String := ""
  query : Option (Term .bool) := none
  launches : List Launch := []

def reported (verbosity : Nat) (events : List Event) : String :=
  let least := if verbosity = 0 then Level.warning else if verbosity = 1 then .info else .debug
  let line (e : Event) : String :=
    if verbosity = 0 then e.text else s!"{e.level.name} {e.source}: {e.text}"
  String.join ((events.filter fun e => least.rank ≤ e.level.rank).map fun e => line e ++ "\n")

def print (host : Host σ) (e : Ending) : Except Fault Ending :=
  match host.console e.stdout with
  | none => .ok e
  | some f => .error f.fault

def complaint (message : String) : String :=
  Json.toLine (.object [("error", .text message)]) ++ "\n"

def refusal (verbosity : Nat) (p : Progress) : Fault → Except Fault Ending
  | .reported e => .ok {
    code := 2
    stdout := e.toJson 2 ++ "\n"
    stderr := reported verbosity p.supply.journal.reverse
    launches := p.launches }
  | f => .error f

def adjust (r : ProveRequest) (s : Settings) : Settings :=
  { s with
    timeout := r.timeout.getD s.timeout
    format := r.format.getD s.format
    includeCounterexamples := s.includeCounterexamples && !r.noCounterexamples }

def outcomesText (format : String) (outcomes : List Outcome) : Except Fault String :=
  if format = "json" then return Json.toBlock 2 (.list (← outcomes.mapM Outcome.toDatum))
  else Outcome.report outcomes

def settingsFor (yaml : Document.Reader) (files : FileTree) (r : ProveRequest) :
    Except Fault (Settings × List Event) := do
  let start := Path.ofSteps (files.absolute r.file).dropLast
  let path ← match r.config with
    | some none => throw .noPath
    | some path => pure path
    | none => pure none
  let (settings, events) ← Settings.load yaml files path start
  return (adjust r settings, events)

def prove (host : Host σ) (files : FileTree) (verbosity : Nat) (r : ProveRequest) : Except Fault Ending := do
  if !files.holds r.file then
    return ← print host { code := 2, stdout := complaint s!"File not found: {r.file}" }
  let (settings, events) ← settingsFor host.yaml files r
  let work : Checking (List Outcome) := do
    Prover.prove host.toSolvers settings r.solverPath (← Spec.load host.yaml files r.file)
  let (result, progress) := work.run { supply := { journal := events.reverse } }
  match result with
  | .error f => print host (← refusal verbosity progress f)
  | .ok outcomes => print host {
    code := if outcomes.all Outcome.isProved then 0 else 1
    stdout := (← outcomesText settings.format outcomes) ++ "\n"
    stderr := reported verbosity progress.supply.journal.reverse
    launches := progress.launches }

def formulaOf (yaml : Document.Reader) (files : FileTree) (r : QueryRequest) : Checking (Option (Term .bool)) := do
  let spec ← Spec.load yaml files r.file
  let registry ← Registry.ofStreams spec.streams
  match spec.properties.find? (·.name = r.property) with
  | none => return none
  | some p =>
    match ← Prover.encodeProperty registry p.expr with
    | (.ok formula, _) => return some formula
    | (.error f, _) => throw f

def query (host : Host σ) (files : FileTree) (verbosity : Nat) (r : QueryRequest) : Except Fault Ending := do
  let (result, progress) := (formulaOf host.yaml files r).run {}
  let stderr := reported verbosity progress.supply.journal.reverse
  match result with
  | .error f => print host (← refusal verbosity progress f)
  | .ok none => print host { code := 2, stdout := complaint s!"No property named \x27{r.property}\x27", stderr }
  | .ok (some formula) =>
    print host { code := 0, stdout := host.smt2 [formula.negate], stderr, query := some formula.negate }

def run (host : Host σ) (files : FileTree) (words : List String) : Except Fault Ending :=
  match Invocation.read words with
  | .error (.shown text) => print host { code := 0, stdout := text }
  | .error (.refused program message) => .ok { code := 2, stderr := s!"{program}: error: {message}\n" }
  | .ok s =>
    match s.request with
    | none => print host { code := 1, stdout := help }
    | some (.prove r) => prove host files s.verbosity r
    | some (.query r) => query host files s.verbosity r

def consulted (base : List String) (words : List String) : List String :=
  let files : FileTree := { base }
  match Invocation.read words with
  | .ok { request := some (.prove r), .. } =>
    let start := Path.ofSteps (files.absolute r.file).dropLast
    let found := (Settings.upward (files.absolute start)).flatMap fun place =>
      Settings.fileNames.map fun name => Path.ofSteps (place ++ [name])
    r.file :: r.config.join.toList ++ found
  | .ok { request := some (.query r), .. } => [r.file]
  | _ => []

end CommandLine

end OneStep
