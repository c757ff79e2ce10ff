import OneStep.CommandLine.Grammar
import OneStep.Text.Numeral

namespace OneStep.CommandLine

structure ProveRequest where
  file : String := ""
  solverPath : String := ""
  timeout : Option (Option Int) := none
  format : Option String := none
  config : Option (Option String) := none
  noCounterexamples : Bool := false

structure QueryRequest where
  file : String := ""
  property : String := ""

inductive Request where
  | prove (r : ProveRequest)
  | query (r : QueryRequest)

structure Invocation where
  verbosity : Nat := 0
  request : Option Request := none
  extras : List String := []

def program : String :=
  "streamproof"

def version : String :=
  "streamproof 0.1.0\n"

def help : String :=
  "usage: streamproof [-h] [--version] [-v] \x7bprove,smt\x7d ...\n\n" ++
  "streamproof — one-step SMT proofs of stream properties\n\n" ++
  "positional arguments:\n" ++
  "  \x7bprove,smt\x7d    Available commands\n" ++
  "    prove        Prove every property of a specification\n" ++
  "    smt          Print the SMT-LIB2 query for one property\n\n" ++
  "options:\n" ++
  "  -h, --help     show this help message and exit\n" ++
  "  --version      show program\x27s version number and exit\n" ++
  "  -v, --verbose  Log progress (-v) or translation details (-vv) to stderr\n"

def proveHelp : String :=
  "usage: streamproof prove [-h] [--solver-path SOLVER_PATH] [--timeout TIMEOUT]\n" ++
  "                         [--format \x7bpretty,json\x7d] [--config CONFIG]\n" ++
  "                         [--no-counterexamples]\n" ++
  "                         file\n\n" ++
  "positional arguments:\n" ++
  "  file                  Specification file (.json, .yml, .yaml)\n\n" ++
  "options:\n" ++
  "  -h, --help            show this help message and exit\n" ++
  "  --solver-path SOLVER_PATH\n" ++
  "                        Run this SMT-LIB2 executable instead of the z3\n" ++
  "                        bindings\n" ++
  "  --timeout TIMEOUT     Solver timeout in milliseconds\n" ++
  "  --format \x7bpretty,json\x7d\n" ++
  "                        Output format (default: pretty, or the config file\x27s)\n" ++
  "  --config CONFIG       Config file (default: nearest .streamproofrc.yml)\n" ++
  "  --no-counterexamples  Omit counterexample assignments from the output\n"

def queryHelp : String :=
  "usage: streamproof smt [-h] file property\n\n" ++
  "positional arguments:\n" ++
  "  file        Specification file (.json, .yml, .yaml)\n" ++
  "  property    Property name\n\n" ++
  "options:\n" ++
  "  -h, --help  show this help message and exit\n"

def helpSwitch {σ : Type} (text : String) : Switch σ where
  names := ["-h", "--help"]
  takesValue := false
  apply := fun _ _ => .error (.shown text)

def flag {σ : Type} (names : List String) (change : σ → σ) : Switch σ where
  names
  takesValue := false
  apply := fun _ s => .ok (change s)

def setting {σ : Type} (name : String) (change : Option String → σ → Except Stop σ) : Switch σ where
  names := [name]
  takesValue := true
  apply := change

def wordOf : List String → String
  | word :: _ => word
  | [] => "[]"

def argument {σ : Type} (name : String) (change : String → σ → σ) : Place σ where
  name
  apply := fun words s => .ok (change (wordOf words) s)

def choiceText (value : String) (choices : List String) : String :=
  let listed := ", ".intercalate (choices.map Text.quoted)
  s!"invalid choice: {Text.quoted value} (choose from {listed})"

def proveProgram : String :=
  program ++ " prove"

def queryProgram : String :=
  program ++ " smt"

def formats : List String :=
  ["pretty", "json"]

def proveGrammar : Grammar ProveRequest where
  program := proveProgram
  switches := [
    helpSwitch proveHelp,
    setting "--solver-path" fun v r => .ok { r with solverPath := v.getD "" },
    setting "--timeout" fun v r =>
      match v with
      | none => .ok { r with timeout := some none }
      | some v =>
        match Text.readInt v with
        | .ok n => .ok { r with timeout := some (some n) }
        | .error _ =>
          .error (.refused proveProgram s!"argument --timeout: invalid int value: {Text.quoted v}"),
    setting "--format" fun v r =>
      match v with
      | none => .ok { r with format := none }
      | some v =>
        if formats.contains v then .ok { r with format := some v }
        else .error (.refused proveProgram ("argument --format: " ++ choiceText v formats)),
    setting "--config" fun v r => .ok { r with config := some v },
    flag ["--no-counterexamples"] fun r => { r with noCounterexamples := true }]
  places := [argument "file" fun v r => { r with file := v }]

def queryGrammar : Grammar QueryRequest where
  program := queryProgram
  switches := [helpSwitch queryHelp]
  places := [
    argument "file" fun v r => { r with file := v },
    argument "property" fun v r => { r with property := v }]

def command (words : List String) (s : Invocation) : Except Stop Invocation :=
  match words with
  | "prove" :: rest => do
    let (r, extras) ← proveGrammar.read rest {}
    return { s with request := some (.prove r), extras }
  | "smt" :: rest => do
    let (r, extras) ← queryGrammar.read rest {}
    return { s with request := some (.query r), extras }
  | words =>
    .error (.refused program ("argument command: " ++ choiceText (wordOf words) ["prove", "smt"]))

def grammar : Grammar Invocation where
  program
  switches := [
    helpSwitch help,
    { names := ["--version"], takesValue := false, apply := fun _ _ => .error (.shown version) },
    flag ["-v", "--verbose"] fun s => { s with verbosity := s.verbosity + 1 }]
  places := [{ name := "command", takesRest := true, isRequired := false, apply := command }]

def Invocation.read (words : List String) : Except Stop Invocation := do
  let (s, extras) ← grammar.read words {}
  match extras ++ s.extras with
  | [] => return s
  | unknown =>
    let listed := " ".intercalate unknown
    .error (.refused program s!"unrecognized arguments: {listed}")

end OneStep.CommandLine
