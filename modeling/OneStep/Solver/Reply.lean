import OneStep.Fault
import OneStep.Solver.SExpr
import OneStep.Text.Basic

namespace OneStep

inductive Status where
  | sat
  | unsat
  | unknown
  deriving DecidableEq, Repr

def Status.name : Status → String
  | .sat => "sat"
  | .unsat => "unsat"
  | .unknown => "unknown"

structure Finding where
  status : Status
  model : List (String × String) := []
  reason : String := ""
  deriving DecidableEq, Repr

-- a zero character in a word of the command, a command or script that cannot be encoded, output that cannot be
-- decoded, a limit past the longest wait
inductive LaunchFault where
  | zeroInCommand
  | unencodable
  | undecodable
  | hugeWait

def LaunchFault.fault : LaunchFault → Fault
  | .zeroInCommand => .zeroInPath
  | .unencodable => .unencodable
  | .undecodable => .invalidEncoding
  | .hugeWait => .hugeWait

inductive Reply where
  | output (stdout stderr : String)
  | failed (cause : String)
  | timeout
  | raised (f : LaunchFault)

namespace Model

def isBar (c : Char) : Bool :=
  c == '|'

def bareName (s : String) : String :=
  String.ofList (Text.strip isBar s.toList)

def define (model : List (String × String)) (name value : String) : List (String × String) :=
  match model with
  | [] => [(name, value)]
  | (n, v) :: rest => if n = name then (n, value) :: rest else (n, v) :: define rest name value

def definition? : SExpr → Except Fault (Option (String × String))
  | .list [.atom "define-fun", name, .list [], _, value] =>
    match name with
    | .atom s => .ok (some (bareName s, value.render))
    | .list _ => .error .noName
  | _ => .ok none

def entries : SExpr → List SExpr
  | .atom _ => []
  | .list items =>
    let items := match items with
      | .atom "model" :: rest => rest
      | items => items
    match items with
    | .atom "define-fun" :: _ => [.list items]
    | items => items

def collect (model : List (String × String)) : List SExpr → Except Fault (List (String × String))
  | [] => .ok model
  | e :: rest => do
    match ← definition? e with
    | some (name, value) => collect (define model name value) rest
    | none => collect model rest

def sort (model : List (String × String)) : List (String × String) :=
  model.mergeSort fun a b => !(b.1 < a.1)

def read (text : String) : Except Fault (List (String × String)) :=
  match SExpr.read? text with
  | none => .error (solverFailure "Unbalanced parentheses in solver model" [])
  | some tops => do return sort (← collect [] (tops.flatMap entries))

end Model

namespace Finding

def replyLines (stdout : String) : List String :=
  ((Text.lines stdout).map Text.trim).filter fun line => !line.isEmpty

def ofOutput (stdout stderr : String) : Except Fault Finding :=
  match replyLines stdout with
  | [] => .error (solverFailure s!"Solver produced no output: {Text.trim stderr}" [])
  | status :: rest =>
    let body := "\n".intercalate rest
    if status = "unsat" then .ok { status := .unsat }
    else if status = "unknown" then .ok { status := .unknown, reason := body }
    else if status = "sat" then return { status := .sat, model := ← Model.read body }
    else .error (solverFailure s!"Unexpected solver response: {status}" [("stderr", Text.trim stderr)])

end Finding

end OneStep
