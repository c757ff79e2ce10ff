import OneStep.Solver.Option
import OneStep.Solver.Search
import OneStep.Solver.Session

namespace OneStep

structure BuiltIn where
  isSetUp : Bool := false
  options : List SolverOption := []
  formulas : List (Term .bool) := []
  showsModels : Bool := true
  isChecked : Bool := false
  isExtended : Bool := false

namespace BuiltIn

def rejection : String :=
  "Z3Exception"

def setUp (b : BuiltIn) : BuiltIn × Bool :=
  if b.isSetUp then (b, true)
  else
    ({ b with isSetUp := true, showsModels := SolverOption.allShowModels b.options },
      b.options.all SolverOption.isKnown)

def heed (b : BuiltIn) (o : SolverOption) : BuiltIn :=
  if b.isSetUp && SolverOption.allShowModels b.options != o.showsModels then { b with showsModels := o.showsModels }
  else b

def configure (key value : Datum) (b : BuiltIn) : BuiltIn × Except String Unit :=
  match key with
  | .null => (b, .ok ())
  | .text name =>
    let o : SolverOption := { name, value }
    if (OptionKind.ofDatum? value).isNone then (b, .error rejection)
    else
      let b := b.heed o
      if b.isSetUp && !o.isKnown then (b, .error rejection)
      else ({ b with options := b.options ++ [o] }, .ok ())
  | _ => (b, .error rejection)

def assert (formula : Term .bool) (b : BuiltIn) : BuiltIn × Except String Unit :=
  let (b, isKnown) := b.setUp
  if isKnown then
    ({ b with formulas := b.formulas ++ [formula], isExtended := b.isExtended || b.isChecked }, .ok ())
  else (b, .error rejection)

def modelText (choices : List (Symbol × Sample)) : List (String × String) :=
  Model.sort (choices.foldl (fun model (s, ⟨k, v⟩) => Model.define model s.name (k.valueText v)) [])

def finding (b : BuiltIn) : Finding :=
  match Search.solve b.formulas with
  | .sat choices => { status := .sat, model := if b.showsModels || b.isExtended then modelText choices else [] }
  | .unsat => { status := .unsat }
  | .unknown => { status := .unknown, reason := "incomplete" }

def check (b : BuiltIn) : BuiltIn × Except String Finding :=
  let (b, isKnown) := b.setUp
  if isKnown then ({ b with isChecked := true }, .ok b.finding) else (b, .error rejection)

def engine : Engine BuiltIn where
  start _ := {}
  configure := configure
  assert := assert
  check := check

end BuiltIn

end OneStep
