import OneStep.Files
import OneStep.Journal
import OneStep.Json.Reader
import OneStep.Settings
import OneStep.Spec.Decode
import OneStep.Yaml.Cursor

/-!
Specifications and settings from files. A document is JSON or YAML; the reader of YAML is given. A settings file is
looked for in a directory and then in its parents. One that cannot be used is reported, and the defaults stand.
-/

namespace OneStep

namespace Document

inductive Format where
  | json
  | yaml

abbrev Reader := String → Except Yaml.Problem Datum

def complaint : String :=
  "the text does not follow its format"

def read (yaml : Reader) (format : Format) (text : String) : Except Fault (Option Datum) :=
  match format with
  | .json =>
    match Json.read text with
    | .ok d => .ok (some d)
    | .error .malformed => .ok none
    | .error (.tooLong digits) => .error (.longInteger digits)
  | .yaml =>
    match yaml text with
    | .ok d => .ok (some d)
    | .error .malformed => .ok none
    | .error (.fault f) => .error f

end Document

namespace Spec

def formatOf (path : String) : Document.Format :=
  if Path.ending path = ".json" then .json else .yaml

def load (yaml : Document.Reader) (files : FileTree) (source : String) : Except Fault Spec := do
  let path := Path.plain source
  Path.check path
  let refuse {α : Type} (message : String) : Except Fault α := .error (malformedAt message path)
  match files.read path with
  | .error e => refuse s!"cannot read specification: {e.text path}"
  | .ok content =>
    match ← Document.read yaml (formatOf path) (← FileTree.decode content) with
    | some d => Spec.ofDatum d
    | none => refuse s!"malformed document: {Document.complaint}"

end Spec

namespace Settings

def fileNames : List String :=
  [".streamproofrc.yml", ".streamproofrc.yaml", ".streamproofrc.json"]

def upward : List String → List (List String)
  | [] => [[]]
  | step :: rest => (upward rest).map (step :: ·) ++ [[]]

def find? (files : FileTree) (start : String) : Option String :=
  (upward (files.absolute start)).findSome? fun place =>
    fileNames.findSome? fun name =>
      let candidate := place ++ [name]
      if files.isFile candidate then some (Path.ofSteps candidate) else none

def formatOf (path : String) : Document.Format :=
  if path.endsWith ".json" then .json else .yaml

def orEmpty (format : Document.Format) (d : Datum) : Datum :=
  match format with
  | .json => d
  | .yaml => if d.isTruthy then d.unroll else .map []

def ofFile (yaml : Document.Reader) (files : FileTree) (path : String) : Except Fault (Settings × Event) := do
  Path.check path
  match files.read path with
  | .error e => return ({}, .unreadableSettings path (e.text path))
  | .ok content =>
    let format := formatOf path
    match ← Document.read yaml format (← FileTree.decode content) with
    | none => return ({}, .malformedSettings path Document.complaint)
    | some d =>
      match orEmpty format d with
      | .map entries => return (← ofEntries entries, .settingsLoaded path)
      | _ => return ({}, .settingsNotMapping path)

def load (yaml : Document.Reader) (files : FileTree) (path : Option String) (start : String) :
    Except Fault (Settings × List Event) :=
  match path.or (find? files start) with
  | none => .ok ({}, [])
  | some path => do
    let (settings, event) ← ofFile yaml files path
    return (settings, [event])

end Settings

end OneStep
