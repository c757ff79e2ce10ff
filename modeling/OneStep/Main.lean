import OneStep.CommandLine.Run
import OneStep.Solver.BuiltIn
import OneStep.Yaml.Building

namespace OneStep.CommandLine

def host : Host BuiltIn where
  engine := BuiltIn.engine
  smt2 := Script.print
  launch _ launch := .failed (ReadError.notFound.text launch.path)
  yaml := Yaml.read
  console text := if Text.hasHalves text then some .unencodable else none

def entry? (path : String) : IO (Option Entry) := do
  try
    return some (.file (← IO.FS.readBinFile path))
  catch e =>
    match e with
    | .noFileOrDirectory .. => return none
    | _ => return some .directory

def gather (base : List String) (paths : List String) : IO FileTree := do
  let tree : FileTree := { base }
  let mut entries := []
  for path in paths do
    if let some entry ← entry? path then
      entries := (tree.absolute path, entry) :: entries
  return { tree with entries := entries.reverse }

def workingDirectory : IO (List String) := do
  let path := toString (← IO.currentDir)
  return FileTree.absolute {} path

end OneStep.CommandLine

open OneStep OneStep.CommandLine in
def main (words : List String) : IO UInt32 := do
  let base ← workingDirectory
  let files ← gather base (consulted base words)
  match run host files words with
  | .ok ending =>
    IO.print ending.stdout
    IO.eprint ending.stderr
    return ending.code
  | .error fault =>
    IO.eprintln fault.message
    return 1
