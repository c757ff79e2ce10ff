import OneStep.Fault
import OneStep.Text.Basic

namespace OneStep

inductive Entry where
  | file (content : ByteArray)
  | directory

structure FileTree where
  base : List String := []
  entries : List (List String × Entry) := []

inductive ReadError where
  | notFound
  | notDirectory
  | isDirectory
  | tooLong
  deriving DecidableEq

namespace ReadError

def text (path : String) : ReadError → String
  | .notFound => s!"[Errno 2] No such file or directory: {Text.quoted path}"
  | .notDirectory => s!"[Errno 20] Not a directory: {Text.quoted path}"
  | .isDirectory => s!"[Errno 21] Is a directory: {Text.quoted path}"
  | .tooLong => s!"[Errno 36] File name too long: {Text.quoted path}"

end ReadError

namespace Path

def isAbsolute (path : String) : Bool :=
  path.toList.head? = some '/'

def split (part : List Char) : List Char → List String
  | [] => [String.ofList part.reverse]
  | c :: rest => if c = '/' then String.ofList part.reverse :: split [] rest else split (c :: part) rest

def steps (path : String) : List String :=
  split [] path.toList

def stepLimit : Nat :=
  255

def pathLimit : Nat :=
  4095

def check (path : String) : Except Fault Unit :=
  if path.toList.contains '\x00' then .error .zeroInPath else .ok ()

def goesNowhere (step : String) : Bool :=
  step == "" || step == "."

def plain (path : String) : String :=
  let kept := (steps path).filter fun step => !goesNowhere step
  let start := match path.toList with
    | '/' :: '/' :: '/' :: _ => "/"
    | '/' :: '/' :: _ => "//"
    | '/' :: _ => "/"
    | _ => ""
  let text := start ++ "/".intercalate kept
  if text.isEmpty then "." else text

def name (path : String) : String :=
  ((steps path).getLast?).getD ""

def ending (path : String) : String :=
  let reversed := (name path).toList.reverse
  let after := reversed.takeWhile (· != '.')
  match reversed.dropWhile (· != '.') with
  | point :: before =>
    if before.isEmpty || after.isEmpty then "" else String.ofList (point :: after.reverse)
  | [] => ""

def ofSteps (steps : List String) : String :=
  "/" ++ "/".intercalate steps

end Path

namespace FileTree

def find? (t : FileTree) (place : List String) : Option Entry :=
  t.entries.lookup place

def isDirectory (t : FileTree) (place : List String) : Bool :=
  match t.find? place with
  | some .directory => true
  | some (.file _) => false
  | none => place.isPrefixOf t.base || t.entries.any fun (steps, _) => place.isPrefixOf steps

def isFile (t : FileTree) (place : List String) : Bool :=
  match t.find? place with
  | some (.file _) => true
  | _ => false

def follow (t : FileTree) (place : List String) : List String → Except ReadError (List String)
  | [] => .ok place
  | step :: rest =>
    if !t.isDirectory place then .error .notDirectory
    else if Path.goesNowhere step then follow t place rest
    else if step = ".." then follow t place.dropLast rest
    else if Path.stepLimit < step.utf8ByteSize then .error .tooLong
    else
      let next := place ++ [step]
      if t.isFile next || t.isDirectory next then follow t next rest else .error .notFound

def resolve (t : FileTree) (path : String) : Except ReadError (List String) :=
  if path.isEmpty || path.toList.contains '\x00' then .error .notFound
  else if Path.pathLimit < path.utf8ByteSize then .error .tooLong
  else t.follow (if Path.isAbsolute path then [] else t.base) (Path.steps path)

def holds (t : FileTree) (path : String) : Bool :=
  match t.resolve path with
  | .ok _ => true
  | .error _ => false

def read (t : FileTree) (path : String) : Except ReadError ByteArray := do
  match t.find? (← t.resolve path) with
  | some (.file content) => .ok content
  | _ => .error .isDirectory

def absolute (t : FileTree) (path : String) : List String :=
  (Path.steps path).foldl (fun place step =>
    if Path.goesNowhere step then place else if step = ".." then place.dropLast else place ++ [step])
    (if Path.isAbsolute path then [] else t.base)

def decode (content : ByteArray) : Except Fault String :=
  match String.fromUTF8? content with
  | some text => .ok (String.ofList (Text.plainLineEnds text.toList))
  | none => .error .invalidEncoding

end FileTree

end OneStep
