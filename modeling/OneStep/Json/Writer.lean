import OneStep.Binary.Decimal
import OneStep.Datum.Basic
import OneStep.Text.Quoted

namespace OneStep.Json

def escapeCode (code : Nat) : List Char :=
  '\\' :: 'u' :: Text.hexDigits 4 code

def escapeChar (c : Char) : List Char :=
  let n := c.toNat
  if c = '\x22' ∨ c = '\\' then ['\\', c]
  else if c = '\n' then ['\\', 'n']
  else if c = '\r' then ['\\', 'r']
  else if c = '\t' then ['\\', 't']
  else if n = 0x08 then ['\\', 'b']
  else if n = 0x0C then ['\\', 'f']
  else if 0x20 ≤ n ∧ n < 0x7F then [c]
  else if n < 0x10000 then escapeCode n
  else
    match Text.half? c with
    | some code => escapeCode code
    | none =>
      let (high, low) := Text.halves n
      escapeCode high ++ escapeCode low

def stringText (s : String) : String :=
  String.ofList ('\x22' :: s.toList.flatMap escapeChar ++ ['\x22'])

def floatText (x : Binary .double) : String :=
  match x with
  | .nan => "NaN"
  | .number negative rank _ =>
    if rank = Precision.double.top then if negative then "-Infinity" else "Infinity" else x.toText

def keyText : Datum → String
  | .text s => s
  | .null => "null"
  | .bool b => if b then "true" else "false"
  | .int n => toString n
  | .float x => floatText x
  | _ => ""

inductive Layout where
  | line
  | block (indent depth : Nat)

namespace Layout

def deeper : Layout → Layout
  | .line => .line
  | .block indent depth => .block indent (depth + 1)

def newline : Layout → String
  | .line => ""
  | .block indent depth => String.ofList ('\n' :: List.replicate (indent * depth) ' ')

def comma (layout : Layout) : String :=
  match layout with
  | .line => ", "
  | .block .. => "," ++ layout.newline

end Layout

mutual

def write (layout : Layout) : Datum → String
  | .null => "null"
  | .bool b => if b then "true" else "false"
  | .int n => toString n
  | .float x => floatText x
  | .text s => stringText s
  | .list [] | .tuple [] => "[]"
  | .list items | .tuple items =>
    "[" ++ layout.deeper.newline ++ writeItems layout.deeper items ++ layout.newline ++ "]"
  | .map [] => "\x7b\x7d"
  | .map entries =>
    "\x7b" ++ layout.deeper.newline ++ writeEntries layout.deeper entries ++ layout.newline ++ "\x7d"
  | .bytes _ | .day _ | .moment _ | .set _ | .loop .. | .again _ => "null"

def writeItems (layout : Layout) : List Datum → String
  | [] => ""
  | [item] => write layout item
  | item :: rest => write layout item ++ layout.comma ++ writeItems layout rest

def writeEntries (layout : Layout) : List (Datum × Datum) → String
  | [] => ""
  | [(k, v)] => stringText (keyText k) ++ ": " ++ write layout v
  | (k, v) :: rest =>
    stringText (keyText k) ++ ": " ++ write layout v ++ layout.comma ++ writeEntries layout rest

end

def toLine (d : Datum) : String :=
  write .line d

def toBlock (indent : Nat) (d : Datum) : String :=
  write (.block indent 0) d

end OneStep.Json
