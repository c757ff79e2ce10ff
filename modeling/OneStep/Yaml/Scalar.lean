import OneStep.Json.Reader
import OneStep.Yaml.Cursor

namespace OneStep.Yaml.Scalar

def fold (first : Char) (empty : List Char) : List Char :=
  if first != '\n' then first :: empty else if empty.isEmpty then [' '] else empty

def isFlowMark (c : Char) : Bool :=
  c == ',' || c == '[' || c == ']' || c == '\x7b' || c == '\x7d'

def endsPlain (inFlow : Bool) (c : Char) (following : Option Char) : Bool :=
  isGap c || isBreak c || (inFlow && (isFlowMark c || c == '?')) ||
    (c == ':' && (isSeparator following || (inFlow && following.any isFlowMark)))

def plainRun (inFlow : Bool) : List Char → List Char
  | [] => []
  | c :: rest => if endsPlain inFlow c rest.head? then [] else c :: plainRun inFlow rest

def emptyLines? : Nat → List Char → Cursor → Option (List Char) × Cursor
  | 0, done, c => (some done.reverse, c)
  | fuel + 1, done, c =>
    if c.peek? = some ' ' then emptyLines? fuel done c.next
    else
      match c.lineBreak? with
      | some (b, c) => if c.isDocumentMark then (none, c) else emptyLines? fuel (b :: done) c
      | none => (some done.reverse, c)

def plainGap (c : Cursor) : List Char × Bool × Cursor :=
  let (spaces, c) := c.span (· == ' ')
  match c.lineBreak? with
  | none => (spaces, false, c)
  | some (first, c) =>
    if c.isDocumentMark then ([], true, c)
    else
      match emptyLines? c.rest.length [] c with
      | (some empty, c) => (fold first empty, true, c)
      | (none, c) => ([], true, c)

def plain (inFlow : Bool) (indent : Int) : Nat → List Char → List Char → Bool → Cursor → List Char × Bool × Cursor
  | 0, done, _, atStart, c => (done, atStart, c)
  | fuel + 1, done, gap, atStart, c =>
    let run := plainRun inFlow c.rest
    if c.peek? = some '#' || run.isEmpty then (done, atStart, c)
    else
      let done := done ++ gap ++ run
      let (gap, atStart, c) := plainGap (c.skip run.length)
      if gap.isEmpty || c.peek? = some '#' || (!inFlow && (c.column : Int) ≤ indent) then (done, atStart, c)
      else plain inFlow indent fuel done gap atStart c

def escapes : List (Char × Char) := [
  ('0', '\x00'), ('a', '\x07'), ('b', '\x08'), ('t', '\t'), ('\t', '\t'), ('n', '\n'), ('v', '\x0b'),
  ('f', '\x0c'), ('r', '\r'), ('e', '\x1b'), (' ', ' '), ('\x22', '\x22'), ('\\', '\\'), ('/', '/'),
  ('N', '\x85'), ('_', '\xa0'), ('L', '\u2028'), ('P', '\u2029')]

def codeLength? : Char → Option Nat
  | 'x' => some 2
  | 'u' => some 4
  | 'U' => some 8
  | _ => none

def hexNumber? (digits : List Char) : Option Nat :=
  digits.foldlM (fun n c => do return n * 16 + (← Json.hexValue? c)) 0

def code? (length : Nat) (c : Cursor) : Option (Nat × Cursor) := do
  let digits := c.rest.take length
  guard (digits.length = length)
  return (← hexNumber? digits, c.skip length)

def character (length : Nat) (c : Cursor) : Except Problem (Char × Cursor) := do
  let (code, c) ← Problem.orMalformed (code? length c)
  if 0x80000000 ≤ code then throw (.fault .hugeCode)
  if 0x110000 ≤ code then throw (.fault .noCharacter)
  return (Text.charOfCode code, c)

def quotedLines? : Nat → List Char → Cursor → Option (List Char × Cursor)
  | 0, _, _ => none
  | fuel + 1, done, c =>
    if c.isDocumentMark then none
    else
      let c := c.skipWhile isGap
      match c.lineBreak? with
      | some (b, c) => quotedLines? fuel (b :: done) c
      | none => some (done.reverse, c)

def quotedGap? (c : Cursor) : Option (List Char × Cursor) := do
  let (blanks, c) := c.span isGap
  match c.lineBreak? with
  | some (first, c) =>
    let (empty, c) ← quotedLines? (c.rest.length + 1) [] c
    return (fold first empty, c)
  | none => if c.rest.isEmpty then none else return (blanks, c)

def escape (c : Cursor) : Except Problem (List Char × Cursor) := do
  match c.lineBreak? with
  | some (_, c) => Problem.orMalformed (quotedLines? (c.rest.length + 1) [] c)
  | none =>
    let x ← Problem.orMalformed c.peek?
    match escapes.lookup x, codeLength? x with
    | some y, _ => return ([y], c.next)
    | none, some length =>
      let (y, c) ← character length c.next
      return ([y], c)
    | none, none => throw .malformed

def double : Nat → List Char → Cursor → Except Problem (List Char × Cursor)
  | 0, _, _ => .error .malformed
  | fuel + 1, done, c => do
    let x ← Problem.orMalformed c.peek?
    if x == '\x22' then return (done.reverse, c.next)
    else if x == '\\' then
      let (text, c) ← escape c.next
      double fuel (text.reverse ++ done) c
    else if isGap x || isBreak x then
      let (text, c) ← Problem.orMalformed (quotedGap? c)
      double fuel (text.reverse ++ done) c
    else double fuel (x :: done) c.next

def single? : Nat → List Char → Cursor → Option (List Char × Cursor)
  | 0, _, _ => none
  | fuel + 1, done, c => do
    let x ← c.peek?
    if x == '\x27' then
      if c.next.peek? = some '\x27' then single? fuel (x :: done) (c.skip 2) else return (done.reverse, c.next)
    else if isGap x || isBreak x then
      let (text, c) ← quotedGap? c
      single? fuel (text.reverse ++ done) c
    else single? fuel (x :: done) c.next

inductive Chomping where
  | keep
  | clip
  | strip
  deriving DecidableEq

def chomping? : Option Char → Option Chomping
  | some '+' => some .keep
  | some '-' => some .strip
  | _ => none

def increment? (c : Option Char) : Option (Option Nat) :=
  match c with
  | some d => if d.isDigit then (if d = '0' then none else some (some (d.toNat - 0x30))) else some none
  | none => some none

def header? (c : Cursor) : Option (Chomping × Option Nat × Cursor) := do
  let (chomping, increment, c) ←
    match chomping? c.peek? with
    | some chomping => do
      let c := c.next
      let increment ← increment? c.peek?
      pure (chomping, increment, if increment.isSome then c.next else c)
    | none => do
      let increment ← increment? c.peek?
      if increment.isSome then
        let c := c.next
        match chomping? c.peek? with
        | some chomping => pure (chomping, increment, c.next)
        | none => pure (.clip, increment, c)
      else pure (.clip, none, c)
  guard (c.peek?.all fun x => x == ' ' || isBreak x)
  return (chomping, increment, ← c.endLine?)

def findIndent : Nat → List Char → Nat → Cursor → List Char × Nat × Cursor
  | 0, done, widest, c => (done.reverse, widest, c)
  | fuel + 1, done, widest, c =>
    if c.peek? = some ' ' then findIndent fuel done (max widest c.next.column) c.next
    else
      match c.lineBreak? with
      | some (b, c) => findIndent fuel (b :: done) widest c
      | none => (done.reverse, widest, c)

def indentTo (indent : Nat) (c : Cursor) : Cursor :=
  c.skip ((c.rest.takeWhile (· == ' ')).length.min (indent - c.column))

def blockLines (indent : Nat) : Nat → List Char → Cursor → List Char × Cursor
  | 0, done, c => (done.reverse, c)
  | fuel + 1, done, c =>
    let c := indentTo indent c
    match c.lineBreak? with
    | some (b, c) => blockLines indent fuel (b :: done) c
    | none => (done.reverse, c)

def blockText (folded : Bool) (indent : Nat) :
    Nat → List Char → List Char → List Char → Cursor → List Char × List Char × List Char × Cursor
  | 0, done, final, empty, c => (done, final, empty, c)
  | fuel + 1, done, final, empty, c =>
    if c.column != indent || c.rest.isEmpty then (done, final, empty, c)
    else
      let startsWithText := !(c.peek?.any isGap)
      let (line, c) := c.span fun x => !isBreak x
      let done := done ++ empty ++ line
      let (final, c) := match c.lineBreak? with
        | some (b, c) => ([b], c)
        | none => ([], c)
      let (empty, c) := blockLines indent (c.rest.length + 1) [] c
      if c.column != indent || c.rest.isEmpty then (done, final, empty, c)
      else if folded && final == ['\n'] && startsWithText && !(c.peek?.any isGap) then
        blockText folded indent fuel (done ++ if empty.isEmpty then [' '] else []) [] empty c
      else blockText folded indent fuel (done ++ final) [] empty c

def block? (folded : Bool) (outer : Int) (c : Cursor) : Option (List Char × Cursor) := do
  let (chomping, increment, c) ← header? c
  let least := (max (outer + 1) 1).toNat
  let (empty, indent, c) := match increment with
    | none =>
      let (empty, widest, c) := findIndent c.rest.length [] 0 c
      (empty, max least widest, c)
    | some n =>
      let indent := least + n - 1
      let (empty, c) := blockLines indent (c.rest.length + 1) [] c
      (empty, indent, c)
  let (text, final, empty, c) := blockText folded indent (c.rest.length + 1) [] [] empty c
  return (match chomping with
    | .strip => text
    | .clip => text ++ final
    | .keep => text ++ final ++ empty, c)

end OneStep.Yaml.Scalar
