import OneStep.Yaml.Token

namespace OneStep.Yaml

structure Candidate where
  place : Nat
  required : Bool
  index : Nat
  line : Nat
  column : Nat

structure Layout where
  cursor : Cursor
  indent : Int := -1
  outer : List Int := []
  allowKey : Bool := true
  candidates : List (Option Candidate) := [none]
  tokens : List Token := []

namespace Layout

def inFlow (s : Layout) : Bool :=
  s.candidates.length > 1

def push (t : Token) (s : Layout) : Layout :=
  { s with tokens := t :: s.tokens }

def insert (place : Nat) (t : Token) (s : Layout) : Layout :=
  let later := s.tokens.length - place
  { s with tokens := s.tokens.take later ++ t :: s.tokens.drop later }

def forget? : Option Candidate → Option (Option Candidate)
  | some k => if k.required then none else some none
  | none => some none

def dropStale? (s : Layout) : Option Layout := do
  let candidates ← s.candidates.mapM fun k =>
    match k with
    | some k =>
      if k.line != s.cursor.line || s.cursor.index - k.index > 1024 then forget? (some k) else some (some k)
    | none => some none
  return { s with candidates }

def dropKey? (s : Layout) : Option Layout :=
  match s.candidates with
  | k :: rest => do return { s with candidates := (← forget? k) :: rest }
  | [] => some s

def markKey? (s : Layout) : Option Layout := do
  if !s.allowKey then return s
  let s ← s.dropKey?
  let c := s.cursor
  let k : Candidate := {
    place := s.tokens.length
    required := !s.inFlow && s.indent == (c.column : Int)
    index := c.index, line := c.line, column := c.column }
  return { s with candidates := some k :: s.candidates.tail }

def closeTo (column : Int) (s : Layout) : List Int → Layout
  | [] => s
  | outer :: rest =>
    if s.indent > column then closeTo column ({ s with indent := outer, outer := rest }.push .blockEnd) rest
    else s

def unwind (column : Int) (s : Layout) : Layout :=
  if s.inFlow then s else s.closeTo column s.outer

def openBlock (column : Nat) (place : Nat) (t : Token) (s : Layout) : Layout :=
  if s.indent < column then
    ({ s with indent := column, outer := s.indent :: s.outer }).insert place t
  else s

def skipBlank : Nat → Layout → Layout
  | 0, s => s
  | fuel + 1, s =>
    let c := s.cursor.skipSpaces.skipComment
    match c.lineBreak? with
    | some (_, c) => skipBlank fuel { s with cursor := c, allowKey := s.allowKey || !s.inFlow }
    | none => { s with cursor := c }

def advance (n : Nat) (t : Token) (s : Layout) : Layout :=
  { s with cursor := s.cursor.skip n }.push t

def outside? (s : Layout) : Option Layout := do
  let s ← (s.unwind (-1)).dropKey?
  return { s with allowKey := false }

def openFlow? (t : Token) (s : Layout) : Option Layout := do
  let s ← s.markKey?
  return { s with candidates := none :: s.candidates, allowKey := true }.advance 1 t

def closeFlow? (t : Token) (s : Layout) : Option Layout := do
  let s ← s.dropKey?
  guard s.inFlow
  return { s with candidates := s.candidates.tail, allowKey := false }.advance 1 t

def comma? (s : Layout) : Option Layout := do
  let s ← { s with allowKey := true }.dropKey?
  return s.advance 1 .comma

def blockMark? (opening : Token) (s : Layout) : Option Layout :=
  if s.inFlow then some s
  else if s.allowKey then some (s.openBlock s.cursor.column s.tokens.length opening)
  else none

def dash? (s : Layout) : Option Layout := do
  let s ← s.blockMark? .blockSequence
  let s ← { s with allowKey := true }.dropKey?
  return s.advance 1 .dash

def key? (s : Layout) : Option Layout := do
  let s ← s.blockMark? .blockMapping
  let s ← { s with allowKey := !s.inFlow }.dropKey?
  return s.advance 1 .key

def value? (s : Layout) : Option Layout := do
  match s.candidates with
  | some k :: rest =>
    let s := { s with candidates := none :: rest, allowKey := false }.insert k.place .key
    let s := if s.inFlow then s else s.openBlock k.column k.place .blockMapping
    return s.advance 1 .value
  | _ =>
    let s ← s.blockMark? .blockMapping
    let s ← { s with allowKey := !s.inFlow }.dropKey?
    return s.advance 1 .value

def keyPart? (read : Cursor → Option (Token × Cursor)) (s : Layout) : Option Layout := do
  let s ← s.markKey?
  let (t, cursor) ← read s.cursor
  return { s with cursor, allowKey := false }.push t

def plain? (s : Layout) : Option Layout := do
  let s ← s.markKey?
  let (text, allowKey, cursor) :=
    Scalar.plain s.inFlow s.indent (s.cursor.rest.length + 1) [] [] false s.cursor
  return { s with cursor, allowKey }.push (.scalar true (String.ofList text))

def block? (folded : Bool) (s : Layout) : Option Layout := do
  let s ← { s with allowKey := true }.dropKey?
  let (text, cursor) ← Scalar.block? folded s.indent s.cursor.next
  return { s with cursor }.push (.scalar false (String.ofList text))

def singleQuoted? (c : Cursor) : Option (Token × Cursor) := do
  let (text, c) ← Scalar.single? (c.rest.length + 1) [] c.next
  return (.scalar false (String.ofList text), c)

def doubleQuoted? (c : Cursor) : Option (Token × Cursor) :=
  match Scalar.double (c.rest.length + 1) [] c.next with
  | .ok (text, c) => some (.scalar false (String.ofList text), c)
  | .error .malformed => none
  | .error (.fault f) => some (.broken f, c)

def named? (build : String → Token) (c : Cursor) : Option (Token × Cursor) := do
  let (name, c) ← Token.name? c.next
  return (build name, c)

def isMark (c : Char) : Bool :=
  isGap c || isBreak c || "-?:,[]\x7b\x7d#&*!|>\x27\x22%@`".contains c

def startsPlain (inFlow : Bool) (c : Char) (following : Option Char) : Bool :=
  !isMark c || (!isSeparator following && (c == '-' || (!inFlow && (c == '?' || c == ':'))))

def read? (x : Char) (s : Layout) : Option Layout :=
  let c := s.cursor
  let following := c.next.peek?
  let atStart := c.column == 0
  if x == '%' && atStart then do
    let s ← s.outside?
    let (t, cursor) ← Token.directive? s.cursor.next
    return { s with cursor }.push t
  else if x == '-' && atStart && c.isDocumentMark then do return (← s.outside?).advance 3 .documentStart
  else if x == '.' && atStart && c.isDocumentMark then do return (← s.outside?).advance 3 .documentEnd
  else if x == '[' then s.openFlow? .flowSequence
  else if x == '\x7b' then s.openFlow? .flowMapping
  else if x == ']' then s.closeFlow? .flowSequenceEnd
  else if x == '\x7d' then s.closeFlow? .flowMappingEnd
  else if x == ',' then s.comma?
  else if x == '-' && isSeparator following then s.dash?
  else if x == '?' && (s.inFlow || isSeparator following) then s.key?
  else if x == ':' && (s.inFlow || isSeparator following) then s.value?
  else if x == '*' then s.keyPart? (named? .alias)
  else if x == '&' then s.keyPart? (named? .anchor)
  else if x == '!' then s.keyPart? Token.tag?
  else if x == '|' && !s.inFlow then s.block? false
  else if x == '>' && !s.inFlow then s.block? true
  else if x == '\x27' then s.keyPart? singleQuoted?
  else if x == '\x22' then s.keyPart? doubleQuoted?
  else if startsPlain s.inFlow x following then s.plain?
  else none

def settled (s : Layout) : List Token :=
  let isOpen (k : Candidate) := k.line == s.cursor.line && s.cursor.index - k.index ≤ 1024
  let places := (s.candidates.filterMap id).filter isOpen |>.map Candidate.place
  let count := places.foldl min s.tokens.length
  s.tokens.drop (s.tokens.length - count)

def readAll? : Nat → Layout → Option Layout
  | 0, _ => none
  | fuel + 1, before => do
    let s ← (before.skipBlank (before.cursor.rest.length + 1)).dropStale?
    let s := s.unwind s.cursor.column
    match s.cursor.peek? with
    | none => (s.unwind (-1)).dropKey?
    | some x =>
      let s ← s.read? x
      match s.tokens with
      | .broken f :: _ => return { s with tokens := .broken f :: before.settled }
      | _ => readAll? fuel s

end Layout

def isReadable (c : Char) : Bool :=
  let n := c.toNat
  n == 9 || n == 10 || n == 13 || (0x20 ≤ n && n ≤ 0x7E) || n == 0x85 ||
    (0xA0 ≤ n && n ≤ 0xFFFD) || 0x10000 ≤ n

def tokens? (text : String) : Option (List Token) := do
  guard (text.toList.all isReadable)
  let start : Cursor := { rest := text.toList }
  let start := if start.peek? = some '\ufeff' then start.next else start
  let s ← Layout.readAll? (start.rest.length + 1) { cursor := start }
  return s.tokens.reverse

end OneStep.Yaml
