import OneStep.Fault

namespace OneStep.Yaml

inductive Problem where
  | malformed
  | fault (f : Fault)

namespace Problem

def orMalformed {α : Type} : Option α → Except Problem α
  | some a => .ok a
  | none => .error .malformed

def ofFault {α : Type} : Except Fault α → Except Problem α
  | .ok a => .ok a
  | .error f => .error (.fault f)

end Problem

def isBreak (c : Char) : Bool :=
  c == '\n' || c == '\r' || c == '\x85' || c == '\u2028' || c == '\u2029'

def isGap (c : Char) : Bool :=
  c == ' ' || c == '\t'

def isSeparator : Option Char → Bool
  | none => true
  | some c => isGap c || isBreak c

structure Cursor where
  rest : List Char
  index : Nat := 0
  line : Nat := 0
  column : Nat := 0

namespace Cursor

def peek? (c : Cursor) : Option Char :=
  c.rest.head?

def next (c : Cursor) : Cursor :=
  match c.rest with
  | [] => c
  | x :: rest =>
    if isBreak x && !(x == '\r' && rest.head? == some '\n') then
      { rest, index := c.index + 1, line := c.line + 1, column := 0 }
    else
      { rest, index := c.index + 1, line := c.line, column := if x == '\ufeff' then c.column else c.column + 1 }

def skip : Nat → Cursor → Cursor
  | 0, c => c
  | n + 1, c => skip n c.next

def span (test : Char → Bool) (c : Cursor) : List Char × Cursor :=
  let taken := c.rest.takeWhile test
  (taken, c.skip taken.length)

def skipWhile (test : Char → Bool) (c : Cursor) : Cursor :=
  (c.span test).2

def skipSpaces (c : Cursor) : Cursor :=
  c.skipWhile (· == ' ')

def toLineEnd (c : Cursor) : Cursor :=
  c.skipWhile fun x => !isBreak x

def skipComment (c : Cursor) : Cursor :=
  if c.peek? = some '#' then c.toLineEnd else c

def lineBreak? (c : Cursor) : Option (Char × Cursor) :=
  match c.rest with
  | '\r' :: '\n' :: _ => some ('\n', c.skip 2)
  | x :: _ =>
    if x == '\u2028' || x == '\u2029' then some (x, c.next)
    else if isBreak x then some ('\n', c.next)
    else none
  | [] => none

def isDocumentMark (c : Cursor) : Bool :=
  match c.rest with
  | x :: y :: z :: rest => (x == '-' || x == '.') && y == x && z == x && isSeparator rest.head?
  | _ => false

def endLine? (c : Cursor) : Option Cursor :=
  let c := c.skipSpaces.skipComment
  match c.lineBreak? with
  | some (_, c) => some c
  | none => if c.rest.isEmpty then some c else none

end Cursor

end OneStep.Yaml
