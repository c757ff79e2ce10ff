import OneStep.Yaml.Scalar

namespace OneStep.Yaml

inductive Directive where
  | version (major : Nat)
  | handle (name expansion : String)
  | other

inductive Token where
  | directive (d : Directive)
  | documentStart
  | documentEnd
  | blockSequence
  | blockMapping
  | blockEnd
  | flowSequence
  | flowSequenceEnd
  | flowMapping
  | flowMappingEnd
  | comma
  | dash
  | key
  | value
  | alias (name : String)
  | anchor (name : String)
  | tag (handle : Option String) (suffix : String)
  | scalar (isPlain : Bool) (text : String)
  | broken (f : Fault)

namespace Token

def isNameChar (c : Char) : Bool :=
  c.isAlphanum || c == '-' || c == '_'

def isUriChar (c : Char) : Bool :=
  c.isAlphanum || "-;/?:@&=+$,_.!~*\x27()[]%".contains c

def name? (c : Cursor) : Option (String × Cursor) := do
  let (name, c) := c.span isNameChar
  guard (!name.isEmpty)
  guard (isSeparator c.peek? || c.peek?.any fun x => "?:,]\x7d%@`".contains x)
  return (String.ofList name, c)

def uriBytes? : Nat → List UInt8 → Cursor → Option (List UInt8 × Cursor)
  | 0, _, _ => none
  | fuel + 1, done, c =>
    if c.peek? = some '%' then do
      let (n, c) ← Scalar.code? 2 c.next
      uriBytes? fuel (n.toUInt8 :: done) c
    else some (done.reverse, c)

def uri? : Nat → List Char → Cursor → Option (String × Cursor)
  | 0, _, _ => none
  | fuel + 1, done, c => do
    let (plain, c) := c.span fun x => isUriChar x && x != '%'
    let done := done ++ plain
    if c.peek? = some '%' then
      let (bytes, c) ← uriBytes? (c.rest.length + 1) [] c
      let text ← String.fromUTF8? ⟨bytes.toArray⟩
      uri? fuel (done ++ text.toList) c
    else
      guard (!done.isEmpty)
      return (String.ofList done, c)

def isTagEnd (c : Option Char) : Bool :=
  c.all fun x => x == ' ' || isBreak x

def handle? (c : Cursor) : Option (String × Cursor) := do
  guard (c.peek? = some '!')
  let c := c.next
  if c.peek? = some ' ' then return ("!", c)
  let (name, c) := c.span isNameChar
  guard (c.peek? = some '!')
  return (String.ofList ('!' :: name ++ ['!']), c.next)

def tag? (c : Cursor) : Option (Token × Cursor) := do
  let fuel := c.rest.length + 1
  let (t, c) ← match c.next.peek? with
    | some '<' => do
      let (suffix, c) ← uri? fuel [] (c.skip 2)
      guard (c.peek? = some '>')
      pure (Token.tag none suffix, c.next)
    | x =>
      if isSeparator x then pure (Token.tag none "!", c.next)
      else if (c.next.rest.takeWhile fun x => x != ' ' && !isBreak x).contains '!' then do
        let (handle, c) ← handle? c
        let (suffix, c) ← uri? fuel [] c
        pure (Token.tag (some handle) suffix, c)
      else do
        let (suffix, c) ← uri? fuel [] c.next
        pure (Token.tag (some "!") suffix, c)
  guard (isTagEnd c.peek?)
  return (t, c)

def number? (c : Cursor) : Option (Except Fault Int × Cursor) := do
  let (digits, c) := c.span Char.isDigit
  guard (!digits.isEmpty)
  let numeral := String.ofList digits
  match Text.readInt numeral with
  | .ok n => return (.ok n, c)
  | .error e => return (.error (.ofNumeral (Text.quoted numeral) 10 e), c)

def version? (c : Cursor) : Option (Except Fault Directive × Cursor) := do
  match ← number? c.skipSpaces with
  | (.error f, c) => return (.error f, c)
  | (.ok major, c) =>
    guard (c.peek? = some '.')
    match ← number? c.next with
    | (.error f, c) => return (.error f, c)
    | (.ok _, c) =>
      guard (isTagEnd c.peek?)
      return (.ok (.version major.toNat), c)

def handleDirective? (c : Cursor) : Option (Directive × Cursor) := do
  let (handle, c) ← handle? c.skipSpaces
  guard (c.peek? = some ' ')
  let c := c.skipSpaces
  let (expansion, c) ← uri? (c.rest.length + 1) [] c
  guard (isTagEnd c.peek?)
  return (.handle handle expansion, c)

def directive? (c : Cursor) : Option (Token × Cursor) := do
  let (name, c) := c.span isNameChar
  guard (!name.isEmpty)
  guard (isTagEnd c.peek?)
  let (d, c) ←
    if name = "YAML".toList then version? c
    else if name = "TAG".toList then (handleDirective? c).map fun (d, c) => (.ok d, c)
    else pure (.ok .other, c.toLineEnd)
  match d with
  | .ok d => return (.directive d, ← c.endLine?)
  | .error f => return (.broken f, c)

end Token

end OneStep.Yaml
