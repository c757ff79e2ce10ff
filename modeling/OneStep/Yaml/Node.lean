import OneStep.Yaml.Layout
import OneStep.Yaml.Tag

namespace OneStep.Yaml

inductive Shape where
  | scalar (text : String)
  | sequence (items : List Nat)
  | mapping (entries : List (Nat × Nat))

structure Node where
  tag : Tag
  shape : Shape

abbrev Graph := Array Node

namespace Node

def empty : Node :=
  { tag := .null, shape := .scalar "" }

structure State where
  tokens : List Token
  graph : Graph := #[]
  anchors : List (String × Nat) := []
  handles : List (String × String) := []

abbrev Reading := StateT State (Except Problem)

namespace Reading

def fail {α : Type} : Reading α :=
  throw .malformed

def peek? : Reading (Option Token) := do
  match (← get).tokens.head? with
  | some (.broken f) => throw (.fault f)
  | t => return t

def advance : Reading Unit :=
  modify fun s => { s with tokens := s.tokens.tail }

def accept (test : Token → Bool) : Reading Bool := do
  match ← peek? with
  | some t => if test t then advance; return true else return false
  | none => return false

def expect (test : Token → Bool) : Reading Unit := do
  if !(← accept test) then fail

def sees (test : Token → Bool) : Reading Bool :=
  return (← peek?).any test

def add (node : Node) : Reading Nat := do
  let number := (← get).graph.size
  modify fun s => { s with graph := s.graph.push node }
  return number

def addEmpty : Reading Nat :=
  add empty

def setShape (number : Nat) (shape : Shape) : Reading Unit :=
  modify fun s => { s with graph := s.graph.modify number fun node => { node with shape } }

def anchor? : Reading (Option String) := do
  match ← peek? with
  | some (.anchor name) => advance; return some name
  | _ => return none

def tag? : Reading (Option (Option String × String)) := do
  match ← peek? with
  | some (.tag handle suffix) => advance; return some (handle, suffix)
  | _ => return none

def expand : Option String × String → Reading String
  | (none, suffix) => return suffix
  | (some handle, suffix) => do
    match (← get).handles.lookup handle with
    | some expansion => return expansion ++ suffix
    | none => fail

def properties : Reading (Option String × Option String) := do
  match ← anchor? with
  | some name => return (some name, ← (← tag?).mapM expand)
  | none =>
    match ← tag? with
    | some tag => do
      let name ← anchor?
      return (name, some (← expand tag))
    | none => return (none, none)

def checkAnchor (anchor : Option String) : Reading Unit := do
  if let some name := anchor then
    if ((← get).anchors.lookup name).isSome then fail

def name (anchor : Option String) (number : Nat) : Reading Unit := do
  if let some name := anchor then
    modify fun s => { s with anchors := (name, number) :: s.anchors }

def resolve (name : String) : Reading Nat := do
  match (← get).anchors.lookup name with
  | some number => return number
  | none => fail

end Reading

open Reading

def isBlockEnd : Token → Bool
  | .blockEnd => true
  | _ => false

def isDash : Token → Bool
  | .dash => true
  | _ => false

def isKeyMark : Token → Bool
  | .key => true
  | _ => false

def isValueMark : Token → Bool
  | .value => true
  | _ => false

def isComma : Token → Bool
  | .comma => true
  | _ => false

def isSequenceEnd : Token → Bool
  | .flowSequenceEnd => true
  | _ => false

def isMappingEnd : Token → Bool
  | .flowMappingEnd => true
  | _ => false

def endsEntry (t : Token) : Bool :=
  isKeyMark t || isValueMark t || isBlockEnd t

def scalarTag (tag : Option String) (isPlain : Bool) (text : String) : Tag :=
  match tag with
  | some "!" => .ofPlain text
  | some tag => .ofName tag
  | none => if isPlain then .ofPlain text else .text

def collectionTag (tag : Option String) (own : Tag) : Tag :=
  match tag with
  | some "!" => own
  | some tag => .ofName tag
  | none => own

def addScalar (anchor : Option String) (tag : Tag) (text : String) : Reading Nat := do
  let number ← add { tag, shape := .scalar text }
  name anchor number
  return number

def nothing (anchor tag : Option String) : Reading Nat := do
  if anchor.isNone && tag.isNone then fail
  checkAnchor anchor
  addScalar anchor (scalarTag tag true "") ""

def collection (anchor tag : Option String) (own : Tag) (parts : Reading Shape) : Reading Nat := do
  checkAnchor anchor
  let number ← add { tag := collectionTag tag own, shape := .sequence [] }
  name anchor number
  setShape number (← parts)
  return number

mutual

def node (inBlock dashes : Bool) : Nat → Reading Nat
  | 0 => fail
  | fuel + 1 => do
    if let some (.alias name) ← peek? then
      advance
      resolve name
    else
      let (anchor, tag) ← properties
      match ← peek? with
      | some .dash =>
        if dashes then collection anchor tag .sequence (.sequence <$> dashedItems fuel) else nothing anchor tag
      | some (.scalar isPlain text) =>
        advance
        checkAnchor anchor
        addScalar anchor (scalarTag tag isPlain text) text
      | some .flowSequence =>
        advance
        collection anchor tag .sequence (.sequence <$> flowItems true fuel)
      | some .flowMapping =>
        advance
        collection anchor tag .mapping (.mapping <$> flowEntries true fuel)
      | some .blockSequence =>
        if inBlock then
          advance
          collection anchor tag .sequence (.sequence <$> blockItems fuel)
        else nothing anchor tag
      | some .blockMapping =>
        if inBlock then
          advance
          collection anchor tag .mapping (.mapping <$> blockEntries fuel)
        else nothing anchor tag
      | _ => nothing anchor tag

def nodeUnless (stops : Token → Bool) (inBlock dashes : Bool) : Nat → Reading Nat
  | 0 => fail
  | fuel + 1 => do
    if ← sees stops then addEmpty else node inBlock dashes fuel

def blockItems : Nat → Reading (List Nat)
  | 0 => fail
  | fuel + 1 => do
    if ← accept isDash then
      let item ← nodeUnless (fun t => isDash t || isBlockEnd t) true false fuel
      return item :: (← blockItems fuel)
    else
      expect isBlockEnd
      return []

def dashedItems : Nat → Reading (List Nat)
  | 0 => fail
  | fuel + 1 => do
    if ← accept isDash then
      let item ← nodeUnless (fun t => isDash t || endsEntry t) true false fuel
      return item :: (← dashedItems fuel)
    else return []

def blockEntries : Nat → Reading (List (Nat × Nat))
  | 0 => fail
  | fuel + 1 => do
    if ← accept isKeyMark then
      let key ← nodeUnless endsEntry true true fuel
      let value ← if ← accept isValueMark then nodeUnless endsEntry true true fuel else addEmpty
      return (key, value) :: (← blockEntries fuel)
    else
      expect isBlockEnd
      return []

def flowValue (ends : Token → Bool) : Nat → Reading Nat
  | 0 => fail
  | fuel + 1 => do
    if ← accept isValueMark then nodeUnless (fun t => isComma t || ends t) false false fuel
    else addEmpty

def flowItems (first : Bool) : Nat → Reading (List Nat)
  | 0 => fail
  | fuel + 1 => do
    if ← accept isSequenceEnd then return []
    if !first then expect isComma
    if ← accept isKeyMark then
      let key ← nodeUnless (fun t => isValueMark t || isComma t || isSequenceEnd t) false false fuel
      let value ← flowValue isSequenceEnd fuel
      let item ← add { tag := .mapping, shape := .mapping [(key, value)] }
      return item :: (← flowItems false fuel)
    else if ← accept isSequenceEnd then return []
    else
      let item ← node false false fuel
      return item :: (← flowItems false fuel)

def flowEntries (first : Bool) : Nat → Reading (List (Nat × Nat))
  | 0 => fail
  | fuel + 1 => do
    if ← accept isMappingEnd then return []
    if !first then expect isComma
    if ← accept isKeyMark then
      let key ← nodeUnless (fun t => isValueMark t || isComma t || isMappingEnd t) false false fuel
      let value ← flowValue isMappingEnd fuel
      return (key, value) :: (← flowEntries false fuel)
    else if ← accept isMappingEnd then return []
    else
      let key ← node false false fuel
      return (key, ← addEmpty) :: (← flowEntries false fuel)

end

def standardHandles : List (String × String) :=
  [("!", "!"), ("!!", Tag.family)]

def directives : Nat → Bool → List (String × String) → Reading Unit
  | 0, _, _ => fail
  | fuel + 1, hasVersion, handles => do
    match ← peek? with
    | some (.directive d) =>
      advance
      match d with
      | .version major =>
        if hasVersion || major != 1 then fail
        directives fuel true handles
      | .handle name expansion =>
        if (handles.lookup name).isSome then fail
        directives fuel hasVersion ((name, expansion) :: handles)
      | .other => directives fuel hasVersion handles
    | _ => modify fun s => { s with handles := handles ++ standardHandles }

def isDocumentStart : Token → Bool
  | .documentStart => true
  | _ => false

def isDocumentEnd : Token → Bool
  | .documentEnd => true
  | _ => false

def isDirective : Token → Bool
  | .directive _ => true
  | _ => false

def root (fuel : Nat) : Reading Nat := do
  match ← peek? with
  | none => addEmpty
  | some t =>
    if isDirective t || isDocumentStart t || isDocumentEnd t then addEmpty else node true false fuel

def skipEnds : Nat → Reading Unit
  | 0 => return
  | fuel + 1 => do if ← accept isDocumentEnd then skipEnds fuel

def document (fuel : Nat) : Reading (Option Nat) := do
  match ← peek? with
  | none => return none
  | some t =>
    let root ←
      if isDirective t || isDocumentStart t then do
        directives fuel false []
        expect isDocumentStart
        root fuel
      else do
        modify fun s => { s with handles := standardHandles }
        node true false fuel
    skipEnds fuel
    if (← peek?).isNone then return some root else fail

def ofTokens (tokens : List Token) : Except Problem (Option Nat × Graph) := do
  let (root, state) ← (document (4 * tokens.length + 4)).run { tokens }
  return (root, state.graph)

end Node

end OneStep.Yaml
