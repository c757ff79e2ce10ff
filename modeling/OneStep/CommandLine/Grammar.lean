import OneStep.Text.Basic
import OneStep.Text.Quoted

namespace OneStep.CommandLine

inductive Stop where
  | shown (text : String)
  | refused (program message : String)

structure Switch (σ : Type) where
  names : List String
  takesValue : Bool
  apply : Option String → σ → Except Stop σ

structure Place (σ : Type) where
  name : String
  takesRest : Bool := false
  isRequired : Bool := true
  apply : List String → σ → Except Stop σ

structure Grammar (σ : Type) where
  program : String
  switches : List (Switch σ)
  places : List (Place σ)

inductive Role (σ : Type) where
  | argument
  | mark
  | switch (s : Switch σ) (name : String) (attached : Option (List Char))
  | unknown

namespace Role

variable {σ : Type}

def isArgument : Role σ → Bool
  | .argument => true
  | _ => false

def isMark : Role σ → Bool
  | .mark => true
  | _ => false

def isOption : Role σ → Bool
  | .switch .. | .unknown => true
  | _ => false

end Role

namespace Switch

variable {σ : Type}

def title (s : Switch σ) : String :=
  "/".intercalate s.names

end Switch

abbrev Word (σ : Type) := String × Role σ

namespace Grammar

variable {σ : Type}

def refuse {α : Type} (g : Grammar σ) (message : String) : Except Stop α :=
  .error (.refused g.program message)

def refuseOption {α : Type} (g : Grammar σ) (title message : String) : Except Stop α :=
  g.refuse s!"argument {title}: {message}"

def named (g : Grammar σ) : List (String × Switch σ) :=
  g.switches.flatMap fun s => s.names.map fun name => (name, s)

def find? (g : Grammar σ) (name : String) : Option (Switch σ) :=
  g.named.lookup name

def splitEquals (word : List Char) : List Char × Option (List Char) :=
  match word.dropWhile (· != '=') with
  | _ :: value => (word.takeWhile (· != '='), some value)
  | [] => (word, none)

def shortened (g : Grammar σ) (word : List Char) : List (String × Role σ) :=
  match word with
  | '-' :: '-' :: _ =>
    let (start, value) := splitEquals word
    g.named.filterMap fun (name, s) =>
      if start.isPrefixOf name.toList then some (name, .switch s name value) else none
  | dash :: letter :: rest =>
    g.named.filterMap fun (name, s) =>
      if name.toList = [dash, letter] then some (name, .switch s name (some rest))
      else if word.isPrefixOf name.toList then some (name, .switch s name none)
      else none
  | _ => []

def isDigit (c : Char) : Bool :=
  (Text.digit? c).isSome

def withoutBreak (cs : List Char) : List Char :=
  if cs.getLast? = some '\n' then cs.dropLast else cs

def isNegativeNumber (word : List Char) : Bool :=
  match withoutBreak word with
  | '-' :: digits =>
    match digits.dropWhile isDigit with
    | [] => !digits.isEmpty
    | '.' :: fraction => !fraction.isEmpty && fraction.all isDigit
    | _ => false
  | _ => false

def role (g : Grammar σ) (word : String) : Except Stop (Role σ) :=
  let cs := word.toList
  if cs.head? != some '-' then .ok .argument
  else
    match g.find? word with
    | some s => .ok (.switch s word none)
    | none =>
      if cs.length = 1 then .ok .argument
      else
        let (start, value) := splitEquals cs
        match value, g.find? (String.ofList start) with
        | some value, some s => .ok (.switch s (String.ofList start) (some value))
        | _, _ =>
          match g.shortened cs with
          | [(_, role)] => .ok role
          | [] => .ok (if isNegativeNumber cs || cs.contains ' ' then .argument else .unknown)
          | many =>
            let found := ", ".intercalate (many.map (·.1))
            g.refuse s!"ambiguous option: {word} could match {found}"

def roles (g : Grammar σ) : List String → Except Stop (List (Word σ))
  | [] => .ok []
  | word :: rest => do
    if word = "--" then return (word, .mark) :: rest.map fun word => (word, .argument)
    return (word, ← g.role word) :: (← g.roles rest)

def Place.take? (p : Place σ) (words : List (Word σ)) : Option (List String × List (Word σ)) :=
  let marks := words.takeWhile (·.2.isMark)
  match words.dropWhile (·.2.isMark) with
  | word :: rest =>
    if !word.2.isArgument then none
    else if p.takesRest then some (words.map (·.1), [])
    else
      let taken := marks ++ word :: rest.takeWhile (·.2.isMark)
      some (taken.map (·.1), rest.dropWhile (·.2.isMark))
  | [] => none

def takeAll? (words : List (Word σ)) : List (Place σ) → Option (List (List String) × List (Word σ))
  | [] => some ([], words)
  | p :: rest => do
    let (taken, words) ← Place.take? p words
    let (more, words) ← takeAll? words rest
    return (taken :: more, words)

def fill (words : List (Word σ)) (places : List (Place σ)) :
    Nat → List (Place σ × List String) × List (Place σ) × List (Word σ)
  | 0 => ([], places, words)
  | count + 1 =>
    match takeAll? words (places.take (count + 1)) with
    | some (taken, rest) => (places.zip taken, places.drop (count + 1), rest)
    | none => fill words places count

def Place.values (p : Place σ) (taken : List String) : List String :=
  if p.takesRest then taken else taken.erase "--"

structure State (σ : Type) where
  settings : σ
  left : List (Place σ)
  extras : List String := []

def applyPlaces (s : σ) : List (Place σ × List String) → Except Stop σ
  | [] => .ok s
  | (p, taken) :: rest => do applyPlaces (← p.apply (Place.values p taken) s) rest

def arguments (words : List (Word σ)) (s : State σ) : Except Stop (State σ × List (Word σ)) := do
  let (filled, left, rest) := fill words s.left s.left.length
  return ({ s with settings := ← applyPlaces s.settings filled, left }, rest)

def chain (g : Grammar σ) (s : Switch σ) (isLong : Bool) :
    List Char → Except Stop (List (Switch σ) × Switch σ × Option String)
  | [] =>
    if s.takesValue then .ok ([], s, some "")
    else g.refuseOption s.title "ignored explicit argument \x27\x27"
  | c :: rest =>
    let attached := String.ofList (c :: rest)
    if s.takesValue then .ok ([], s, some attached)
    else
      match if isLong then none else g.find? (String.ofList ['-', c]) with
      | none => g.refuseOption s.title s!"ignored explicit argument {Text.quoted attached}"
      | some next =>
        if rest.isEmpty then .ok ([s], next, none)
        else do
          let (joined, last, attached) ← g.chain next false rest
          return (s :: joined, last, attached)

def valueOf (word : String) : Option String :=
  if word = "--" then none else some word

def carryOut (g : Grammar σ) (w : Switch σ) (attached : Option String) (rest : List (Word σ)) (settings : σ) :
    Except Stop (σ × List (Word σ)) :=
  match attached with
  | some word => do return (← w.apply (valueOf word) settings, rest)
  | none =>
    if w.takesValue then
      match rest with
      | (word, .argument) :: rest => do return (← w.apply (valueOf word) settings, rest)
      | _ => g.refuseOption w.title "expected one argument"
    else do return (← w.apply none settings, rest)

def option (g : Grammar σ) (word : Word σ) (rest : List (Word σ)) (s : State σ) :
    Except Stop (State σ × List (Word σ)) :=
  match word.2 with
  | .switch w name attached => do
    let (joined, last, attached) ← match attached with
      | some text => g.chain w (name.toList.take 2 = ['-', '-']) text
      | none => pure ([], w, none)
    let settings ← joined.foldlM (fun done (w : Switch σ) => w.apply none done) s.settings
    let (settings, rest) ← g.carryOut last attached rest settings
    return ({ s with settings }, rest)
  | _ => .ok ({ s with extras := s.extras ++ [word.1] }, rest)

def walk (g : Grammar σ) : Nat → List (Word σ) → State σ → Except Stop (State σ)
  | 0, _, s => .ok s
  | fuel + 1, words, s => do
    if words.any (·.2.isOption) then
      match words with
      | [] => return s
      | word :: rest =>
        if word.2.isOption then
          let (s, words) ← g.option word rest s
          g.walk fuel words s
        else
          let (s, left) ← arguments words s
          if left.length < words.length then g.walk fuel left s
          else
            let skipped := words.takeWhile fun w => !w.2.isOption
            let s := { s with extras := s.extras ++ skipped.map (·.1) }
            g.walk fuel (words.dropWhile fun w => !w.2.isOption) s
    else
      let (s, rest) ← arguments words s
      return { s with extras := s.extras ++ rest.map (·.1) }

def read (g : Grammar σ) (words : List String) (start : σ) : Except Stop (σ × List String) := do
  let s ← g.walk (2 * words.length + 2) (← g.roles words) { settings := start, left := g.places }
  match s.left.filter (·.isRequired) with
  | [] => return (s.settings, s.extras)
  | missing =>
    let names := ", ".intercalate (missing.map (·.name))
    g.refuse s!"the following arguments are required: {names}"

end Grammar

end OneStep.CommandLine
