import OneStep.Text.Basic

namespace OneStep.SExpr

inductive Token where
  | left
  | right
  | atom (s : String)
  deriving DecidableEq, Repr

def bar? (done : List Char) : List Char → Option (List Char × List Char)
  | [] => none
  | c :: rest => if c = '|' then some ((c :: done).reverse, rest) else bar? (c :: done) rest

def quote? (done : List Char) (last : Option (List Char × List Char)) :
    List Char → Option (List Char × List Char)
  | [] => last
  | '\x22' :: '\x22' :: rest =>
    quote? ('\x22' :: '\x22' :: done) (some (('\x22' :: done).reverse, '\x22' :: rest)) rest
  | c :: rest => if c = '\x22' then some ((c :: done).reverse, rest) else quote? (c :: done) last rest

def isPlain (c : Char) : Bool :=
  !Text.isBlank c && c != '(' && c != ')'

def atomAt (c : Char) (rest : List Char) : List Char × List Char :=
  let run := (c :: rest.takeWhile isPlain, rest.dropWhile isPlain)
  if c = '|' then (bar? [c] rest).getD run
  else if c = '\x22' then (quote? [c] none rest).getD run
  else run

def tokensWithin : Nat → List Char → List Token
  | 0, _ => []
  | _ + 1, [] => []
  | fuel + 1, c :: rest =>
    if c = '(' then .left :: tokensWithin fuel rest
    else if c = ')' then .right :: tokensWithin fuel rest
    else if Text.isBlank c then tokensWithin fuel rest
    else
      let (a, rest) := atomAt c rest
      .atom (String.ofList a) :: tokensWithin fuel rest

def tokens (text : String) : List Token :=
  let cs := text.toList
  tokensWithin cs.length cs

end SExpr

inductive SExpr where
  | atom (s : String)
  | list (items : List SExpr)

namespace SExpr

def readInto (inner : List SExpr) (outer : List (List SExpr)) : List Token → Option (List SExpr)
  | [] => if outer.isEmpty then some inner.reverse else none
  | .left :: rest => readInto [] (inner :: outer) rest
  | .right :: rest =>
    match outer with
    | [] => none
    | around :: outer => readInto (.list inner.reverse :: around) outer rest
  | .atom s :: rest => readInto (.atom s :: inner) outer rest

def read? (text : String) : Option (List SExpr) :=
  readInto [] [] (tokens text)

mutual

def render : SExpr → String
  | .atom s => s
  | .list items => "(" ++ renderItems items ++ ")"

def renderItems : List SExpr → String
  | [] => ""
  | [e] => render e
  | e :: rest => render e ++ " " ++ renderItems rest

end

mutual

def flatten : SExpr → List Token
  | .atom s => [.atom s]
  | .list items => .left :: flattenItems items ++ [.right]

def flattenItems : List SExpr → List Token
  | [] => []
  | e :: rest => flatten e ++ flattenItems rest

end

def isAtom (word : String) : SExpr → Bool
  | .atom s => s == word
  | .list _ => false

end OneStep.SExpr
