import OneStep.Binary.Decimal
import OneStep.Datum.Basic
import OneStep.Text.Numeral
import OneStep.Text.Quoted

namespace OneStep.Datum

def byteText (quote : Char) (byte : UInt8) : List Char :=
  let c := Char.ofNat byte.toNat
  if c.toNat < 0x7F then Text.escapeQuoted quote c else '\\' :: 'x' :: Text.hexDigits 2 c.toNat

def bytesText (content : List UInt8) : String :=
  let quote := if content.contains 0x27 && !content.contains 0x22 then '\x22' else '\x27'
  String.ofList ('b' :: quote :: content.flatMap (byteText quote) ++ [quote])

def cutText : Datum → String
  | .map _ => "\x7b...\x7d"
  | .tuple _ => "(...)"
  | _ => "[...]"

mutual

def textIn (loops : List (Nat × String)) : Datum → String
  | .null => "None"
  | .bool b => if b then "True" else "False"
  | .int n => toString n
  | .float x => x.toText
  | .text s => Text.quoted s
  | .bytes content => bytesText content
  | .day d => d.quoted
  | .moment m => m.quoted
  | .list items => "[" ++ itemsText loops items ++ "]"
  | .tuple [item] => "(" ++ textIn loops item ++ ",)"
  | .tuple items => "(" ++ itemsText loops items ++ ")"
  | .set [] => "set()"
  | .set items => "\x7b" ++ itemsText loops items ++ "\x7d"
  | .map entries => "\x7b" ++ entriesText loops entries ++ "\x7d"
  | .loop label d =>
    match loops.lookup label with
    | some cut => cut
    | none => textIn ((label, cutText d) :: loops) d
  | .again label => (loops.lookup label).getD "..."

def itemsText (loops : List (Nat × String)) : List Datum → String
  | [] => ""
  | [item] => textIn loops item
  | item :: rest => textIn loops item ++ ", " ++ itemsText loops rest

def entriesText (loops : List (Nat × String)) : List (Datum × Datum) → String
  | [] => ""
  | [(k, v)] => textIn loops k ++ ": " ++ textIn loops v
  | (k, v) :: rest => textIn loops k ++ ": " ++ textIn loops v ++ ", " ++ entriesText loops rest

end

def toText (d : Datum) : String :=
  textIn [] d

def plainText : Datum → String
  | .text s => s
  | .day d => d.text
  | .moment m => m.text
  | d => d.toText

mutual

def isWritable : Datum → Bool
  | .int n => Text.isWritable n
  | .list items | .tuple items | .set items => areWritable items
  | .map entries => entriesWritable entries
  | .loop _ d => isWritable d
  | _ => true

def areWritable : List Datum → Bool
  | [] => true
  | d :: rest => isWritable d && areWritable rest

def entriesWritable : List (Datum × Datum) → Bool
  | [] => true
  | (k, v) :: rest => isWritable k && isWritable v && entriesWritable rest

end

end OneStep.Datum
