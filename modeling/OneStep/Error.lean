import OneStep.Datum.Text
import OneStep.Json.Writer

namespace OneStep

inductive Error where
  | general (message details : Datum)
  | unsupported (construct : Datum) (details : List (Datum × Datum))
  | mismatch (operation expected actual : Datum)
  | missingStream (id : Datum)
  | solver (message details : Datum)
  | format (message path : Datum)

namespace Error

def kind : Error → String
  | .general .. => "type_mismatch"
  | .unsupported .. => "unsupported_construct"
  | .mismatch .. => "type_mismatch"
  | .missingStream _ => "missing_stream"
  | .solver .. => "solver_error"
  | .format .. => "spec_format"

def message : Error → Datum
  | .general message _ => message
  | .unsupported construct _ => .text s!"Unsupported construct '{construct.plainText}'"
  | .mismatch operation expected actual =>
    .text s!"{operation.plainText}: expected {expected.plainText}, got {actual.plainText}"
  | .missingStream id => .text s!"Undefined stream id {id.plainText}"
  | .solver message _ => message
  | .format message path => if path.isTruthy then .text s!"{path.plainText}: {message.plainText}" else message

def details : Error → Datum
  | .general _ details => details
  | .unsupported construct details =>
    .map (details.foldl (fun done (k, v) => Datum.insert done k v) [(.text "construct", construct)])
  | .mismatch operation expected actual =>
    .object [("operation", operation), ("expected", expected), ("actual", actual)]
  | .missingStream id => .object [("stream_id", id)]
  | .solver _ details => details
  | .format _ path => if path.isTruthy then .object [("path", path)] else .null

def toDatum (e : Error) : Datum :=
  .object ([("kind", .text e.kind), ("message", e.message)] ++
    if e.details.isTruthy then [("details", e.details)] else [])

def toJson (e : Error) (indent : Nat) : String :=
  Json.toBlock indent e.toDatum

def text (e : Error) : String :=
  s!"[{e.kind}]: {e.message.plainText}"

end Error

end OneStep
