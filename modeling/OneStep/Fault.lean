import OneStep.Error
import OneStep.StreamType

namespace OneStep

inductive Fault where
  | reported (e : Error)
  | pastOffset (offset : Int)
  | inputOffset (offset : Int)
  | instantOffset (offset : Int)
  | notScalar (type : StreamType)
  | negativeLength (length : Int)
  | negativeWidth
  | hugeWidth
  | noMemory
  | unknownTag (name : String)
  | noField (struct : String) (field : Datum)
  | duplicateStream (id : Datum)
  | endless
  | floatText (s : String)
  | integerText (quoted : String) (base : Nat := 10)
  | longInteger (digits : Nat)
  | unwritable
  | nanInteger
  | infiniteInteger
  | hugeInteger
  | notInteger
  | noDigits
  | noCharacter
  | hugeCode
  | calendar (e : CalendarError)
  | noTimestamp
  | timestampShape
  | notText
  | notIterable
  | unusableKey
  | unorderedKeys
  | noEntry (key : String)
  | noName
  | noEntries
  | noTerm
  | noOperand
  | noScript
  | unknownVerdict (d : Datum)
  | invalidEncoding
  | halfInName
  | zeroInPath
  | noPath
  | noLimit
  | abstractSession
  | engine (kind : String)
  | unencodable
  | hugeWait
  | brokenOutput
  | notCondition

namespace Fault

def digitComplaint (detail : String) : String :=
  s!"Exceeds the limit ({Text.digitLimit} digits) for integer string conversion" ++ detail ++
    "; use sys.set_int_max_str_digits() to increase the limit"

def numberComplaint (rule : String) (n : Int) : String :=
  if Text.isWritable n then rule ++ toString n else digitComplaint ""

def message : Fault → String
  | .reported e => e.message.plainText
  | .pastOffset offset => numberComplaint "Past-stream offset must be negative, got " offset
  | .inputOffset offset => numberComplaint "External offset must not be positive, got " offset
  | .instantOffset offset => numberComplaint "Translation offset must be <= 0, got " offset
  | .notScalar type => if type.isWritable then s!"Type {type.text} is not a scalar type" else digitComplaint ""
  | .negativeLength length => numberComplaint "Array length must be non-negative, got " length
  | .negativeWidth => "negative shift count"
  | .hugeWidth => "too many digits in integer"
  | .noMemory => "no room for a number"
  | .unknownTag name => name
  | .noField struct field => s!"Struct '{struct}' has no field '{field.plainText}'"
  | .duplicateStream id => if id.isWritable then s!"Duplicate stream id {id.plainText}" else digitComplaint ""
  | .endless => "a stream needs its own present value"
  | .floatText s => s!"could not convert string to float: {Text.quoted s}"
  | .integerText quoted base =>
    s!"invalid literal for int() with base {base}: " ++ String.ofList (quoted.toList.take 200)
  | .longInteger digits => digitComplaint s!": value has {digits} digits"
  | .unwritable => digitComplaint ""
  | .nanInteger => "cannot convert float NaN to integer"
  | .infiniteInteger => "cannot convert float infinity to integer"
  | .hugeInteger => "int too large to convert to float"
  | .notInteger => "not a number"
  | .noDigits => "a number without digits"
  | .noCharacter => "chr() arg not in range(0x110000)"
  | .hugeCode => "Python int too large to convert to C int"
  | .calendar e => e.text
  | .noTimestamp => "neither a day nor a moment"
  | .timestampShape => "a collection is no timestamp"
  | .notText => "not a text"
  | .notIterable => "not a list of fields"
  | .unusableKey => "a list or a map cannot be a key"
  | .unorderedKeys => "keys of different kinds have no order"
  | .noEntry key => key
  | .noName => "a definition without a name"
  | .noEntries => "not a map"
  | .noTerm => "an array or a record has no term"
  | .noOperand => "no operand"
  | .noScript => "a session without a script"
  | .unknownVerdict d => if d.isWritable then s!"{d.toText} is not a valid Verdict" else digitComplaint ""
  | .invalidEncoding => "not valid UTF-8"
  | .halfInName => "half of a character in a name"
  | .zeroInPath => "embedded null byte"
  | .noPath => "a settings file without a path"
  | .noLimit => "a time limit without a number"
  | .abstractSession => "a session without a solver"
  | .engine kind => kind
  | .unencodable => "a text that cannot be written"
  | .hugeWait => "timeout is too large"
  | .brokenOutput => "nothing can be written"
  | .notCondition => "a choice needs a truth value"

def ofNumeral (quoted : String) (base : Nat) : Text.NumeralError → Fault
  | .malformed => .integerText quoted base
  | .tooLong digits => .longInteger digits

end Fault

def writeInt (n : Int) : Except Fault String :=
  if Text.isWritable n then .ok (toString n) else .error .unwritable

namespace Datum

def describe (d : Datum) : Except Fault String :=
  if d.isWritable then .ok d.toText else .error .unwritable

def asText (d : Datum) : Except Fault String :=
  if d.isWritable then .ok d.plainText else .error .unwritable

end Datum

namespace StreamType

def describe (t : StreamType) : Except Fault String :=
  if t.isWritable then .ok t.text else .error .unwritable

end StreamType

def mismatch (operation expected actual : String) : Fault :=
  .reported (.mismatch (.text operation) (.text expected) (.text actual))

def malformedAt (message path : String) : Fault :=
  .reported (.format (.text message) (.text path))

def solverFailure (message : String) (details : List (String × String)) : Fault :=
  .reported (.solver (.text message) (.object (details.map fun (k, v) => (k, .text v))))

end OneStep
