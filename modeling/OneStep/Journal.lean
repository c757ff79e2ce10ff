import OneStep.StreamType

namespace OneStep

inductive Level where
  | debug
  | info
  | warning
  deriving DecidableEq, Repr

namespace Level

def name : Level → String
  | .debug => "DEBUG"
  | .info => "INFO"
  | .warning => "WARNING"

def rank : Level → Nat
  | .debug => 0
  | .info => 1
  | .warning => 2

end Level

inductive Event where
  | fresh (name : String) (type : StreamType)
  | pastSymbol (stream offset : Int)
  | unrolling (stream offset : Int) (length : Nat)
  | freeSymbols (property : String) (count : Nat)
  | unsupported (property error : String)
  | verdict (property outcome : String)
  | script (path body : String)
  | unreadableSettings (path detail : String)
  | malformedSettings (path detail : String)
  | settingsNotMapping (path : String)
  | settingsLoaded (path : String)

namespace Event

def level : Event → Level
  | .fresh .. | .pastSymbol .. | .unrolling .. | .freeSymbols .. | .script .. | .settingsLoaded _ => .debug
  | .verdict .. => .info
  | .unsupported .. | .unreadableSettings .. | .malformedSettings .. | .settingsNotMapping _ => .warning

def source : Event → String
  | .fresh .. => "streamproof.symbolic"
  | .pastSymbol .. => "streamproof.cache"
  | .unrolling .. => "streamproof.translate"
  | .freeSymbols .. | .unsupported .. | .verdict .. => "streamproof.prove"
  | .script .. => "streamproof.solver"
  | .unreadableSettings .. | .malformedSettings .. | .settingsNotMapping _ | .settingsLoaded _ =>
    "streamproof.config"

def pattern : Event → String
  | .fresh .. => "fresh constant %s : %s"
  | .pastSymbol .. => "stream s%d at offset %d is a free symbol"
  | .unrolling .. => "unrolling s%d at offset %d (buffer length %d)"
  | .freeSymbols .. => "property %s uses %d free symbols"
  | .unsupported .. => "property %s: %s"
  | .verdict .. => "property %s: %s"
  | .script .. => "SMT-LIB2 script for %s:\n%s"
  | .unreadableSettings .. => "cannot read config %s: %s"
  | .malformedSettings .. => "malformed config %s: %s"
  | .settingsNotMapping _ => "config %s is not a mapping; using defaults"
  | .settingsLoaded _ => "loaded config from %s"

def text : Event → String
  | .fresh name type => s!"fresh constant {name} : {type.text}"
  | .pastSymbol stream offset => s!"stream s{stream} at offset {offset} is a free symbol"
  | .unrolling stream offset length =>
    s!"unrolling s{stream} at offset {offset} (buffer length {length})"
  | .freeSymbols property count => s!"property {property} uses {count} free symbols"
  | .unsupported property error => s!"property {property}: {error}"
  | .verdict property outcome => s!"property {property}: {outcome}"
  | .script path body => s!"SMT-LIB2 script for {path}:\n{body}"
  | .unreadableSettings path detail => s!"cannot read config {path}: {detail}"
  | .malformedSettings path detail => s!"malformed config {path}: {detail}"
  | .settingsNotMapping path => s!"config {path} is not a mapping; using defaults"
  | .settingsLoaded path => s!"loaded config from {path}"

end Event

end OneStep
