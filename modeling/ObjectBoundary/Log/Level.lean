import ObjectBoundary.Text.Lowercase
import ObjectBoundary.Text.Numeral

/-!
# Log levels

The five levels and the two ways in which they are written: by name only, or by name or number.
-/

namespace ObjectBoundary

inductive Level where
  | error
  | warn
  | info
  | debug
  | trace
  deriving DecidableEq, Repr, Inhabited

namespace Level

/-- The name in capitals. -/
def name : Level → String
  | .error => "ERROR"
  | .warn => "WARN"
  | .info => "INFO"
  | .debug => "DEBUG"
  | .trace => "TRACE"

def ofLowercase? : String → Option Level
  | "error" => some .error
  | "warn" => some .warn
  | "info" => some .info
  | "debug" => some .debug
  | "trace" => some .trace
  | _ => none

/-- The level with a name in any case of letters. -/
def ofName? (text : String) : Option Level := ofLowercase? (Text.lowercase text)

/-- The levels are numbered from one. -/
def ofNumber? : Nat → Option Level
  | 1 => some .error
  | 2 => some .warn
  | 3 => some .info
  | 4 => some .debug
  | 5 => some .trace
  | _ => none

def number : Level → Nat
  | .error => 1
  | .warn => 2
  | .info => 3
  | .debug => 4
  | .trace => 5

/-- Whether a log of a level takes what is told at another one. -/
def admits (level told : Level) : Bool := told.number ≤ level.number

def asciiLowercase (text : String) : String := String.ofList (text.toList.map Char.toLower)

/-- The level with a number, or with a name in any case of ASCII letters. -/
def parse? (text : String) : Option Level :=
  match (Text.unsigned? text.toList).bind ofNumber? with
  | some level => some level
  | none => ofLowercase? (asciiLowercase text)

end Level

end ObjectBoundary
