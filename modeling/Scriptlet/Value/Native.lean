import Scriptlet.Pattern.Matcher
import Scriptlet.Pattern.Parser
import Scriptlet.Text.Canonical
import Scriptlet.Value

/-!
# Native functions

`clock` tells the time, `len` counts the characters of a value's text after composition, `str` gives
that text, and `matches` searches a text for a pattern.
-/

namespace Scriptlet

/-- Why a native function refuses its arguments. -/
inductive NativeFault where
  | firstNotText (typeName : Text)
  | secondNotText (typeName : Text)
  | invalidPattern (fault : PatternFault) (pattern : Text)
  | argumentCount
  deriving DecidableEq, Repr

namespace NativeFault

/-- What a fault says. -/
def message : NativeFault → Text
  | .firstNotText typeName => "first argument must be a string, got '" ++ typeName ++ "'"
  | .secondNotText typeName => "second argument must be a string, got '" ++ typeName ++ "'"
  | .invalidPattern fault pattern => "invalid pattern: " ++ fault.message pattern
  | .argumentCount => "wrong number of arguments"

end NativeFault

namespace Native

/-- Searches a text for a pattern. -/
def searchText (text pattern : Value) : Except NativeFault Value :=
  match text, pattern with
  | .text t, .text p =>
    match Pattern.parse p with
    | .ok compiled => .ok (.bool (compiled.foundIn t))
    | .error fault => .error (.invalidPattern fault p)
  | .text _, other => .error (.secondNotText other.typeName)
  | other, _ => .error (.firstNotText other.typeName)

/-- Calls a native function at a time of the clock. -/
def call (clock : Float) : Native → List Value → Except NativeFault Value
  | .clock, [] => .ok (.number clock)
  | .len, [v] => .ok (.number (Float.ofNat v.shown.composed.runes.length))
  | .str, [v] => .ok (.text v.shown)
  | .search, [text, pattern] => searchText text pattern
  | _, _ => .error .argumentCount

end Native

end Scriptlet
