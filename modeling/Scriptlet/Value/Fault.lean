import Scriptlet.Diagnostic
import Scriptlet.Heap

/-!
# Faults of running programs

What can stop a program, each with its code and its message, and the error that a fault makes at a
token.
-/

namespace Scriptlet

/-- Why a program stops. -/
inductive RuntimeFault where
  | operandNotNumber
  | operandsNotNumbers
  | operandsNotAddable
  | repeatNotWhole
  | repeatTooLong
  | notVariable (op : Text)
  | notCallable
  | argumentCount (expected given : Nat)
  | undefinedProperty (name : Text)
  | noProperties
  | noFields
  | superclassNotClass
  | access (fault : AccessFault)
  | native (message : Text)
  | stackOverflow
  /-- A reference that resolution refused. -/
  | unresolved (name : Text)
  | inheritedFrom (typeName : Text)
  | unknownOperator (op : Text)
  deriving DecidableEq, Repr

namespace RuntimeFault

/-- The code of a fault. -/
def code : RuntimeFault → Text
  | .operandNotNumber | .operandsNotNumbers => "E4001"
  | .operandsNotAddable => "E4002"
  | .repeatNotWhole | .repeatTooLong => "E4003"
  | .notVariable _ => "E4004"
  | .notCallable => "E4005"
  | .argumentCount .. => "E4006"
  | .undefinedProperty _ => "E4007"
  | .noProperties => "E4008"
  | .noFields => "E4009"
  | .superclassNotClass => "E4010"
  | .access fault => if fault.isMismatch then "E9001" else "E4011"
  | .native _ => "E4012"
  | .stackOverflow => "E4013"
  | .unresolved _ | .inheritedFrom _ | .unknownOperator _ => "E9001"

/-- The message of a fault. -/
def message : RuntimeFault → Text
  | .operandNotNumber => "operand must be a number"
  | .operandsNotNumbers => "operands must be numbers"
  | .operandsNotAddable => "operands must be two numbers or two strings"
  | .repeatNotWhole => "text can only be repeated a whole number of times"
  | .repeatTooLong => "repeated text is too long"
  | .notVariable op => "operand of '" ++ op ++ "' must be a variable"
  | .notCallable => "can only call functions and classes"
  | .argumentCount expected given =>
    "expected " ++ .ofNat expected ++ " arguments but got " ++ .ofNat given
  | .undefinedProperty name => "undefined property '" ++ name ++ "'"
  | .noProperties => "only instances have properties"
  | .noFields => "only instances have fields"
  | .superclassNotClass => "superclass must be a class"
  | .access fault => fault.message
  | .native message => message
  | .stackOverflow => "stack overflow"
  | .unresolved name => "unresolved reference to '" ++ name ++ "'"
  | .inheritedFrom typeName => "'super' is bound to " ++ typeName
  | .unknownOperator op => "unknown operator '" ++ op ++ "'"

end RuntimeFault

/-- A fault at a token. -/
structure RuntimeError where
  fault : RuntimeFault
  token : Token

namespace RuntimeError

/-- The error on one line. -/
def text (e : RuntimeError) : Text :=
  "runtime error at " ++ e.token.span.start.text ++ ": " ++ e.fault.message

/-- The finding that an error makes. -/
def report (e : RuntimeError) : Diagnostic :=
  ⟨e.fault.code, .error, .runtime, e.fault.message, e.token.span, e.token.lexeme, []⟩

/-- Whether a distance did not fit the scopes. -/
def isMismatch (e : RuntimeError) : Bool :=
  match e.fault with
  | .access fault => fault.isMismatch
  | _ => false

end RuntimeError

end Scriptlet
