import Scriptlet.Diagnostic
import Scriptlet.Token

/-!
# Faults of names and places

What the resolution of names can find: errors of names and of statements that stand where they
cannot, and warnings about names that nobody reads.
-/

namespace Scriptlet

/-- A finding about names and places. -/
inductive ScopeFault where
  | redeclared (name : Text)
  | ownInitializer (name : Text)
  | topLevelReturn
  | initializerValue
  | strayBreak
  | strayContinue
  | selfInheritance
  | receiverOutsideClass
  | inheritedOutsideClass
  | inheritedWithoutSuperclass
  | assignmentInCondition
  | unused (name : Text)
  deriving DecidableEq, Repr

namespace ScopeFault

/-- The code of a finding. -/
def code : ScopeFault → Text
  | .redeclared _ => "E3001"
  | .ownInitializer _ => "E3002"
  | .topLevelReturn => "E3003"
  | .initializerValue => "E3004"
  | .strayBreak => "E3005"
  | .strayContinue => "E3006"
  | .selfInheritance => "E3007"
  | .receiverOutsideClass => "E3008"
  | .inheritedOutsideClass => "E3009"
  | .inheritedWithoutSuperclass => "E3010"
  | .assignmentInCondition => "E3011"
  | .unused _ => "W3001"

/-- Unread names are worth a warning; everything else is an error. -/
def severity : ScopeFault → Severity
  | .unused _ => .warning
  | _ => .error

/-- The message of a finding. -/
def message : ScopeFault → Text
  | .redeclared name => "variable '" ++ name ++ "' already declared in this scope"
  | .ownInitializer name => "cannot read local variable '" ++ name ++ "' in its own initializer"
  | .topLevelReturn => "cannot return from top-level code"
  | .initializerValue => "cannot return a value from an initializer"
  | .strayBreak => "'break' outside of a loop"
  | .strayContinue => "'continue' outside of a loop"
  | .selfInheritance => "a class cannot inherit from itself"
  | .receiverOutsideClass => "cannot use 'this' outside of a class"
  | .inheritedOutsideClass => "cannot use 'super' outside of a class"
  | .inheritedWithoutSuperclass => "cannot use 'super' in a class with no superclass"
  | .assignmentInCondition => "assignment is not allowed within if, loop or ternary condition"
  | .unused name => "local variable '" ++ name ++ "' is not used"

/-- The finding at a token. -/
def report (f : ScopeFault) (token : Token) : Diagnostic :=
  ⟨f.code, f.severity, .resolve, f.message, token.span, token.lexeme, []⟩

end ScopeFault

end Scriptlet
