import Scriptlet.Diagnostic
import Scriptlet.Token

/-!
# Faults of syntax

What the reader of programs can miss or refuse, each with its code and its message. A fault is
reported at a token; the end of the input is shown as such.
-/

namespace Scriptlet

/-- What must stand at some place of a program. -/
inductive Expected where
  | className
  | superclassName
  | classBody
  | classEnd
  | methodName
  | functionName
  | parameters
  | parameterName
  | parametersEnd
  | variableName
  | variableValue
  | variableEnd
  | breakEnd
  | continueEnd
  | blockStart
  | blockEnd
  | expressionEnd
  | printEnd
  | returnEnd
  | ifCondition
  | ifConditionEnd
  | whileCondition
  | whileConditionEnd
  | doCondition
  | doEnd
  | forClauses
  | forConditionEnd
  | forClausesEnd
  | ternaryElse
  | propertyName
  | argumentsEnd
  | superDot
  | superMethod
  | groupEnd
  deriving DecidableEq, Repr

namespace Expected

/-- The message about what is missing. -/
def message : Expected → String
  | .className => "expect class name"
  | .superclassName => "expect superclass name"
  | .classBody => "expect '\x7b' before class body"
  | .classEnd => "expect '\x7d' after class body"
  | .methodName => "expect method name"
  | .functionName => "expect function name"
  | .parameters => "expect '(' before parameters"
  | .parameterName => "expect parameter name"
  | .parametersEnd => "expect ')' after parameters"
  | .variableName => "expect variable name"
  | .variableValue => "expect assignment in multiple variable declaration"
  | .variableEnd => "expect ';' after variable declaration"
  | .breakEnd => "expect ';' after 'break'"
  | .continueEnd => "expect ';' after 'continue'"
  | .blockStart => "expect '\x7b' before block"
  | .blockEnd => "expect '\x7d' after block"
  | .expressionEnd => "expect ';' after expression"
  | .printEnd => "expect ';' after value"
  | .returnEnd => "expect ';' after return value"
  | .ifCondition => "expect '(' after 'if'"
  | .ifConditionEnd => "expect ')' after if condition"
  | .whileCondition => "expect '(' after 'while'"
  | .whileConditionEnd => "expect ')' after condition"
  | .doCondition => "expect 'while' in a do-while loop"
  | .doEnd => "expect ';' after do-while statement"
  | .forClauses => "expect '(' after 'for'"
  | .forConditionEnd => "expect ';' after loop condition"
  | .forClausesEnd => "expect ')' after for clauses"
  | .ternaryElse => "expect ':' after then branch of ternary expression"
  | .propertyName => "expect property name after '.'"
  | .argumentsEnd => "expect ')' after arguments"
  | .superDot => "expect '.' after 'super'"
  | .superMethod => "expect superclass method name"
  | .groupEnd => "expect ')' after expression"

end Expected

/-- The most parameters of a function, and the most arguments of a call. -/
def maxArguments : Nat := 255

/-- What is wrong with the order of tokens. -/
inductive SyntaxFault where
  | missing (what : Expected)
  | noExpression
  | afterExpression (lexeme : Text)
  | invalidTarget
  | tooManyParameters
  | tooManyArguments
  | missingCondition
  | missingOperand
  deriving DecidableEq, Repr

namespace SyntaxFault

/-- The code of a fault. -/
def code : SyntaxFault → Text
  | .missing _ => "E2001"
  | .noExpression | .afterExpression _ => "E2002"
  | .invalidTarget => "E2003"
  | .tooManyParameters | .tooManyArguments => "E2004"
  | .missingCondition | .missingOperand => "E2005"

/-- The message of a fault. -/
def message : SyntaxFault → Text
  | .missing what => what.message
  | .noExpression => "expect expression"
  | .afterExpression lexeme => "unexpected token '" ++ lexeme ++ "' after expression"
  | .invalidTarget => "invalid assignment target"
  | .tooManyParameters => "cannot have more than " ++ .ofNat maxArguments ++ " parameters"
  | .tooManyArguments => "cannot have more than " ++ .ofNat maxArguments ++ " arguments"
  | .missingCondition => "missing left-hand condition of ternary operator"
  | .missingOperand => "missing left-hand operand"

/-- The finding that a fault at a token makes. -/
def report (f : SyntaxFault) (token : Token) : Diagnostic :=
  let lexeme : Text := if token.kind = .endOfInput then "end" else token.lexeme
  ⟨f.code, .error, .syntactic, f.message, token.span, lexeme, []⟩

end SyntaxFault

end Scriptlet
