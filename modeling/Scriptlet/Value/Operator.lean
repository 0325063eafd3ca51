import Scriptlet.Value.Fault

/-!
# Operators on values

Arithmetic and comparison take numbers; addition also joins texts, and multiplication also repeats
them. Equality takes anything.
-/

namespace Scriptlet

/-- The integer that a double is, if it is one. -/
def wholeNumber? (x : Float) : Option Int :=
  match Binary.ofBits x.toBits with
  | .finite negative m =>
    let sign : Int := if negative then -1 else 1
    match m.exponent with
    | .ofNat k => some (sign * (m.significand * Nat.pow 2 k))
    | .negSucc k =>
      let unit := Nat.pow 2 (k + 1)
      if m.significand % unit = 0 then some (sign * (m.significand / unit)) else none
  | _ => none

/-- The longest text that a repetition makes. -/
def maxRepeated : Nat := Nat.pow 2 30

/-- A power. One and exponent zero make one, and a square root is exact where it can be. -/
def power (x y : Float) : Float :=
  if y == 0 || x == 1 then 1
  else if y == 1 then x
  else if x.isFinite && x != 0 && y == 0.5 then x.sqrt
  else if x.isFinite && x != 0 && y == -0.5 then 1 / x.sqrt
  else x ^ y

namespace Value

/-- A text repeated a number of times. -/
def repeatText (t : Text) (count : Value) : Except RuntimeFault Value :=
  match count with
  | .number x =>
    match wholeNumber? x with
    | .none => .error .repeatNotWhole
    | some n =>
      if n ≤ 0 ∨ t = [] then .ok (.text [])
      else if maxRepeated < n.toNat * t.length then .error .repeatTooLong
      else .ok (.text (t.times n.toNat))
  | _ => .error .operandsNotNumbers

/-- An operator on two numbers. -/
def arithmetic (kind : Kind) (op : Text) (x y : Float) : Except RuntimeFault Value :=
  match kind with
  | .minus => .ok (.number (x - y))
  | .star => .ok (.number (x * y))
  | .slash => .ok (.number (x / y))
  | .starStar => .ok (.number (power x y))
  | .less => .ok (.bool (x < y))
  | .lessEqual => .ok (.bool (x ≤ y))
  | .greater => .ok (.bool (y < x))
  | .greaterEqual => .ok (.bool (y ≤ x))
  | _ => .error (.unknownOperator op)

/-- An operator on two values. -/
def combine (kind : Kind) (op : Text) (left right : Value) : Except RuntimeFault Value :=
  match kind, left, right with
  | .equal, _, _ => .ok (.bool (left.equal right))
  | .notEqual, _, _ => .ok (.bool (!left.equal right))
  | .plus, .number x, .number y => .ok (.number (x + y))
  | .plus, .text s, .text t => .ok (.text (s ++ t))
  | .plus, _, _ => .error .operandsNotAddable
  | .star, .text t, _ => repeatText t right
  | .star, _, .text t => repeatText t left
  | kind, .number x, .number y => arithmetic kind op x y
  | _, _, _ => .error .operandsNotNumbers

/-- An operator on one value. -/
def unary (kind : Kind) (op : Text) (operand : Value) : Except RuntimeFault Value :=
  match kind, operand with
  | .bang, _ => .ok (.bool (!operand.truthy))
  | .minus, .number x => .ok (.number (-x))
  | .minus, _ => .error .operandNotNumber
  | _, _ => .error (.unknownOperator op)

end Value

end Scriptlet
