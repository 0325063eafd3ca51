import Scriptlet.Number.Binary
import Scriptlet.Text

/-!
# Shortest decimals

Every positive double is the nearest double to all reals of an interval around it. The decimal
that stands for it is the one with the fewest digits in that interval, and of several the one
nearest to the double. `Magnitude.shortest` finds it by trying one digit, two digits and so on: on
each grid only the two neighbours of the double can be the answer.
-/

namespace Scriptlet

/-- The number `digits · 10 ^ exponent`. -/
structure Decimal where
  digits : Nat
  exponent : Int
  deriving DecidableEq, Repr

/-- The number of decimal digits, none for zero. -/
def digitCount (n : Nat) : Nat := if n = 0 then 0 else (Nat.toDigits 10 n).length

/-- The power of ten just above a positive quotient: the least `k` with `num / den < 10 ^ k`. -/
def decimalOrder (num den : Nat) : Int :=
  if den ≤ num then digitCount (num / den)
  else 1 - (digitCount ((den - 1) / num) : Int)

/-- The reals that round to one double, over a common denominator: a value and the two ends of its
interval. -/
structure Rounding where
  value : Nat
  low : Nat
  high : Nat
  denominator : Nat
  /-- Whether the two ends belong to the interval. -/
  closed : Bool
  deriving Repr

namespace Rounding

/-- Whether `n / d` rounds to the double. -/
def holds (r : Rounding) (n d : Nat) : Bool :=
  if r.closed then r.low * d ≤ n * r.denominator && n * r.denominator ≤ r.high * d
  else r.low * d < n * r.denominator && n * r.denominator < r.high * d

/-- A grid point `g · 10 ^ e` as a quotient. -/
def gridPoint (g : Nat) (e : Int) : Nat × Nat :=
  match e with
  | .ofNat k => (g * Nat.pow 10 k, 1)
  | .negSucc k => (g, Nat.pow 10 (k + 1))

/-- The neighbour of the value on the grid of multiples of `10 ^ e` that stands for the double, if
one does: the nearer one, and of two equally near the even one. -/
def onGrid? (r : Rounding) (e : Int) : Option Nat :=
  let (unitNum, unitDen) := gridPoint 1 e
  let num := r.value * unitDen
  let den := r.denominator * unitNum
  let below := num / den
  let above := below + 1
  let holdsAt (g : Nat) : Bool :=
    let (n, d) := gridPoint g e
    r.holds n d
  match holdsAt below, holdsAt above with
  | true, true => some (Binary.roundQuotient num den)
  | true, false => some below
  | false, true => some above
  | false, false => none

/-- The first grid with an answer, from coarse to fine. -/
def firstGrid (r : Rounding) (order : Int) : (tries digits : Nat) → Decimal
  | 0, _ => ⟨0, 0⟩
  | tries + 1, digits =>
    match r.onGrid? (order - digits) with
    | some g => ⟨g, order - digits⟩
    | none => r.firstGrid order tries (digits + 1)

end Rounding

namespace Decimal

/-- The same number without trailing zeros among its digits. -/
def stripped : (fuel : Nat) → Decimal → Decimal
  | 0, d => d
  | fuel + 1, d =>
    if d.digits = 0 ∨ d.digits % 10 ≠ 0 then d else stripped fuel ⟨d.digits / 10, d.exponent + 1⟩

end Decimal

namespace Magnitude

/-- The reals that round to a positive double. Below a power of two the doubles lie twice as
close, so the lower end is nearer there. -/
def rounding (m : Magnitude) : Rounding :=
  let narrow := m.significand = Nat.pow 2 Binary.fractionBits ∧ Binary.leastExponent < m.exponent
  let value := 4 * m.significand
  let low := if narrow then value - 1 else value - 2
  let closed := m.significand % 2 = 0
  match m.exponent - 2 with
  | .ofNat k => ⟨value * Nat.pow 2 k, low * Nat.pow 2 k, (value + 2) * Nat.pow 2 k, 1, closed⟩
  | .negSucc k => ⟨value, low, value + 2, Nat.pow 2 (k + 1), closed⟩

/-- The shortest decimal that stands for a magnitude; seventeen digits always suffice. -/
def shortest (m : Magnitude) : Decimal :=
  if m.significand = 0 then ⟨0, 0⟩
  else
    let r := m.rounding
    ((r.firstGrid (decimalOrder r.value r.denominator) 17 1)).stripped 20

end Magnitude

end Scriptlet
