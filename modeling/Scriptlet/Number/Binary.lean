/-!
# Doubles as exact numbers

A finite double is a sign and a magnitude `significand · 2 ^ exponent`. This module reads that
magnitude off the bit pattern and, the other way, gives the bit pattern of the double nearest to a
quotient of two natural numbers. Both work in exact arithmetic on natural numbers.
-/

namespace Scriptlet

/-- The number `significand · 2 ^ exponent`. -/
structure Magnitude where
  significand : Nat
  exponent : Int
  deriving DecidableEq, Repr

/-- What a bit pattern of 64 bits stands for. -/
inductive Binary where
  | nan
  | infinite (negative : Bool)
  | finite (negative : Bool) (magnitude : Magnitude)
  deriving DecidableEq, Repr

namespace Binary

/-- The number of significant bits of a double. -/
def precision : Nat := 53

/-- The exponent of the smallest positive double. -/
def leastExponent : Int := -1074

/-- The bits that hold the fraction. -/
def fractionBits : Nat := 52

/-- The value of the exponent field that marks infinities and not-a-numbers. -/
def topField : Nat := 2047

/-- Reads a bit pattern. -/
def ofBits (bits : UInt64) : Binary :=
  let n := bits.toNat
  let negative := n / Nat.pow 2 63 = 1
  let field := n / Nat.pow 2 fractionBits % Nat.pow 2 11
  let fraction := n % Nat.pow 2 fractionBits
  if field = topField then
    if fraction = 0 then .infinite negative else .nan
  else if field = 0 then .finite negative ⟨fraction, leastExponent⟩
  else .finite negative ⟨fraction + Nat.pow 2 fractionBits, (field : Int) - 1075⟩

/-- The quotient rounded to the nearest natural number, a half to the even neighbour. -/
def roundQuotient (num den : Nat) : Nat :=
  let q := num / den
  let r := num % den
  if 2 * r < den then q
  else if den < 2 * r then q + 1
  else if q % 2 = 0 then q else q + 1

/-- `num / den · 2 ^ -e` as a quotient of natural numbers. -/
def scaled (num den : Nat) (e : Int) : Nat × Nat :=
  match e with
  | .ofNat k => (num, den * Nat.pow 2 k)
  | .negSucc k => (num * Nat.pow 2 (k + 1), den)

/-- The exponent at which a positive quotient has 53 significant bits, or the least one. The two
logarithms fix it up to one, and one comparison decides. -/
def exponentFor (num den : Nat) : Int :=
  let guess : Int := (num.log2 : Int) - den.log2 - precision
  let (n, d) := scaled num den guess
  let e := if n < d * Nat.pow 2 precision then guess else guess + 1
  max e leastExponent

/-- The bit pattern of the non-negative double nearest to a quotient, halves to the even
neighbour; quotients beyond the largest double give infinity. -/
def nearestBits (num den : Nat) : Nat :=
  if num = 0 then 0
  else
    let e := exponentFor num den
    let (n, d) := scaled num den e
    -- A significand of `2 ^ 53` after rounding carries into the exponent field by itself.
    let bits := (e - leastExponent).toNat * Nat.pow 2 fractionBits + roundQuotient n d
    min bits (topField * Nat.pow 2 fractionBits)

end Binary

end Scriptlet
