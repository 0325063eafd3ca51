import Scriptlet.Number.Decimal

/-!
# Numbers as text

Numbers are doubles. They are written with the shortest decimal that reads back, in plain notation
while that stays readable and with a power of ten beyond; they are read by rounding to the nearest
double.
-/

namespace Scriptlet

/-- How a number is laid out: which magnitudes are written in plain notation, and how many digits
an exponent has at least. A magnitude `0.d₁d₂… · 10 ^ p` is plain for `plainFrom ≤ p ≤ plainTo`. -/
structure NumberLayout where
  plainFrom : Int
  plainTo : Int
  exponentDigits : Nat
  deriving Repr

namespace NumberLayout

/-- Programs print plainly from `0.000001` up to below `10 ^ 21`; exponents have two digits. -/
def printed : NumberLayout := ⟨-5, 21, 2⟩

/-- Data files draw the same lines and write exponents without leading zeros. -/
def data : NumberLayout := ⟨-5, 21, 1⟩

private def zeros (n : Nat) : Text := List.replicate n (Text.byte '0')

/-- Plain notation of the digits `ds` with the point after the first `point` of them. -/
def plain (ds : Text) (point : Int) : Text :=
  match point with
  | .negSucc k => "0." ++ zeros (k + 1) ++ ds
  | .ofNat k =>
    if k = 0 then "0." ++ ds
    else if ds.length ≤ k then ds ++ zeros (k - ds.length)
    else ds.take k ++ "." ++ ds.drop k

/-- The exponent part: its mark, its sign and its digits. -/
def exponentPart (layout : NumberLayout) (e : Int) : Text :=
  let digits := Text.ofNat e.natAbs
  let sign : Text := if e < 0 then "-" else "+"
  "e" ++ sign ++ zeros (layout.exponentDigits - digits.length) ++ digits

/-- A decimal in the notation that the layout chooses for its size. -/
def decimal (layout : NumberLayout) (d : Decimal) : Text :=
  if d.digits = 0 then "0"
  else
    let ds := Text.ofNat d.digits
    let point := d.exponent + ds.length
    if layout.plainFrom ≤ point ∧ point ≤ layout.plainTo then plain ds point
    else
      let tail := if ds.length ≤ 1 then [] else Text.byte '.' :: ds.drop 1
      ds.take 1 ++ tail ++ layout.exponentPart (point - 1)

/-- A double as text. -/
def format (layout : NumberLayout) (x : Float) : Text :=
  match Binary.ofBits x.toBits with
  | .nan => "NaN"
  | .infinite negative => if negative then "-Infinity" else "Infinity"
  | .finite negative m =>
    let digits := layout.decimal m.shortest
    if negative then Text.byte '-' :: digits else digits

end NumberLayout

/-- A number as programs print it. -/
def formatNumber (x : Float) : Text := NumberLayout.printed.format x

/-- The value of a list of decimal digits. -/
def digitsValue (ds : Text) : Nat :=
  ds.foldl (fun n b => n * 10 + (b.toNat - 0x30)) 0

/-- The double nearest to the decimal with the given digits before and after its point. -/
def readDecimal (whole fraction : Text) : Float :=
  .ofBits (Binary.nearestBits (digitsValue (whole ++ fraction)) (Nat.pow 10 fraction.length)).toUInt64

end Scriptlet
