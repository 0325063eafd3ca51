import Scriptlet.Document

/-!
# What plain texts mean

A plain text may mean nothing at all, a truth value, a number or a point in time; any other text
means itself.
-/

namespace Scriptlet.Document

/-- What a plain text means. -/
inductive Meaning where
  | null
  | bool (b : Bool)
  | int
  | float
  | timestamp
  | text
  deriving DecidableEq, Repr

namespace Meaning

/-- The tag of the values of a kind. -/
def tag : Meaning → Text
  | .null => "!!null"
  | .bool _ => "!!bool"
  | .int => "!!int"
  | .float => "!!float"
  | .timestamp => "!!timestamp"
  | .text => "!!str"

end Meaning

/-- Whether a byte is a decimal digit. -/
def isDigitByte (b : UInt8) : Bool := Text.byte '0' ≤ b && b ≤ Text.byte '9'

/-- The value of a digit in a base. -/
def digitIn? (base : Nat) (b : UInt8) : Option Nat :=
  let n := b.toNat
  let value :=
    if isDigitByte b then n - 48
    else if 97 ≤ n ∧ n ≤ 122 then n - 87
    else if 65 ≤ n ∧ n ≤ 90 then n - 55
    else base
  if value < base then some value else none

/-- The value of digits in a base; there is at least one. -/
def valueIn? (base : Nat) (digits : Text) : Option Nat :=
  if digits = [] then none
  else digits.foldlM (fun value b => (digitIn? base b).map (value * base + ·)) 0

/-- The value of a number without a sign. A leading zero and a letter name the base; a leading zero
alone means base eight. -/
def magnitude? (t : Text) : Option Nat :=
  let zero := Text.byte '0'
  match t with
  | a :: b :: rest =>
    if a ≠ zero then valueIn? 10 t
    else if b = Text.byte 'x' ∨ b = Text.byte 'X' then valueIn? 16 rest
    else if b = Text.byte 'b' ∨ b = Text.byte 'B' then valueIn? 2 rest
    else if b = Text.byte 'o' ∨ b = Text.byte 'O' then valueIn? 8 rest
    else valueIn? 8 (b :: rest)
  | _ => valueIn? 10 t

/-- Whether a text is an integer of at most 64 bits. -/
def isInteger (t : Text) : Bool :=
  match t with
  | [] => false
  | sign :: rest =>
    if sign = Text.byte '-' then (magnitude? rest).any (· ≤ Nat.pow 2 63)
    else if sign = Text.byte '+' then (magnitude? rest).any (· < Nat.pow 2 63)
    else (magnitude? t).any (· < Nat.pow 2 64)

/-- What comes after a given byte. -/
def after? (c : Char) (t : Text) : Option Text :=
  match t with
  | b :: rest => if b = Text.byte c then some rest else none
  | [] => none

/-- The text without a sign at its beginning. -/
def dropSign (t : Text) : Text :=
  match t with
  | b :: rest => if b = Text.byte '+' ∨ b = Text.byte '-' then rest else t
  | [] => []

/-- Whether a text is nothing, or an exponent of ten. -/
def isExponent (t : Text) : Bool :=
  match t with
  | [] => true
  | e :: rest =>
    let digits := dropSign rest
    (e = Text.byte 'e' || e = Text.byte 'E') && digits ≠ [] && digits.all isDigitByte

/-- Whether a text is a decimal number: digits, of which some may stand after a point, and perhaps an
exponent. -/
def isDecimal (t : Text) : Bool :=
  let t := dropSign t
  let whole := t.takeWhile isDigitByte
  match t.dropWhile isDigitByte with
  | [] => whole ≠ []
  | b :: rest =>
    if b = Text.byte '.' then
      (whole ≠ [] || rest.takeWhile isDigitByte ≠ []) && isExponent (rest.dropWhile isDigitByte)
    else whole ≠ [] && isExponent (b :: rest)

/-- The exponent after a decimal number. -/
def exponentOf (t : Text) : Int :=
  match t with
  | _ :: rest =>
    let value : Nat := (valueIn? 10 (dropSign rest)).getD 0
    if rest.head? = some (Text.byte '-') then -(value : Int) else value
  | [] => 0

/-- The first number that is too large for a double, in magnitude. -/
def overflowBound : Nat := Nat.pow 2 1024 - Nat.pow 2 970

/-- Whether a decimal number has a double next to it. The number of its digits decides unless they
are close to the bound. -/
def isBounded (t : Text) : Bool :=
  let t := dropSign t
  let whole := t.takeWhile isDigitByte
  let rest := t.drop whole.length
  let fraction := ((after? '.' rest).getD []).takeWhile isDigitByte
  let ending := ((after? '.' rest).getD rest).drop fraction.length
  let digits := (whole ++ fraction).dropWhile (· = Text.byte '0')
  let exponent := exponentOf ending - fraction.length
  let size := digits.length + exponent
  if digits = [] ∨ size ≤ 308 then true
  else if size > 309 then false
  else
    let value := (valueIn? 10 digits).getD 0
    value * Nat.pow 10 exponent.toNat < overflowBound * Nat.pow 10 (-exponent).toNat

/-- Whether a text is a decimal number that can be represented. -/
def isFloat (t : Text) : Bool := isDecimal t && isBounded t

/-- The value of one or two digits, and what comes after them. -/
def shortNumber? (t : Text) : Option (Nat × Text) :=
  let digits := (t.take 2).takeWhile isDigitByte
  (valueIn? 10 digits).map fun n => (n, t.drop digits.length)

/-- The number of days of a month. -/
def daysOf (year month : Nat) : Nat :=
  if month = 2 then
    (if year % 4 = 0 ∧ (year % 100 ≠ 0 ∨ year % 400 = 0) then 29 else 28)
  else if month = 4 ∨ month = 6 ∨ month = 9 ∨ month = 11 then 30
  else 31

/-- Reads a date: a year of four digits, a month and a day. -/
def afterDate? (t : Text) : Option Text := do
  let rest ← after? '-' (t.drop 4)
  let year ← if (t.take 4).all isDigitByte then valueIn? 10 (t.take 4) else none
  let (month, rest) ← shortNumber? rest
  let rest ← after? '-' rest
  let (day, rest) ← shortNumber? rest
  if 1 ≤ month ∧ month ≤ 12 ∧ 1 ≤ day ∧ day ≤ daysOf year month then some rest else none

/-- Reads a time of day, perhaps with a fraction of a second. -/
def afterTime? (t : Text) : Option Text := do
  let (hour, rest) ← shortNumber? t
  let rest ← after? ':' rest
  let (minute, rest) ← shortNumber? rest
  let rest ← after? ':' rest
  let (second, rest) ← shortNumber? rest
  if hour ≥ 24 ∨ minute ≥ 60 ∨ second ≥ 60 then none
  else
    match rest with
    | point :: fraction =>
      if (point = Text.byte '.' ∨ point = Text.byte ',') ∧ fraction.head?.any isDigitByte then
        some (fraction.dropWhile isDigitByte)
      else some rest
    | [] => some []

/-- Whether a text is a time zone: the letter of the zero meridian, or hours and minutes. -/
def isZone (t : Text) : Bool :=
  if t = ("Z" : Text) then true
  else
    match t with
    | [sign, h₁, h₂, colon, m₁, m₂] =>
      (sign = Text.byte '+' || sign = Text.byte '-') && colon = Text.byte ':' &&
        (valueIn? 10 [h₁, h₂]).any (· ≤ 24) && (valueIn? 10 [m₁, m₂]).any (· ≤ 60)
    | _ => false

/-- Whether a text is a point in time: a date, or a date and a time of day. -/
def isTimestamp (t : Text) : Bool :=
  match afterDate? t with
  | none => false
  | some [] => true
  | some (divider :: rest) =>
    match afterTime? rest with
    | none => false
    | some zone =>
      if divider = Text.byte ' ' then zone = []
      else (divider = Text.byte 'T' || divider = Text.byte 't') && isZone zone

/-- The words that have a meaning of their own. -/
def wordMeaning? (t : Text) : Option Meaning :=
  if [([] : Text), "~", "null", "Null", "NULL"].contains t then some .null
  else if [("true" : Text), "True", "TRUE"].contains t then some (.bool true)
  else if [("false" : Text), "False", "FALSE"].contains t then some (.bool false)
  else
    let names : List Text := [".inf", ".Inf", ".INF"]
    if ([".nan", ".NaN", ".NAN"] : List Text).contains t ∨ names.contains (dropSign t) then
      some .float
    else none

/-- What a plain text means. Points in time are recognised only where they are asked for. -/
def meaning (timestamps : Bool) (t : Text) : Meaning :=
  match wordMeaning? t with
  | some m => m
  | none =>
    match t with
    | [] => .null
    | b :: _ =>
      if b = Text.byte '.' then (if isFloat t then .float else .text)
      else if isDigitByte b ∨ b = Text.byte '+' ∨ b = Text.byte '-' then
        let digits := t.filter (· ≠ Text.byte '_')
        if timestamps ∧ isTimestamp t then .timestamp
        else if isInteger digits then .int
        else if isFloat digits then .float
        else .text
      else .text

end Scriptlet.Document
