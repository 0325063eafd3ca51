/-!
# Tables of character properties

A property of characters is kept as a table of rows. A row holds numbers in hexadecimal, joined by
any of `-`, `=` and `+`; rows are separated by blanks or lines and ascend by their first number. A search
halves the table until one row is left.
-/

namespace Scriptlet

/-- Rows of numbers, ascending by the first number of each. -/
abbrev Table := Array (List Nat)

namespace Table

/-- The value of a hexadecimal digit. -/
def hexDigit? (c : Char) : Option Nat :=
  if '0' ≤ c ∧ c ≤ '9' then some (c.toNat - '0'.toNat)
  else if 'A' ≤ c ∧ c ≤ 'F' then some (c.toNat - 'A'.toNat + 10)
  else if 'a' ≤ c ∧ c ≤ 'f' then some (c.toNat - 'a'.toNat + 10)
  else none

/-- One row being read: the numbers before the current one, last first, and the current one. -/
private structure Reading where
  rows : Array (List Nat)
  earlier : List Nat
  current : Nat

private def Reading.endRow (r : Reading) : Reading :=
  ⟨r.rows.push (r.current :: r.earlier).reverse, [], 0⟩

private def Reading.step (r : Reading) (c : Char) : Reading :=
  match hexDigit? c with
  | some d => { r with current := r.current * 16 + d }
  | none => if c = ' ' then r.endRow else { r with earlier := r.current :: r.earlier, current := 0 }

/-- Reads a table from its lines. -/
def parse (lines : List String) : Table :=
  let readLine (r : Reading) (line : String) : Reading := (line.toList.foldl Reading.step r).endRow
  (lines.foldl readLine ⟨#[], [], 0⟩).rows

/-- The last row among `count` rows from `low` on that starts at or below `n`, or the row `low`
itself. -/
def lastStart (t : Table) (n : Nat) (low count : Nat) : Nat :=
  if count ≤ 1 then low
  else
    let half := count / 2
    match t[low + half]? with
    | some (start :: _) =>
      if start ≤ n then lastStart t n (low + half) (count - half) else lastStart t n low half
    | _ => low
termination_by count

/-- The row whose first number is the last one not above `n`. -/
def rowAt? (t : Table) (n : Nat) : Option (List Nat) :=
  match t[t.lastStart n 0 t.size]? with
  | some (start :: rest) => if start ≤ n then some (start :: rest) else none
  | _ => none

/-- The numbers after the range that holds `n`, in a table whose rows start with ranges. -/
def inRange? (t : Table) (n : Nat) : Option (List Nat) :=
  match t.rowAt? n with
  | some (_ :: last :: rest) => if n ≤ last then some rest else none
  | _ => none

/-- The numbers after the key `n`, in a table whose rows start with single numbers. -/
def atKey? (t : Table) (n : Nat) : Option (List Nat) :=
  match t.rowAt? n with
  | some (start :: rest) => if start = n then some rest else none
  | _ => none

end Table

end Scriptlet
