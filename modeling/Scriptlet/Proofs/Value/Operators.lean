import Scriptlet.Proofs.Tree.WellFormed
import Scriptlet.Value.Native
import Scriptlet.Value.Operator

/-!
# What operators yield

Operators and native functions yield plain values: no functions, classes or instances. The operators
that stand in well-formed trees are known, so that they fail only because of their operands.
-/

namespace Scriptlet

/-- Whether a fault says that the program was resolved or read in the wrong way. -/
def RuntimeFault.isInternal : RuntimeFault → Bool
  | .access fault => fault.isMismatch
  | .unresolved _ | .inheritedFrom _ | .unknownOperator _ => true
  | _ => false

/-- Such faults are those with one code. -/
theorem RuntimeFault.code_eq_iff (fault : RuntimeFault) :
    fault.code = ("E9001" : Text) ↔ fault.isInternal := by
  cases fault with
  | access fault =>
    cases fault with
    | undefined name => exact ⟨fun h => absurd h (show ("E4011" : Text) ≠ "E9001" by decide), nofun⟩
    | tooFar | absent => exact ⟨fun _ => rfl, fun _ => rfl⟩
  | unresolved | inheritedFrom | unknownOperator => exact ⟨fun _ => rfl, fun _ => rfl⟩
  | _ => exact ⟨fun h => absurd h (by dsimp only [RuntimeFault.code]; decide), nofun⟩

namespace Value

/-- A value that holds no functions. -/
def IsPlain : Value → Prop
  | .function _ | .cls _ | .object .. => False
  | _ => True

theorem isPlain_ofLiteral (l : Literal) : (ofLiteral l).IsPlain := by
  cases l with
  | none | bool | number | text => trivial

theorem repeatText_isPlain {t : Text} {count v : Value} (h : repeatText t count = .ok v) :
    v.IsPlain := by
  unfold repeatText at h
  repeat' split at h
  all_goals
    cases h
    try trivial

theorem repeatText_error {t : Text} {count : Value} {fault : RuntimeFault}
    (h : repeatText t count = .error fault) : fault.isInternal = false := by
  unfold repeatText at h
  repeat' split at h
  all_goals
    cases h
    try rfl

theorem combine_isPlain {kind : Kind} {op : Text} {left right v : Value}
    (h : combine kind op left right = .ok v) : v.IsPlain := by
  unfold combine at h
  split at h
  case h_6 => exact repeatText_isPlain h
  case h_7 => exact repeatText_isPlain h
  case h_8 =>
    unfold arithmetic at h
    split at h
    all_goals
      cases h
      try trivial
  all_goals
    cases h
    try trivial

theorem combine_error {kind : Kind} {op : Text} {left right : Value} {fault : RuntimeFault}
    (hkind : kind.isBinary) (h : combine kind op left right = .error fault) :
    fault.isInternal = false := by
  unfold combine at h
  split at h
  case h_6 => exact repeatText_error h
  case h_7 => exact repeatText_error h
  case h_8 =>
    unfold arithmetic at h
    split at h
    case h_9 =>
      -- every other binary operator was split off before
      cases kind
      all_goals contradiction
    all_goals cases h
  all_goals
    cases h
    try rfl

theorem unary_isPlain {kind : Kind} {op : Text} {operand v : Value}
    (h : unary kind op operand = .ok v) : v.IsPlain := by
  unfold unary at h
  split at h
  all_goals
    cases h
    try trivial

theorem unary_error {kind : Kind} {op : Text} {operand : Value} {fault : RuntimeFault}
    (hkind : kind = .bang ∨ kind = .minus) (h : unary kind op operand = .error fault) :
    fault.isInternal = false := by
  rcases hkind with rfl | rfl
  · cases h
  · cases operand with
    | number x => cases h
    | _ => cases h; rfl

end Value

theorem Kind.isBinary_binary {kind : Kind} (h : kind.isCompoundAssign) : kind.binary.isBinary := by
  cases kind
  all_goals first | rfl | cases h

theorem Native.call_isPlain {clock : Float} {native : Native} {args : List Value} {v : Value}
    (h : native.call clock args = .ok v) : v.IsPlain := by
  unfold Native.call at h
  split at h
  case h_4 =>
    unfold Native.searchText at h
    repeat' split at h
    all_goals
      cases h
      try trivial
  all_goals
    cases h
    try trivial

end Scriptlet
