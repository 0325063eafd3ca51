import Scriptlet.Proofs.Number.Shortest
import Scriptlet.Proofs.Token.Lexemes

/-!
# Plain notation

The digits of a natural number have this number as their value (`digitsValue_ofNat`). In plain
notation, with zeros before or after them and with a point among them, they make a numeral whose
value is that of the digits with the point in its place (`NumberLayout.exists_numeral_plain`). This
is how a decimal is written whose value lies in the range that a layout has for plain notation
(`NumberLayout.exists_numeral_decimal`).
-/

namespace Scriptlet

/-! ## Values of digits -/

theorem foldl_digits (n : Nat) (ds : Text) :
    ds.foldl (fun n b => n * 10 + (b.toNat - 0x30)) n = n * 10 ^ ds.length + digitsValue ds := by
  induction ds using List.reverseRecOn with
  | nil => simp [digitsValue]
  | append_singleton ds b ih =>
    unfold digitsValue at ih ⊢
    simp only [List.foldl_append, List.foldl_cons, List.foldl_nil, List.length_append,
      List.length_singleton, ih]
    ring

theorem digitsValue_append (ds ds' : Text) :
    digitsValue (ds ++ ds') = digitsValue ds * 10 ^ ds'.length + digitsValue ds' := by
  rw [digitsValue, List.foldl_append, foldl_digits]
  rfl

theorem digitsValue_zeros (n : Nat) : digitsValue (List.replicate n 0x30) = 0 := by
  induction n with
  | zero => rfl
  | succ n ih =>
    rw [List.replicate_succ', digitsValue_append, ih]
    rfl

/-- The byte of a digit is a digit and has its number. -/
theorem byte_digit {c : Char} (h : c.isDigit) :
    Lexer.isDigit (Text.byte c) ∧ (Text.byte c).toNat = c.toNat := by
  obtain ⟨hlow, hhigh⟩ : 48 ≤ c.toNat ∧ c.toNat ≤ 57 := by
    simpa [Char.isDigit, UInt32.le_iff_toNat_le] using h
  have htoNat : (Text.byte c).toNat = c.toNat := Nat.mod_eq_of_lt (by omega)
  refine ⟨?_, htoNat⟩
  simp only [Lexer.isDigit, UInt8.le_iff_toNat_le, htoNat, Bool.and_eq_true, decide_eq_true_iff]
  exact ⟨hlow, hhigh⟩

theorem isDigits_ofNat (n : Nat) : IsDigits (Text.ofNat n) := by
  constructor
  · unfold Text.ofNat
    rw [Ne, List.map_eq_nil_iff]
    exact Nat.toDigits_ne_nil
  · intro d hd
    obtain ⟨c, hc, rfl⟩ := List.mem_map.mp hd
    exact (byte_digit (Nat.isDigit_of_mem_toDigits (by norm_num) (by norm_num) hc)).1

theorem digitsValue_ofNat (n : Nat) : digitsValue (Text.ofNat n) = n := by
  have hfold := Nat.ofDigitChars_ten_toDigits (n := n)
  unfold Nat.ofDigitChars at hfold
  unfold digitsValue Text.ofNat
  rw [List.foldl_map]
  refine (List.foldl_ext _ _ _ fun value c hc => ?_).trans hfold
  rw [(byte_digit (Nat.isDigit_of_mem_toDigits (by norm_num) (by norm_num) hc)).2, mul_comm]
  rfl

theorem length_ofNat {n : Nat} (h : n ≠ 0) : (Text.ofNat n).length = digitCount n := by
  rw [Text.ofNat, List.length_map, digitCount, if_neg h]

theorem isDigits_append {s t : Text} (hs : IsDigits s) (ht : ∀ d ∈ t, Lexer.isDigit d) :
    IsDigits (s ++ t) :=
  ⟨List.append_ne_nil_of_left_ne_nil hs.1 t, List.forall_mem_append.mpr ⟨hs.2, ht⟩⟩

namespace NumberLayout

/-! ## Plain notation -/

theorem isDigit_zeros (n : Nat) : ∀ d ∈ (List.replicate n 0x30 : Text), Lexer.isDigit d := by
  intro d hd
  rw [List.eq_of_mem_replicate hd]
  rfl

/-- Zeros after the point move the digits down. -/
theorem numeral_zeros {ds : Text} (hds : IsDigits ds) (n : Nat) :
    Numeral [0x30] (List.replicate n 0x30 ++ ds) (0x30 :: 0x2E :: (List.replicate n 0x30 ++ ds)) ∧
      (digitsValue ([0x30] ++ (List.replicate n 0x30 ++ ds)) /
          10 ^ (List.replicate n (0x30 : UInt8) ++ ds).length : ℚ) =
        digitsValue ds * 10 ^ (-n - ds.length : Int) := by
  have hfraction : IsDigits (List.replicate n 0x30 ++ ds) :=
    ⟨List.append_ne_nil_of_right_ne_nil _ hds.1,
      List.forall_mem_append.mpr ⟨isDigit_zeros n, hds.2⟩⟩
  refine ⟨.fraction ⟨List.cons_ne_nil _ _, isDigit_zeros 1⟩ hfraction, ?_⟩
  have hzero : digitsValue [0x30] = 0 := rfl
  have hlength : (-n - ds.length : Int) = -((n + ds.length : Nat) : Int) := by
    push_cast
    ring
  rw [digitsValue_append, digitsValue_append, digitsValue_zeros, hzero, zero_mul, zero_mul,
    zero_add, zero_add, List.length_append, List.length_replicate, hlength, zpow_neg, zpow_natCast,
    div_eq_mul_inv]

/-- Digits in plain notation are a numeral, with the point after the first `point` of them. -/
theorem exists_numeral_plain {ds : Text} (hds : IsDigits ds) (point : Int) :
    ∃ w f, Numeral w f (plain ds point) ∧
      (digitsValue (w ++ f) / 10 ^ f.length : ℚ) =
        digitsValue ds * 10 ^ (point - ds.length) := by
  cases point with
  | negSucc k =>
    obtain ⟨hnumeral, hvalue⟩ := numeral_zeros hds (k + 1)
    exact ⟨_, _, hnumeral, hvalue⟩
  | ofNat k =>
    unfold plain
    dsimp only
    split
    · next hk =>
      subst hk
      obtain ⟨hnumeral, hvalue⟩ := numeral_zeros hds 0
      exact ⟨_, _, hnumeral, hvalue⟩
    · split
      · next hk hle =>
        refine ⟨ds ++ List.replicate (k - ds.length) 0x30, [],
          .whole (isDigits_append hds (isDigit_zeros (k - ds.length))), ?_⟩
        rw [List.append_nil, digitsValue_append, digitsValue_zeros, List.length_replicate,
          List.length_nil, pow_zero, div_one, add_zero, Int.ofNat_eq_natCast, ← Nat.cast_sub hle,
          zpow_natCast]
        push_cast
        rfl
      · next hk hlt =>
        have hwhole : IsDigits (ds.take k) :=
          ⟨fun h => by simp [hk, hds.1] at h, fun d hd => hds.2 d (List.mem_of_mem_take hd)⟩
        have hfraction : IsDigits (ds.drop k) :=
          ⟨fun h => hlt (List.drop_eq_nil_iff.mp h), fun d hd => hds.2 d (List.mem_of_mem_drop hd)⟩
        refine ⟨ds.take k, ds.drop k, ?_, ?_⟩
        · have htext : ds.take k ++ "." ++ ds.drop k = ds.take k ++ 0x2E :: ds.drop k := by
            rw [List.append_assoc]
            rfl
          rw [htext]
          exact .fraction hwhole hfraction
        · have hpoint : (Int.ofNat k - ds.length : Int) = -((ds.length - k : Nat) : Int) := by
            rw [Nat.cast_sub (by omega), Int.ofNat_eq_natCast]
            ring
          rw [List.take_append_drop, List.length_drop, hpoint, zpow_neg, zpow_natCast,
            div_eq_mul_inv]

/-- The order of a decimal, which is where its point stands among its digits. -/
theorem point_spec {d : Decimal} (h : d.digits ≠ 0) :
    (10 : ℚ) ^ (d.exponent + (Text.ofNat d.digits).length - 1) ≤ d.value ∧
      d.value < 10 ^ (d.exponent + (Text.ofNat d.digits).length) := by
  obtain ⟨c, hc, hlow, hhigh⟩ := digitCount_spec (Nat.pos_of_ne_zero h)
  have hunit : (0 : ℚ) < 10 ^ d.exponent := by positivity
  rw [length_ofNat h, hc]
  have hlow' : (10 ^ c : ℚ) ≤ d.digits := by exact_mod_cast hlow
  have hhigh' : (d.digits : ℚ) < 10 ^ (c + 1) := by exact_mod_cast hhigh
  constructor
  · calc (10 : ℚ) ^ (d.exponent + (c + 1 : Nat) - 1) = 10 ^ c * 10 ^ d.exponent := by
          rw [pow_mul_zpow (by norm_num)]
          congr 1
          push_cast
          ring
      _ ≤ d.value := mul_le_mul_of_nonneg_right hlow' hunit.le
  · calc d.value < 10 ^ (c + 1) * 10 ^ d.exponent := mul_lt_mul_of_pos_right hhigh' hunit
      _ = 10 ^ (d.exponent + (c + 1 : Nat)) := by
          rw [pow_mul_zpow (by norm_num), add_comm]

/-- A decimal in the range of plain notation is written as a numeral with its value. -/
theorem exists_numeral_decimal (layout : NumberLayout) {d : Decimal} (h : d.digits ≠ 0)
    (hlow : (10 : ℚ) ^ (layout.plainFrom - 1) ≤ d.value)
    (hhigh : d.value < 10 ^ layout.plainTo) :
    ∃ w f, Numeral w f (layout.decimal d) ∧
      (digitsValue (w ++ f) / 10 ^ f.length : ℚ) = d.value := by
  obtain ⟨hpoint, hpoint'⟩ := point_spec h
  have hfrom := (zpow_lt_zpow_iff_right₀ (by norm_num)).mp (hlow.trans_lt hpoint')
  have hto := (zpow_lt_zpow_iff_right₀ (by norm_num)).mp (hpoint.trans_lt hhigh)
  obtain ⟨w, f, hnumeral, hvalue⟩ := exists_numeral_plain (isDigits_ofNat d.digits)
    (d.exponent + (Text.ofNat d.digits).length)
  refine ⟨w, f, ?_, ?_⟩
  · unfold decimal
    rw [if_neg h]
    dsimp only
    rw [if_pos ⟨by omega, by omega⟩]
    exact hnumeral
  · rw [hvalue, digitsValue_ofNat, add_sub_cancel_right]
    rfl

end NumberLayout

end Scriptlet
