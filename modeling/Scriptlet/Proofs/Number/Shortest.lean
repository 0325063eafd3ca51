import Scriptlet.Proofs.Number.Rounding

/-!
# Shortest decimals round back

The decimal that a magnitude is written with rounds to this magnitude (`Magnitude.shortest_holds`).
What is taken from a grid is in the interval of the magnitude (`Rounding.holds_of_onGrid?`), and
some grid is not empty: with seventeen digits, two neighbours on the grid lie so close that the
nearer one is within `2 ^ -54` of the magnitude (`Magnitude.onGrid?_seventeen`).
-/

namespace Scriptlet

/-- The number that a decimal is. -/
def Decimal.value (d : Decimal) : ℚ := d.digits * 10 ^ d.exponent

/-! ## Numbers of digits -/

theorem digitCount_spec {n : Nat} (h : 0 < n) :
    ∃ c, digitCount n = c + 1 ∧ 10 ^ c ≤ n ∧ n < 10 ^ (c + 1) := by
  have hpos : 0 < (Nat.toDigits 10 n).length := Nat.length_toDigits_pos
  obtain ⟨c, hc⟩ : ∃ c, (Nat.toDigits 10 n).length = c + 1 := Nat.exists_eq_add_one.mpr hpos
  unfold digitCount
  rw [if_neg h.ne', hc]
  refine ⟨c, rfl, ?_, (Nat.length_toDigits_le_iff (by norm_num) c.succ_pos).mp hc.le⟩
  rcases Nat.eq_zero_or_pos c with rfl | hmore
  · exact h
  · by_contra hlt
    have hle := (Nat.length_toDigits_le_iff (by norm_num) hmore).mpr (Nat.lt_of_not_le hlt)
    omega

/-- The order of a quotient is the power of ten just above it. -/
theorem decimalOrder_spec {num den : Nat} (hnum : 0 < num) (hden : 0 < den) :
    (10 : ℚ) ^ (decimalOrder num den - 1) ≤ num / den ∧
      (num / den : ℚ) < 10 ^ decimalOrder num den := by
  have hnum' : (0 : ℚ) < num := by exact_mod_cast hnum
  have hden' : (0 : ℚ) < den := by exact_mod_cast hden
  rw [le_div_iff₀ hden', div_lt_iff₀ hden']
  unfold decimalOrder
  split
  · next hle =>
    obtain ⟨c, hc, hlow, hhigh⟩ := digitCount_spec (Nat.div_pos hle hden)
    rw [Nat.le_div_iff_mul_le hden] at hlow
    rw [Nat.div_lt_iff_lt_mul hden] at hhigh
    rw [hc]
    constructor
    · push_cast
      rw [add_sub_cancel_right, zpow_natCast]
      exact_mod_cast hlow
    · rw [zpow_natCast]
      exact_mod_cast hhigh
  · next hlt =>
    obtain ⟨c, hc, hlow, hhigh⟩ := digitCount_spec
      (Nat.div_pos (show num ≤ den - 1 by omega) hnum)
    rw [Nat.le_div_iff_mul_le hnum] at hlow
    rw [Nat.div_lt_iff_lt_mul hnum] at hhigh
    have hlow' : (10 ^ c * num : ℚ) < den := by
      exact_mod_cast Nat.lt_of_le_of_lt hlow (Nat.sub_lt hden Nat.one_pos)
    have hhigh' : (den : ℚ) ≤ 10 ^ (c + 1) * num := by
      exact_mod_cast Nat.le_of_pred_lt hhigh
    rw [hc, show (1 - ((c + 1 : Nat) : Int)) = -c by push_cast; ring,
      show (-c - 1 : Int) = -((c + 1 : Nat) : Int) by push_cast; ring, zpow_neg, zpow_neg,
      zpow_natCast, zpow_natCast]
    constructor
    · rwa [inv_mul_le_iff₀ (by positivity)]
    · rwa [lt_inv_mul_iff₀ (by positivity)]

namespace Rounding

/-! ## Points of a grid -/

theorem gridPoint_eq (g : Nat) (e : Int) :
    ((gridPoint g e).1 / (gridPoint g e).2 : ℚ) = g * 10 ^ e := by
  cases e with
  | ofNat k =>
    simp only [gridPoint, Nat.pow_eq]
    push_cast
    rw [div_one, Int.ofNat_eq_natCast, zpow_natCast]
  | negSucc k =>
    simp only [gridPoint, Nat.pow_eq]
    push_cast
    rw [zpow_negSucc, div_eq_mul_inv]

theorem gridPoint_pos (g : Nat) (e : Int) : 0 < (gridPoint g e).2 := by
  cases e with
  | ofNat k => exact Nat.one_pos
  | negSucc k => exact Nat.pow_pos (by norm_num)

/-- The multiple of `10 ^ e` at or below the value, in units of `10 ^ e`. -/
def below (r : Rounding) (e : Int) : Nat :=
  r.value * (gridPoint 1 e).2 / (r.denominator * (gridPoint 1 e).1)

/-- Whether a point of a grid rounds to the double. -/
def HoldsAt (r : Rounding) (e : Int) (g : Nat) : Prop :=
  r.holds (gridPoint g e).1 (gridPoint g e).2

/-- The value lies between its two neighbours. -/
theorem below_spec {r : Rounding} (h : 0 < r.denominator) (e : Int) :
    r.below e ≤ (r.value / r.denominator / 10 ^ e : ℚ) ∧
      (r.value / r.denominator / 10 ^ e : ℚ) < r.below e + 1 := by
  have hunit := gridPoint_eq 1 e
  have hquotient : (r.value / r.denominator / 10 ^ e : ℚ) =
      (r.value * (gridPoint 1 e).2 : Nat) / (r.denominator * (gridPoint 1 e).1 : Nat) := by
    have hpos : (0 : ℚ) < (gridPoint 1 e).2 := by exact_mod_cast gridPoint_pos 1 e
    rw [Nat.cast_one, one_mul] at hunit
    rw [← hunit]
    push_cast
    field_simp
  rw [hquotient, below, ← Nat.floor_div_eq_div (K := ℚ)]
  exact ⟨Nat.floor_le (by positivity), Nat.lt_floor_add_one _⟩

section

variable {r : Rounding} {e : Int}

/-- What is taken from a grid rounds to the double. -/
theorem holds_of_onGrid? {g : Nat} (h : r.onGrid? e = some g) : r.HoldsAt e g := by
  unfold onGrid? at h
  simp only at h
  split at h
  · next hbelow habove =>
    cases h
    rcases Binary.roundQuotient_cases (r.value * (gridPoint 1 e).2)
      (r.denominator * (gridPoint 1 e).1) with heq | heq
    · rw [heq]
      exact hbelow
    · rw [heq]
      exact habove
  · next hbelow _ =>
    cases h
    exact hbelow
  · next _ habove =>
    cases h
    exact habove
  · cases h

/-- Something is taken if one of the two neighbours of the value rounds to the double. -/
theorem isSome_onGrid? (h : r.HoldsAt e (r.below e) ∨ r.HoldsAt e (r.below e + 1)) :
    (r.onGrid? e).isSome := by
  unfold onGrid?
  simp only
  split
  · rfl
  · rfl
  · rfl
  · next hbelow habove =>
    rcases h with h | h
    · exact absurd (h.symm.trans hbelow) Bool.true_eq_false_eq_False
    · exact absurd (h.symm.trans habove) Bool.true_eq_false_eq_False

/-- What is found on the first grid that has something rounds to the double. -/
theorem firstGrid_holds {order : Int} {k : Nat} (h : (r.onGrid? (order - k)).isSome) :
    ∀ {tries digits : Nat}, digits ≤ k → k < digits + tries →
      r.HoldsAt (r.firstGrid order tries digits).exponent (r.firstGrid order tries digits).digits
  | 0, digits, hle, hlt => absurd hlt (Nat.not_lt.mpr hle)
  | tries + 1, digits, hle, hlt => by
    rw [firstGrid]
    split
    · next g hg => exact holds_of_onGrid? hg
    · next hnone =>
      have hne : digits ≠ k := by
        rintro rfl
        rw [hnone] at h
        cases h
      exact firstGrid_holds h (by omega) (by omega)

end

end Rounding

/-! ## Trailing zeros -/

theorem Decimal.value_stripped (fuel : Nat) (d : Decimal) :
    (Decimal.stripped fuel d).value = d.value := by
  induction fuel generalizing d with
  | zero => rfl
  | succ fuel ih =>
    rw [stripped]
    split
    · rfl
    · next hzero =>
      obtain ⟨k, hk⟩ : ∃ k, d.digits = 10 * k := ⟨d.digits / 10, by omega⟩
      rw [ih]
      unfold value
      rw [hk, Nat.mul_div_cancel_left k (by norm_num), zpow_add_one₀ (by norm_num)]
      push_cast
      ring

namespace Magnitude

variable {m : Magnitude}

/-! ## The interval of a magnitude -/

/-- The interval over a common denominator is the one of the magnitude. -/
theorem rounding_spec (h : 0 < m.significand) :
    0 < m.rounding.denominator ∧
      (m.rounding.value / m.rounding.denominator : ℚ) = m.value ∧
      (m.rounding.low / m.rounding.denominator : ℚ) = m.low ∧
      (m.rounding.high / m.rounding.denominator : ℚ) = m.high ∧
      m.rounding.closed = decide (m.significand % 2 = 0) := by
  have hscale : (2 : ℚ) ^ m.exponent = 4 * 2 ^ (m.exponent - 2) := by
    rw [zpow_sub₀ (by norm_num)]
    norm_num
    ring
  have hnarrow : (m.significand = Nat.pow 2 Binary.fractionBits ∧
      Binary.leastExponent < m.exponent) ↔ m.Narrow := by
    norm_num [Narrow, Binary.fractionBits, Binary.leastExponent]
  have hlow : ((if m.significand = Nat.pow 2 Binary.fractionBits ∧
      Binary.leastExponent < m.exponent then 4 * m.significand - 1 else 4 * m.significand - 2 :
        Nat) : ℚ) = 4 * (m.significand - m.reach) := by
    simp only [hnarrow]
    unfold reach
    split
    · rw [Nat.cast_sub (by omega)]
      push_cast
      ring
    · rw [Nat.cast_sub (by omega)]
      push_cast
      ring
  unfold rounding value low high
  rw [hscale]
  dsimp only
  split
  · next k hk =>
    have hunit : (2 : ℚ) ^ Int.ofNat k = (Nat.pow 2 k : Nat) := by
      rw [Nat.pow_eq, Int.ofNat_eq_natCast, zpow_natCast]
      push_cast
      rfl
    rw [hk, hunit]
    refine ⟨Nat.one_pos, ?_, ?_, ?_, rfl⟩
    · push_cast
      ring
    · push_cast [hlow]
      ring
    · push_cast
      ring
  · next k hk =>
    have hunit : (2 : ℚ) ^ Int.negSucc k = ((Nat.pow 2 (k + 1) : Nat) : ℚ)⁻¹ := by
      rw [Nat.pow_eq, zpow_negSucc]
      push_cast
      rfl
    rw [hk, hunit]
    refine ⟨Nat.pow_pos (by norm_num), ?_, ?_, ?_, rfl⟩
    · push_cast
      ring
    · push_cast [hlow]
      ring
    · push_cast
      ring

theorem holdsAt_iff (h : 0 < m.significand) {e : Int} {g : Nat} :
    m.rounding.HoldsAt e g ↔ m.Holds (g * 10 ^ e) := by
  obtain ⟨hden, -, hlow, hhigh, hclosed⟩ := rounding_spec h
  have hden' : (0 : ℚ) < m.rounding.denominator := by exact_mod_cast hden
  have hpoint := Rounding.gridPoint_eq g e
  have hpos : (0 : ℚ) < (Rounding.gridPoint g e).2 := by
    exact_mod_cast Rounding.gridPoint_pos g e
  unfold Rounding.HoldsAt Rounding.holds
  rw [hclosed, ← hpoint]
  generalize (Rounding.gridPoint g e).1 = n at *
  generalize (Rounding.gridPoint g e).2 = d at *
  have hle : m.rounding.low * d ≤ n * m.rounding.denominator ↔ m.low ≤ (n / d : ℚ) := by
    rw [← hlow, div_le_div_iff₀ hden' hpos]
    exact_mod_cast Iff.rfl
  have hle' : n * m.rounding.denominator ≤ m.rounding.high * d ↔ (n / d : ℚ) ≤ m.high := by
    rw [← hhigh, div_le_div_iff₀ hpos hden']
    exact_mod_cast Iff.rfl
  have hlt : m.rounding.low * d < n * m.rounding.denominator ↔ m.low < (n / d : ℚ) := by
    rw [← not_le, ← not_le, ← hlow, div_le_div_iff₀ hpos hden']
    exact_mod_cast Iff.rfl
  have hlt' : n * m.rounding.denominator < m.rounding.high * d ↔ (n / d : ℚ) < m.high := by
    rw [← not_le, ← not_le, ← hhigh, div_le_div_iff₀ hden' hpos]
    exact_mod_cast Iff.rfl
  by_cases heven : m.significand % 2 = 0
  · simp only [heven, decide_true, if_true, Bool.and_eq_true, decide_eq_true_iff, hle, hle']
    exact ⟨fun h => ⟨h.1, h.2, fun _ => heven⟩, fun h => ⟨h.low_le, h.le_high⟩⟩
  · simp only [heven, decide_false, Bool.false_eq_true, if_false, Bool.and_eq_true,
      decide_eq_true_iff, hlt, hlt']
    constructor
    · rintro ⟨hlow, hhigh⟩
      exact ⟨hlow.le, hhigh.le, fun hends => (hends.elim hlow.ne' hhigh.ne).elim⟩
    · intro h
      exact ⟨h.low_le.lt_of_ne fun hends => heven (h.even (.inl hends.symm)),
        h.le_high.lt_of_ne fun hends => heven (h.even (.inr hends))⟩

/-- With seventeen digits, a neighbour on the grid rounds to the magnitude. -/
theorem onGrid?_seventeen (hm : m.Canonical) (h : 0 < m.significand) :
    (m.rounding.onGrid?
      (decimalOrder m.rounding.value m.rounding.denominator - (17 : Nat))).isSome := by
  obtain ⟨hden, hvalue, -⟩ := rounding_spec h
  have hvalue_pos : 0 < m.value := (low_pos h).trans m.low_lt_value
  have hnum : 0 < m.rounding.value := by
    by_contra hzero
    rw [Nat.eq_zero_of_not_pos hzero, Nat.cast_zero, zero_div] at hvalue
    exact hvalue_pos.ne hvalue
  obtain ⟨horder, -⟩ := decimalOrder_spec hnum hden
  generalize decimalOrder m.rounding.value m.rounding.denominator = order at *
  obtain ⟨hbelow, habove⟩ := Rounding.below_spec hden (order - (17 : Nat))
  rw [hvalue] at horder hbelow habove
  have hunit : (0 : ℚ) < 10 ^ (order - (17 : Nat)) := by positivity
  have hfine : 10 ^ 16 * 10 ^ (order - (17 : Nat)) ≤ m.value := by
    rw [pow_mul_zpow (by norm_num)]
    convert horder using 2
    push_cast
    ring
  -- whatever is at most half a step of the grid away is near enough
  have hnear (g : Nat) (hg : |g - m.value / 10 ^ (order - (17 : Nat))| ≤ 1 / 2) :
      m.rounding.HoldsAt (order - (17 : Nat)) g := by
    refine (holdsAt_iff h).mpr (holds_of_near hm ?_)
    generalize (10 : ℚ) ^ (order - (17 : Nat)) = unit at *
    calc |g * unit - m.value| * 2 ^ 54
        = |g - m.value / unit| * unit * 2 ^ 54 := by
          rw [← abs_of_pos hunit, ← abs_mul, abs_of_pos hunit, sub_mul,
            div_mul_cancel₀ _ hunit.ne']
      _ ≤ 1 / 2 * unit * 2 ^ 54 := by gcongr
      _ < 10 ^ 16 * unit := by linarith
      _ ≤ m.value := hfine
  refine Rounding.isSome_onGrid? ?_
  rcases le_total (m.value / 10 ^ (order - (17 : Nat)))
    (m.rounding.below (order - (17 : Nat)) + 1 / 2) with hle | hle
  · refine .inl (hnear _ ?_)
    rw [abs_le]
    constructor
    · linarith
    · linarith
  · refine .inr (hnear _ ?_)
    push_cast
    rw [abs_le]
    constructor
    · linarith
    · linarith

/-- The decimal that stands for a magnitude rounds to it. -/
theorem shortest_holds (hm : m.Canonical) (h : 0 < m.significand) :
    m.Holds m.shortest.value := by
  unfold shortest
  rw [if_neg h.ne', Decimal.value_stripped]
  exact (holdsAt_iff h).mp
    (Rounding.firstGrid_holds (onGrid?_seventeen hm h) (by norm_num) (by norm_num))

end Magnitude

end Scriptlet
