import Scriptlet.Proofs.Number.Patterns

/-!
# Rounding to doubles

A magnitude is the nearest one to all numbers of an interval around it, from half a unit of its last
bit below it to half a unit above; at a power of two the doubles below lie twice as close, and so
the interval begins at a quarter (`Magnitude.Holds`). These intervals lie in the order of the
magnitudes (`Magnitude.high_le_low`), and a quotient in the interval of a magnitude is rounded to
the pattern of this magnitude (`Binary.nearestBits_of_holds`): the exponent that is found for the
quotient is the one of the magnitude, or the one below it, and then the significand is carried.
-/

namespace Scriptlet

theorem pow_mul_zpow {b : ℚ} (hb : b ≠ 0) (n : Nat) (e : Int) : b ^ n * b ^ e = b ^ (n + e) := by
  rw [← zpow_natCast, ← zpow_add₀ hb]

namespace Magnitude

/-- The number that a magnitude is. -/
def value (m : Magnitude) : ℚ := m.significand * 2 ^ m.exponent

/-- Whether the magnitudes below lie closer than those above. -/
def Narrow (m : Magnitude) : Prop := m.significand = 2 ^ 52 ∧ -1074 < m.exponent

instance (m : Magnitude) : Decidable m.Narrow := inferInstanceAs (Decidable (_ ∧ _))

/-- How far the interval of a magnitude reaches down, in units of the last bit. -/
def reach (m : Magnitude) : ℚ := if m.Narrow then 1 / 4 else 1 / 2

/-- Where the interval of a magnitude begins. -/
def low (m : Magnitude) : ℚ := (m.significand - m.reach) * 2 ^ m.exponent

/-- Where the interval of a magnitude ends. -/
def high (m : Magnitude) : ℚ := (m.significand + 1 / 2) * 2 ^ m.exponent

/-- Whether a number rounds to a magnitude. The ends of the interval, halfway to the next magnitude,
round to the even one. -/
structure Holds (m : Magnitude) (q : ℚ) : Prop where
  low_le : m.low ≤ q
  le_high : q ≤ m.high
  even : q = m.low ∨ q = m.high → m.significand % 2 = 0

section

variable {m k : Magnitude}

theorem reach_pos (m : Magnitude) : 0 < m.reach := by
  unfold reach
  split <;> norm_num

theorem reach_le (m : Magnitude) : m.reach ≤ 1 / 2 := by
  unfold reach
  split <;> norm_num

theorem low_lt_value (m : Magnitude) : m.low < m.value := by
  have hunit : (0 : ℚ) < 2 ^ m.exponent := by positivity
  exact mul_lt_mul_of_pos_right (sub_lt_self _ m.reach_pos) hunit

theorem low_pos (hm : 0 < m.significand) : 0 < m.low := by
  have hs : (1 : ℚ) ≤ m.significand := by exact_mod_cast hm
  have hreach := m.reach_le
  refine mul_pos ?_ (by positivity)
  linarith

/-- Above the least exponent no interval reaches into the numbers that the exponent below has
magnitudes for. -/
theorem Canonical.le_low (hm : m.Canonical) (he : -1074 < m.exponent) :
    (2 ^ 53 - 1 / 2) * 2 ^ (m.exponent - 1) ≤ m.low := by
  have hunit : (0 : ℚ) < 2 ^ (m.exponent - 1) := by positivity
  have hsplit : (2 : ℚ) ^ m.exponent = 2 * 2 ^ (m.exponent - 1) := by
    rw [mul_comm, ← zpow_add_one₀ (by norm_num), sub_add_cancel]
  have hfull : 2 ^ 52 ≤ m.significand := hm.full.resolve_right (by omega)
  have hreach : (2 ^ 52 - 1 / 4 : ℚ) ≤ m.significand - m.reach := by
    unfold reach
    split
    · next hnarrow =>
      rw [hnarrow.1]
      norm_num
    · next hnarrow =>
      have hne : m.significand ≠ 2 ^ 52 := fun h => hnarrow ⟨h, he⟩
      have hlt : (2 ^ 52 + 1 : ℚ) ≤ m.significand := by
        exact_mod_cast Nat.lt_of_le_of_ne hfull hne.symm
      linarith
  unfold low
  rw [hsplit]
  nlinarith

/-- Only the interval of a power of two reaches below it. -/
theorem Canonical.eq_of_low_lt (hm : m.Canonical) (he : -1074 < m.exponent)
    (h : m.low < 2 ^ 52 * 2 ^ m.exponent) : m.significand = 2 ^ 52 := by
  have hunit : (0 : ℚ) < 2 ^ m.exponent := by positivity
  have hs : (m.significand - m.reach : ℚ) < 2 ^ 52 := lt_of_mul_lt_mul_right h hunit.le
  have hreach := m.reach_le
  have hlt : (m.significand : ℚ) < 2 ^ 52 + 1 := by linarith
  have hlt' : m.significand < 2 ^ 52 + 1 := by exact_mod_cast hlt
  have hfull := hm.full.resolve_right (by omega)
  omega

/-- Measured in units of the last bit, a number that rounds to a magnitude rounds to its
significand. -/
theorem Holds.in_units {q : ℚ} (h : m.Holds q) :
    (m.significand - 1 / 2 : ℚ) ≤ q / 2 ^ m.exponent ∧
      q / 2 ^ m.exponent ≤ m.significand + 1 / 2 ∧
      (q / 2 ^ m.exponent = m.significand - 1 / 2 ∨ q / 2 ^ m.exponent = m.significand + 1 / 2 →
        m.significand % 2 = 0) := by
  have hunit : (0 : ℚ) < 2 ^ m.exponent := by positivity
  have hreach := m.reach_le
  have hlow : m.significand - m.reach ≤ q / 2 ^ m.exponent := (le_div_iff₀ hunit).mpr h.low_le
  refine ⟨by linarith, (div_le_iff₀ hunit).mpr h.le_high, ?_⟩
  rintro (heq | heq)
  · have hhalf : m.reach = 1 / 2 := by linarith
    refine h.even (.inl ?_)
    rw [low, hhalf]
    exact (div_eq_iff hunit.ne').mp heq
  · exact h.even (.inr ((div_eq_iff hunit.ne').mp heq))

/-- The intervals lie in the order of the magnitudes. -/
theorem high_le_low (hk : k.Canonical) (hm : m.Canonical) (h : k.Below m) : k.high ≤ m.low := by
  have hunit : (0 : ℚ) < 2 ^ k.exponent := by positivity
  rcases h with hlt | ⟨heq, hlt⟩
  · have hle : (2 : ℚ) ^ k.exponent ≤ 2 ^ (m.exponent - 1) :=
      zpow_le_zpow_right₀ (by norm_num) (by omega)
    have hs : (k.significand + 1 : ℚ) ≤ 2 ^ 53 := by exact_mod_cast hk.significand_lt
    have he : -1074 < m.exponent := lt_of_le_of_lt hk.least_le hlt
    calc k.high ≤ (2 ^ 53 - 1 / 2) * 2 ^ k.exponent :=
          mul_le_mul_of_nonneg_right (by linarith) hunit.le
      _ ≤ (2 ^ 53 - 1 / 2) * 2 ^ (m.exponent - 1) :=
          mul_le_mul_of_nonneg_left hle (by norm_num)
      _ ≤ m.low := hm.le_low he
  · have hs : (k.significand + 1 : ℚ) ≤ m.significand := by exact_mod_cast hlt
    have hreach := m.reach_le
    unfold high low
    rw [← heq]
    exact mul_le_mul_of_nonneg_right (by linarith) hunit.le

/-- The interval of a magnitude is at least `2 ^ -54` of it wide to each side. -/
theorem holds_of_near (hm : m.Canonical) {q : ℚ}
    (h : |q - m.value| * 2 ^ 54 < m.value) : m.Holds q := by
  have hunit : (0 : ℚ) < 2 ^ m.exponent := by positivity
  have hs : (m.significand : ℚ) < 2 ^ 53 := by exact_mod_cast hm.significand_lt
  -- the bound on the distance, in units of the last bit, is within reach
  have hwidth : (m.significand : ℚ) ≤ m.reach * 2 ^ 54 := by
    unfold reach
    split
    · next hnarrow =>
      rw [hnarrow.1]
      norm_num
    · linarith
  have hreach := m.reach_le
  have hfar : |q - m.value| < m.reach * 2 ^ m.exponent := by
    have hbound : m.value ≤ m.reach * 2 ^ m.exponent * 2 ^ 54 := by
      unfold value
      nlinarith
    have hlt := h.trans_le hbound
    exact lt_of_mul_lt_mul_right hlt (by norm_num)
  obtain ⟨hbelow, habove⟩ := abs_lt.mp hfar
  have hlow : m.low = m.value - m.reach * 2 ^ m.exponent := sub_mul ..
  have hhigh : m.high = m.value + 1 / 2 * 2 ^ m.exponent := add_mul ..
  have hhalf : m.reach * 2 ^ m.exponent ≤ 1 / 2 * 2 ^ m.exponent :=
    mul_le_mul_of_nonneg_right hreach hunit.le
  refine ⟨by linarith, by linarith, ?_⟩
  rintro (rfl | rfl)
  · linarith
  · linarith

end

end Magnitude

namespace Binary

/-! ## Quotients -/

/-- The rounded quotient is the natural number within one half, the even one of two. -/
theorem roundQuotient_eq {n d s : Nat} (hd : 0 < d) (hlow : (s : ℚ) - 1 / 2 ≤ n / d)
    (hhigh : (n : ℚ) / d ≤ s + 1 / 2)
    (heven : (n : ℚ) / d = s - 1 / 2 ∨ (n : ℚ) / d = s + 1 / 2 → s % 2 = 0) :
    roundQuotient n d = s := by
  have hd' : (0 : ℚ) < d := by exact_mod_cast hd
  have hbelow : 2 * (s * d) ≤ 2 * n + d := by
    rw [le_div_iff₀ hd'] at hlow
    have hle : (2 * (s * d) : ℚ) ≤ 2 * n + d := by linarith
    exact_mod_cast hle
  have habove : 2 * n ≤ 2 * (s * d) + d := by
    rw [div_le_iff₀ hd'] at hhigh
    have hle : (2 * n : ℚ) ≤ 2 * (s * d) + d := by linarith
    exact_mod_cast hle
  have htie : 2 * (s * d) = 2 * n + d ∨ 2 * n = 2 * (s * d) + d → s % 2 = 0 := by
    rintro (heq | heq)
    · have heq' : (2 * (s * d) : ℚ) = 2 * n + d := by exact_mod_cast heq
      refine heven (.inl ?_)
      rw [div_eq_iff hd'.ne']
      linarith
    · have heq' : (2 * n : ℚ) = 2 * (s * d) + d := by exact_mod_cast heq
      refine heven (.inr ?_)
      rw [div_eq_iff hd'.ne']
      linarith
  have hdivide := Nat.div_add_mod n d
  have hrest := Nat.mod_lt n hd
  unfold roundQuotient
  dsimp only
  generalize n / d = q at *
  generalize n % d = r at *
  rw [Nat.mul_comm] at hdivide
  -- the quotient is rounded down or up
  rcases Nat.lt_trichotomy s q with hlt | rfl | hlt
  · have hmul := Nat.mul_le_mul_right d hlt
    rw [Nat.succ_mul] at hmul
    omega
  · split
    · rfl
    · rw [if_neg (by omega), if_pos (htie (by omega))]
  · obtain rfl | hlt' := Nat.eq_or_lt_of_le (show q + 1 ≤ s from hlt)
    · rw [Nat.add_mul] at hbelow htie
      split
      · omega
      · split
        · rfl
        · have hodd := htie (by omega)
          rw [if_neg (by omega)]
    · have hmul := Nat.mul_le_mul_right d hlt'
      rw [Nat.succ_mul, Nat.add_mul] at hmul
      omega

theorem roundQuotient_cases (n d : Nat) :
    roundQuotient n d = n / d ∨ roundQuotient n d = n / d + 1 := by
  unfold roundQuotient
  dsimp only
  split
  · exact .inl rfl
  · split
    · exact .inr rfl
    · split
      · exact .inl rfl
      · exact .inr rfl

theorem scaled_eq (num den : Nat) (e : Int) :
    ((scaled num den e).1 / (scaled num den e).2 : ℚ) = num / den / 2 ^ e := by
  cases e with
  | ofNat k =>
    simp only [scaled, Nat.pow_eq]
    push_cast
    rw [div_div, Int.ofNat_eq_natCast, zpow_natCast]
  | negSucc k =>
    simp only [scaled, Nat.pow_eq]
    push_cast
    rw [zpow_negSucc, div_inv_eq_mul, div_mul_eq_mul_div]

theorem scaled_pos {num den : Nat} (h : 0 < den) (e : Int) : 0 < (scaled num den e).2 := by
  cases e with
  | ofNat k => exact Nat.mul_pos h (Nat.pow_pos (by norm_num))
  | negSucc k => exact h

/-! ## Exponents -/

/-- The logarithms of a quotient's numbers fix its own up to one. -/
theorem quotient_bounds {num den : Nat} (hnum : 0 < num) (hden : 0 < den) :
    2 ^ ((num.log2 : Int) - den.log2 - 1) < (num / den : ℚ) ∧
      (num / den : ℚ) < 2 ^ ((num.log2 : Int) - den.log2 + 1) := by
  have hnum₀ : (2 ^ num.log2 : ℚ) ≤ num := by exact_mod_cast Nat.log2_self_le hnum.ne'
  have hnum₁ : (num : ℚ) < 2 ^ (num.log2 + 1) := by exact_mod_cast Nat.lt_log2_self
  have hden₀ : (2 ^ den.log2 : ℚ) ≤ den := by exact_mod_cast Nat.log2_self_le hden.ne'
  have hden₁ : (den : ℚ) < 2 ^ (den.log2 + 1) := by exact_mod_cast Nat.lt_log2_self
  have hden' : (0 : ℚ) < den := by exact_mod_cast hden
  rw [lt_div_iff₀ hden', div_lt_iff₀ hden']
  constructor
  · calc (2 : ℚ) ^ ((num.log2 : Int) - den.log2 - 1) * den
        < 2 ^ ((num.log2 : Int) - den.log2 - 1) * 2 ^ (den.log2 + 1) :=
          mul_lt_mul_of_pos_left hden₁ (by positivity)
      _ = 2 ^ num.log2 := by
          rw [mul_comm, pow_mul_zpow two_ne_zero, ← zpow_natCast]
          congr 1
          push_cast
          ring
      _ ≤ num := hnum₀
  · calc (num : ℚ) < 2 ^ (num.log2 + 1) := hnum₁
      _ = 2 ^ ((num.log2 : Int) - den.log2 + 1) * 2 ^ den.log2 := by
          rw [mul_comm, pow_mul_zpow two_ne_zero, ← zpow_natCast]
          congr 1
          push_cast
          ring
      _ ≤ 2 ^ ((num.log2 : Int) - den.log2 + 1) * den :=
          mul_le_mul_of_nonneg_left hden₀ (by positivity)

theorem scaled_lt_iff {num den : Nat} (hden : 0 < den) (e : Int) :
    (scaled num den e).1 < (scaled num den e).2 * 2 ^ 53 ↔ (num / den : ℚ) < 2 ^ (53 + e) := by
  have hpos : (0 : ℚ) < (scaled num den e).2 := by exact_mod_cast scaled_pos hden e
  have hscaled : ((scaled num den e).1 / (scaled num den e).2 : ℚ) < 2 ^ 53 ↔
      (num / den : ℚ) < 2 ^ (53 + e) := by
    rw [scaled_eq, div_lt_iff₀ (by positivity), pow_mul_zpow two_ne_zero]
    rfl
  rw [← hscaled, div_lt_iff₀' hpos]
  exact_mod_cast Iff.rfl

/-- The exponent that is found leaves at most 53 bits before the point, and exactly so many if it is
not the least one. -/
theorem exponentFor_spec {num den : Nat} (hnum : 0 < num) (hden : 0 < den) :
    -1074 ≤ exponentFor num den ∧ (num / den : ℚ) < 2 ^ (53 + exponentFor num den) ∧
      (exponentFor num den = -1074 ∨ (2 : ℚ) ^ (52 + exponentFor num den) ≤ num / den) := by
  obtain ⟨hlow, hhigh⟩ := quotient_bounds hnum hden
  obtain ⟨guess, hguess⟩ : ∃ guess : Int, (num.log2 : Int) - den.log2 - 53 = guess := ⟨_, rfl⟩
  have hfound : exponentFor num den =
      max (if (num / den : ℚ) < 2 ^ (53 + guess) then guess else guess + 1) (-1074) := by
    simp only [← scaled_lt_iff hden]
    subst hguess
    rfl
  rw [hfound]
  rw [show (num.log2 : Int) - den.log2 - 1 = 52 + guess by omega] at hlow
  rw [show (num.log2 : Int) - den.log2 + 1 = 54 + guess by omega] at hhigh
  generalize (num / den : ℚ) = q at *
  -- before the least exponent is taken into account, there are 53 bits
  have hfits : ∀ e : Int, q < 2 ^ (53 + e) → 2 ^ (52 + e) ≤ q → -1074 ≤ max e (-1074) ∧
      q < 2 ^ (53 + max e (-1074)) ∧ (max e (-1074) = -1074 ∨ 2 ^ (52 + max e (-1074)) ≤ q) := by
    intro e hlt hle
    rcases le_total (-1074) e with he | he
    · rw [max_eq_left he]
      exact ⟨he, hlt, .inr hle⟩
    · rw [max_eq_right he]
      exact ⟨le_rfl, hlt.trans_le (zpow_le_zpow_right₀ (by norm_num) (by omega)), .inl rfl⟩
  split
  · next hlt => exact hfits guess hlt hlow.le
  · next hle =>
    refine hfits (guess + 1) ?_ ?_
    · rwa [show 53 + (guess + 1) = 54 + guess by ring]
    · rw [show 52 + (guess + 1) = 53 + guess by ring]
      exact not_lt.mp hle

/-! ## The nearest double -/

theorem nearestBits_eq {num den s : Nat} {e : Int} (hnum : 0 < num)
    (he : exponentFor num den = e)
    (hs : roundQuotient (scaled num den e).1 (scaled num den e).2 = s) :
    nearestBits num den = min ((e + 1074).toNat * 2 ^ 52 + s) (2047 * 2 ^ 52) := by
  have hfraction : Nat.pow 2 fractionBits = 2 ^ 52 := by norm_num [fractionBits]
  have hleast : e - leastExponent = e + 1074 := sub_neg_eq_add e 1074
  unfold nearestBits
  rw [if_neg hnum.ne', he]
  simp only [hs, hfraction, hleast]
  rfl

/-- A quotient in the interval of a magnitude has the exponent of the magnitude. Only just below a
power of two it may have the exponent before. -/
theorem exponentFor_of_holds {m : Magnitude} (hm : m.Canonical) {num den : Nat} (hnum : 0 < num)
    (hden : 0 < den) (h : m.Holds (num / den)) :
    exponentFor num den = m.exponent ∨ exponentFor num den = m.exponent - 1 ∧
      m.significand = 2 ^ 52 ∧ ((2 ^ 53 - 1 / 2) * 2 ^ (m.exponent - 1) : ℚ) ≤ num / den := by
  obtain ⟨hleast, hlt, hge⟩ := exponentFor_spec hnum hden
  have hlow := h.low_le
  have hhigh := h.le_high
  generalize exponentFor num den = e at *
  generalize (num / den : ℚ) = q at *
  rcases lt_trichotomy e m.exponent with hless | heq | hmore
  · right
    have hunit : (0 : ℚ) < 2 ^ (m.exponent - 1) := by positivity
    have hbelow := (hm.le_low (hleast.trans_lt hless)).trans hlow
    have hexponent : e = m.exponent - 1 := by
      by_contra hne
      have hle : (2 : ℚ) ^ (53 + e) ≤ 2 ^ 52 * 2 ^ (m.exponent - 1) := by
        rw [pow_mul_zpow two_ne_zero]
        exact zpow_le_zpow_right₀ one_le_two (by omega)
      nlinarith
    refine ⟨hexponent, ?_, hbelow⟩
    refine hm.eq_of_low_lt (hleast.trans_lt hless) (hlow.trans_lt ?_)
    rw [pow_mul_zpow two_ne_zero]
    rwa [hexponent, show (53 + (m.exponent - 1) : Int) = (52 : Nat) + m.exponent by omega] at hlt
  · exact .inl heq
  · -- the quotient would be beyond the interval
    exfalso
    have hq := hge.resolve_left (by have := hm.least_le; omega)
    have hunit : (0 : ℚ) < 2 ^ m.exponent := by positivity
    have hle : (2 : ℚ) ^ 53 * 2 ^ m.exponent ≤ 2 ^ (52 + e) := by
      rw [pow_mul_zpow two_ne_zero]
      exact zpow_le_zpow_right₀ one_le_two (by omega)
    have hs : (m.significand + 1 : ℚ) ≤ 2 ^ 53 := by exact_mod_cast hm.significand_lt
    unfold Magnitude.high at hhigh
    nlinarith

/-- A quotient in the interval of a magnitude is rounded to the pattern of this magnitude. -/
theorem nearestBits_of_holds {m : Magnitude} (hm : m.Canonical) (hpos : 0 < m.significand)
    {num den : Nat} (hden : 0 < den) (h : m.Holds (num / den)) :
    nearestBits num den = m.pattern := by
  have hnum : 0 < num := by
    have hq := (Magnitude.low_pos hpos).trans_le h.low_le
    by_contra hzero
    rw [Nat.eq_zero_of_not_pos hzero] at hq
    simp at hq
  have hpattern : m.pattern ≤ 2047 * 2 ^ 52 := by
    have hs := hm.significand_lt
    have he := hm.exponent_le
    have he' := hm.least_le
    unfold Magnitude.pattern
    omega
  rcases exponentFor_of_holds hm hnum hden h with he | ⟨he, hs, hbelow⟩
  · have hround : roundQuotient (scaled num den m.exponent).1 (scaled num den m.exponent).2 =
        m.significand := by
      obtain ⟨hlow, hhigh, heven⟩ := h.in_units
      rw [← scaled_eq] at hlow hhigh heven
      exact roundQuotient_eq (scaled_pos hden _) hlow hhigh heven
    rw [nearestBits_eq hnum he hround]
    exact Nat.min_eq_left hpattern
  · -- the significand is rounded up to one with a bit more, which the exponent field takes over
    have hunit : (0 : ℚ) < 2 ^ (m.exponent - 1) := by positivity
    obtain ⟨hleast, hlt, -⟩ := exponentFor_spec hnum hden
    rw [he] at hleast hlt
    have habove : (num / den : ℚ) < 2 ^ 53 * 2 ^ (m.exponent - 1) := by
      rwa [pow_mul_zpow two_ne_zero]
    rw [← le_div_iff₀ hunit, ← scaled_eq] at hbelow
    rw [← div_lt_iff₀ hunit, ← scaled_eq] at habove
    have hround : roundQuotient (scaled num den (m.exponent - 1)).1
        (scaled num den (m.exponent - 1)).2 = 2 ^ 53 := by
      refine roundQuotient_eq (scaled_pos hden _) ?_ ?_ fun _ => by norm_num
      · push_cast
        exact hbelow
      · push_cast
        linarith
    have hcarried : (m.exponent - 1 + 1074).toNat * 2 ^ 52 + 2 ^ 53 = m.pattern := by
      unfold Magnitude.pattern
      omega
    rw [nearestBits_eq hnum he hround, hcarried]
    exact Nat.min_eq_left hpattern

end Binary

end Scriptlet
