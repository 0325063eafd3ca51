import Mathlib
import Scriptlet.Number

/-!
# Bit patterns of doubles

A pattern of 64 bits is a sign, an exponent field and a fraction. `Binary.ofBits` reads the same off
it as the standard model of doubles does (`Binary.ofBits_eq_ofUnpacked`), so what is known of that
model is known of magnitudes: a finite double has a canonical one (`Magnitude.Canonical`), which
gives its pattern back (`Binary.toNat_of_finite`), negation changes the sign alone
(`Binary.ofBits_neg`), and positive doubles are ordered by exponent and significand
(`Binary.between`).
-/

open Float.Model (UnpackedFloat Format)
open Float.Model.UnpackedFloat (Sign packComponents unpackExponent unpackMantissa unpackSign)

namespace Scriptlet

/-- A magnitude with as many significant bits as a double has, or with the least exponent. -/
structure Magnitude.Canonical (m : Magnitude) : Prop where
  significand_lt : m.significand < 2 ^ 53
  least_le : -1074 ≤ m.exponent
  exponent_le : m.exponent ≤ 971
  full : 2 ^ 52 ≤ m.significand ∨ m.exponent = -1074

/-- The number that the bit pattern of a magnitude is. -/
def Magnitude.pattern (m : Magnitude) : Nat :=
  (m.exponent + 1074).toNat * 2 ^ 52 + m.significand

/-- Magnitudes are ordered by their exponents and then by their significands. -/
def Magnitude.Below (m m' : Magnitude) : Prop :=
  m.exponent < m'.exponent ∨ m.exponent = m'.exponent ∧ m.significand < m'.significand

theorem Magnitude.below_total (m m' : Magnitude) : m.Below m' ∨ m = m' ∨ m'.Below m := by
  obtain ⟨s, e⟩ := m
  obtain ⟨s', e'⟩ := m'
  simp only [Below, Magnitude.mk.injEq]
  omega

namespace Binary

/-- What a sign, an exponent field and a fraction stand for. -/
def ofFields (negative : Bool) (field fraction : Nat) : Binary :=
  if field = 2047 then if fraction = 0 then .infinite negative else .nan
  else if field = 0 then .finite negative ⟨fraction, -1074⟩
  else .finite negative ⟨fraction + 2 ^ 52, field - 1075⟩

theorem ofBits_eq_ofFields (bits : UInt64) :
    ofBits bits = ofFields (decide (bits.toNat / 2 ^ 63 = 1)) (bits.toNat / 2 ^ 52 % 2 ^ 11)
      (bits.toNat % 2 ^ 52) :=
  rfl

/-! ## The standard model of doubles -/

def isNegative : Sign → Bool
  | .negative => true
  | .positive => false

/-- What a double of the standard model stands for. -/
def ofUnpacked : UnpackedFloat → Binary
  | .notANumber => .nan
  | .infinity sign => .infinite (isNegative sign)
  | .zero sign => .finite (isNegative sign) ⟨0, leastExponent⟩
  | .finite sign significand exponent _ => .finite (isNegative sign) ⟨significand, exponent⟩

section

variable (bits : BitVec 64)

theorem toNat_unpackExponent :
    (@unpackExponent .binary64 bits).toNat = bits.toNat / 2 ^ 52 % 2 ^ 11 := by
  simp [unpackExponent, Nat.shiftRight_eq_div_pow]

theorem toNat_unpackMantissa :
    (@unpackMantissa .binary64 bits).toNat = bits.toNat % 2 ^ 52 := by
  simp [unpackMantissa]

theorem isNegative_unpackSign :
    isNegative (.ofBitVec (@unpackSign .binary64 bits)) =
      decide (bits.toNat / 2 ^ 63 = 1) := by
  have hsign : (@unpackSign .binary64 bits).toNat = bits.toNat / 2 ^ 63 % 2 := by
    simp [unpackSign, Nat.shiftRight_eq_div_pow]
  have hlt := bits.isLt
  unfold Sign.ofBitVec
  split
  · next h =>
    have hzero : bits.toNat / 2 ^ 63 ≠ 1 := by
      intro hone
      rw [h, hone] at hsign
      cases hsign
    simp only [hzero, isNegative, decide_false]
  · next h =>
    have hne : (@unpackSign .binary64 bits).toNat ≠ 0 :=
      fun hzero => h (BitVec.eq_of_toNat_eq hzero)
    have hone : bits.toNat / 2 ^ 63 = 1 := by omega
    simp only [hone, isNegative, decide_true]

end

theorem toNat_one_append {w : Nat} (fraction : BitVec w) :
    (1#1 ++ fraction).toNat = fraction.toNat + 2 ^ w := by
  rw [BitVec.toNat_append, ← Nat.shiftLeft_add_eq_or_of_lt fraction.isLt, Nat.shiftLeft_eq,
    Nat.add_comm]
  exact congrArg _ (Nat.one_mul _)

/-- A bit pattern is read as in the standard model. -/
theorem ofBits_eq_ofUnpacked (bits : UInt64) :
    ofBits bits = ofUnpacked (.unpack Format.binary64 bits.toBitVec) := by
  have hexponent := toNat_unpackExponent bits.toBitVec
  have hmantissa := toNat_unpackMantissa bits.toBitVec
  have hsign := isNegative_unpackSign bits.toBitVec
  rw [UInt64.toNat_toBitVec] at hexponent hmantissa hsign
  rw [ofBits_eq_ofFields, ← hexponent, ← hmantissa, ← hsign]
  unfold ofFields UnpackedFloat.unpack
  have htop : (@unpackExponent .binary64 bits.toBitVec).toNat = 2047 ↔
      @unpackExponent .binary64 bits.toBitVec = -1#11 :=
    ⟨fun h => BitVec.eq_of_toNat_eq h, fun h => congrArg BitVec.toNat h⟩
  have hleast : (@unpackExponent .binary64 bits.toBitVec).toNat = 0 ↔
      @unpackExponent .binary64 bits.toBitVec = 0#11 :=
    ⟨fun h => BitVec.eq_of_toNat_eq h, fun h => congrArg BitVec.toNat h⟩
  have hfraction : (@unpackMantissa .binary64 bits.toBitVec).toNat = 0 ↔
      @unpackMantissa .binary64 bits.toBitVec = 0#52 :=
    ⟨fun h => BitVec.eq_of_toNat_eq h, fun h => congrArg BitVec.toNat h⟩
  simp only [htop, hleast, hfraction]
  split
  · split
    · rfl
    · rfl
  · split
    · next h =>
      split
      · next h' => rw [hfraction.mpr h']; rfl
      · rw [hleast.mpr h]; rfl
    · simp only [ofUnpacked, toNat_one_append]
      rfl

/-- What a double stands for. -/
theorem ofBits_toBits (x : Float) : ofBits x.toBits = ofUnpacked x.toModel.unpack :=
  ofBits_eq_ofUnpacked x.toBits

theorem isFinite_iff (x : Float) :
    x.isFinite ↔ ∃ negative m, ofBits x.toBits = .finite negative m := by
  rw [ofBits_toBits]
  change x.toModel.unpack.isFinite ↔ _
  cases x.toModel.unpack with
  | notANumber | infinity => simp [UnpackedFloat.isFinite, ofUnpacked]
  | zero | finite => simp [UnpackedFloat.isFinite, ofUnpacked]

/-- All patterns but some of no number are the pattern of a double. -/
theorem toBits_ofBits {bits : UInt64} (h : ofBits bits ≠ .nan) :
    (Float.ofBits bits).toBits = bits := by
  rw [ofBits_eq_ofUnpacked] at h
  have hnumber : @UnpackedFloat.isNaNBits .binary64 bits.toBitVec = false := by
    refine Bool.eq_false_iff.mpr fun hnan => h ?_
    obtain ⟨htop, hfraction⟩ := of_decide_eq_true hnan
    unfold UnpackedFloat.unpack
    dsimp only
    rw [if_pos htop, if_neg hfraction]
    rfl
  have hpack := @UnpackedFloat.pack_unpack .binary64 bits.toBitVec (by decide)
  rw [hnumber] at hpack
  exact congrArg UInt64.ofBitVec hpack

/-! ## Magnitudes -/

/-- A finite double has a canonical magnitude, which gives its pattern back. -/
theorem toNat_of_finite {bits : UInt64} {negative : Bool} {m : Magnitude}
    (h : ofBits bits = .finite negative m) :
    m.Canonical ∧ bits.toNat = (if negative then 2 ^ 63 else 0) + m.pattern := by
  have hlt := bits.toNat_lt
  have hsign : (if decide (bits.toNat / 2 ^ 63 = 1) then 2 ^ 63 else 0) =
      bits.toNat / 2 ^ 63 * 2 ^ 63 := by
    simp only [decide_eq_true_iff]
    split <;> omega
  have hfraction : bits.toNat % 2 ^ 52 < 2 ^ 52 := Nat.mod_lt _ (by decide)
  rw [ofBits_eq_ofFields] at h
  unfold ofFields at h
  split at h
  · split at h <;> cases h
  · split at h
    · cases h
      rw [hsign]
      refine ⟨⟨?_, le_refl _, (by decide : (-1074 : Int) ≤ 971), .inr rfl⟩, ?_⟩
      · exact hfraction.trans (by decide)
      · unfold Magnitude.pattern
        dsimp only
        omega
    · cases h
      rw [hsign]
      refine ⟨⟨?_, ?_, ?_, .inl (Nat.le_add_left ..)⟩, ?_⟩
      all_goals try unfold Magnitude.pattern
      all_goals dsimp only; omega

/-! ## Signs -/

theorem unpack_packComponents_neg (sign : Sign) (e : BitVec Format.binary64.exponentBits)
    (f : BitVec Format.binary64.mantissaBitsWithoutImplicit) :
    UnpackedFloat.unpack Format.binary64 (packComponents Format.binary64 (-sign) e f) =
      (UnpackedFloat.unpack Format.binary64 (packComponents Format.binary64 sign e f)).neg := by
  unfold UnpackedFloat.unpack
  simp only [UnpackedFloat.unpackExponent_packComponents,
    UnpackedFloat.unpackMantissa_packComponents, UnpackedFloat.unpackSign_packComponents,
    Sign.ofBitVec_toBitVec]
  split
  · split
    · rfl
    · rfl
  · split
    · split
      · rfl
      · rfl
    · rfl

theorem unpack_pack_neg (u : UnpackedFloat) :
    UnpackedFloat.unpack Format.binary64 (UnpackedFloat.pack Format.binary64 u.neg) =
      (UnpackedFloat.unpack Format.binary64 (UnpackedFloat.pack Format.binary64 u)).neg := by
  cases u with
  | notANumber => simp [UnpackedFloat.neg, UnpackedFloat.pack]
  | infinity sign => exact unpack_packComponents_neg sign _ _
  | zero sign => exact unpack_packComponents_neg sign _ _
  | finite sign m e h =>
    unfold UnpackedFloat.neg UnpackedFloat.pack
    dsimp only
    split
    · exact unpack_packComponents_neg sign _ _
    · split
      · exact unpack_packComponents_neg sign _ _
      · exact unpack_packComponents_neg sign _ _

/-- Negation changes the sign and nothing else. -/
theorem unpack_neg (x : Float) : (-x).toModel.unpack = x.toModel.unpack.neg := by
  have hvalid := @UnpackedFloat.pack_unpack_of_valid .binary64 _ x.toModel.valid (by decide)
  have hneg := unpack_pack_neg x.toModel.unpack
  unfold Float.Model.unpack at hneg
  rw [hvalid] at hneg
  exact hneg

theorem ofBits_neg {x : Float} {negative : Bool} {m : Magnitude} :
    ofBits (-x).toBits = .finite negative m ↔ ofBits x.toBits = .finite (!negative) m := by
  rw [ofBits_toBits, ofBits_toBits, unpack_neg]
  cases x.toModel.unpack with
  | notANumber | infinity => simp [UnpackedFloat.neg, ofUnpacked]
  | zero sign | finite sign =>
    cases sign <;> cases negative <;> simp [UnpackedFloat.neg, ofUnpacked, isNegative]

/-! ## Order -/

/-- A double with a positive magnitude in the standard model. -/
theorem unpack_of_positive {x : Float} {m : Magnitude} (h : ofBits x.toBits = .finite false m)
    (hm : 0 < m.significand) :
    x.toModel.unpack = .finite .positive m.significand m.exponent hm := by
  rw [ofBits_toBits] at h
  generalize x.toModel.unpack = u at h
  cases u with
  | notANumber | infinity => cases h
  | zero sign =>
    obtain ⟨-, rfl⟩ := finite.inj h
    exact absurd hm (Nat.lt_irrefl 0)
  | finite sign s e hs =>
    cases sign with
    | negative => cases h
    | positive =>
      cases h
      rfl

/-- A double between two positive ones has a magnitude between theirs. -/
theorem between {low x high : Float} {m m' : Magnitude} (hlow : ofBits low.toBits = .finite false m)
    (hhigh : ofBits high.toBits = .finite false m') (hm : 0 < m.significand)
    (hm' : 0 < m'.significand) (h : low ≤ x) (h' : x < high) :
    ∃ k, ofBits x.toBits = .finite false k ∧ ¬ k.Below m ∧ k.Below m' := by
  have hle : (low.toModel.unpack).le x.toModel.unpack := of_decide_eq_true h
  have hlt : (x.toModel.unpack).lt high.toModel.unpack := of_decide_eq_true h'
  rw [unpack_of_positive hlow hm] at hle
  rw [unpack_of_positive hhigh hm'] at hlt
  rw [ofBits_toBits]
  generalize x.toModel.unpack = u at hle hlt
  cases u with
  | notANumber => cases hle
  | infinity sign =>
    cases sign with
    | negative => cases hle
    | positive => cases (show false = true from hlt)
  | zero sign => cases hle
  | finite sign s e hs =>
    cases sign with
    | negative => cases hle
    | positive =>
      refine ⟨⟨s, e⟩, rfl, fun hbelow => ?_, ?_⟩
      · have hgt : (compare m.exponent e).then (compare m.significand s) = .gt := by
          rw [Ordering.then_eq_gt, compare_gt_iff_gt, compare_gt_iff_gt, compare_eq_iff_eq, eq_comm]
          exact hbelow
        simp only [UnpackedFloat.le, UnpackedFloat.compare, hgt] at hle
        cases hle
      · have hcompare := eq_of_beq hlt
        simp only [UnpackedFloat.compare, Option.some.injEq] at hcompare
        rwa [Ordering.then_eq_lt, compare_lt_iff_lt, compare_lt_iff_lt,
          compare_eq_iff_eq] at hcompare

/-! ## Rounded quotients -/

theorem ofBits_of_lt_top {bits : UInt64} (h : bits.toNat < 2047 * 2 ^ 52) :
    ∃ m, ofBits bits = .finite false m := by
  have hsign : decide (bits.toNat / 2 ^ 63 = 1) = false := by
    rw [decide_eq_false_iff_not]
    omega
  have hfield : bits.toNat / 2 ^ 52 % 2 ^ 11 ≠ 2047 := by omega
  rw [ofBits_eq_ofFields, hsign]
  unfold ofFields
  rw [if_neg hfield]
  split
  · exact ⟨_, rfl⟩
  · exact ⟨_, rfl⟩

theorem nearestBits_le (num den : Nat) : nearestBits num den ≤ 2047 * 2 ^ 52 := by
  have htop : topField * Nat.pow 2 fractionBits = 2047 * 2 ^ 52 := by
    norm_num [topField, fractionBits]
  generalize 2047 * 2 ^ 52 = top at htop
  unfold nearestBits
  split
  · exact Nat.zero_le _
  · extract_lets
    split
    rw [htop]
    exact Nat.min_le_right _ _

end Binary

/-- A decimal is read as a finite double or as infinity. -/
theorem readDecimal_finite_or (whole fraction : Text) :
    (readDecimal whole fraction).isFinite ∨
      readDecimal whole fraction = .ofBits 0x7FF0000000000000 := by
  unfold readDecimal
  generalize hbits : Binary.nearestBits _ _ = bits
  have htop : bits ≤ 2047 * 2 ^ 52 := hbits ▸ Binary.nearestBits_le _ _
  have hsmall : bits < 2 ^ 64 := lt_of_le_of_lt htop (by decide)
  have htoNat : bits.toUInt64.toNat = bits := Nat.mod_eq_of_lt hsmall
  rcases Nat.lt_or_ge bits (2047 * 2 ^ 52) with hlt | hge
  · obtain ⟨m, hm⟩ := Binary.ofBits_of_lt_top (htoNat.trans_lt hlt)
    have hnumber : Binary.ofBits bits.toUInt64 ≠ .nan := by rw [hm]; nofun
    refine .inl ((Binary.isFinite_iff _).mpr ⟨false, m, ?_⟩)
    rw [Binary.toBits_ofBits hnumber, hm]
  · rw [Nat.le_antisymm htop hge]
    exact .inr rfl

end Scriptlet
