import Mathlib
/-! Whole numbers as doubles. The double nearest to a whole number of at most 64 bits is finite: it
is rounded to 53 bits, and its exponent stays far below the largest one there is. -/
namespace Playscript.Double

open Float.Model (Format UnpackedFloat totalExponent)
open Float.Model.Format Float.Model.UnpackedFloat

/-! ## Rounding -/

theorem mantissa_shiftRight_le (em : ExtendedMantissa) (n : Nat) :
    (em >>> n).mantissa ≤ em.mantissa := by
  show (n.repeat ExtendedMantissa.shiftRightOne em).mantissa ≤ em.mantissa
  induction n with
  | zero => exact Nat.le_refl _
  | succ n ih => exact (Nat.div_le_self _ 2).trans ih

theorem mantissa_ofMantissaAndAccuracy (m : Nat) (a : Accuracy) :
    (ExtendedMantissa.ofMantissaAndAccuracy m a).mantissa = m := by
  rcases a with _ | (_ | _ | _) <;> rfl

theorem roundedMantissa_le (em : ExtendedMantissa) : em.roundedMantissa ≤ em.mantissa + 1 := by
  obtain ⟨m, round, sticky⟩ := em
  cases round <;> cases sticky <;>
    simp only [ExtendedMantissa.roundedMantissa, ExtendedMantissa.accuracy,
      Accuracy.roundToNearestEven] <;> omega

theorem mantissa_shiftToTarget_le (f : Format) (m : Nat) (e : Int) (a : Accuracy) :
    (shiftToTargetExponent f m e a).1.mantissa ≤ m := by
  have hle := mantissa_shiftRight_le (ExtendedMantissa.ofMantissaAndAccuracy m a)
    (f.targetExponent (totalExponent m e) - e).toNat
  rwa [mantissa_ofMantissaAndAccuracy] at hle

theorem exponent_shiftToTarget (f : Format) (m : Nat) (e : Int) (a : Accuracy) :
    (shiftToTargetExponent f m e a).2 = max e (f.targetExponent (totalExponent m e)) := by
  show e + ((f.targetExponent (totalExponent m e) - e).toNat : Int) = _
  omega

theorem targetExponent_le {m k : Nat} (h : m < 2 ^ k) (hk : 0 < k) (e : Int) :
    binary64.targetExponent (totalExponent m e) ≤ max (e + k - 53) (-1074) := by
  have hlog : m.log2 < k := by
    by_cases hm : m = 0
    · rw [hm]
      exact hk
    · exact (Nat.log2_lt hm).mpr h
  show max ((m.log2 : Int) + 1 + e - 53) (-1074) ≤ _
  omega

/-- A finite number with an exponent no larger than a bound. -/
inductive AtMost (b : Int) : UnpackedFloat → Prop
  | zero (s : Sign) : AtMost b (.zero s)
  | finite {s : Sign} {m : Nat} {e : Int} {hm : 0 < m} : e ≤ b → AtMost b (.finite s m e hm)

theorem AtMost.mono {b c : Int} {x : UnpackedFloat} (h : AtMost b x) (hle : b ≤ c) :
    AtMost c x := by
  cases h with
  | zero s => exact .zero s
  | finite he => exact .finite (he.trans hle)

/-- Rounding raises the exponent by no more than twice the bits of the mantissa. -/
theorem atMost_roundWithAccuracy {m k : Nat} {e b : Int} (hm : m < 2 ^ k) (hk : 0 < k)
    (he : e ≤ b) (hmin : -1074 ≤ b) (s : Sign) (a : Accuracy) :
    AtMost (b + 2 * k) (roundWithAccuracy binary64 s m e a) := by
  have hfirst := exponent_shiftToTarget binary64 m e a
  have htarget := targetExponent_le hm hk e
  have hmantissa := mantissa_shiftToTarget_le binary64 m e a
  unfold roundWithAccuracy
  generalize shiftToTargetExponent binary64 m e a = first at hfirst hmantissa
  obtain ⟨em, e'⟩ := first
  dsimp only at hfirst hmantissa ⊢
  have hrounded : em.roundedMantissa < 2 ^ (k + 1) := by
    have hle := roundedMantissa_le em
    omega
  have hagain := targetExponent_le hrounded (Nat.succ_pos k) e'
  have hsecond := exponent_shiftToTarget binary64 em.roundedMantissa e' .exact
  generalize shiftToTargetExponent binary64 em.roundedMantissa e' .exact = second at hsecond
  split
  · exact .zero s
  · exact .finite (by omega)

/-! ## Packing -/

/-- A finite number as a double holds it, of 53 bits at most. -/
inductive Fits (b : Int) : UnpackedFloat → Prop
  | zero (s : Sign) : Fits b (.zero s)
  | finite {s : Sign} {m : Nat} {e : Int} {hm : 0 < m} : m < 2 ^ 53 → e ≤ b →
      Fits b (.finite s m e hm)

theorem fits_unpack_packComponents {b : Int} (s : Sign) (exponent : BitVec 11)
    (mantissa : BitVec 52) (hexponent : exponent.toNat < 2047)
    (hb : (exponent.toNat : Int) - 1075 ≤ b) (hmin : -1074 ≤ b) :
    Fits b (unpack binary64 (packComponents binary64 s exponent mantissa)) := by
  have hne : exponent ≠ -1#11 := by
    rintro rfl
    exact absurd hexponent (by decide)
  unfold unpack
  simp only [unpackMantissa_packComponents, unpackExponent_packComponents]
  rw [if_neg hne]
  split
  · rename_i hzero
    split
    · exact .zero _
    · refine .finite (mantissa.isLt.trans (by decide)) ?_
      rw [hzero]
      exact hmin
  · exact .finite (BitVec.isLt _) hb

theorem fits_unpack_pack {b : Int} {x : UnpackedFloat} (h : AtMost b x) (hmin : -1074 ≤ b)
    (hmax : b ≤ 971) : Fits b (unpack binary64 (pack binary64 x)) := by
  cases h with
  | zero s => exact fits_unpack_packComponents s 0 0 (by decide) (by simp; omega) hmin
  | @finite s m e hm he =>
      have hbias : (binary64.exponentBias : Int) = 1023 := rfl
      unfold pack
      dsimp only
      rw [if_neg (by rw [hbias]; simp; omega)]
      split
      · apply fits_unpack_packComponents
        · simp [hbias]
          omega
        · simp [hbias]
          omega
        · exact hmin
      · apply fits_unpack_packComponents
        · simp
        · simp
          omega
        · exact hmin

theorem Fits.isFinite {b : Int} {x : UnpackedFloat} (h : Fits b x) : x.isFinite = true := by
  cases h <;> rfl

/-! ## Operations -/

theorem Fits.mul {b c : Int} {x y : UnpackedFloat} (hx : Fits b x) (hy : Fits c y)
    (hmin : -1074 ≤ b + c) : AtMost (b + c + 212) (UnpackedFloat.mul binary64 x y) := by
  cases hx with
  | zero s => cases hy <;> exact .zero _
  | finite hm he =>
      cases hy with
      | zero t => exact .zero _
      | finite hn hf =>
          have hproduct := Nat.mul_lt_mul'' hm hn
          rw [← Nat.pow_add] at hproduct
          exact atMost_roundWithAccuracy hproduct (by decide) (Int.add_le_add he hf) hmin _ _

theorem Fits.neg {b : Int} {x : UnpackedFloat} (hx : Fits b x) : AtMost b x.neg := by
  cases hx with
  | zero s => exact .zero _
  | finite hm he => exact .finite he

theorem atMost_round {m : Nat} (hm : m < 2 ^ 64) (s : Sign) :
    AtMost 234 (UnpackedFloat.round binary64 s m 0) := by
  have htarget : -53 ≤ binary64.targetExponent (totalExponent m 0) := by
    show -53 ≤ max ((m.log2 : Int) + 1 + 0 - 53) (-1074)
    omega
  unfold UnpackedFloat.round decreaseExponent
  dsimp only
  generalize hshift : (0 - binary64.targetExponent (totalExponent m 0)).toNat = shift
  have hle : shift ≤ 53 := by omega
  have hbits : m <<< shift < 2 ^ 117 := by
    have hpow : 2 ^ shift ≤ 2 ^ 53 := Nat.pow_le_pow_right (by decide) hle
    rw [Nat.shiftLeft_eq]
    calc m * 2 ^ shift < 2 ^ 64 * 2 ^ 53 := Nat.mul_lt_mul_of_lt_of_le hm hpow (by decide)
      _ = 2 ^ 117 := by decide
  exact atMost_roundWithAccuracy (b := 0) hbits (by decide) (by omega) (by decide) s .exact

theorem atMost_ofNat {n : Nat} (hn : n < 2 ^ 64) : AtMost 234 (UnpackedFloat.ofNat binary64 n) := by
  unfold UnpackedFloat.ofNat UnpackedFloat.ofInt UnpackedFloat.normalize
  split
  · rename_i hcompare
    exact absurd (Int.compare_eq_lt.mp hcompare) (by omega)
  · exact .zero _
  · rw [Int.toNat_natCast]
    exact atMost_round hn _

theorem atMost_ofScientific {n : Nat} (hn : n < 2 ^ 64) :
    AtMost 234 (UnpackedFloat.ofScientific binary64 n 0) := by
  unfold UnpackedFloat.ofScientific
  split
  · exact .zero _
  · rw [if_neg (by decide), if_neg (by simp), if_pos (by decide)]
    have hbits : (n <<< binary64.mantissaBits) * 10 ^ (0 : Int).toNat < 2 ^ 117 := by
      have hmantissa : binary64.mantissaBits = 53 := rfl
      rw [hmantissa, Nat.shiftLeft_eq, Int.toNat_zero]
      omega
    simp only [UnpackedFloat.mul]
    exact atMost_roundWithAccuracy hbits (by decide) (b := 0) (by decide) (by decide) _ .exact

/-! ## Whole numbers -/

theorem fits_one : Fits 0 Float.exactlyRepresentablePowersOfTen[0].toModel.unpack := by
  have hone : AtMost 0 (unpack .binary64 0x3FF0000000000000) := .finite (by decide)
  exact fits_unpack_pack hone (by decide) (by decide)

theorem fits_ofNat {n : Nat} (hn : n < 2 ^ 64) : Fits 446 (Float.ofNat n).toModel.unpack := by
  show Fits 446 (Float.ofScientific n false 0).toModel.unpack
  unfold Float.ofScientific
  split
  · have hown : Fits 234 n.toUInt64.toFloat.toModel.unpack :=
      fits_unpack_pack (atMost_ofNat (UInt64.toNat_lt _)) (by decide) (by decide)
    exact fits_unpack_pack (hown.mul fits_one (by decide)) (by decide) (by decide)
  · have hslow := (atMost_ofScientific hn).mono (c := 446) (by decide)
    exact fits_unpack_pack hslow (by decide) (by decide)

theorem isFinite_ofInt {n : Int} (hmin : -2 ^ 63 ≤ n) (hmax : n < 2 ^ 64) :
    (Float.ofInt n).isFinite = true := by
  cases n with
  | ofNat n =>
      have hn : n < 2 ^ 64 := Int.ofNat_lt.mp hmax
      exact (fits_ofNat hn).isFinite
  | negSucc n =>
      have hfits := (fits_ofNat (n := n + 1) (by omega)).neg
      exact (fits_unpack_pack hfits (by decide) (by decide)).isFinite

end Playscript.Double
