import HttpGateway.Proofs.Text.Nearest

/-!
# Decimals by one step

What a decimal comes to by one conversion and one product or quotient. Powers of ten up to the
twenty-second are numbers themselves and the others are close to one, so the outcome is finite unless
the decimal is near the largest numbers; and it is the nearest number if digits and power are exact.
-/

namespace HttpGateway.Text

open Doubles Float.Model.UnpackedFloat

section Powers

theorem mul_zpow_eq (m : Nat) {e : Int} {n : Nat} (h : -n ≤ e) :
    (m : ℚ) * 2 ^ e = m * 2 ^ (e + n).toNat / 2 ^ n := by
  rw [eq_div_iff (by positivity), mul_assoc, ← zpow_natCast, ← zpow_natCast,
    ← zpow_add₀ (by norm_num)]
  congr 2
  omega

/-- Whether a number is a power of ten itself, in whole numbers. -/
def isExactPower (k : Nat) : Float.Model.UnpackedFloat → Bool
  | .finite .positive m e _ =>
    decide (m.log2 = 52 ∧ -52 ≤ e ∧ e ≤ 21 ∧ m * 2 ^ (e + 52).toNat = 10 ^ k * 2 ^ 52)
  | _ => false

/-- Small powers are looked up. -/
theorem isExactPower_of_le : ∀ k ≤ 22, isExactPower k (nearestFloat 1 k).toModel.unpack = true := by
  decide +kernel

/-- Small powers of ten are numbers. -/
theorem exists_unpack_power {k : Nat} (hk : k ≤ 22) :
    ∃ m e h, (nearestFloat 1 k).toModel.unpack = .finite .positive m e h ∧ m.log2 = 52 ∧
      -52 ≤ e ∧ e ≤ 21 ∧ (m : ℚ) * 2 ^ e = 10 ^ k := by
  have hexact := isExactPower_of_le k hk
  generalize (nearestFloat 1 k).toModel.unpack = u at hexact
  cases u with
  | finite s m e hm =>
      cases s with
      | negative => cases hexact
      | positive =>
          obtain ⟨hfull, hlow, hhigh, hvalue⟩ := of_decide_eq_true hexact
          refine ⟨m, e, hm, rfl, hfull, hlow, hhigh, ?_⟩
          rw [mul_zpow_eq m (n := 52) hlow, div_eq_iff (by positivity)]
          exact_mod_cast hvalue
  | _ => cases hexact

/-- A number at most a 2⁵²-th part larger than a power of ten, and of at least two unless the power
is one. -/
def IsPower (k : Nat) (u : Float.Model.UnpackedFloat) : Prop :=
  ∃ s m e h, u = .finite s m e h ∧ (m : ℚ) * 2 ^ e ≤ 10 ^ k * (1 + 1 / 2 ^ 52) ∧
    (k ≠ 0 → 2 ≤ (m : ℚ) * 2 ^ e)

theorem two_le_power {k : Nat} (hk : k ≠ 0) : (2 : ℚ) ≤ 10 ^ k :=
  le_trans (by norm_num) (le_self_pow₀ (by norm_num : (1 : ℚ) ≤ 10) hk)

theorem isPower_of_le {k : Nat} (hk : k ≤ 22) : IsPower k (nearestFloat 1 k).toModel.unpack := by
  obtain ⟨m, e, hm, hunpack, -, -, -, hvalue⟩ := exists_unpack_power hk
  refine ⟨.positive, m, e, hm, hunpack, ?_, fun hne => (two_le_power hne).trans_eq hvalue.symm⟩
  rw [hvalue]
  exact le_mul_of_one_le_right (by positivity) (by norm_num)

/-- The bounds of the largest power, in whole numbers. -/
def isLargestPower : Float.Model.UnpackedFloat → Bool
  | .finite _ m e _ =>
    decide (-1074 ≤ e ∧
      m * 2 ^ (e + 1074).toNat * 2 ^ 52 ≤ 10 ^ 308 * (2 ^ 52 + 1) * 2 ^ 1074 ∧
      2 * 2 ^ 1074 ≤ m * 2 ^ (e + 1074).toNat)
  | _ => false

theorem isLargestPower_nearestFloat :
    isLargestPower (nearestFloat 1 308).toModel.unpack = true := by
  decide +kernel

/-- The largest power has no room above it. -/
theorem isPower_largest : IsPower 308 (nearestFloat 1 308).toModel.unpack := by
  have hlargest := isLargestPower_nearestFloat
  generalize (nearestFloat 1 308).toModel.unpack = u at hlargest
  cases u with
  | finite s m e hm =>
      obtain ⟨hlow, hmost, hleast⟩ := of_decide_eq_true hlargest
      have hvalue := mul_zpow_eq m (n := 1074) hlow
      refine ⟨s, m, e, hm, rfl, ?_, fun _ => ?_⟩
      · rw [hvalue, div_le_iff₀ (by positivity)]
        have hcast : (m : ℚ) * 2 ^ (e + 1074).toNat * 2 ^ 52 ≤
            10 ^ 308 * (2 ^ 52 + 1) * 2 ^ 1074 := by exact_mod_cast hmost
        have hone : (1 : ℚ) + 1 / 2 ^ 52 = (2 ^ 52 + 1) / 2 ^ 52 := by norm_num
        rw [hone, mul_div_assoc', div_mul_eq_mul_div, le_div_iff₀ (by positivity)]
        exact hcast
      · rw [hvalue, le_div_iff₀ (by positivity)]
        exact_mod_cast hleast
  | _ => cases hlargest

theorem log2_lt_of_lt {n k : Nat} (hn : 0 < n) (h : n < 2 ^ k) : n.log2 < k :=
  (Nat.log2_lt hn.ne').mpr h

/-- Powers of ten as numbers. All others are rounded products. -/
theorem isPower_nearestFloat {k : Nat} (hk : k < 309) :
    IsPower k (nearestFloat 1 k).toModel.unpack := by
  by_cases hsmall : k ≤ 22
  · exact isPower_of_le hsmall
  by_cases hlargest : k = 308
  · exact hlargest ▸ isPower_largest
  have hround : (nearestFloat 1 k).toModel = Float.Model.pack
      (roundWithAccuracy double .positive (2 ^ 53 * 10 ^ k) (-53) .exact) := by
    have hsize : ((Nat.toDigits 10 1).length + (k : Int)) = k + 1 := by
      rw [Nat.toDigits_of_lt_base (by decide)]
      exact add_comm 1 (k : Int)
    have hfar : ¬ ((k : Int) + 1 < -farExponent) ∧ ¬ (farExponent < (k : Int) + 1) := by
      rw [show farExponent = 400 from rfl]
      omega
    have hscientific : nearestFloat 1 k = Float.ofModel (Float.Model.ofScientific 1 k) := by
      simp only [nearestFloat, hsize]
      rw [if_neg (by simpa using hfar.1), if_neg hfar.2, Float.ofScientific,
        dif_neg (fun h => hsmall h.2)]
      simp only [decide_eq_false (not_lt.mpr (Int.natCast_nonneg k)), Bool.false_eq_true, if_false,
        Int.natAbs_natCast]
      rfl
    have hlow : ¬ (k : Int) < -(2 ^ 11 + ((Nat.log2 1 : Nat) : Int)) := by omega
    rw [hscientific]
    simp only [Float.Model.ofScientific, ofScientific]
    rw [dif_neg (by decide), if_neg (by omega), if_neg hlow, if_pos (Int.natCast_nonneg k)]
    rfl
  have hpos : 0 < 2 ^ 53 * 10 ^ k := by positivity
  have hleast : 53 ≤ (2 ^ 53 * 10 ^ k).log2 := by
    refine (Nat.le_log2 hpos.ne').mpr (Nat.le_mul_of_pos_right _ (by positivity))
  have hmost : (2 ^ 53 * 10 ^ k).log2 ≤ 1075 := by
    have hlt : 2 ^ 53 * 10 ^ k < 2 ^ 1076 := by
      calc 2 ^ 53 * 10 ^ k ≤ 2 ^ 53 * 10 ^ 307 :=
            Nat.mul_le_mul_left _ (Nat.pow_le_pow_right (by decide) (by omega))
        _ < 2 ^ 1076 := by decide +kernel
    have hlog : (2 ^ 53 * 10 ^ k).log2 < 1076 := log2_lt_of_lt hpos hlt
    omega
  obtain ⟨m, e, hm, hunpack, hvalue, hvalue'⟩ := exists_unpack_roundWithAccuracy .positive .exact
    hpos (e := -53) (by rw [target_eq]; omega) (by omega) (by omega)
  have hvalue10 : ((2 ^ 53 * 10 ^ k : Nat) : ℚ) * 2 ^ (-53 : ℤ) = 10 ^ k := by
    rw [zpow_neg, show (53 : ℤ) = (53 : Nat) from rfl, zpow_natCast]
    push_cast
    field_simp
    norm_num
  rw [hvalue10] at hvalue hvalue'
  refine ⟨.positive, m, e, hm, hround ▸ hunpack, hvalue', fun hne => le_trans ?_ hvalue⟩
  have hten : (10 : ℚ) ≤ 10 ^ k := le_self_pow₀ (by norm_num) hne
  linarith

theorem isFinite_power {k : Nat} (hk : k < 309) : (nearestFloat 1 k).isFinite = true := by
  obtain ⟨s, m, e, hm, hunpack, -⟩ := isPower_nearestFloat hk
  exact congrArg Float.Model.UnpackedFloat.isFinite hunpack

/-- A quotient by a power of ten is finite. -/
theorem isFinite_div_power {x : Float} (hx : x.isFinite = true) {k : Int} (hlow : 0 < k)
    (hhigh : k < 309) : (x / nearestFloat 1 k).isFinite = true := by
  obtain ⟨n, rfl⟩ := Int.eq_ofNat_of_zero_le hlow.le
  obtain ⟨s, m, e, hm, hunpack, -, hleast⟩ := isPower_nearestFloat (Int.ofNat_lt.mp hhigh)
  exact isFinite_div hx hunpack (hleast (Int.ofNat_lt.mp hlow).ne')

end Powers

section Scaling

/-- A decimal with a point is finite. -/
theorem isFinite_scaledFloat_of_neg {exponent : Int} (h : exponent < 0) (digits : Nat) :
    (scaledFloat digits exponent).isFinite = true := by
  have hdigits := isFinite_toFloat digits.toUInt64
  have hlargest : ((largestPower : Nat) : Int) = 308 := rfl
  simp only [scaledFloat, if_neg (not_le.mpr h), hlargest]
  split
  · exact isFinite_div_power hdigits (by omega) (by omega)
  · split
    · exact isFinite_div_power (isFinite_div_power hdigits (by omega) (by omega))
        (by omega) (by omega)
    · decide +kernel

/-- What is left for decimals below the largest numbers. -/
def reach : ℚ := (2 ^ 53 - 8 + 1 / 2) * 2 ^ (971 : ℤ)

theorem reach_lt : reach * (1 + 1 / 2 ^ 52) * (1 + 1 / 2 ^ 52) < largest := by
  calc reach * (1 + 1 / 2 ^ 52) * (1 + 1 / 2 ^ 52)
      = (2 ^ 53 - 8 + 1 / 2) * (1 + 1 / 2 ^ 52) * (1 + 1 / 2 ^ 52) * 2 ^ (971 : ℤ) := by
        rw [reach]
        ring
    _ < largest := mul_lt_mul_of_pos_right (by norm_num) (two_zpow_pos 971)

theorem reach_lt_power : reach < 10 ^ 309 := by
  have hpos : 0 < reach := mul_pos (by norm_num) (two_zpow_pos 971)
  calc reach ≤ reach * ((1 + 1 / 2 ^ 52) * (1 + 1 / 2 ^ 52)) :=
        le_mul_of_one_le_right hpos.le (by norm_num)
    _ = reach * (1 + 1 / 2 ^ 52) * (1 + 1 / 2 ^ 52) := (mul_assoc ..).symm
    _ < 2 ^ (1024 : ℤ) := reach_lt.trans largest_lt
    _ ≤ 10 ^ 309 := by
        have hnat : 2 ^ 1024 ≤ 10 ^ 309 := by decide +kernel
        exact_mod_cast hnat

/-- A decimal within reach is finite. -/
theorem isFinite_scaledFloat_of_le {digits exponent : Nat} (hpos : 0 < digits)
    (hword : digits < 2 ^ 64) (h : (digits : ℚ) * 10 ^ exponent ≤ reach) :
    (scaledFloat digits exponent).isFinite = true := by
  have hlargest : ((largestPower : Nat) : Int) = 308 := rfl
  simp only [scaledFloat, if_pos (Int.natCast_nonneg exponent), hlargest]
  have hdigits : digits.toUInt64.toNat = digits := UInt64.toNat_ofNat_of_lt' hword
  have hexponent : exponent < 309 := by
    have hone : (1 : ℚ) ≤ digits := by exact_mod_cast hpos
    have hpower : (10 : ℚ) ^ exponent < 10 ^ 309 := by
      calc (10 : ℚ) ^ exponent ≤ digits * 10 ^ exponent :=
            le_mul_of_one_le_left (by positivity) hone
        _ < 10 ^ 309 := h.trans_lt reach_lt_power
    exact (pow_lt_pow_iff_right₀ (by norm_num)).mp hpower
  rw [if_pos (by omega)]
  obtain ⟨m, e, hm, hx, hmost⟩ := exists_unpack_toFloat (n := digits.toUInt64) (by omega)
  obtain ⟨s', m', e', hm', hy, hmost', -⟩ := isPower_nearestFloat hexponent
  refine isFinite_mul (isFinite_toFloat _) (isFinite_power hexponent) hx hy ?_
  rw [hdigits] at hmost
  calc (m : ℚ) * 2 ^ e * (m' * 2 ^ e')
      ≤ digits * (1 + 1 / 2 ^ 52) * (10 ^ exponent * (1 + 1 / 2 ^ 52)) :=
        mul_le_mul hmost hmost' (mul_pos (by exact_mod_cast hm') (two_zpow_pos e')).le (by positivity)
    _ = digits * 10 ^ exponent * (1 + 1 / 2 ^ 52) * (1 + 1 / 2 ^ 52) := by ring
    _ ≤ reach * (1 + 1 / 2 ^ 52) * (1 + 1 / 2 ^ 52) := by gcongr
    _ < largest := reach_lt

/-- A decimal comes to a finite number unless it comes to an infinite one. -/
theorem isFinite_scaledFloat_of_not_isInf {digits : Nat} {exponent : Int}
    (h : (scaledFloat digits exponent).isInf = false) :
    (scaledFloat digits exponent).isFinite = true := by
  rcases lt_or_ge exponent 0 with hneg | hnonneg
  · exact isFinite_scaledFloat_of_neg hneg digits
  · obtain ⟨k, rfl⟩ := Int.eq_ofNat_of_zero_le hnonneg
    have hlargest : ((largestPower : Nat) : Int) = 308 := rfl
    simp only [scaledFloat, if_pos hnonneg, hlargest] at h ⊢
    split at h
    next hpower =>
      rw [if_pos hpower]
      exact isFinite_mul_of_not_isInf (isFinite_toFloat _) (isFinite_power (by omega)) h
    next hpower =>
      rw [if_neg hpower]
      split at h
      next hnone =>
        rw [if_pos hnone]
        decide
      next => exact absurd h (by decide +kernel)

/-- A decimal with digits and a power of ten that are numbers comes to the number nearest to it. -/
theorem unpack_scaledFloat_of_near {digits M : Nat} {exponent Q : Int} (hdigits : 0 < digits)
    (hsmall : digits < 2 ^ 53) (hexponent : exponent.natAbs ≤ 22) (hM : M.log2 = 52)
    (hlow : -1074 < Q) (hhigh : Q ≤ 971) (h : Near M Q (digits * 10 ^ exponent)) (hpos : 0 < M) :
    (scaledFloat digits exponent).toModel.unpack = .finite .positive M Q hpos := by
  have hword : digits.toUInt64.toNat = digits :=
    UInt64.toNat_ofNat_of_lt' (hsmall.trans (by decide))
  obtain ⟨m, hm, hx, hfull, hvalue⟩ := exists_unpack_toFloat_eq (n := digits.toUInt64)
    (by omega) (by omega)
  obtain ⟨m', e', hm', hy, hfull', hlow', hhigh', hvalue'⟩ := exists_unpack_power hexponent
  have hlargest : ((largestPower : Nat) : Int) = 308 := rfl
  rw [hword] at hvalue hx
  rcases lt_or_ge exponent 0 with hneg | hnonneg
  · obtain ⟨k, hk, rfl⟩ : ∃ k : Nat, k = exponent.natAbs ∧ exponent = -k :=
      ⟨exponent.natAbs, rfl, by omega⟩
    rw [← hk] at hy hvalue'
    simp only [scaledFloat, if_neg (not_le.mpr hneg), hlargest]
    rw [if_pos (by omega), neg_neg]
    refine unpack_div_of_near hx hy hfull hfull' (by omega) hM hlow hhigh ?_ hpos
    rw [hvalue, hvalue', div_eq_mul_inv, ← zpow_natCast, ← zpow_neg]
    exact h
  · obtain ⟨k, rfl⟩ := Int.eq_ofNat_of_zero_le hnonneg
    rw [Int.natAbs_natCast] at hy hvalue'
    simp only [scaledFloat, if_pos hnonneg, hlargest]
    rw [if_pos (by omega)]
    refine unpack_mul_of_near hx hy hfull hfull' hM hlow hhigh ?_ hpos
    rw [hvalue, hvalue', ← zpow_natCast]
    exact h

end Scaling

end HttpGateway.Text
