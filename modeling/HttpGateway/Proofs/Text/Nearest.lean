import HttpGateway.Proofs.Text.Doubles

/-!
# Operations rounded to the nearest number

A product or a quotient of two numbers is rounded to the number in whose interval it lies. A shift
keeps what is shifted out as one of four cases, none of a unit, less than half of it, half of it or
more, and this is all that rounding has to know.
-/

namespace HttpGateway.Doubles

open Float.Model Float.Model.UnpackedFloat

section Remainders

/-- What is left of a unit when a number is cut off with this accuracy. -/
def Leaves : Accuracy → ℚ → Prop
  | .exact, r => r = 0
  | .inexact .lt, r => 0 < r ∧ r < 1 / 2
  | .inexact .eq, r => r = 1 / 2
  | .inexact .gt, r => 1 / 2 < r ∧ r < 1

variable {em : ExtendedMantissa} {a : Accuracy} {m M : Nat} {e Q : Int} {x : ℚ}

theorem Leaves.bounds (h : Leaves a x) : 0 ≤ x ∧ x < 1 := by
  rcases a with _ | (_ | _ | _) <;> simp only [Leaves] at h <;> constructor <;> linarith

/-- A fraction is its whole part and what is left of it. -/
theorem div_eq_add_mod {num den : Nat} (hden : 0 < den) :
    (num : ℚ) / den = (num / den : Nat) + (num % den : Nat) / den := by
  have hden' : (0 : ℚ) < den := by exact_mod_cast hden
  rw [div_eq_iff hden'.ne', add_mul, div_mul_cancel₀ _ hden'.ne', add_comm]
  exact_mod_cast (Nat.mod_add_div' num den).symm

theorem leaves_accuracyOfFraction {r d : Nat} (hd : 0 < d) (h : r < d) :
    Leaves (accuracyOfFraction r d) (r / d) := by
  have hd' : (0 : ℚ) < d := by exact_mod_cast hd
  rw [accuracyOfFraction]
  split
  next hzero => simp [hzero, Leaves]
  next hne =>
    have hr : (0 : ℚ) < r := by exact_mod_cast Nat.pos_of_ne_zero hne
    have hlt : (r : ℚ) / d < 1 := (div_lt_one hd').mpr (by exact_mod_cast h)
    cases hcompare : compare (2 * r) d with
    | lt =>
        have hless : (2 : ℚ) * r < d := by exact_mod_cast Nat.compare_eq_lt.mp hcompare
        exact ⟨div_pos hr hd', by rw [div_lt_iff₀ hd']; linarith⟩
    | eq =>
        have hsame : (2 : ℚ) * r = d := by exact_mod_cast Nat.compare_eq_eq.mp hcompare
        exact (div_eq_iff hd'.ne').mpr (by linarith)
    | gt =>
        have hmore : (d : ℚ) < 2 * r := by exact_mod_cast Nat.compare_eq_gt.mp hcompare
        exact ⟨by rw [lt_div_iff₀ hd']; linarith, hlt⟩

theorem leaves_div (num : Nat) {den : Nat} (hden : 0 < den) :
    Leaves (accuracyOfFraction (num % den) den) ((num : ℚ) / den - (num / den : Nat)) := by
  rw [div_eq_add_mod hden, add_sub_cancel_left]
  exact leaves_accuracyOfFraction hden (Nat.mod_lt _ hden)

theorem leaves_ofMantissaAndAccuracy (h : Leaves a (x - m)) :
    Leaves (ExtendedMantissa.ofMantissaAndAccuracy m a).accuracy
      (x - (ExtendedMantissa.ofMantissaAndAccuracy m a).mantissa) := by
  rcases a with _ | (_ | _ | _) <;> exact h

/-- A shift by one takes the last bit to what is left. -/
theorem leaves_shiftRightOne (h : Leaves em.accuracy (x - em.mantissa)) :
    Leaves em.shiftRightOne.accuracy (x / 2 - em.shiftRightOne.mantissa) := by
  obtain ⟨m, r, s⟩ := em
  obtain ⟨half, hm | hm⟩ : ∃ half, m = 2 * half ∨ m = 2 * half + 1 := ⟨m / 2, by omega⟩
  · have hshift : ExtendedMantissa.shiftRightOne ⟨m, r, s⟩ = ⟨half, false, r || s⟩ := by
      simp [ExtendedMantissa.shiftRightOne, hm]
    rw [hshift]
    cases r <;> cases s <;>
      simp only [ExtendedMantissa.accuracy, Leaves, hm, Bool.or_self, Bool.or_true, Bool.or_false,
        Nat.cast_mul, Nat.cast_ofNat] at h ⊢
    · linarith
    all_goals constructor <;> linarith
  · have hshift : ExtendedMantissa.shiftRightOne ⟨m, r, s⟩ = ⟨half, true, r || s⟩ := by
      simp [ExtendedMantissa.shiftRightOne, hm]
      omega
    rw [hshift]
    cases r <;> cases s <;>
      simp only [ExtendedMantissa.accuracy, Leaves, hm, Bool.or_self, Bool.or_true, Bool.or_false,
        Nat.cast_add, Nat.cast_mul, Nat.cast_ofNat, Nat.cast_one] at h ⊢
    · linarith
    all_goals constructor <;> linarith

theorem leaves_shiftRight (h : Leaves em.accuracy (x - em.mantissa)) (k : Nat) :
    Leaves (em >>> k).accuracy (x / 2 ^ k - (em >>> k).mantissa) := by
  induction k with
  | zero => rwa [pow_zero, div_one]
  | succ k ih =>
      rw [pow_succ, ← div_div]
      exact leaves_shiftRightOne ih

/-- Rounding finds the number that is at most half a unit away, an even one if it is just that. -/
theorem roundedMantissa_eq (h : Leaves em.accuracy (x - em.mantissa)) (hlow : M - 1 / 2 ≤ x)
    (hhigh : x ≤ M + 1 / 2) (htie : x = M - 1 / 2 ∨ x = M + 1 / 2 → M % 2 = 0) :
    em.roundedMantissa = M := by
  rw [ExtendedMantissa.roundedMantissa]
  generalize em.accuracy = a at h ⊢
  generalize em.mantissa = m at h ⊢
  rcases a with _ | (_ | _ | _) <;> simp only [Leaves] at h <;>
    simp only [Accuracy.roundToNearestEven]
  · have hbelow : (2 * M : ℚ) ≤ 2 * m + 1 := by linarith
    have habove : (2 * m : ℚ) ≤ 2 * M + 1 := by linarith
    norm_cast at hbelow habove
    omega
  · have hbelow : (M : ℚ) < m + 1 := by linarith
    have habove : (m : ℚ) < M + 1 := by linarith
    norm_cast at hbelow habove
    omega
  · have hbelow : (M : ℚ) ≤ m + 1 := by linarith
    have habove : (m : ℚ) ≤ M := by linarith
    norm_cast at hbelow habove
    have heven : M % 2 = 0 := by
      refine htie ?_
      rcases Nat.eq_or_lt_of_le habove with rfl | hlt
      · exact .inr (by linarith)
      · obtain rfl : M = m + 1 := by omega
        push_cast
        exact .inl (by linarith)
    omega
  · have hbelow : (M : ℚ) < m + 2 := by linarith
    have habove : (m : ℚ) < M := by linarith
    norm_cast at hbelow habove
    omega

end Remainders

section Nearest

variable {a : Accuracy} {m M : Nat} {e Q : Int} {v x : ℚ}

/-- What rounds to a number with a full mantissa: it is at most half a unit away, and if just that,
the mantissa is even; below a power of two the units are half as large. -/
structure Near (M : Nat) (Q : Int) (v : ℚ) : Prop where
  low : (M - 1 / 2) * 2 ^ Q ≤ v
  high : v ≤ (M + 1 / 2) * 2 ^ Q
  tie : v = (M - 1 / 2) * 2 ^ Q ∨ v = (M + 1 / 2) * 2 ^ Q → M % 2 = 0
  narrow : M = 2 ^ 52 → (M - 1 / 4) * 2 ^ Q ≤ v

/-- The width of a number that has been cut off. -/
theorem width_of_leaves (hm : 0 < m) (hx : Leaves a (x - m)) (e : Int) :
    (2 : ℚ) ^ ((m.log2 : Int) + e) ≤ x * 2 ^ e ∧ x * 2 ^ e < 2 ^ ((m.log2 : Int) + 1 + e) := by
  obtain ⟨hleast, hmost⟩ := hx.bounds
  rw [zpow_add₀ (by norm_num), zpow_add₀ (by norm_num), ← Nat.cast_add_one, zpow_natCast,
    zpow_natCast]
  constructor
  · refine mul_le_mul_of_nonneg_right ?_ (two_zpow_pos e).le
    have hself : (2 : ℚ) ^ m.log2 ≤ m := by exact_mod_cast Nat.log2_self_le hm.ne'
    linarith
  · refine mul_lt_mul_of_pos_right ?_ (two_zpow_pos e)
    have hself : (m : ℚ) + 1 ≤ 2 ^ (m.log2 + 1) := by exact_mod_cast Nat.lt_log2_self
    linarith

/-- Where the mantissa is shifted to: to the units of the number that it is near to, or, below a power
of two, to half of them. -/
theorem shift_of_near (hm : 0 < m) (hx : Leaves a (x - m)) (he : e ≤ target m e)
    (hfull : 2 ^ 52 ≤ M) (hwidth : M < 2 ^ 53) (hQ : -1074 < Q) (h : Near M Q (x * 2 ^ e)) :
    e + shift m e = (m.log2 : Int) + e - 52 ∧ (e + shift m e = Q ∨ e + shift m e = Q - 1) := by
  have hfull' : (2 : ℚ) ^ 52 ≤ M := by exact_mod_cast hfull
  have hwidth' : (M : ℚ) + 1 ≤ 2 ^ 53 := by exact_mod_cast hwidth
  obtain ⟨hleast, hmost⟩ := width_of_leaves hm hx e
  have hupper : (m.log2 : Int) + e < 53 + Q := by
    refine (zpow_lt_zpow_iff_right₀ (by norm_num : (1 : ℚ) < 2)).mp (hleast.trans_lt ?_)
    rw [zpow_add₀ (by norm_num)]
    refine h.high.trans_lt (mul_lt_mul_of_pos_right ?_ (two_zpow_pos Q))
    calc (M : ℚ) + 1 / 2 < 2 ^ 53 := by linarith
      _ = 2 ^ (53 : ℤ) := by norm_num
  have hlower : 51 + Q < (m.log2 : Int) + 1 + e := by
    refine (zpow_lt_zpow_iff_right₀ (by norm_num : (1 : ℚ) < 2)).mp (lt_trans ?_ hmost)
    rw [zpow_add₀ (by norm_num)]
    refine lt_of_lt_of_le (mul_lt_mul_of_pos_right ?_ (two_zpow_pos Q)) h.low
    calc (2 : ℚ) ^ (51 : ℤ) = 2 ^ 51 := by norm_num
      _ < M - 1 / 2 := by linarith
  rw [shift]
  rw [target_eq] at he ⊢
  omega

theorem mul_eq_shift (x : ℚ) (m : Nat) (e : Int) :
    x * 2 ^ e = x / 2 ^ shift m e * 2 ^ (e + shift m e) := by
  rw [zpow_add₀ (by norm_num), zpow_natCast]
  field_simp

theorem shifted_eq (hx : Leaves a (x - m)) (hlow : M - 1 / 2 ≤ x / 2 ^ shift m e)
    (hhigh : x / 2 ^ shift m e ≤ M + 1 / 2)
    (htie : x / 2 ^ shift m e = M - 1 / 2 ∨ x / 2 ^ shift m e = M + 1 / 2 → M % 2 = 0) :
    shifted m e a = M :=
  roundedMantissa_eq (leaves_shiftRight (leaves_ofMantissaAndAccuracy hx) (shift m e)) hlow hhigh
    htie

theorem shifted_of_near (hx : Leaves a (x - m)) (hsame : e + shift m e = Q)
    (h : Near M Q (x * 2 ^ e)) : shifted m e a = M := by
  rw [mul_eq_shift x m e, hsame] at h
  refine shifted_eq hx ?_ ?_ ?_
  · exact le_of_mul_le_mul_right h.low (two_zpow_pos Q)
  · exact le_of_mul_le_mul_right h.high (two_zpow_pos Q)
  · exact fun htie => h.tie (htie.imp (congrArg (· * 2 ^ Q)) (congrArg (· * 2 ^ Q)))

/-- Just below a power of two rounding takes the mantissa to the power. -/
theorem shifted_of_near_power (hm : 0 < m) (hx : Leaves a (x - m)) (hfull : 2 ^ 52 ≤ M)
    (hshift : e + shift m e = (m.log2 : Int) + e - 52) (hbelow : e + shift m e = Q - 1)
    (h : Near M Q (x * 2 ^ e)) : M = 2 ^ 52 ∧ shifted m e a = 2 ^ 53 := by
  have hpower : (2 : ℚ) ^ Q = 2 * 2 ^ (Q - 1) := by
    rw [← zpow_one_add₀ (by norm_num)]
    congr 1
    omega
  have hbound : x * 2 ^ e < 2 ^ 52 * 2 ^ Q := by
    refine (width_of_leaves hm hx e).2.trans_eq ?_
    rw [← zpow_natCast, ← zpow_add₀ (by norm_num)]
    congr 1
    omega
  have hleast : M = 2 ^ 52 := by
    refine le_antisymm (not_lt.mp fun hlarge => ?_) hfull
    have hlarge' : (2 : ℚ) ^ 52 + 1 ≤ M := by exact_mod_cast hlarge
    refine absurd (h.low.trans_lt hbound) (not_lt.mpr ?_)
    exact mul_le_mul_of_nonneg_right (by linarith) (two_zpow_pos Q).le
  have hnarrow := h.narrow hleast
  rw [mul_eq_shift x m e, hbelow, hleast, hpower] at hnarrow
  rw [mul_eq_shift x m e, hbelow, hpower] at hbound
  refine ⟨hleast, shifted_eq hx ?_ ?_ fun _ => by decide⟩
  · refine le_of_mul_le_mul_right (le_trans (le_of_eq ?_) hnarrow) (two_zpow_pos (Q - 1))
    push_cast
    ring
  · refine le_of_mul_le_mul_right (hbound.le.trans ?_) (two_zpow_pos (Q - 1))
    push_cast
    linarith [two_zpow_pos (Q - 1)]

/-- What has been cut off is rounded to the number that it is near to. -/
theorem roundWithAccuracy_of_near (s : Sign) (hm : 0 < m) (hx : Leaves a (x - m))
    (he : e ≤ target m e) (hfull : 2 ^ 52 ≤ M) (hwidth : M < 2 ^ 53) (hQ : -1074 < Q)
    (h : Near M Q (x * 2 ^ e)) (hM : 0 < M) :
    roundWithAccuracy double s m e a = .finite s M Q hM := by
  obtain ⟨hshift, hsame | hbelow⟩ := shift_of_near hm hx he hfull hwidth hQ h
  · rw [roundWithAccuracy_eq, shifted_of_near hx hsame h, if_neg (by omega), hsame, ofShifted]
    exact dif_neg hM.ne'
  · obtain ⟨rfl, hcarry⟩ := shifted_of_near_power hm hx hfull hshift hbelow h
    rw [roundWithAccuracy_eq, if_pos hcarry]
    congr 1
    omega

end Nearest

section Operations

variable {m m' M : Nat} {e e' Q : Int} {x y : Float}

/-- A product is the number that it is near to. -/
theorem unpack_mul_of_near {hm : 0 < m} {hm' : 0 < m'}
    (hx : x.toModel.unpack = .finite .positive m e hm)
    (hy : y.toModel.unpack = .finite .positive m' e' hm') (hfull : m.log2 = 52)
    (hfull' : m'.log2 = 52) (hM : M.log2 = 52) (hlow : -1074 < Q) (hhigh : Q ≤ 971)
    (h : Near M Q (m * 2 ^ e * (m' * 2 ^ e'))) (hpos : 0 < M) :
    (x * y).toModel.unpack = .finite .positive M Q hpos := by
  have hleast := ((Nat.log2_eq_iff hm.ne').mp hfull).1
  have hleast' := ((Nat.log2_eq_iff hm'.ne').mp hfull').1
  obtain ⟨hleastM, hmostM⟩ := (Nat.log2_eq_iff hpos.ne').mp hM
  have hwide : 104 ≤ (m * m').log2 := by
    refine (Nat.le_log2 (Nat.mul_pos hm hm').ne').mpr ?_
    exact (Nat.pow_add 2 52 52).le.trans (Nat.mul_le_mul hleast hleast')
  have hleaves : Leaves .exact ((m * m' : ℚ) - (m * m' : Nat)) := by
    rw [Nat.cast_mul]
    exact sub_self _
  have hvalue : (m : ℚ) * 2 ^ e * (m' * 2 ^ e') = m * m' * 2 ^ (e + e') := by
    rw [zpow_add₀ (by norm_num)]
    ring
  rw [hvalue] at h
  have hround := roundWithAccuracy_of_near .positive (Nat.mul_pos hm hm') hleaves
    (by rw [target_eq]; omega) hleastM hmostM hlow h hpos
  have hproduct : (x * y).toModel = Float.Model.pack
      (UnpackedFloat.mul double x.toModel.unpack y.toModel.unpack) := rfl
  have hmul : UnpackedFloat.mul double x.toModel.unpack y.toModel.unpack =
      .finite .positive M Q hpos := by
    rw [hx, hy, ← hround]
    rfl
  rw [hproduct, hmul]
  exact unpack_pack hpos hM hlow.le hhigh

/-- The quotient of full mantissas, unless it is too small. -/
theorem divCore_of_full (hm : m.log2 = 52) (hm' : m'.log2 = 52) (he : -1021 ≤ e - e') :
    divCore double m e m' e' =
      (m * 2 ^ 53 / m', e - e' - 53, accuracyOfFraction (m * 2 ^ 53 % m') m') := by
  have htarget : double.targetExponent (totalExponent m e - totalExponent m' e') = e - e' - 53 := by
    have htotal : totalExponent m e - totalExponent m' e' = e - e' := by
      simp only [totalExponent, hm, hm']
      omega
    rw [htotal]
    exact (max_eq_left (by omega) : max (e - e' - 53) (-1074) = e - e' - 53)
  have hmin : min (e - e') (e - e' - 53) = e - e' - 53 := by omega
  have hshift : (e - e' - (e - e' - 53)).toNat = 53 := by omega
  simp only [divCore, htarget, hmin, hshift, Nat.shiftLeft_eq]

/-- A quotient is the number that it is near to. -/
theorem unpack_div_of_near {hm : 0 < m} {hm' : 0 < m'}
    (hx : x.toModel.unpack = .finite .positive m e hm)
    (hy : y.toModel.unpack = .finite .positive m' e' hm') (hfull : m.log2 = 52)
    (hfull' : m'.log2 = 52) (he : -1021 ≤ e - e') (hM : M.log2 = 52) (hlow : -1074 < Q)
    (hhigh : Q ≤ 971) (h : Near M Q (m * 2 ^ e / (m' * 2 ^ e'))) (hpos : 0 < M) :
    (x / y).toModel.unpack = .finite .positive M Q hpos := by
  obtain ⟨hleast, hmost⟩ := (Nat.log2_eq_iff hm.ne').mp hfull
  obtain ⟨hleast', hmost'⟩ := (Nat.log2_eq_iff hm'.ne').mp hfull'
  obtain ⟨hleastM, hmostM⟩ := (Nat.log2_eq_iff hpos.ne').mp hM
  have hq : 2 ^ 52 ≤ m * 2 ^ 53 / m' := by
    refine (Nat.le_div_iff_mul_le hm').mpr ?_
    calc 2 ^ 52 * m' ≤ 2 ^ 52 * 2 ^ 53 := Nat.mul_le_mul_left _ hmost'.le
      _ ≤ m * 2 ^ 53 := Nat.mul_le_mul_right _ hleast
  have hqpos : 0 < m * 2 ^ 53 / m' := by omega
  have hwide : 52 ≤ (m * 2 ^ 53 / m').log2 := (Nat.le_log2 hqpos.ne').mpr hq
  have hpos' : (0 : ℚ) < m' := by exact_mod_cast hm'
  have hleaves := leaves_div (m * 2 ^ 53) hm'
  rw [Nat.cast_mul, Nat.cast_pow, Nat.cast_ofNat] at hleaves
  have hvalue : (m : ℚ) * 2 ^ e / (m' * 2 ^ e') = m * 2 ^ 53 / m' * 2 ^ (e - e' - 53) := by
    rw [zpow_sub₀ (by norm_num), zpow_sub₀ (by norm_num)]
    norm_num
    field_simp
  rw [hvalue] at h
  have hround := roundWithAccuracy_of_near .positive hqpos hleaves (by rw [target_eq]; omega)
    hleastM hmostM hlow h hpos
  have hquotient : (x / y).toModel = Float.Model.pack
      (UnpackedFloat.div double x.toModel.unpack y.toModel.unpack) := rfl
  have hdiv : UnpackedFloat.div double x.toModel.unpack y.toModel.unpack =
      .finite .positive M Q hpos := by
    rw [hx, hy, ← hround]
    simp only [UnpackedFloat.div, divCore_of_full hfull hfull' he]
    rfl
  rw [hquotient, hdiv]
  exact unpack_pack hpos hM hlow.le hhigh

end Operations

end HttpGateway.Doubles
