import HttpGateway.Text.Decimal
import Mathlib

/-!
# Numbers that stay finite

When a rounded product or quotient is finite. Rounding shifts a mantissa to the width of the format,
which may add a unit in its last place and never more; so whatever is below the largest number stays
finite, and a whole number is rounded to at most a 2⁵²-th part more than itself.
-/

open Float.Model Float.Model.UnpackedFloat

namespace HttpGateway.Doubles

/-- The format of all numbers here. -/
abbrev double : Format := .binary64

/-- The largest number. -/
def largest : ℚ := (2 ^ 53 - 1) * 2 ^ (971 : ℤ)

/-- The exponent that a mantissa and an exponent are rounded to. -/
def target (m : Nat) (e : Int) : Int := double.targetExponent (totalExponent m e)

theorem target_eq (m : Nat) (e : Int) : target m e = max (m.log2 + 1 + e - 53) (-1074) := rfl

section Rounding

variable (s : Sign) (m : Nat) (e : Int) (a : Accuracy)

theorem mantissa_shift (em : ExtendedMantissa) (k : Nat) :
    (em >>> k).mantissa = em.mantissa / 2 ^ k := by
  induction k with
  | zero => exact (Nat.div_one _).symm
  | succ k ih =>
      have hsucc : em >>> (k + 1) = (em >>> k).shiftRightOne := rfl
      rw [hsucc, ExtendedMantissa.shiftRightOne, ih, Nat.div_div_eq_div_mul, Nat.pow_succ]

theorem roundedMantissa_bounds (em : ExtendedMantissa) :
    em.mantissa ≤ em.roundedMantissa ∧ em.roundedMantissa ≤ em.mantissa + 1 := by
  obtain ⟨m, r, s⟩ := em
  cases r <;> cases s <;>
    simp only [ExtendedMantissa.roundedMantissa, ExtendedMantissa.accuracy,
      Accuracy.roundToNearestEven] <;> omega

/-- How far a mantissa is shifted. -/
def shift : Nat := (target m e - e).toNat

/-- The mantissa after the shift, rounded. -/
def shifted : Nat := (shiftToTargetExponent double m e a).1.roundedMantissa

theorem shifted_bounds : m / 2 ^ shift m e ≤ shifted m e a ∧
    shifted m e a ≤ m / 2 ^ shift m e + 1 := by
  have hfloor : (shiftToTargetExponent double m e a).1.mantissa = m / 2 ^ shift m e := by
    refine (mantissa_shift _ _).trans (congrArg (· / 2 ^ shift m e) ?_)
    cases a with
    | exact => rfl
    | inexact o => cases o <;> rfl
  exact hfloor ▸ roundedMantissa_bounds _

theorem div_shift_lt : m / 2 ^ shift m e < 2 ^ 53 := by
  refine Nat.div_lt_of_lt_mul ?_
  have hshift : m.log2 + 1 ≤ shift m e + 53 := by
    rw [shift, target_eq]
    omega
  calc m < 2 ^ (m.log2 + 1) := Nat.lt_log2_self
    _ ≤ 2 ^ (shift m e + 53) := Nat.pow_le_pow_right (by decide) hshift
    _ = 2 ^ shift m e * 2 ^ 53 := Nat.pow_add ..

theorem shifted_le : shifted m e a ≤ 2 ^ 53 := by
  have hfloor := div_shift_lt m e
  have hrounded := (shifted_bounds m e a).2
  omega

theorem shiftToTargetExponent_of_lt {m : Nat} {e : Int} (hm : m < 2 ^ 53) (he : -1074 ≤ e) :
    shiftToTargetExponent double m e .exact = (⟨m, false, false⟩, e) := by
  have hlog : m.log2 < 53 := by
    rcases Nat.eq_zero_or_pos m with rfl | hpos
    · decide
    · exact (Nat.log2_lt hpos.ne').mpr hm
  have hshift : shift m e = 0 := by
    rw [shift, target_eq]
    omega
  have hzero : (target m e - e).toNat = 0 := hshift
  simp only [shiftToTargetExponent, shiftToExponent]
  rw [show (double.targetExponent (totalExponent m e) - e).toNat = 0 from hzero]
  exact congrArg (Prod.mk _) (add_zero e)

theorem shiftToTargetExponent_carry {e : Int} (he : -1074 ≤ e) :
    shiftToTargetExponent double (2 ^ 53) e .exact = (⟨2 ^ 52, false, false⟩, e + 1) := by
  have hone : (target (2 ^ 53) e - e).toNat = 1 := by
    rw [target_eq, Nat.log2_two_pow]
    omega
  simp only [shiftToTargetExponent, shiftToExponent]
  rw [show (double.targetExponent (totalExponent (2 ^ 53) e) - e).toNat = 1 from hone]
  rfl

/-- The number of a mantissa that fits the format. -/
def ofShifted (s : Sign) (p : ExtendedMantissa × Int) : UnpackedFloat :=
  if h : p.1.mantissa = 0 then .zero s else .finite s p.1.mantissa p.2 (Nat.pos_of_ne_zero h)

/-- What rounding comes to: the mantissa is shifted and rounded, and if that makes it too wide by a
bit it is shifted once more. -/
theorem roundWithAccuracy_eq :
    roundWithAccuracy double s m e a =
      if shifted m e a = 2 ^ 53 then .finite s (2 ^ 52) (e + shift m e + 1) (Nat.two_pow_pos 52)
      else ofShifted s (⟨shifted m e a, false, false⟩, e + shift m e) := by
  have hlow : -1074 ≤ e + shift m e := by
    rw [shift, target_eq]
    omega
  have hle := shifted_le m e a
  have hagain : roundWithAccuracy double s m e a =
      ofShifted s (shiftToTargetExponent double (shifted m e a) (e + shift m e) .exact) := rfl
  split
  next hcarry =>
    rw [hagain, hcarry, shiftToTargetExponent_carry hlow]
    rfl
  next hcarry => rw [hagain, shiftToTargetExponent_of_lt (by omega) hlow]

/-- What the format has room for is not rounded. -/
theorem roundWithAccuracy_exact (s : Sign) {m : Nat} {e : Int} (hm : 0 < m) (hwidth : m < 2 ^ 53)
    (he : -1074 ≤ e) : roundWithAccuracy double s m e .exact = .finite s m e hm := by
  have hshift := shiftToTargetExponent_of_lt hwidth he
  have hshifted : shifted m e .exact = m := congrArg (fun p => p.1.roundedMantissa) hshift
  have hexponent : e + shift m e = e := congrArg Prod.snd hshift
  rw [roundWithAccuracy_eq, if_neg (by omega), hshifted, hexponent]
  exact dif_neg hm.ne'

end Rounding

section Packing

variable {s : Sign} {m : Nat} {e : Int}

theorem isFinite_unpack {b : BitVec double.numBits}
    (h : @unpackExponent double b ≠ -1#11) :
    (UnpackedFloat.unpack double b).isFinite = true := by
  simp only [UnpackedFloat.unpack, if_neg h]
  split
  · split <;> rfl
  · rfl

theorem isFinite_pack_of_unpackExponent {u : UnpackedFloat}
    (h : unpackExponent (UnpackedFloat.pack double u) ≠ -1#11) :
    (Float.Model.pack u).isFinite = true :=
  isFinite_unpack h

theorem isFinite_pack_zero (s : Sign) : (Float.Model.pack (.zero s)).isFinite = true := by
  refine isFinite_pack_of_unpackExponent ?_
  rw [show UnpackedFloat.pack double (.zero s) = packComponents double s 0 0 from rfl,
    unpackExponent_packComponents]
  decide

/-- A number that is not too large is packed with its exponent, or without one if its mantissa is
not full. -/
theorem pack_of_le (hm : 0 < m) (he : e ≤ 971) :
    UnpackedFloat.pack double (.finite s m e hm) =
      if m.log2 = 52 then packComponents double s (.ofNat 11 (e + 1075).toNat) (.ofNat 52 m)
      else packComponents double s 0#11 (.ofNat 52 m) := by
  have hbiased : (e + double.exponentBias + double.mantissaBitsWithoutImplicit).toNat =
      (e + 1075).toNat := by
    rw [show (double.exponentBias : Int) = 1023 from rfl, Int.add_assoc]
    rfl
  have hfits : ¬ 2 ^ 11 ≤ (e + 1075).toNat + 1 := by omega
  have hwidth : (m.log2 + 1 = double.mantissaBits) = (m.log2 = 52) :=
    propext (show m.log2 + 1 = 53 ↔ m.log2 = 52 by omega)
  simp only [UnpackedFloat.pack, hbiased, hwidth]
  rw [if_neg hfits]

theorem isFinite_pack (hm : 0 < m) (he : e ≤ 971) :
    (Float.Model.pack (.finite s m e hm)).isFinite = true := by
  refine isFinite_pack_of_unpackExponent ?_
  rw [pack_of_le hm he]
  split
  · rw [unpackExponent_packComponents]
    intro hall
    have hnat := congrArg BitVec.toNat hall
    rw [BitVec.toNat_ofNat, Nat.mod_eq_of_lt (by omega)] at hnat
    have hmost : (-1#11).toNat = 2047 := rfl
    omega
  · rw [unpackExponent_packComponents]
    decide

/-- A number that is too large to be packed becomes infinite. -/
theorem isFinite_pack_of_not_isInf (hm : 0 < m)
    (h : (Float.Model.pack (.finite s m e hm)).isInf = false) :
    (Float.Model.pack (.finite s m e hm)).isFinite = true := by
  refine isFinite_pack hm (not_lt.mp fun hlarge => ?_)
  have hinfinite : UnpackedFloat.pack double (.finite s m e hm) =
      UnpackedFloat.packedInfinity double s := by
    have hbiased : e + double.exponentBias + double.mantissaBitsWithoutImplicit = e + 1075 := by
      rw [show (double.exponentBias : Int) = 1023 from rfl, Int.add_assoc]
      rfl
    simp only [UnpackedFloat.pack, hbiased]
    exact if_pos (show 2 ^ 11 ≤ (e + 1075).toNat + 1 by omega)
  have hpacked : (Float.Model.pack (.finite s m e hm)).isInf =
      (UnpackedFloat.unpack double (UnpackedFloat.packedInfinity double s)).isInf :=
    congrArg (fun b => (UnpackedFloat.unpack double b).isInf) hinfinite
  rw [hpacked] at h
  cases s <;> exact absurd h (by decide)

theorem sign_packComponents {spec : Format} (s : Sign) (e : BitVec spec.exponentBits)
    (m : BitVec spec.mantissaBitsWithoutImplicit) :
    Sign.ofBitVec (unpackSign (packComponents spec s e m)) = s := by
  rw [unpackSign_packComponents]
  cases s <;> rfl

theorem implicit_toNat (m : BitVec 52) : (1#1 ++ m).toNat = 2 ^ 52 + m.toNat := by
  rw [BitVec.toNat_append, ← Nat.shiftLeft_add_eq_or_of_lt m.isLt]
  rfl

/-- A number with a full mantissa is packed without loss. -/
theorem unpack_pack (hm : 0 < m) (hlog : m.log2 = 52) (hlow : -1074 ≤ e) (he : e ≤ 971) :
    (Float.Model.pack (.finite s m e hm)).unpack = .finite s m e hm := by
  obtain ⟨hleast, hmost⟩ := (Nat.log2_eq_iff hm.ne').mp hlog
  have hexponent : (BitVec.ofNat 11 (e + 1075).toNat).toNat = (e + 1075).toNat := by
    rw [BitVec.toNat_ofNat, Nat.mod_eq_of_lt (by omega)]
  have hmantissa : (1#1 ++ BitVec.ofNat 52 m).toNat = m := by
    rw [implicit_toNat, BitVec.toNat_ofNat]
    omega
  have hall : BitVec.ofNat 11 (e + 1075).toNat ≠ -1#11 := fun h => by
    have hnat := hexponent.symm.trans (congrArg BitVec.toNat h)
    rw [show (-1#11).toNat = 2047 from rfl] at hnat
    omega
  have hzero : BitVec.ofNat 11 (e + 1075).toNat ≠ 0#11 := fun h => by
    have hnat := hexponent.symm.trans (congrArg BitVec.toNat h)
    rw [BitVec.toNat_zero] at hnat
    omega
  have hpack : (Float.Model.pack (.finite s m e hm)).unpack =
      UnpackedFloat.unpack double (packComponents double s
        (.ofNat 11 (e + 1075).toNat) (.ofNat 52 m)) :=
    congrArg (UnpackedFloat.unpack double) ((pack_of_le hm he).trans (if_pos hlog))
  rw [hpack]
  simp only [UnpackedFloat.unpack, unpackMantissa_packComponents, unpackExponent_packComponents,
    sign_packComponents, if_neg hall, if_neg hzero, hexponent]
  congr 1
  rw [show (double.exponentBias : Int) = 1023 from rfl]
  omega

/-- What the bits of a finite number hold. -/
theorem unpack_of_isFinite {x : Float} (h : x.isFinite = true) :
    (∃ s, x.toModel.unpack = .zero s) ∨
      ∃ s m e hm, x.toModel.unpack = .finite s m e hm ∧ m < 2 ^ 53 ∧ -1074 ≤ e ∧ e ≤ 971 ∧
        (2 ^ 52 ≤ m ∨ e = -1074) := by
  have hbias : (double.exponentBias : Int) = 1023 := rfl
  have hunpacked : (UnpackedFloat.unpack double x.toModel.toBits.toBitVec).isFinite = true := h
  simp only [Float.Model.unpack, UnpackedFloat.unpack, hbias] at hunpacked ⊢
  have hm : (@unpackMantissa double x.toModel.toBits.toBitVec).toNat < 2 ^ 52 := BitVec.isLt _
  have hk : (@unpackExponent double x.toModel.toBits.toBitVec).toNat < 2048 := BitVec.isLt _
  split at hunpacked
  · split at hunpacked <;> cases hunpacked
  next hall =>
    rw [if_neg hall]
    split
    next hzero =>
      split
      next => exact .inl ⟨_, rfl⟩
      next hne =>
        have hpos : 0 < (@unpackMantissa double x.toModel.toBits.toBitVec).toNat :=
          Nat.pos_of_ne_zero fun h => hne (BitVec.eq_of_toNat_eq h)
        refine .inr ⟨_, _, _, hpos, rfl, by omega, ?_⟩
        rw [hzero]
        exact ⟨by decide, by decide, .inr rfl⟩
    next hzero =>
      have hfull := implicit_toNat (@unpackMantissa double x.toModel.toBits.toBitVec)
      have hleast : (@unpackExponent double x.toModel.toBits.toBitVec).toNat ≠ 0 :=
        fun h => hzero (BitVec.eq_of_toNat_eq h)
      have hmost : (@unpackExponent double x.toModel.toBits.toBitVec).toNat ≠ 2047 :=
        fun h => hall (BitVec.eq_of_toNat_eq h)
      have hpos : 0 < (1#1 ++ @unpackMantissa double x.toModel.toBits.toBitVec).toNat :=
        Nat.lt_of_lt_of_le (Nat.two_pow_pos 52) (hfull ▸ Nat.le_add_right ..)
      exact .inr ⟨_, _, _, hpos, rfl, by omega, by omega, by omega, .inl (by omega)⟩

/-- A number is what its bits hold. -/
theorem eq_of_unpack_eq {x y : Float} (h : x.toModel.unpack = y.toModel.unpack) : x = y := by
  obtain ⟨⟨a, ha⟩⟩ := x
  obtain ⟨⟨b, hb⟩⟩ := y
  have hbits : a.toBitVec = b.toBitVec := (unpack_inj_of_valid ha hb).mp h
  obtain rfl : a = b := UInt64.toBitVec_inj.mp hbits
  rfl

end Packing

section Operations

variable {m : Nat} {e : Int}

theorem two_zpow_pos (e : Int) : (0 : ℚ) < 2 ^ e := zpow_pos (by norm_num) e

theorem largest_lt : largest < 2 ^ (1024 : ℤ) := by
  calc largest < 2 ^ (53 : ℤ) * 2 ^ (971 : ℤ) :=
        mul_lt_mul_of_pos_right (by norm_num) (two_zpow_pos 971)
    _ = 2 ^ (1024 : ℤ) := (zpow_add₀ (by norm_num) 53 971).symm

theorem largest_pos : 0 < largest := mul_pos (by norm_num) (two_zpow_pos 971)

theorem mul_le_largest (hm : m < 2 ^ 53) (he : e ≤ 971) : (m : ℚ) * 2 ^ e ≤ largest := by
  have hmantissa : (m : ℚ) ≤ 2 ^ 53 - 1 := by
    have hsucc : (m : ℚ) + 1 ≤ 2 ^ 53 := by exact_mod_cast hm
    linarith
  exact mul_le_mul hmantissa (zpow_le_zpow_right₀ (by norm_num) he) (two_zpow_pos e).le
    (by norm_num)

/-- The width of what is smaller than the largest number. -/
theorem log2_add_le (hm : 0 < m) (h : (m : ℚ) * 2 ^ e < largest) : m.log2 + e ≤ 1023 := by
  have hleast : (2 : ℚ) ^ (m.log2 : Int) ≤ m := by
    rw [zpow_natCast]
    exact_mod_cast Nat.log2_self_le hm.ne'
  have hlt : (2 : ℚ) ^ ((m.log2 : Int) + e) < 2 ^ (1024 : Int) := by
    calc (2 : ℚ) ^ ((m.log2 : Int) + e) = 2 ^ (m.log2 : Int) * 2 ^ e := zpow_add₀ (by norm_num) ..
      _ ≤ m * 2 ^ e := mul_le_mul_of_nonneg_right hleast (two_zpow_pos e).le
      _ < 2 ^ (1024 : Int) := h.trans largest_lt
  have hexponents := (zpow_lt_zpow_iff_right₀ (by norm_num : (1 : ℚ) < 2)).mp hlt
  omega

/-- What is smaller than the largest number stays finite when it is rounded, if there is no need to
widen its mantissa. -/
theorem isFinite_pack_roundWithAccuracy (s : Sign) (a : Accuracy) (h : (m : ℚ) * 2 ^ e < largest)
    (he : e ≤ 971 ∨ 2 ^ 53 ≤ m) :
    (Float.Model.pack (roundWithAccuracy double s m e a)).isFinite = true := by
  have hexponent : e + shift m e ≤ 971 := by
    rw [shift, target_eq]
    rcases Nat.eq_zero_or_pos m with rfl | hm
    · rw [Nat.log2_zero]
      omega
    · have hwidth := log2_add_le hm h
      have hwide : 2 ^ 53 ≤ m → 53 ≤ m.log2 := (Nat.le_log2 hm.ne').mpr
      omega
  rw [roundWithAccuracy_eq]
  split
  next hcarry =>
    refine isFinite_pack _ (Int.add_one_le_iff.mpr (lt_of_le_of_ne hexponent fun htop => ?_))
    have hfloor : 2 ^ 53 - 1 ≤ m / 2 ^ shift m e := by
      have hrounded := (shifted_bounds m e a).2
      omega
    have hleast : ((2 ^ 53 - 1 : Nat) : ℚ) * 2 ^ shift m e ≤ m := by
      exact_mod_cast (Nat.le_div_iff_mul_le (Nat.two_pow_pos _)).mp hfloor
    refine absurd h (not_lt.mpr ?_)
    calc largest = ((2 ^ 53 - 1 : Nat) : ℚ) * 2 ^ (shift m e + e) := by
          rw [add_comm, htop, largest]
          norm_num
      _ = ((2 ^ 53 - 1 : Nat) : ℚ) * 2 ^ shift m e * 2 ^ e := by
          rw [zpow_add₀ (by norm_num), zpow_natCast, mul_assoc]
      _ ≤ m * 2 ^ e := mul_le_mul_of_nonneg_right hleast (two_zpow_pos e).le
  next =>
    simp only [ofShifted]
    split
    · exact isFinite_pack_zero s
    · exact isFinite_pack _ hexponent

variable {x y : Float}

/-- A finite number and its reach. -/
theorem lt_of_isFinite {s : Sign} {hm : 0 < m} (h : x.isFinite = true)
    (hx : x.toModel.unpack = .finite s m e hm) :
    m < 2 ^ 53 ∧ -1074 ≤ e ∧ e ≤ 971 ∧ (2 ^ 52 ≤ m ∨ e = -1074) := by
  rcases unpack_of_isFinite h with ⟨s', hzero⟩ | ⟨s', m', e', hm', hfinite, hshape⟩
  · cases hx.symm.trans hzero
  · cases hx.symm.trans hfinite
    exact hshape

theorem isFinite_neg (h : x.isFinite = true) : (-x).isFinite = true := by
  have hneg : (-x).isFinite = (Float.Model.pack x.toModel.unpack.neg).isFinite := rfl
  rw [hneg]
  rcases unpack_of_isFinite h with ⟨s, hx⟩ | ⟨s, m, e, hm, hx, -, -, he, -⟩
  · rw [hx]
    exact isFinite_pack_zero (-s)
  · rw [hx]
    exact isFinite_pack hm he

/-- A number with a full mantissa keeps it when its sign changes. -/
theorem unpack_neg {m : Nat} {e : Int} {hm : 0 < m} {y : Float} (hlog : m.log2 = 52)
    (hlow : -1074 ≤ e) (he : e ≤ 971) (hy : y.toModel.unpack = .finite .positive m e hm) :
    (-y).toModel.unpack = .finite .negative m e hm := by
  have hneg : (-y).toModel = Float.Model.pack y.toModel.unpack.neg := rfl
  rw [hneg, hy]
  exact unpack_pack hm hlog hlow he

/-- What compares as zero is one of the two zeros. -/
theorem eq_zero_of_beq {x : Float} (hx : x.isFinite = true) (hzero : (x == 0) = true) :
    x = 0 ∨ x = -0 := by
  rcases unpack_of_isFinite hx with ⟨s, hs⟩ | ⟨s, m, e, hm, hfinite, -⟩
  · cases s with
    | positive => exact .inl (eq_of_unpack_eq (hs.trans rfl))
    | negative => exact .inr (eq_of_unpack_eq (hs.trans rfl))
  · have hbeq : (x == 0) = x.toModel.unpack.beq (.zero .positive) := rfl
    rw [hbeq, hfinite] at hzero
    cases s <;> cases hzero

/-- A finite number is neither infinite nor undefined. -/
theorem ordinary_of_isFinite (h : x.isFinite = true) : x.isInf = false ∧ x.isNaN = false := by
  have hclass : x.isInf = x.toModel.unpack.isInf ∧ x.isNaN = x.toModel.unpack.isNaN := ⟨rfl, rfl⟩
  rw [hclass.1, hclass.2]
  rcases unpack_of_isFinite h with ⟨s, hx⟩ | ⟨s, m, e, hm, hx, -⟩
  · rw [hx]
    exact ⟨rfl, rfl⟩
  · rw [hx]
    exact ⟨rfl, rfl⟩

/-- A product below the largest number is finite. -/
theorem isFinite_mul {s s' : Sign} {m' : Nat} {e' : Int} {hm : 0 < m} {hm' : 0 < m'}
    (hfinite : x.isFinite = true) (hfinite' : y.isFinite = true)
    (hx : x.toModel.unpack = .finite s m e hm) (hy : y.toModel.unpack = .finite s' m' e' hm')
    (h : (m : ℚ) * 2 ^ e * (m' * 2 ^ e') < largest) : (x * y).isFinite = true := by
  have hproduct : (x * y).isFinite = (Float.Model.pack
      (UnpackedFloat.mul double x.toModel.unpack y.toModel.unpack)).isFinite := rfl
  rw [hproduct, hx, hy]
  refine isFinite_pack_roundWithAccuracy _ _ ?_ ?_
  · rw [zpow_add₀ (by norm_num), Nat.cast_mul]
    exact lt_of_eq_of_lt (by ring) h
  · obtain ⟨-, -, he, hwide⟩ := lt_of_isFinite hfinite hx
    obtain ⟨-, -, he', hwide'⟩ := lt_of_isFinite hfinite' hy
    rcases hwide with hwide | rfl
    · rcases hwide' with hwide' | rfl
      · exact .inr ((by norm_num : 2 ^ 53 ≤ 2 ^ 52 * 2 ^ 52).trans (Nat.mul_le_mul hwide hwide'))
      · exact .inl (by omega)
    · exact .inl (by omega)

/-- A product of finite numbers is finite unless it is infinite: it is never undefined. -/
theorem isFinite_mul_of_not_isInf (hfinite : x.isFinite = true) (hfinite' : y.isFinite = true)
    (h : (x * y).isInf = false) : (x * y).isFinite = true := by
  have hclass : (x * y).isFinite = (Float.Model.pack
      (UnpackedFloat.mul double x.toModel.unpack y.toModel.unpack)).isFinite ∧
      (x * y).isInf = (Float.Model.pack
        (UnpackedFloat.mul double x.toModel.unpack y.toModel.unpack)).isInf := ⟨rfl, rfl⟩
  rw [hclass.1]
  rw [hclass.2] at h
  rcases unpack_of_isFinite hfinite with ⟨s, hx⟩ | ⟨s, m, e, hm, hx, -⟩
  · rcases unpack_of_isFinite hfinite' with ⟨s', hy⟩ | ⟨s', m', e', hm', hy, -⟩ <;>
      rw [hx, hy] <;> exact isFinite_pack_zero _
  · rcases unpack_of_isFinite hfinite' with ⟨s', hy⟩ | ⟨s', m', e', hm', hy, -⟩
    · rw [hx, hy]
      exact isFinite_pack_zero _
    · have hround : UnpackedFloat.mul double x.toModel.unpack y.toModel.unpack =
          roundWithAccuracy double (s * s') (m * m') (e + e') .exact := by
        rw [hx, hy]
        rfl
      rw [hround, roundWithAccuracy_eq] at h ⊢
      split at h
      next hcarry =>
        rw [if_pos hcarry]
        exact isFinite_pack_of_not_isInf _ h
      next hcarry =>
        rw [if_neg hcarry]
        simp only [ofShifted] at h ⊢
        split at h
        next hnone =>
          rw [dif_pos hnone]
          exact isFinite_pack_zero _
        next hsome =>
          rw [dif_neg hsome]
          exact isFinite_pack_of_not_isInf _ h

/-- The quotient that is rounded is at most the quotient itself. -/
theorem quotient_le (m : Nat) (e : Int) {m' : Nat} (hm' : 0 < m') (e' : Int) :
    ((divCore double m e m' e').1 : ℚ) * 2 ^ (divCore double m e m' e').2.1 ≤
      m * 2 ^ e / (m' * 2 ^ e') := by
  simp only [divCore]
  generalize double.targetExponent (totalExponent m e - totalExponent m' e') = t
  generalize hk : (e - e' - min (e - e') t).toNat = k
  have hmin : min (e - e') t = e - e' - k := by omega
  have hpos : (0 : ℚ) < m' := by exact_mod_cast hm'
  rw [hmin, Nat.shiftLeft_eq]
  have hfloor : ((m * 2 ^ k / m' : Nat) : ℚ) ≤ m * 2 ^ k / m' := by
    refine (le_div_iff₀ hpos).mpr ?_
    exact_mod_cast Nat.div_mul_le_self (m * 2 ^ k) m'
  calc ((m * 2 ^ k / m' : Nat) : ℚ) * 2 ^ (e - e' - k)
      ≤ m * 2 ^ k / m' * 2 ^ (e - e' - k) :=
        mul_le_mul_of_nonneg_right hfloor (two_zpow_pos _).le
    _ = m * 2 ^ e / (m' * 2 ^ e') := by
        rw [zpow_sub₀ (by norm_num), zpow_sub₀ (by norm_num), zpow_natCast]
        field_simp

/-- A quotient by a number of at least two is finite. -/
theorem isFinite_div {s' : Sign} {m' : Nat} {e' : Int} {hm' : 0 < m'} (hfinite : x.isFinite = true)
    (hy : y.toModel.unpack = .finite s' m' e' hm') (h : 2 ≤ (m' : ℚ) * 2 ^ e') :
    (x / y).isFinite = true := by
  have hquotient : (x / y).isFinite = (Float.Model.pack
      (UnpackedFloat.div double x.toModel.unpack y.toModel.unpack)).isFinite := rfl
  rw [hquotient, hy]
  rcases unpack_of_isFinite hfinite with ⟨s, hx⟩ | ⟨s, m, e, hm, hx, hshape⟩
  · rw [hx]
    exact isFinite_pack_zero _
  · obtain ⟨hm53, -, he, -⟩ := hshape
    rw [hx]
    refine isFinite_pack_roundWithAccuracy _ _ ?_ (.inl ?_)
    · calc ((divCore double m e m' e').1 : ℚ) * 2 ^ (divCore double m e m' e').2.1
          ≤ m * 2 ^ e / (m' * 2 ^ e') := quotient_le m e hm' e'
        _ ≤ m * 2 ^ e / 2 := div_le_div_of_nonneg_left (by positivity) (by norm_num) h
        _ ≤ largest / 2 := by
          refine div_le_div_of_nonneg_right ?_ (by norm_num)
          exact mul_le_largest hm53 he
        _ < largest := half_lt_self largest_pos
    · have hreach : (2 : ℚ) ^ (1 : ℤ) < 2 ^ ((m'.log2 : ℤ) + 1 + e') := by
        calc (2 : ℚ) ^ (1 : ℤ) ≤ m' * 2 ^ e' := h
          _ < 2 ^ ((m'.log2 : ℤ) + 1) * 2 ^ e' := by
            refine mul_lt_mul_of_pos_right ?_ (two_zpow_pos e')
            exact_mod_cast Nat.lt_log2_self
          _ = 2 ^ ((m'.log2 : ℤ) + 1 + e') := (zpow_add₀ (by norm_num) ..).symm
      have hwidth' := (zpow_lt_zpow_iff_right₀ (by norm_num : (1 : ℚ) < 2)).mp hreach
      have hwidth : m.log2 < 53 := (Nat.log2_lt hm.ne').mpr hm53
      refine (min_le_right _ _ : (divCore double m e m' e').2.1 ≤ _).trans ?_
      refine max_le ?_ (by decide)
      change (m.log2 + 1 + e) - (m'.log2 + 1 + e') - (53 : ℤ) ≤ 971
      omega

end Operations

section Conversion

variable {m : Nat} {e : Int}

/-- A shift that leaves a full mantissa, and the rounding after it, change a mantissa by at most its
2⁵²-th part. -/
theorem shifted_mul_bounds (a : Accuracy) (hm : 0 < m) (hshift : shift m e + 52 = m.log2) :
    (m : ℚ) * (1 - 1 / 2 ^ 52) ≤ shifted m e a * 2 ^ shift m e ∧
      (shifted m e a : ℚ) * 2 ^ shift m e ≤ m * (1 + 1 / 2 ^ 52) := by
  obtain ⟨hleast, hmost⟩ := shifted_bounds m e a
  have hunit : (2 : ℚ) ^ shift m e ≤ m * (1 / 2 ^ 52) := by
    have hpow : (2 : ℚ) ^ shift m e * 2 ^ 52 ≤ m := by
      rw [← pow_add, hshift]
      exact_mod_cast Nat.log2_self_le hm.ne'
    linarith
  constructor
  · have hdiv : (m : ℚ) ≤ (m / 2 ^ shift m e : Nat) * 2 ^ shift m e + 2 ^ shift m e := by
      exact_mod_cast (Nat.lt_div_mul_add (Nat.two_pow_pos _)).le
    have hfloor : ((m / 2 ^ shift m e : Nat) : ℚ) * 2 ^ shift m e ≤
        shifted m e a * 2 ^ shift m e := by
      exact_mod_cast Nat.mul_le_mul_right _ hleast
    linarith
  · have hdiv : ((m / 2 ^ shift m e : Nat) : ℚ) * 2 ^ shift m e ≤ m := by
      exact_mod_cast Nat.div_mul_le_self m (2 ^ shift m e)
    have hceil : (shifted m e a : ℚ) * 2 ^ shift m e ≤
        (m / 2 ^ shift m e : Nat) * 2 ^ shift m e + 2 ^ shift m e := by
      exact_mod_cast (Nat.mul_le_mul_right _ hmost).trans_eq (Nat.succ_mul ..)
    linarith

/-- Rounding changes a number of ordinary size by at most its 2⁵²-th part. -/
theorem exists_unpack_roundWithAccuracy (s : Sign) (a : Accuracy) (hm : 0 < m)
    (he : e ≤ target m e) (hlow : -1022 ≤ m.log2 + e) (hhigh : m.log2 + e ≤ 1022) :
    ∃ r k h, (Float.Model.pack (roundWithAccuracy double s m e a)).unpack = .finite s r k h ∧
      m * 2 ^ e * (1 - 1 / 2 ^ 52) ≤ (r : ℚ) * 2 ^ k ∧
      (r : ℚ) * 2 ^ k ≤ m * 2 ^ e * (1 + 1 / 2 ^ 52) := by
  have htarget : e + shift m e = m.log2 + e - 52 := by
    rw [shift]
    rw [target_eq] at he ⊢
    omega
  have hshift : shift m e + 52 = m.log2 := by omega
  have hfull : 2 ^ 52 ≤ m / 2 ^ shift m e := by
    refine (Nat.le_div_iff_mul_le (Nat.two_pow_pos _)).mpr ?_
    rw [← Nat.pow_add, add_comm, hshift]
    exact Nat.log2_self_le hm.ne'
  have hleast : 2 ^ 52 ≤ shifted m e a := hfull.trans (shifted_bounds m e a).1
  obtain ⟨hless, hmore⟩ := shifted_mul_bounds a hm hshift
  have hsplit : (shifted m e a : ℚ) * 2 ^ (e + shift m e) =
      shifted m e a * 2 ^ shift m e * 2 ^ e := by
    rw [zpow_add₀ (by norm_num), zpow_natCast]
    ring
  have hvalue : m * 2 ^ e * (1 - 1 / 2 ^ 52) ≤ (shifted m e a : ℚ) * 2 ^ (e + shift m e) ∧
      (shifted m e a : ℚ) * 2 ^ (e + shift m e) ≤ m * 2 ^ e * (1 + 1 / 2 ^ 52) := by
    rw [hsplit, mul_right_comm _ _ (1 - 1 / 2 ^ 52 : ℚ), mul_right_comm _ _ (1 + 1 / 2 ^ 52 : ℚ)]
    exact ⟨mul_le_mul_of_nonneg_right hless (two_zpow_pos e).le,
      mul_le_mul_of_nonneg_right hmore (two_zpow_pos e).le⟩
  rw [roundWithAccuracy_eq]
  split
  next hcarry =>
    refine ⟨2 ^ 52, e + shift m e + 1, Nat.two_pow_pos 52,
      unpack_pack (Nat.two_pow_pos 52) Nat.log2_two_pow (by omega) (by omega), ?_⟩
    have hcarried : ((2 ^ 52 : Nat) : ℚ) * 2 ^ (e + shift m e + 1) =
        shifted m e a * 2 ^ (e + shift m e) := by
      rw [hcarry, zpow_add_one₀ (by norm_num)]
      push_cast
      ring
    rwa [hcarried]
  next hcarry =>
    have hle := shifted_le m e a
    have hpos : 0 < shifted m e a := by omega
    simp only [ofShifted, hpos.ne', dite_false]
    have hlog : (shifted m e a).log2 = 52 := (Nat.log2_eq_iff hpos.ne').mpr ⟨by omega, by omega⟩
    exact ⟨shifted m e a, e + shift m e, hpos,
      unpack_pack hpos hlog (by omega) (by omega), hvalue⟩

theorem log2_mul_two_pow {n : Nat} (hn : n ≠ 0) (k : Nat) : (n * 2 ^ k).log2 = n.log2 + k := by
  induction k with
  | zero => rw [Nat.pow_zero, Nat.mul_one, Nat.add_zero]
  | succ k ih =>
      have hne : n * 2 ^ k ≠ 0 := Nat.mul_ne_zero hn (Nat.two_pow_pos k).ne'
      rw [Nat.pow_succ, ← Nat.mul_assoc, Nat.mul_comm, Nat.log2_two_mul hne, ih, Nat.add_assoc]

/-- A word is rounded after as many zeros as the format has room for. -/
theorem toModel_toFloat {n : UInt64} (hn : 0 < n.toNat) {k : Nat}
    (hk : (0 - target n.toNat 0).toNat = k) :
    n.toFloat.toModel = Float.Model.pack
      (roundWithAccuracy double .positive (n.toNat * 2 ^ k) (-k) .exact) := by
  have hnormal : n.toFloat.toModel =
      Float.Model.pack (UnpackedFloat.normalize double n.toNat 0 .positive) := rfl
  have hshifted : round double .positive n.toNat 0 = roundWithAccuracy double .positive
      (n.toNat <<< (0 - target n.toNat 0).toNat) (0 - (0 - target n.toNat 0).toNat) .exact := rfl
  rw [hnormal, UnpackedFloat.normalize, Int.compare_eq_gt.mpr (by omega : (n.toNat : Int) > 0)]
  simp only [Int.toNat_natCast]
  rw [hshifted, hk, Nat.shiftLeft_eq, zero_sub]

/-- A word becomes a number at most a 2⁵²-th part larger. -/
theorem exists_unpack_toFloat {n : UInt64} (hn : 0 < n.toNat) :
    ∃ m e h, n.toFloat.toModel.unpack = .finite .positive m e h ∧
      (m : ℚ) * 2 ^ e ≤ n.toNat * (1 + 1 / 2 ^ 52) := by
  generalize hk : (0 - target n.toNat 0).toNat = k
  have hpos : 0 < n.toNat * 2 ^ k := Nat.mul_pos hn (Nat.two_pow_pos k)
  have hlog : (n.toNat * 2 ^ k).log2 = n.toNat.log2 + k := log2_mul_two_pow hn.ne' k
  have hword : n.toNat.log2 < 64 := (Nat.log2_lt hn.ne').mpr n.toNat_lt
  have hround := toModel_toFloat hn hk
  rw [target_eq] at hk
  obtain ⟨r, j, hr, hunpack, -, hvalue⟩ := exists_unpack_roundWithAccuracy .positive .exact hpos
    (e := -k) (by rw [target_eq, hlog]; omega) (by omega) (by omega)
  refine ⟨r, j, hr, hround ▸ hunpack, hvalue.trans (le_of_eq ?_)⟩
  rw [zpow_neg, zpow_natCast]
  push_cast
  field_simp

/-- A word that the format has room for is kept. -/
theorem exists_unpack_toFloat_eq {n : UInt64} (hn : 0 < n.toNat) (hsmall : n.toNat < 2 ^ 53) :
    ∃ m h, n.toFloat.toModel.unpack = .finite .positive m ((n.toNat.log2 : Int) - 52) h ∧
      m.log2 = 52 ∧ (m : ℚ) * 2 ^ ((n.toNat.log2 : Int) - 52) = n.toNat := by
  have hwidth : n.toNat.log2 < 53 := (Nat.log2_lt hn.ne').mpr hsmall
  have hk : (0 - target n.toNat 0).toNat = 52 - n.toNat.log2 := by
    rw [target_eq]
    omega
  generalize hzeros : 52 - n.toNat.log2 = k at hk
  have hpos : 0 < n.toNat * 2 ^ k := Nat.mul_pos hn (Nat.two_pow_pos k)
  have hlog : (n.toNat * 2 ^ k).log2 = 52 := by
    rw [log2_mul_two_pow hn.ne' k]
    omega
  have hfits : n.toNat * 2 ^ k < 2 ^ 53 := ((Nat.log2_eq_iff hpos.ne').mp hlog).2
  have hexponent : (n.toNat.log2 : Int) - 52 = -k := by omega
  rw [hexponent]
  refine ⟨n.toNat * 2 ^ k, hpos, ?_, hlog, ?_⟩
  · rw [toModel_toFloat hn hk, roundWithAccuracy_exact .positive hpos hfits (by omega)]
    exact unpack_pack hpos hlog (by omega) (by omega)
  · rw [zpow_neg, zpow_natCast]
    push_cast
    field_simp

/-- A word is a finite number. -/
theorem isFinite_toFloat (n : UInt64) : n.toFloat.isFinite = true := by
  rcases Nat.eq_zero_or_pos n.toNat with hzero | hpos
  · rw [show n = 0 from UInt64.toNat_inj.mp hzero]
    decide
  · obtain ⟨m, e, hm, hunpack, -⟩ := exists_unpack_toFloat hpos
    exact congrArg UnpackedFloat.isFinite hunpack

end Conversion

end HttpGateway.Doubles
