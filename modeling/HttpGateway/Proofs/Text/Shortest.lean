import HttpGateway.Proofs.Text.Scaling
import HttpGateway.Text.Shortest

/-!
# Shortest decimals read again

Seventeen digits are enough for the decimal of a number to lie in the interval that is rounded to it.
Taken for a number again by one conversion and one product or quotient, the shortest such decimal is
finite. For quotients that is clear. A product is at most as large as the upper end of the interval,
and two roundings make it larger by less than what separates that end from the largest number, but
for the few largest numbers, which are computed. With few digits it is the number itself, as the
product or quotient is the only thing that is rounded.
-/

namespace HttpGateway.Text

open Doubles Float.Model.UnpackedFloat

namespace ShortDecimal

/-- The number that a decimal stands for. -/
def value (d : ShortDecimal) : ℚ := d.digits * 10 ^ d.exponent

/-- Without its trailing zeros a decimal stands for the same number. -/
theorem value_normal (d : ShortDecimal) (fuel : Nat) : (d.normal fuel).value = d.value := by
  induction fuel generalizing d with
  | zero => rfl
  | succ fuel ih =>
      rw [normal]
      split
      next h =>
        rw [ih, value, value, zpow_add_one₀ (by norm_num)]
        have hdigits : (d.digits : ℚ) = (d.digits / 10 : Nat) * 10 := by
          exact_mod_cast (Nat.div_mul_cancel (Nat.dvd_of_mod_eq_zero h.1)).symm
        rw [hdigits]
        ring
      next => rfl

theorem digits_normal_le (d : ShortDecimal) (fuel : Nat) : (d.normal fuel).digits ≤ d.digits := by
  induction fuel generalizing d with
  | zero => exact le_rfl
  | succ fuel ih =>
      rw [normal]
      split
      next => exact (ih _).trans (Nat.div_le_self ..)
      next => exact le_rfl

theorem digits_normal_pos {d : ShortDecimal} (h : 0 < d.digits) (fuel : Nat) :
    0 < (d.normal fuel).digits := by
  induction fuel generalizing d with
  | zero => exact h
  | succ fuel ih =>
      rw [normal]
      split
      next hzero =>
        have hten : 10 ≤ d.digits := Nat.le_of_dvd h (Nat.dvd_of_mod_eq_zero hzero.1)
        exact ih (Nat.div_pos hten (by decide))
      next => exact h

end ShortDecimal

theorem zpow_eq_toNat (b : ℚ) (e : Int) : b ^ e = b ^ e.toNat / b ^ (-e).toNat := by
  rcases Int.le_total 0 e with he | he
  · obtain ⟨n, rfl⟩ := Int.eq_ofNat_of_zero_le he
    simp
  · obtain ⟨n, hn⟩ := Int.eq_ofNat_of_zero_le (Int.neg_nonneg_of_nonpos he)
    obtain rfl : e = -n := by omega
    simp

namespace RoundingInterval

variable {i : RoundingInterval} {d : ShortDecimal}

/-- A decimal in an interval lies between its ends, and is one of them only if they belong to it. -/
theorem holds_iff : i.holds d = true ↔
    if i.closed then (i.low : ℚ) ≤ d.value * i.denominator ∧ d.value * i.denominator ≤ i.high
    else (i.low : ℚ) < d.value * i.denominator ∧ d.value * i.denominator < i.high := by
  have hvalue : d.value * i.denominator =
      d.digits * 10 ^ d.exponent.toNat * i.denominator / 10 ^ (-d.exponent).toNat := by
    rw [ShortDecimal.value, zpow_eq_toNat]
    ring
  have hscale : (0 : ℚ) < 10 ^ (-d.exponent).toNat := by positivity
  rw [hvalue, holds]
  split
  · rw [le_div_iff₀ hscale, div_le_iff₀ hscale, Bool.and_eq_true, decide_eq_true_iff,
      decide_eq_true_iff]
    norm_cast
  · rw [lt_div_iff₀ hscale, div_lt_iff₀ hscale, Bool.and_eq_true, decide_eq_true_iff,
      decide_eq_true_iff]
    norm_cast

theorem value_of_holds (h : i.holds d = true) :
    (i.low : ℚ) ≤ d.value * i.denominator ∧ d.value * i.denominator ≤ i.high := by
  have hends := holds_iff.mp h
  split at hends
  · exact hends
  · exact ⟨hends.1.le, hends.2.le⟩

theorem closed_of_holds (h : i.holds d = true)
    (hend : d.value * i.denominator = i.low ∨ d.value * i.denominator = i.high) :
    i.closed = true := by
  have hends := holds_iff.mp h
  split at hends
  next hclosed => exact hclosed
  next =>
    rcases hend with hlow | hhigh
    · exact absurd hlow hends.1.ne'
    · exact absurd hhigh hends.2.ne

theorem mem_neighbours {p : Int} (h : d ∈ i.neighbours p) : d.exponent = p ∧
    d.digits ≤ i.centre * 10 ^ (-p).toNat / (i.denominator * 10 ^ p.toNat) + 1 := by
  have hboth : d = ⟨i.centre * 10 ^ (-p).toNat / (i.denominator * 10 ^ p.toNat), p⟩ ∨
      d = ⟨i.centre * 10 ^ (-p).toNat / (i.denominator * 10 ^ p.toNat) + 1, p⟩ := by
    simp only [neighbours, Nat.pow_eq] at h
    split at h
    · simpa using h
    · split at h
      · split at h <;> simpa [or_comm] using h
      · simpa [or_comm] using h
  rcases hboth with rfl | rfl
  · exact ⟨rfl, Nat.le_succ _⟩
  · exact ⟨rfl, le_rfl⟩

end RoundingInterval

/-- The magnitude of a fraction is the number of its digits before the point. -/
theorem lt_decimalMagnitude {num den : Nat} (hnum : 0 < num) (hden : 0 < den) :
    (num : ℚ) / den < 10 ^ decimalMagnitude num den := by
  have hden' : (0 : ℚ) < den := by exact_mod_cast hden
  have hnum' : (0 : ℚ) < num := by exact_mod_cast hnum
  simp only [decimalMagnitude, Nat.pow_eq]
  split
  next hle =>
    have hlength : num / den < 10 ^ (Nat.toDigits 10 (num / den)).length :=
      (Nat.length_toDigits_le_iff (by decide) Nat.length_toDigits_pos).mp le_rfl
    rw [zpow_natCast, div_lt_iff₀ hden']
    exact_mod_cast (Nat.div_lt_iff_lt_mul hden).mp hlength
  next hlt =>
    generalize hshift : (Nat.toDigits 10 (den / num)).length = shift
    have hpos : 0 < shift := hshift ▸ Nat.length_toDigits_pos
    split
    next hle =>
      have hlong : 0 < shift - 1 := by
        rcases Nat.eq_zero_or_pos (shift - 1) with hzero | hlong
        · rw [hzero, Nat.pow_zero, Nat.mul_one] at hle
          exact absurd hle hlt
        · exact hlong
      have hlength : 10 ^ (shift - 1) ≤ den / num := by
        refine not_lt.mp fun hshort => ?_
        have hdigits := (Nat.length_toDigits_le_iff (by decide) hlong).mpr hshort
        omega
      have hleast : (10 : ℚ) ^ (shift - 1) * num ≤ den := by
        exact_mod_cast (Nat.le_div_iff_mul_le hnum).mp hlength
      rw [div_lt_iff₀ hden', show (2 : ℤ) - shift = 1 - ((shift - 1 : Nat) : ℤ) by omega,
        zpow_sub₀ (by norm_num), zpow_natCast, zpow_one, div_mul_eq_mul_div,
        lt_div_iff₀ (by positivity)]
      linarith
    next hle =>
      split
      next hle' =>
        rw [div_lt_iff₀ hden', show (1 : ℤ) - shift = -((shift - 1 : Nat) : ℤ) by omega, zpow_neg,
          zpow_natCast, inv_mul_eq_div, lt_div_iff₀ (by positivity)]
        exact_mod_cast not_le.mp hle
      next hle' =>
        rw [div_lt_iff₀ hden', zpow_neg, zpow_natCast, inv_mul_eq_div, lt_div_iff₀ (by positivity)]
        exact_mod_cast not_le.mp hle'

theorem pow_length_le {n : Nat} (hn : 0 < n) : 10 ^ ((Nat.toDigits 10 n).length - 1) ≤ n := by
  refine not_lt.mp fun hshort => ?_
  rcases Nat.eq_zero_or_pos ((Nat.toDigits 10 n).length - 1) with hone | hlong
  · rw [hone] at hshort
    omega
  · have hdigits := (Nat.length_toDigits_le_iff (by decide) hlong).mpr hshort
    omega

/-- A fraction is at least the smallest number with so many digits. -/
theorem le_of_decimalMagnitude {num den : Nat} (hnum : 0 < num) (hden : 0 < den) :
    (10 : ℚ) ^ (decimalMagnitude num den - 1) ≤ num / den := by
  have hden' : (0 : ℚ) < den := by exact_mod_cast hden
  simp only [decimalMagnitude, Nat.pow_eq]
  split
  next hle =>
    have hleast := pow_length_le (Nat.div_pos hle hden)
    rw [← Nat.cast_pred Nat.length_toDigits_pos, zpow_natCast, le_div_iff₀ hden']
    exact_mod_cast (Nat.le_div_iff_mul_le hden).mp hleast
  next hlt =>
    have hmost : den < num * 10 ^ (Nat.toDigits 10 (den / num)).length := by
      rw [Nat.mul_comm]
      refine (Nat.div_lt_iff_lt_mul hnum).mp ?_
      exact (Nat.length_toDigits_le_iff (by decide) Nat.length_toDigits_pos).mp le_rfl
    have hpos : 0 < (Nat.toDigits 10 (den / num)).length := Nat.length_toDigits_pos
    generalize (Nat.toDigits 10 (den / num)).length = shift at hmost hpos ⊢
    have hpower {n : Nat} (h : den ≤ num * 10 ^ n) : (10 : ℚ) ^ (-(n : ℤ)) ≤ num / den := by
      rw [zpow_neg, zpow_natCast, le_div_iff₀ hden', inv_mul_le_iff₀ (by positivity), mul_comm]
      exact_mod_cast h
    split
    next hle =>
      rw [show (2 : ℤ) - shift - 1 = -((shift - 1 : Nat) : ℤ) by omega]
      exact hpower hle
    next =>
      rw [if_pos hmost.le, sub_right_comm, sub_self, zero_sub]
      exact hpower hmost.le

theorem floor_near {num den : Nat} (hden : 0 < den) (h : 2 * (num % den) ≤ den) :
    |((num / den : Nat) : ℚ) - num / den| ≤ 1 / 2 := by
  have hden' : (0 : ℚ) < den := by exact_mod_cast hden
  have hrest : ((num % den : Nat) : ℚ) / den ≤ 1 / 2 := by
    rw [div_le_div_iff₀ hden' (by norm_num)]
    exact_mod_cast (by omega : num % den * 2 ≤ 1 * den)
  have habove : 0 ≤ ((num % den : Nat) : ℚ) / den := by positivity
  rw [div_eq_add_mod hden, abs_le]
  constructor <;> linarith

theorem succ_floor_near {num den : Nat} (hden : 0 < den) (h : den ≤ 2 * (num % den)) :
    |((num / den + 1 : Nat) : ℚ) - num / den| ≤ 1 / 2 := by
  have hden' : (0 : ℚ) < den := by exact_mod_cast hden
  have hrest : 1 / 2 ≤ ((num % den : Nat) : ℚ) / den := by
    rw [div_le_div_iff₀ (by norm_num) hden']
    exact_mod_cast (by omega : 1 * den ≤ num % den * 2)
  have hbelow : ((num % den : Nat) : ℚ) / den < 1 := by
    rw [div_lt_one hden']
    exact_mod_cast Nat.mod_lt num hden
  rw [div_eq_add_mod hden, abs_le]
  push_cast
  constructor <;> linarith

namespace RoundingInterval

variable {i : RoundingInterval} {m : Nat} {q : Int} {lowest : Bool}

/-- What the ends and the centre of an interval are counted in. -/
theorem unit_eq (q : Int) : (2 : ℚ) ^ (q - 2).toNat = 2 ^ q / 4 * 2 ^ (2 - q).toNat := by
  have hscale : (2 : ℚ) ^ (q - 2) = 2 ^ (q - 2).toNat / 2 ^ (2 - q).toNat := by
    rw [zpow_eq_toNat, neg_sub]
  rw [← div_eq_iff (by positivity), ← hscale, zpow_sub₀ (by norm_num)]
  norm_num

theorem low_of (hm : 0 < m) : ((of m q lowest).low : ℚ) =
    (m - if m = 2 ^ 52 ∧ ¬ lowest then 1 / 4 else 1 / 2) * 2 ^ q * (of m q lowest).denominator := by
  simp only [of, Nat.pow_eq, Nat.cast_mul, Nat.cast_pow, Nat.cast_ofNat, unit_eq]
  split
  · rw [Nat.cast_sub (by omega)]
    push_cast
    ring
  · rw [Nat.cast_sub (by omega)]
    push_cast
    ring

theorem centre_of : ((of m q lowest).centre : ℚ) = m * 2 ^ q * (of m q lowest).denominator := by
  simp only [of, Nat.pow_eq, Nat.cast_mul, Nat.cast_pow, Nat.cast_ofNat, unit_eq]
  ring

theorem high_of : ((of m q lowest).high : ℚ) =
    (m + 1 / 2) * 2 ^ q * (of m q lowest).denominator := by
  simp only [of, Nat.pow_eq, Nat.cast_mul, Nat.cast_add, Nat.cast_pow, Nat.cast_ofNat, unit_eq]
  ring

theorem denominator_of_pos : (0 : ℚ) < (of m q lowest).denominator := by
  exact_mod_cast Nat.two_pow_pos _

/-- One of the neighbours on a grid is at most half a step away from the centre. -/
theorem exists_near_neighbour (hden : 0 < i.denominator) (p : Int) : ∃ d ∈ i.neighbours p,
    |d.value * i.denominator - i.centre| ≤ 10 ^ p / 2 * i.denominator := by
  generalize hnum : i.centre * 10 ^ (-p).toNat = num
  generalize hscale : i.denominator * 10 ^ p.toNat = scale
  have hpos : 0 < scale := hscale ▸ Nat.mul_pos hden (by positivity)
  have hstep : (0 : ℚ) < 10 ^ p * i.denominator := by positivity
  have hdistance (n : Nat) (h : |(n : ℚ) - num / scale| ≤ 1 / 2) :
      |ShortDecimal.value ⟨n, p⟩ * i.denominator - i.centre| ≤ 10 ^ p / 2 * i.denominator := by
    have hcentre : (i.centre : ℚ) = num / scale * (10 ^ p * i.denominator) := by
      rw [zpow_eq_toNat, ← hnum, ← hscale]
      push_cast
      field_simp
    have hmul : ShortDecimal.value ⟨n, p⟩ * i.denominator - i.centre =
        (n - num / scale) * (10 ^ p * i.denominator) := by
      rw [ShortDecimal.value, hcentre]
      ring
    rw [hmul, abs_mul, abs_of_pos hstep]
    calc |(n : ℚ) - num / scale| * (10 ^ p * i.denominator)
        ≤ 1 / 2 * (10 ^ p * i.denominator) := mul_le_mul_of_nonneg_right h hstep.le
      _ = 10 ^ p / 2 * i.denominator := by ring
  simp only [neighbours, Nat.pow_eq, hnum, hscale]
  split
  next hlt => exact ⟨_, List.mem_cons_self, hdistance _ (floor_near hpos hlt.le)⟩
  next hge =>
    split
    next heq =>
      refine ⟨⟨num / scale, p⟩, ?_, hdistance _ (floor_near hpos heq.le)⟩
      split <;> simp
    next => exact ⟨_, List.mem_cons_self, hdistance _ (succ_floor_near hpos (not_lt.mp hge))⟩

/-- A decimal that is closer to a number than half a unit, or than a quarter of it, is in its
interval. -/
theorem holds_of_close {d : ShortDecimal} (hm : 0 < m)
    (h : |d.value * (of m q lowest).denominator - (of m q lowest).centre| <
      (if m = 2 ^ 52 then 1 / 4 else 1 / 2) * 2 ^ q * (of m q lowest).denominator) :
    (of m q lowest).holds d = true := by
  have hstep : (0 : ℚ) < 2 ^ q * (of m q lowest).denominator :=
    mul_pos (two_zpow_pos q) denominator_of_pos
  have hends : ((of m q lowest).low : ℚ) < d.value * (of m q lowest).denominator ∧
      d.value * (of m q lowest).denominator < (of m q lowest).high := by
    rw [low_of hm, high_of]
    rw [centre_of, abs_lt] at h
    by_cases hpower : m = 2 ^ 52
    · rw [if_pos hpower] at h
      constructor
      · split <;> linarith
      · linarith
    · rw [if_neg hpower] at h
      rw [if_neg fun hboth => hpower hboth.1]
      constructor <;> linarith
  refine holds_iff.mpr ?_
  split
  · exact ⟨hends.1.le, hends.2.le⟩
  · exact hends

/-- Seventeen digits are enough. -/
theorem exists_holds (hm : 0 < m) (hwidth : m < 2 ^ 53) (q : Int) (lowest : Bool) :
    ∃ d ∈ (of m q lowest).neighbours
        (decimalMagnitude (of m q lowest).centre (of m q lowest).denominator - 17),
      (of m q lowest).holds d = true := by
  have hden : 0 < (of m q lowest).denominator := Nat.two_pow_pos _
  have hcentre : 0 < (of m q lowest).centre :=
    Nat.mul_pos (Nat.mul_pos (by decide) hm) (Nat.two_pow_pos _)
  generalize hp : decimalMagnitude (of m q lowest).centre (of m q lowest).denominator - 17 = p
  obtain ⟨d, hd, hnear⟩ := exists_near_neighbour hden p
  refine ⟨d, hd, holds_of_close hm (hnear.trans_lt ?_)⟩
  refine mul_lt_mul_of_pos_right ?_ denominator_of_pos
  have hgrid : (10 : ℚ) ^ p * 10 ^ 16 ≤ m * 2 ^ q := by
    have hleast := le_of_decimalMagnitude hcentre hden
    rw [centre_of, mul_div_cancel_right₀ _ denominator_of_pos.ne'] at hleast
    refine le_trans (le_of_eq ?_) hleast
    rw [← zpow_natCast, ← zpow_add₀ (by norm_num)]
    congr 1
    omega
  have hunit : (10 : ℚ) ^ p / 2 * (2 * 10 ^ 16) ≤ m * 2 ^ q := by linarith
  refine lt_of_mul_lt_mul_right (hunit.trans_lt ?_) (by positivity : (0 : ℚ) ≤ 2 * 10 ^ 16)
  rw [mul_right_comm]
  refine mul_lt_mul_of_pos_right ?_ (two_zpow_pos q)
  split
  next hpower =>
    rw [hpower]
    norm_num
  next =>
    have hmost : (m : ℚ) < 2 ^ 53 := by exact_mod_cast hwidth
    linarith

/-- The digits of a number are at most seventeen and between the ends of its interval. -/
theorem exists_shortest (hm : 0 < m) (hwidth : m < 2 ^ 53) (q : Int) (lowest : Bool) :
    ∃ d, (of m q lowest).shortest = d.normal 20 ∧ (of m q lowest).holds d = true ∧
      d.digits ≤ 10 ^ 17 := by
  have hden : 0 < (of m q lowest).denominator := Nat.two_pow_pos _
  have hcentre : 0 < (of m q lowest).centre :=
    Nat.mul_pos (Nat.mul_pos (by decide) hm) (Nat.two_pow_pos _)
  obtain ⟨found, hfound, hholds⟩ := exists_holds hm hwidth q lowest
  generalize of m q lowest = i at *
  generalize hhit : ((List.range 17).map fun (n : Nat) =>
    decimalMagnitude i.centre i.denominator - (n : Int) - 1).findSome?
      (fun p => (i.neighbours p).find? i.holds) = hit
  have hshortest : i.shortest = (hit.getD ⟨0, 0⟩).normal 20 := by
    rw [← hhit]
    rfl
  cases hit with
  | none =>
      have hnone := List.findSome?_eq_none_iff.mp hhit _
        (List.mem_map_of_mem (List.mem_range.mpr (by decide : 16 < 17)))
      rw [Int.sub_sub] at hnone
      exact absurd hholds (List.find?_eq_none.mp hnone found hfound)
  | some d =>
      refine ⟨d, hshortest, ?_⟩
      obtain ⟨p, hp, hfind⟩ := List.exists_of_findSome?_eq_some hhit
      refine ⟨List.find?_some hfind, ?_⟩
      obtain ⟨rfl, hdigits⟩ := mem_neighbours (List.mem_of_find?_eq_some hfind)
      obtain ⟨n, hn, hexponent⟩ := List.mem_map.mp hp
      have hn17 : n < 17 := List.mem_range.mp hn
      have hden' : (0 : ℚ) < i.denominator := by exact_mod_cast hden
      have hlt : (i.centre : ℚ) / i.denominator < 10 ^ 17 * 10 ^ d.exponent := by
        calc (i.centre : ℚ) / i.denominator
            < 10 ^ decimalMagnitude i.centre i.denominator := lt_decimalMagnitude hcentre hden
          _ ≤ 10 ^ (17 + d.exponent) := zpow_le_zpow_right₀ (by norm_num) (by omega)
          _ = 10 ^ 17 * 10 ^ d.exponent := zpow_add₀ (by norm_num) 17 d.exponent
      rw [zpow_eq_toNat, mul_div_assoc', div_lt_div_iff₀ hden' (by positivity)] at hlt
      have hquotient : i.centre * 10 ^ (-d.exponent).toNat /
          (i.denominator * 10 ^ d.exponent.toNat) < 10 ^ 17 := by
        refine (Nat.div_lt_iff_lt_mul (by positivity)).mpr ?_
        have hnat : i.centre * 10 ^ (-d.exponent).toNat <
            10 ^ 17 * 10 ^ d.exponent.toNat * i.denominator := by exact_mod_cast hlt
        exact hnat.trans_eq (by ring)
      omega

theorem digits_pos_of_holds {d : ShortDecimal} (hm : 0 < m) (h : (of m q lowest).holds d = true) :
    0 < d.digits := by
  refine Nat.pos_of_ne_zero fun hzero => ?_
  have hleast : 0 < (of m q lowest).low := by
    refine Nat.mul_pos ?_ (Nat.two_pow_pos _)
    split <;> omega
  have hpositive : (0 : ℚ) < (of m q lowest).low := by exact_mod_cast hleast
  have hlow := (value_of_holds h).1
  rw [ShortDecimal.value, hzero, Nat.cast_zero, zero_mul, zero_mul] at hlow
  exact absurd hlow (not_le.mpr hpositive)

theorem value_le_of_holds {d : ShortDecimal} (h : (of m q lowest).holds d = true) :
    d.value ≤ (m + 1 / 2) * 2 ^ q :=
  le_of_mul_le_mul_right ((value_of_holds h).2.trans_eq high_of) denominator_of_pos

/-- The shortest decimal of a number `m · 2 ^ q`: it has seventeen digits at most and is no larger
than half a unit above the number. -/
theorem shortest_of (hm : 0 < m) (hwidth : m < 2 ^ 53) (q : Int) (lowest : Bool) :
    0 < (of m q lowest).shortest.digits ∧ (of m q lowest).shortest.digits ≤ 10 ^ 17 ∧
      (of m q lowest).shortest.value ≤ (m + 1 / 2) * 2 ^ q := by
  obtain ⟨d, hd, hholds, hdigits⟩ := exists_shortest hm hwidth q lowest
  rw [hd, ShortDecimal.value_normal]
  exact ⟨ShortDecimal.digits_normal_pos (digits_pos_of_holds hm hholds) 20,
    (d.digits_normal_le 20).trans hdigits, value_le_of_holds hholds⟩

/-- What an interval holds is near to its number. -/
theorem near_of_holds {m : Nat} {q : Int} {d : ShortDecimal} (hm : 0 < m)
    (h : (of m q false).holds d = true) : Near m q d.value := by
  obtain ⟨hlow, hhigh⟩ := value_of_holds h
  rw [low_of hm] at hlow
  have hleast := le_of_mul_le_mul_right hlow denominator_of_pos
  refine ⟨(mul_le_mul_of_nonneg_right ?_ (two_zpow_pos q).le).trans hleast, value_le_of_holds h,
    fun htie => ?_, fun hpower => ?_⟩
  · split <;> linarith
  · by_cases hpower : m = 2 ^ 52
    · rw [hpower]
      rfl
    · have hclosed := closed_of_holds h <| htie.imp
        (fun hend => by rw [hend, low_of hm, if_neg fun hboth => hpower hboth.1])
        (fun hend => by rw [hend, high_of])
      exact of_decide_eq_true hclosed
  · rwa [if_pos ⟨hpower, Bool.false_ne_true⟩] at hleast

end RoundingInterval

section Bits

theorem unpackExponent_toNat (b : BitVec double.numBits) :
    (@unpackExponent double b).toNat = b.toNat / 2 ^ 52 % 2 ^ 11 := by
  simp [unpackExponent, BitVec.extractLsb, Nat.shiftRight_eq_div_pow]

theorem unpackMantissa_toNat (b : BitVec double.numBits) :
    (@unpackMantissa double b).toNat = b.toNat % 2 ^ 52 := by
  simp [unpackMantissa, BitVec.extractLsb]

theorem unpackSign_toNat (b : BitVec double.numBits) :
    (@unpackSign double b).toNat = b.toNat / 2 ^ 63 := by
  have hword : b.toNat < 2 ^ 64 := b.isLt
  simp [unpackSign, BitVec.extractLsb, Nat.shiftRight_eq_div_pow]
  omega

variable {x : Float}

theorem beq_zero {s : Sign} (h : x.toModel.unpack = .zero s) : (x == 0) = true := by
  have hbeq : (x == 0) = x.toModel.unpack.beq (0 : Float).toModel.unpack := rfl
  have hzero : (0 : Float).toModel.unpack = .zero .positive := by rfl
  rw [hbeq, h, hzero]
  rfl

theorem sign_eq (x : Float) : Sign.ofBitVec (@unpackSign double x.toModel.toBits.toBitVec) =
    if 2 ^ 63 ≤ x.toBits.toNat then .negative else .positive := by
  have hsign := unpackSign_toNat x.toModel.toBits.toBitVec
  have hbits : x.toModel.toBits.toBitVec.toNat = x.toBits.toNat := rfl
  have hword := x.toBits.toNat_lt
  rw [hbits] at hsign
  rw [Sign.ofBitVec]
  split
  next hzero =>
    rw [hzero, BitVec.toNat_zero] at hsign
    rw [if_neg (by omega)]
  next hone =>
    refine (if_pos (not_lt.mp fun hlt => hone (BitVec.eq_of_toNat_eq ?_))).symm
    rw [hsign, BitVec.toNat_zero]
    omega

/-- The shortest decimal of a number comes from its mantissa and its exponent. -/
theorem exists_shortest_eq (hx : x.isFinite = true) (hne : ¬ (x == 0) = true) :
    ∃ m q h lowest, (shortest x).2 = (RoundingInterval.of m q lowest).shortest ∧
      x.toModel.unpack = .finite (if (shortest x).1 then .negative else .positive) m q h ∧
      (lowest = true → q = -1074) := by
  have hbits : x.toModel.toBits.toBitVec.toNat = x.toBits.toNat := rfl
  have hfraction := unpackMantissa_toNat x.toModel.toBits.toBitVec
  have hexponent := unpackExponent_toNat x.toModel.toBits.toBitVec
  rw [hbits] at hfraction hexponent
  have hall : @unpackExponent double x.toModel.toBits.toBitVec ≠ -1#11 := by
    intro hall
    have hunpack : (Float.Model.UnpackedFloat.unpack double
      x.toModel.toBits.toBitVec).isFinite = true := hx
    simp only [Float.Model.UnpackedFloat.unpack, if_pos hall] at hunpack
    split at hunpack <;> cases hunpack
  simp only [shortest, Nat.pow_eq, decide_eq_true_eq, Float.Model.unpack,
    Float.Model.UnpackedFloat.unpack, ← sign_eq, ← hfraction, ← hexponent, if_neg hall]
  by_cases hzero : @unpackExponent double x.toModel.toBits.toBitVec = 0#11
  · have hmantissa : @unpackMantissa double x.toModel.toBits.toBitVec ≠ 0#52 := by
      intro hnone
      refine hne (beq_zero (s := Sign.ofBitVec (@unpackSign double x.toModel.toBits.toBitVec)) ?_)
      simp only [Float.Model.unpack, Float.Model.UnpackedFloat.unpack]
      rw [if_neg hall, if_pos hzero, dif_pos hnone]
    have hpos : 0 < (@unpackMantissa double x.toModel.toBits.toBitVec).toNat :=
      Nat.pos_of_ne_zero fun h => hmantissa (BitVec.eq_of_toNat_eq h)
    refine ⟨(@unpackMantissa double x.toModel.toBits.toBitVec).toNat, -1074, hpos, true, ?_, ?_,
      fun _ => rfl⟩
    · rw [hzero]
      rfl
    · rw [if_pos hzero, dif_neg hmantissa]
      congr 1
      rw [hzero]
      rfl
  · have hfull := implicit_toNat (@unpackMantissa double x.toModel.toBits.toBitVec)
    have hleast : (@unpackExponent double x.toModel.toBits.toBitVec).toNat ≠ 0 := fun h =>
      hzero (BitVec.eq_of_toNat_eq h)
    have hpos : 0 < (1#1 ++ @unpackMantissa double x.toModel.toBits.toBitVec).toNat := by omega
    refine ⟨_, (@unpackExponent double x.toModel.toBits.toBitVec).toNat - 1075, hpos,
      decide ((@unpackExponent double x.toModel.toBits.toBitVec).toNat ≤ 1), ?_, ?_, fun h => ?_⟩
    · rw [hfull, if_neg hleast]
    · rw [if_neg hzero]
      rfl
    · have hone := of_decide_eq_true h
      omega

end Bits

/-- The shortest decimal of a number has seventeen digits at most. -/
theorem digits_shortest {x : Float} (hx : x.isFinite = true) (hne : ¬ (x == 0) = true) :
    0 < (shortest x).2.digits ∧ (shortest x).2.digits ≤ 10 ^ 17 := by
  obtain ⟨m, q, hm, lowest, heq, hunpack, -⟩ := exists_shortest_eq hx hne
  obtain ⟨hpos, hmost, -⟩ := RoundingInterval.shortest_of hm (lt_of_isFinite hx hunpack).1 q lowest
  rw [heq]
  exact ⟨hpos, hmost⟩

/-- The seven largest numbers, one by one. -/
theorem isFinite_scaledFloat_largest : ∀ j < 7,
    (scaledFloat (RoundingInterval.of (2 ^ 53 - 8 + 1 + j) 971 false).shortest.digits
      (RoundingInterval.of (2 ^ 53 - 8 + 1 + j) 971 false).shortest.exponent).isFinite = true := by
  decide +kernel

/-- Half a unit above any other number is within reach. -/
theorem half_above_le_reach {m : Nat} {q : Int} (hwidth : m < 2 ^ 53) (hq : q ≤ 971)
    (hsmall : 2 ^ 53 - 8 < m → ¬ q = 971) : ((m : ℚ) + 1 / 2) * 2 ^ q ≤ reach := by
  by_cases hlarge : 2 ^ 53 - 8 < m
  · have hbelow : q ≤ 970 := by
      have hne := hsmall hlarge
      omega
    have hm : (m : ℚ) ≤ 2 ^ 53 := by exact_mod_cast hwidth.le
    calc ((m : ℚ) + 1 / 2) * 2 ^ q ≤ (2 ^ 53 + 1 / 2) * 2 ^ (970 : ℤ) := by
          refine mul_le_mul (by linarith) ?_ (two_zpow_pos q).le (by norm_num)
          exact zpow_le_zpow_right₀ (by norm_num) hbelow
      _ ≤ (2 ^ 53 - 8 + 1 / 2) * 2 * 2 ^ (970 : ℤ) :=
          mul_le_mul_of_nonneg_right (by norm_num) (two_zpow_pos 970).le
      _ = reach := by
          rw [reach, mul_assoc, ← zpow_one_add₀ (by norm_num)]
          rfl
  · have hm : (m : ℚ) ≤ 2 ^ 53 - 8 := by
      have hnat : m + 8 ≤ 2 ^ 53 := by omega
      have hcast : (m : ℚ) + 8 ≤ 2 ^ 53 := by exact_mod_cast hnat
      linarith
    exact mul_le_mul (by linarith) (zpow_le_zpow_right₀ (by norm_num) hq) (two_zpow_pos q).le
      (by norm_num)

/-- The shortest decimal of every number is finite when it is taken for a number again. -/
theorem isFinite_scaledFloat_shortest {x : Float} (hx : x.isFinite = true)
    (hne : ¬ (x == 0) = true) :
    (scaledFloat (shortest x).2.digits (shortest x).2.exponent).isFinite = true := by
  obtain ⟨m, q, hm, lowest, heq, hunpack, hlowest⟩ := exists_shortest_eq hx hne
  obtain ⟨hwidth, -, hq, -⟩ := lt_of_isFinite hx hunpack
  obtain ⟨hpos, hmost, hvalue⟩ := RoundingInterval.shortest_of hm hwidth q lowest
  rw [heq]
  rcases lt_or_ge (RoundingInterval.of m q lowest).shortest.exponent 0 with hneg | hnonneg
  · exact isFinite_scaledFloat_of_neg hneg _
  · obtain ⟨e, he⟩ := Int.eq_ofNat_of_zero_le hnonneg
    by_cases htop : q = 971 ∧ 2 ^ 53 - 8 < m
    · obtain ⟨rfl, hlarge⟩ := htop
      obtain ⟨j, rfl⟩ := Nat.exists_eq_add_of_lt hlarge
      have hlow : lowest = false := Bool.eq_false_iff.mpr fun h => absurd (hlowest h) (by decide)
      rw [hlow, Nat.add_right_comm]
      exact isFinite_scaledFloat_largest j (by omega)
    · rw [ShortDecimal.value, he, zpow_natCast] at hvalue
      rw [he]
      refine isFinite_scaledFloat_of_le hpos (hmost.trans_lt (by norm_num)) (hvalue.trans ?_)
      exact half_above_le_reach hwidth hq (not_and'.mp htop)

/-- A number is what its shortest decimal comes to, however it is spelled, if the digits and the power
of ten are exact. -/
theorem scaledFloat_eq_of_shortest {x : Float} (hx : x.isFinite = true) (hne : ¬ (x == 0) = true)
    {digits : Nat} {exponent : Int} (hsmall : digits < 2 ^ 53) (hexponent : exponent.natAbs ≤ 22)
    (hvalue : (digits : ℚ) * 10 ^ exponent = (shortest x).2.value) :
    (if (shortest x).1 then -scaledFloat digits exponent else scaledFloat digits exponent) = x := by
  obtain ⟨m, q, hm, lowest, heq, hunpack, hlowest⟩ := exists_shortest_eq hx hne
  obtain ⟨hwidth, hleast, hmost, hfull⟩ := lt_of_isFinite hx hunpack
  obtain ⟨d, hd, hholds, -⟩ := RoundingInterval.exists_shortest hm hwidth q lowest
  rw [heq, hd, ShortDecimal.value_normal] at hvalue
  have hpos : 0 < digits := by
    refine Nat.pos_of_ne_zero fun hnone => ?_
    have hdigits : (0 : ℚ) < d.digits := by
      exact_mod_cast RoundingInterval.digits_pos_of_holds hm hholds
    have hpositive : 0 < d.value := mul_pos hdigits (zpow_pos (by norm_num) _)
    rw [hnone, Nat.cast_zero, zero_mul] at hvalue
    exact hpositive.ne hvalue
  -- The decimal is far above the numbers whose mantissas are not full.
  have hlow : -1074 < q := by
    refine lt_of_le_of_ne hleast fun hbottom => ?_
    have hone : (1 : ℚ) ≤ digits := by exact_mod_cast hpos
    have habove : (10 : ℚ) ^ (-22 : ℤ) ≤ d.value := by
      calc (10 : ℚ) ^ (-22 : ℤ) ≤ 10 ^ exponent := zpow_le_zpow_right₀ (by norm_num) (by omega)
        _ ≤ digits * 10 ^ exponent := le_mul_of_one_le_left (zpow_pos (by norm_num) _).le hone
        _ = d.value := hvalue
    have hmant : (m : ℚ) + 1 / 2 ≤ 2 ^ 54 := by
      have hcast : (m : ℚ) ≤ 2 ^ 53 := by exact_mod_cast hwidth.le
      linarith
    have hbelow : d.value ≤ 2 ^ 54 * 2 ^ (-1074 : ℤ) := by
      refine (RoundingInterval.value_le_of_holds hholds).trans ?_
      rw [← hbottom]
      exact mul_le_mul_of_nonneg_right hmant (two_zpow_pos _).le
    have htiny : (2 : ℚ) ^ 54 * 2 ^ (-1074 : ℤ) < 10 ^ (-22 : ℤ) := by
      calc (2 : ℚ) ^ 54 * 2 ^ (-1074 : ℤ) ≤ 2 ^ 54 * 2 ^ (-128 : ℤ) := by
            refine mul_le_mul_of_nonneg_left ?_ (by norm_num)
            exact zpow_le_zpow_right₀ (by norm_num) (by norm_num)
        _ < 10 ^ (-22 : ℤ) := by norm_num
    exact absurd (habove.trans hbelow) (not_le.mpr htiny)
  have hlog : m.log2 = 52 :=
    (Nat.log2_eq_iff hm.ne').mpr ⟨hfull.resolve_right hlow.ne', hwidth⟩
  obtain rfl : lowest = false := Bool.eq_false_iff.mpr fun h => hlow.ne' (hlowest h)
  have hscaled := unpack_scaledFloat_of_near hpos hsmall hexponent hlog hlow hmost
    (hvalue ▸ RoundingInterval.near_of_holds hm hholds) hm
  refine eq_of_unpack_eq ?_
  rw [hunpack]
  split
  · exact unpack_neg hlog hlow.le hmost hscaled
  · exact hscaled

end HttpGateway.Text
