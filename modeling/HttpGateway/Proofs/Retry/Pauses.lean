import HttpGateway.Proofs.Filter.Definitions
import Mathlib

/-!
# Pauses between attempts

A pause grows with each attempt as the power of the factor does, up to its bound, and it makes no
difference that the arithmetic below the bound is held at the largest word. What is added at random
is less than a tenth of the pause. The sum is not held: it is a word for each number that may be
drawn just if the pause is no more than ten elevenths of the range, and there is no pause if it is
none.
-/

namespace HttpGateway

/-! ### Arithmetic that stays in the range -/

theorem toNat_saturate (n : Nat) : (saturate n).toNat = min n (UInt64.size - 1) := by
  unfold saturate
  split
  next hfits =>
    rw [Nat.toUInt64_eq, UInt64.toNat_ofNat_of_lt' hfits]
    simp only [UInt64.size]
    omega
  next hleaves =>
    simp only [UInt64.size]
    show 18446744073709551615 = _
    omega

/-- The power is that of the numbers, held at the largest word. -/
theorem toNat_saturatingPow (base : UInt64) (exponent : Nat) :
    (saturatingPow base exponent).toNat = min (base.toNat ^ exponent) (UInt64.size - 1) := by
  unfold saturatingPow
  split
  next hsmall =>
    have hcases : base = 0 ∨ base = 1 := by
      rw [← UInt64.toNat_inj, ← UInt64.toNat_inj]
      change base.toNat = 0 ∨ base.toNat = 1
      omega
    by_cases hexponent : exponent = 0
    · rw [if_pos hexponent, hexponent, pow_zero]
      rfl
    · rw [if_neg hexponent]
      rcases hcases with rfl | rfl
      · change 0 = min (0 ^ exponent) _
        rw [zero_pow hexponent]
        rfl
      · change 1 = min (1 ^ exponent) _
        rw [one_pow]
        rfl
  next hlarge =>
    rw [toNat_saturate]
    change min (base.toNat ^ min exponent 64) _ = _
    rcases Nat.le_total exponent 64 with hle | hle
    · rw [Nat.min_eq_left hle]
    · -- The power with the 64th exponent has left the range, and so have all after it.
      have hleft : UInt64.size ≤ base.toNat ^ 64 :=
        Nat.pow_le_pow_left (show 2 ≤ base.toNat by omega) 64
      have hstays : base.toNat ^ 64 ≤ base.toNat ^ exponent :=
        Nat.pow_le_pow_right (show 0 < base.toNat by omega) hle
      rw [Nat.min_eq_right hle, Nat.min_eq_right ((Nat.sub_le ..).trans hleft),
        Nat.min_eq_right ((Nat.sub_le ..).trans (hleft.trans hstays))]

/-- Below a bound in the range, leaving it on the way makes no difference. -/
theorem min_min_mul {bound largest : Nat} (h : bound ≤ largest) (first power : Nat) :
    min (min (first * min power largest) largest) bound = min bound (first * power) := by
  rcases Nat.eq_zero_or_pos first with rfl | hfirst
  · simp
  · rcases Nat.le_total power largest with hle | hle
    · rw [Nat.min_eq_left hle, Nat.min_assoc, Nat.min_eq_right h, Nat.min_comm]
    · have hheld : largest ≤ first * largest := Nat.le_mul_of_pos_left largest hfirst
      have hpower : largest ≤ first * power :=
        hle.trans (Nat.le_mul_of_pos_left power hfirst)
      rw [Nat.min_eq_right hle, Nat.min_eq_right hheld, Nat.min_eq_right h,
        Nat.min_eq_left (h.trans hpower)]

namespace Backoff

variable {b : Backoff} {attempt : Nat}

theorem toNat_plain (b : Backoff) (h : 1 ≤ attempt) :
    (b.plain attempt).toNat =
      min b.maxMs.toNat (b.firstMs.toNat * max 1 b.factor.toNat ^ (attempt - 1)) := by
  have hfactor : (max b.factor 1).toUInt64.toNat = max 1 b.factor.toNat := by
    rw [UInt32.toNat_toUInt64, UInt32.toNat_max, Nat.max_comm]
    rfl
  have hmax : b.maxMs.toNat ≤ UInt64.size - 1 := Nat.le_pred_of_lt b.maxMs.toNat_lt
  rw [plain, if_neg (by omega)]
  dsimp only
  rw [UInt64.toNat_min, toNat_saturate, toNat_saturatingPow, hfactor, min_min_mul hmax]

theorem plain_le_maxMs (b : Backoff) (attempt : Nat) : b.plain attempt ≤ b.maxMs := by
  unfold plain
  split
  · exact UInt64.le_iff_toNat_le.mpr (Nat.zero_le _)
  · dsimp only
    rw [UInt64.le_iff_toNat_le, UInt64.toNat_min]
    exact Nat.min_le_right ..

theorem plain_mono (b : Backoff) {later : Nat} (h : attempt ≤ later) :
    b.plain attempt ≤ b.plain later := by
  rw [UInt64.le_iff_toNat_le]
  rcases Nat.eq_zero_or_pos attempt with rfl | hattempt
  · exact Nat.zero_le _
  · rw [b.toNat_plain hattempt, b.toNat_plain (hattempt.trans_le h)]
    have hpower : max 1 b.factor.toNat ^ (attempt - 1) ≤ max 1 b.factor.toNat ^ (later - 1) :=
      Nat.pow_le_pow_right (Nat.le_max_left ..) (Nat.sub_le_sub_right h 1)
    exact min_le_min_left _ (Nat.mul_le_mul_left _ hpower)

/-- The sum of a pause and what is added to it is a word. -/
def Fits (b : Backoff) (attempt draw : Nat) : Prop :=
  (b.plain attempt).toNat + b.added attempt draw < UInt64.size

/-- A sum that is a word is what is waited. -/
theorem Fits.exists_delay {draw : Nat} (h : b.Fits attempt draw) :
    ∃ pause, b.delay attempt draw = some pause ∧
      pause.toNat = (b.plain attempt).toNat + b.added attempt draw := by
  refine ⟨_, if_pos h, ?_⟩
  rw [Nat.toUInt64_eq, UInt64.toNat_ofNat_of_lt' h]

/-- There is no pause just if the sum is no word. -/
theorem delay_eq_none_iff {draw : Nat} : b.delay attempt draw = none ↔ ¬b.Fits attempt draw := by
  refine ⟨fun hnone hfits => ?_, fun hno => if_neg hno⟩
  obtain ⟨pause, hpause, -⟩ := hfits.exists_delay
  rw [hnone] at hpause
  cases hpause

/-- A pause without anything random is exactly the first pause times the power of the factor, or the
bound if that is less. So there always is one, it is never above the bound, and no later pause is
shorter. -/
theorem delay_exact (b : Backoff) (attempt draw : Nat) (h : 1 ≤ attempt) :
    let plainly := { b with jitter := false }
    ∃ pause, plainly.delay attempt draw = some pause ∧
      pause.toNat = min b.maxMs.toNat (b.firstMs.toNat * max 1 b.factor.toNat ^ (attempt - 1)) ∧
      pause ≤ b.maxMs ∧
      ∀ later draw', attempt ≤ later →
        ∃ pause', plainly.delay later draw' = some pause' ∧ pause ≤ pause' := by
  intro plainly
  have hdelay (n k : Nat) : plainly.delay n k = some (b.plain n) := by
    have hfits : plainly.Fits n k := (b.plain n).toNat_lt
    obtain ⟨pause, hpause, hsum⟩ := hfits.exists_delay
    rw [hpause, Option.some_inj]
    exact UInt64.toNat_inj.mp hsum
  simp only [hdelay]
  exact ⟨b.plain attempt, rfl, b.toNat_plain h, b.plain_le_maxMs attempt,
    fun later _ hle => ⟨b.plain later, rfl, b.plain_mono hle⟩⟩

/-- The power for the third attempt is almost a word and its product with the first pause is none:
the pause is the bound. -/
theorem delay_exact_of_largest :
    let b : Backoff := ⟨3, 18446744073709551615, 4294967295, false⟩
    ∃ pause later, b.delay 3 0 = some pause ∧ b.delay 4 0 = some later ∧
      pause.toNat = 18446744073709551615 ∧ pause ≤ later := by
  intro b
  obtain ⟨pause, hpause, hexact, -, hlater⟩ := b.delay_exact 3 0 (by decide)
  obtain ⟨later, hthen, hle⟩ := hlater 4 0 (by decide)
  exact ⟨pause, later, hpause, hthen, hexact.trans (by decide), hle⟩

/-! ### What is added at random -/

theorem added_eq_zero (b : Backoff) (attempt draw : Nat) (h : b.jitter = false) :
    b.added attempt draw = 0 := by
  simp [added, h]

theorem added_lt (b : Backoff) (attempt draw : Nat) :
    b.added attempt draw < max 1 ((b.plain attempt).toNat / 10) := by
  simp only [added]
  split
  next hrange =>
    have hrange : 0 < (b.plain attempt).toNat / 10 := by
      rw [Bool.and_eq_true, decide_eq_true_iff] at hrange
      exact hrange.2
    exact (Nat.mod_lt _ hrange).trans_le (Nat.le_max_right ..)
  next => exact Nat.lt_of_lt_of_le Nat.one_pos (Nat.le_max_left ..)

/-- Every sum is a word just if the pause and a tenth of it are at most one more than the largest. -/
theorem forall_fits_iff : (∀ draw, b.Fits attempt draw) ↔
    (b.jitter = true → (b.plain attempt).toNat + (b.plain attempt).toNat / 10 ≤ UInt64.size) := by
  have hword : (b.plain attempt).toNat < UInt64.size := (b.plain attempt).toNat_lt
  constructor
  · intro hfits hjitter
    rcases Nat.eq_zero_or_pos ((b.plain attempt).toNat / 10) with hzero | hrange
    · omega
    · -- The largest number of the range is drawn.
      have hdraw : b.added attempt ((b.plain attempt).toNat / 10 - 1) =
          (b.plain attempt).toNat / 10 - 1 := by
        simp only [added, hjitter, hrange, decide_true, Bool.and_true, if_true]
        exact Nat.mod_eq_of_lt (Nat.sub_one_lt_of_lt hrange)
      have hsum := hfits ((b.plain attempt).toNat / 10 - 1)
      rw [Fits, hdraw] at hsum
      omega
  · intro hbound draw
    have hadded := b.added_lt attempt draw
    unfold Fits
    cases hjitter : b.jitter with
    | false => rwa [b.added_eq_zero attempt draw hjitter]
    | true =>
        have hbound := hbound hjitter
        omega

/-! ### The longest pause -/

/-- The pauses are all as the first. -/
def IsSteady (b : Backoff) : Prop := b.factor ≤ 1 ∨ b.firstMs = 0

instance : DecidablePred IsSteady := fun b => by unfold IsSteady; infer_instance

/-- The longest pause before anything is added. -/
def longest (b : Backoff) : UInt64 := if b.IsSteady then b.firstMs else b.maxMs

theorem plain_of_isSteady (hsteady : b.IsSteady) (h : b.firstMs ≤ b.maxMs) (hattempt : 1 ≤ attempt) :
    b.plain attempt = b.firstMs := by
  have hsame : b.firstMs.toNat * max 1 b.factor.toNat ^ (attempt - 1) = b.firstMs.toNat := by
    rcases hsteady with hfactor | hfirst
    · have hfactor : b.factor.toNat ≤ 1 := UInt32.le_iff_toNat_le.mp hfactor
      rw [Nat.max_eq_left hfactor, one_pow, Nat.mul_one]
    · simp [hfirst]
  rw [← UInt64.toNat_inj, b.toNat_plain hattempt, hsame]
  exact Nat.min_eq_right (UInt64.le_iff_toNat_le.mp h)

/-- Pauses that grow reach their bound by the 65th attempt at the latest. -/
theorem plain_65_of_not_isSteady (h : ¬b.IsSteady) : b.plain 65 = b.maxMs := by
  rw [IsSteady, not_or, UInt32.not_le] at h
  have hfactor : 1 < b.factor.toNat := UInt32.lt_iff_toNat_lt.mp h.1
  have hfirst : 0 < b.firstMs.toNat :=
    Nat.pos_of_ne_zero fun hzero => h.2 (UInt64.toNat_inj.mp hzero)
  have hpower : UInt64.size ≤ max 1 b.factor.toNat ^ 64 :=
    Nat.pow_le_pow_left (hfactor.trans_le (Nat.le_max_right ..)) 64
  have hword : b.maxMs.toNat < UInt64.size := b.maxMs.toNat_lt
  rw [← UInt64.toNat_inj, b.toNat_plain (by omega)]
  exact Nat.min_eq_left ((hword.le.trans hpower).trans (Nat.le_mul_of_pos_left _ hfirst))

theorem plain_le_longest (h : b.firstMs ≤ b.maxMs) (attempt : Nat) :
    b.plain attempt ≤ b.longest := by
  unfold longest
  split
  next hsteady =>
    exact (b.plain_mono attempt.le_succ).trans_eq (plain_of_isSteady hsteady h (Nat.le_add_left ..))
  next => exact b.plain_le_maxMs attempt

theorem exists_plain_eq_longest (h : b.firstMs ≤ b.maxMs) :
    ∃ attempt, b.plain attempt = b.longest := by
  refine ⟨65, ?_⟩
  unfold longest
  split
  next hsteady => exact plain_of_isSteady hsteady h (by omega)
  next hgrows => exact plain_65_of_not_isSteady hgrows

/-- Every sum of every pause is a word just if those of the longest pause are. -/
theorem forall_forall_fits_iff (h : b.firstMs ≤ b.maxMs) :
    (∀ attempt draw, b.Fits attempt draw) ↔
      (b.jitter = true → b.longest.toNat + b.longest.toNat / 10 ≤ UInt64.size) := by
  simp only [forall_fits_iff]
  constructor
  · intro hfits
    obtain ⟨attempt, hattempt⟩ := exists_plain_eq_longest h
    rw [← hattempt]
    exact hfits attempt
  · intro hlongest attempt hjitter
    have hle := UInt64.le_iff_toNat_le.mp (plain_le_longest h attempt)
    have hlongest := hlongest hjitter
    omega

end Backoff

/-! ### Pauses of retry filters -/

/-- The pauses of a filter that has been accepted do not begin above their bound. -/
theorem Filter.firstMs_le_maxMs {bodyLimit limit : Nat} {d : FilterDefinition}
    {policy : RetryPolicy} {b : Backoff}
    (h : Filter.ofDefinition bodyLimit d = .ok (.retry policy limit))
    (hb : policy.backoff = some b) : b.firstMs ≤ b.maxMs := by
  cases makes_of_ofDefinition h with
  | retry hbuild => exact (RetrySpec.builds_of_build hbuild).bounds b hb

/-- The pauses of a filter that has been accepted. All its sums are words just if the longest pause
is within ten elevenths of the range, and the sums of one pause just if this pause is. A sum that is
a word is at least the pause and less than a tenth above it; if it is none, there is no pause. -/
theorem Filter.pause_within_tenth {bodyLimit limit : Nat} {d : FilterDefinition}
    {policy : RetryPolicy} {b : Backoff}
    (h : Filter.ofDefinition bodyLimit d = .ok (.retry policy limit))
    (hb : policy.backoff = some b) :
    ((∀ attempt draw, b.Fits attempt draw) ↔
      (b.jitter = true → b.longest.toNat + b.longest.toNat / 10 ≤ UInt64.size)) ∧
    ∀ attempt, ((∀ draw, b.Fits attempt draw) ↔
        (b.jitter = true →
          (b.plain attempt).toNat + (b.plain attempt).toNat / 10 ≤ UInt64.size)) ∧
      ∀ draw,
        (b.Fits attempt draw → ∃ pause, b.delay attempt draw = some pause ∧
          b.plain attempt ≤ pause ∧
          pause.toNat < (b.plain attempt).toNat + max 1 ((b.plain attempt).toNat / 10)) ∧
        (¬b.Fits attempt draw → b.delay attempt draw = none) := by
  refine ⟨Backoff.forall_forall_fits_iff (firstMs_le_maxMs h hb), fun attempt =>
    ⟨Backoff.forall_fits_iff, fun draw => ⟨fun hfits => ?_, Backoff.delay_eq_none_iff.mpr⟩⟩⟩
  obtain ⟨pause, hpause, hsum⟩ := hfits.exists_delay
  refine ⟨pause, hpause, ?_, ?_⟩
  · rw [UInt64.le_iff_toNat_le, hsum]
    exact Nat.le_add_right ..
  · rw [hsum]
    exact Nat.add_lt_add_left (b.added_lt attempt draw) _

/-- A filter with pauses between two bounds, the second of which is given by its digits. -/
def pausing (first : Int) (bound : String) : FilterDefinition where
  name := "Retry"
  args := [("backoff", .obj [("first_ms", .int first), ("max_ms", .str bound)])]

/-- No pause of at most two seconds leaves the range. -/
theorem Filter.pause_within_tenth_of_seconds :
    Filter.ofDefinition 1024 (pausing 100 "2000") =
        .ok (.retry { backoff := some { firstMs := 100, maxMs := 2000 } } 1024) ∧
      ∀ attempt draw, Backoff.Fits { firstMs := 100, maxMs := 2000 } attempt draw := by
  have hmade : Filter.ofDefinition 1024 (pausing 100 "2000") =
      .ok (.retry { backoff := some { firstMs := 100, maxMs := 2000 } } 1024) := by cbv
  exact ⟨hmade, (Filter.pause_within_tenth hmade rfl).1.mpr fun _ => by decide⟩

/-- With the largest bounds that can be read, drawing one leaves no pause at all. -/
theorem Filter.pause_within_tenth_fails :
    ¬∀ bodyLimit limit d policy b, Filter.ofDefinition bodyLimit d = .ok (.retry policy limit) →
      policy.backoff = some b → ∀ attempt draw, 1 ≤ attempt →
        b.Fits attempt draw ∧ ∃ pause, b.delay attempt draw = some pause ∧
          b.plain attempt ≤ pause ∧
          pause.toNat < (b.plain attempt).toNat + max 1 ((b.plain attempt).toNat / 10) := by
  intro h
  let b : Backoff := { firstMs := 18446744073709551615, maxMs := 18446744073709551615 }
  have hmade : Filter.ofDefinition 1024 (pausing 18446744073709551615 "18446744073709551615") =
      .ok (.retry { backoff := some b } 1024) := by cbv
  obtain ⟨pause, hpause, -⟩ := (h 1024 1024 _ _ b hmade rfl 1 1 (Nat.le_refl 1)).2
  have hnone : b.delay 1 1 = none := by decide
  rw [hnone] at hpause
  cases hpause

end HttpGateway
