import HttpGateway.Json.Basic

/-!
# Numbers written and read as text

The digits of a natural number read as that number, and a text that reads as a natural number has
nothing but digits and plus signs. So the text of a fractional number, in which there is always a
point, an exponent or a letter, never reads as one.
-/

namespace HttpGateway.Text

theorem digit?_digitChar {d : Nat} (h : d < 10) : digit? (Nat.digitChar d) = some d := by
  revert d
  decide

variable {max acc n : Nat} {s : List Char}

theorem digits_append_singleton {c : Char} {d : Nat} (hs : digits max acc s = .ok n)
    (hd : digit? c = some d) (hmax : n * 10 + d ≤ max) :
    digits max acc (s ++ [c]) = .ok (n * 10 + d) := by
  induction s generalizing acc with
  | nil =>
      cases hs
      simp [digits, hd, hmax]
  | cons e s ih =>
      simp only [digits] at hs
      split at hs
      · cases hs
      next f hf =>
        split at hs
        next hle =>
          rw [List.cons_append, digits, hf]
          simpa only [if_pos hle] using ih hs
        next => cases hs

theorem digits_toDigits (h : n ≤ max) : digits max 0 (Nat.toDigits 10 n) = .ok n := by
  induction n using Nat.strongRecOn with
  | ind n ih =>
      by_cases hn : n < 10
      · rw [Nat.toDigits_of_lt_base hn]
        simp [digits, digit?_digitChar hn, h]
      · rw [Nat.toDigits_of_base_le (by decide) (Nat.le_of_not_lt hn)]
        have hlead : digits max 0 (Nat.toDigits 10 (n / 10)) = .ok (n / 10) :=
          ih (n / 10) (by omega) (by omega)
        have hlast : digit? (Nat.digitChar (n % 10)) = some (n % 10) :=
          digit?_digitChar (Nat.mod_lt n (by decide))
        have hsplit : n / 10 * 10 + n % 10 = n := by omega
        rw [digits_append_singleton hlead hlast (by omega), hsplit]

theorem natural_eq_digits (hne : s ≠ []) (hplus : '+' ∉ s) : natural max s = digits max 0 s := by
  unfold natural
  split
  · exact absurd rfl hne
  · exact absurd List.mem_cons_self hplus
  · exact absurd List.mem_cons_self hplus
  · rfl

theorem natural_decimal_eq (max n : Nat) :
    natural max (decimal n).toList = digits max 0 (Nat.toDigits 10 n) := by
  rw [decimal, String.toList_ofList]
  refine natural_eq_digits Nat.toDigits_ne_nil fun hplus => ?_
  exact absurd (Nat.isDigit_of_mem_toDigits (by decide) (by decide) hplus) (by decide)

/-- The digits of a number that is not too large read as the number. -/
theorem natural_decimal (h : n ≤ max) : natural max (decimal n).toList = .ok n := by
  rw [natural_decimal_eq, digits_toDigits h]

theorem isSome_digit?_of_digits (h : digits max acc s = .ok n) :
    ∀ c ∈ s, (digit? c).isSome = true := by
  induction s generalizing acc with
  | nil => simp
  | cons d s ih =>
      simp only [digits] at h
      split at h
      · cases h
      next e he =>
        split at h
        · exact List.forall_mem_cons.mpr ⟨by simp [he], ih h⟩
        · cases h

/-- A text with a character that is neither a digit nor a plus sign is no natural number. -/
theorem natural_ne_ok {c : Char} (hc : c ∈ s) (hdigit : digit? c = none) (hplus : c ≠ '+') :
    natural max s ≠ .ok n := by
  intro h
  have hdigits (t : List Char) (ht : digits max 0 t = .ok n) (hmem : c ∈ t) : False := by
    have hsome := isSome_digit?_of_digits ht c hmem
    rw [hdigit] at hsome
    cases hsome
  unfold natural at h
  split at h
  · cases h
  · cases h
  · exact hdigits _ h (List.mem_of_ne_of_mem hplus hc)
  · exact hdigits _ h hc

theorem digits_le (hacc : acc ≤ max) (h : digits max acc s = .ok n) : n ≤ max := by
  induction s generalizing acc with
  | nil =>
      cases h
      exact hacc
  | cons c s ih =>
      simp only [digits] at h
      split at h
      · cases h
      · split at h
        next hle => exact ih hle h
        next => cases h

theorem digits_mono {more : Nat} (hmore : max ≤ more) (h : digits max acc s = .ok n) :
    digits more acc s = .ok n := by
  induction s generalizing acc with
  | nil => exact h
  | cons c s ih =>
      simp only [digits] at h ⊢
      split at h
      · cases h
      next d hd =>
        split at h
        next hle => simpa only [if_pos (Nat.le_trans hle hmore)] using ih h
        next => cases h

/-- The digits of a number that is too large are not read. -/
theorem natural_decimal_ne_ok {m : Nat} (hm : max < m) :
    natural max (decimal m).toList ≠ .ok n := by
  intro h
  rw [natural_decimal_eq] at h
  have hread : digits m 0 (Nat.toDigits 10 m) = .ok n := digits_mono (Nat.le_of_lt hm) h
  rw [digits_toDigits (Nat.le_refl m)] at hread
  cases hread
  exact absurd (digits_le (Nat.zero_le max) h) (Nat.not_le_of_lt hm)

/-- An integer below zero or above the bound is written as a text that is not read. -/
theorem natural_signedDecimal_ne_ok {i : Int} (h : ¬ (0 ≤ i ∧ i ≤ max)) :
    natural max (signedDecimal i).toList ≠ .ok n := by
  unfold signedDecimal
  split
  next hneg => exact natural_ne_ok (c := '-') (by simp) (by decide) (by decide)
  next hpos => exact natural_decimal_ne_ok (by omega)

theorem DecimalNotation.exists_mark (f : DecimalNotation) (d : ShortDecimal) :
    ∃ c ∈ (f.write d).toList, digit? c = none ∧ c ≠ '+' := by
  unfold write
  dsimp only
  split
  · exact ⟨'.', by simp, by decide, by decide⟩
  · split
    · exact ⟨'.', by simp, by decide, by decide⟩
    · split
      · exact ⟨'.', by simp, by decide, by decide⟩
      · exact ⟨'e', by simp, by decide, by decide⟩

end HttpGateway.Text

namespace HttpGateway.Json

open Text

theorem exists_mark_floatText (x : Float) :
    ∃ c ∈ (floatText x).toList, digit? c = none ∧ c ≠ '+' := by
  unfold floatText
  split
  · exact ⟨'N', by decide, by decide, by decide⟩
  · split
    · split <;> exact ⟨'i', by decide, by decide, by decide⟩
    · split
      · split <;> exact ⟨'.', by decide, by decide, by decide⟩
      · obtain ⟨c, hc, hdigit, hplus⟩ := floatNotation.exists_mark (shortest x).2
        exact ⟨c, by simp [hc], hdigit, hplus⟩

end HttpGateway.Json
