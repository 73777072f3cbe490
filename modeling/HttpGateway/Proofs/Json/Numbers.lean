import HttpGateway.Json.Text
import HttpGateway.Proofs.Text.Shortest

/-!
# Numbers in texts

What the reader makes of the text of a number, with anything behind it that cannot belong to a
number. A whole number is read as itself. A fractional number is read as what its shortest decimal
comes to by one conversion and one product or quotient. That is the number itself if it has few
digits; of the others most are read as themselves, but not all.
-/

namespace HttpGateway.Json

open Text (ShortDecimal scaledFloat)
open Nat (ofDigitChars)

section Digits

variable {ds rest : List Char}

/-- The text does not go on with a digit. -/
def NoDigit (rest : List Char) : Prop := ∀ c ∈ rest.head?, c.isDigit = false

theorem forall_mem_zero : ∀ c ∈ ['0'], c.isDigit = true :=
  List.forall_mem_singleton.mpr rfl

theorem noDigit_point : NoDigit ('.' :: rest) := by
  rintro _ ⟨⟩
  decide

theorem noDigit_exponent : NoDigit ('e' :: rest) := by
  rintro _ ⟨⟩
  decide

theorem span_digits (hds : ∀ c ∈ ds, c.isDigit = true) (hrest : NoDigit rest) :
    (ds ++ rest).takeWhile Char.isDigit = ds ∧ (ds ++ rest).dropWhile Char.isDigit = rest := by
  have hend : rest.takeWhile Char.isDigit = [] ∧ rest.dropWhile Char.isDigit = rest := by
    cases rest with
    | nil => exact ⟨rfl, rfl⟩
    | cons c rest =>
        have hc : c.isDigit = false := hrest c rfl
        simp [hc]
  rw [List.takeWhile_append_of_pos hds, List.dropWhile_append_of_pos hds, hend.1, hend.2,
    List.append_nil]
  exact ⟨rfl, rfl⟩

theorem le_ofDigitChars (ds : List Char) (n : Nat) : n ≤ ofDigitChars 10 ds n := by
  induction ds generalizing n with
  | nil => exact Nat.ofDigitChars_nil.ge
  | cons c ds ih =>
      rw [Nat.ofDigitChars_cons]
      exact le_trans (by omega) (ih _)

/-- Digits are added up as long as the number stays a word. -/
theorem addDigits_eq {n : Nat} (taken : Nat) (h : ofDigitChars 10 ds n ≤ largestWord) :
    addDigits n taken ds = (ofDigitChars 10 ds n, taken + ds.length, []) := by
  induction ds generalizing n taken with
  | nil => rw [Nat.ofDigitChars_nil]; rfl
  | cons c ds ih =>
      rw [Nat.ofDigitChars_cons, mul_comm] at h ⊢
      have hnext : ¬ largestWord < n * 10 + (c.toNat - '0'.toNat) :=
        not_lt.mpr ((le_ofDigitChars ds _).trans h)
      simp only [addDigits, if_neg hnext, ih (taken + 1) h, List.length_cons]
      rw [Nat.add_right_comm, Nat.add_assoc]

theorem isDigit_of_mem_toDigits {n : Nat} : ∀ c ∈ Nat.toDigits 10 n, c.isDigit = true :=
  fun _ hc => Nat.isDigit_of_mem_toDigits (by decide) (by decide) hc

/-- The digits of a number start with a zero only if there is no other. -/
theorem eq_zero_of_head?_toDigits {n : Nat} (h : (Nat.toDigits 10 n).head? = some '0') :
    n = 0 := by
  induction n using Nat.strongRecOn with
  | ind n ih =>
      by_cases hn : n < 10
      · rw [Nat.toDigits_of_lt_base hn] at h
        have hdigit : ∀ m < 10, [Nat.digitChar m].head? = some '0' → m = 0 := by decide
        exact hdigit n hn h
      · rw [Nat.toDigits_of_base_le (by decide) (not_lt.mp hn),
          List.head?_append_of_ne_nil _ Nat.toDigits_ne_nil] at h
        have hlead := ih (n / 10) (by omega) h
        omega

end Digits

section Parts

variable {whole tail tail' rest ds : List Char} {parts : Option (List Char)} {power : Option Int}

theorem readFraction_point (rest : List Char) (hne : ds ≠ []) (hds : ∀ c ∈ ds, c.isDigit = true)
    (hrest : NoDigit rest) : readFraction ('.' :: (ds ++ rest)) = some (some ds, rest) := by
  obtain ⟨htake, hdrop⟩ := span_digits hds hrest
  simp only [readFraction, htake, hdrop]
  rw [if_neg (by simpa using hne)]

theorem readFraction_none (h : ∀ c ∈ rest.head?, c ≠ '.') :
    readFraction rest = some (none, rest) := by
  cases rest with
  | nil => rfl
  | cons c rest =>
      have hc : c ≠ '.' := h c rfl
      simp only [readFraction]
      split
      next heq =>
        cases heq
        exact absurd rfl hc
      next => rfl

theorem readExponent_none (h : ∀ c ∈ rest.head?, c ≠ 'e' ∧ c ≠ 'E') :
    readExponent rest = some (none, rest) := by
  cases rest with
  | nil => rfl
  | cons c rest =>
      obtain ⟨hlower, hupper⟩ := h c rfl
      simp only [readExponent]
      rw [if_neg (not_or.mpr ⟨hlower, hupper⟩)]

theorem foldl_digits (hds : ∀ c ∈ ds, c.isDigit = true) (n : Nat) :
    ds.foldl (fun (acc : Int) c => acc * 10 + (c.toNat - '0'.toNat)) n = ofDigitChars 10 ds n := by
  induction ds generalizing n with
  | nil => rw [Nat.ofDigitChars_nil]; rfl
  | cons c ds ih =>
      obtain ⟨hc, hds⟩ := List.forall_mem_cons.mp hds
      have hleast : '0'.toNat ≤ c.toNat := by
        simp only [Char.isDigit, Bool.and_eq_true, decide_eq_true_eq] at hc
        exact hc.1
      have hstep : (n : Int) * 10 + (c.toNat - '0'.toNat) =
          ((10 * n + (c.toNat - '0'.toNat) : Nat) : Int) := by omega
      rw [List.foldl_cons, hstep, ih hds, Nat.ofDigitChars_cons]

theorem takeSign_of_digits (hds : ∀ c ∈ ds, c.isDigit = true) (hne : ds ≠ []) :
    takeSign (ds ++ rest) = (false, ds ++ rest) := by
  obtain ⟨c, cs, rfl⟩ := List.exists_cons_of_ne_nil hne
  have hc : c.isDigit = true := hds c List.mem_cons_self
  rw [List.cons_append]
  unfold takeSign
  split
  next heq =>
    cases heq
    cases hc
  next heq =>
    cases heq
    cases hc
  next => rfl

theorem readExponent_signedDecimal (n : Int) (hrest : NoDigit rest) :
    readExponent ('e' :: ((Text.signedDecimal n).toList ++ rest)) = some (some n, rest) := by
  have hds := isDigit_of_mem_toDigits (n := n.natAbs)
  obtain ⟨htake, hdrop⟩ := span_digits hds hrest
  have hne : (Nat.toDigits 10 n.natAbs).isEmpty = false := by simp
  have hfold := foldl_digits hds 0
  rw [Nat.ofDigitChars_ten_toDigits, Nat.cast_zero] at hfold
  by_cases hneg : n < 0
  · have htext : (Text.signedDecimal n).toList = '-' :: Nat.toDigits 10 n.natAbs := by
      simp [Text.signedDecimal, Text.decimal, hneg]
    have hvalue : -(n.natAbs : Int) = n := by omega
    rw [htext]
    simp only [readExponent, List.cons_append, true_or, if_true, takeSign, htake, hdrop, hne, hfold,
      hvalue, Bool.false_eq_true, if_false]
  · have htext : (Text.signedDecimal n).toList = Nat.toDigits 10 n.natAbs := by
      simp [Text.signedDecimal, Text.decimal, hneg]
    have hvalue : (n.natAbs : Int) = n := by omega
    rw [htext]
    simp only [readExponent, true_or, if_true, takeSign_of_digits hds Nat.toDigits_ne_nil, htake,
      hdrop, hne, hfold, hvalue, Bool.false_eq_true, if_false]

/-- A number with a point or an exponent, told by its parts. -/
theorem readNumber_of_parts (negative : Bool) (hne : whole ≠ [])
    (hwhole : ∀ c ∈ whole, c.isDigit = true) (hlead : whole.head? = some '0' → whole = ['0'])
    (htail : NoDigit tail) (hfraction : readFraction tail = some (parts, tail'))
    (hexponent : readExponent tail' = some (power, rest)) :
    readNumber negative (whole ++ tail) =
      (numberOf negative whole parts power).map (·, rest) := by
  obtain ⟨htake, hdrop⟩ := span_digits hwhole htail
  have hstart : (whole.isEmpty || (whole.head? = some '0' && 1 < whole.length)) = false := by
    refine Bool.or_eq_false_iff.mpr ⟨by simpa using hne, Bool.and_eq_false_imp.mpr fun hzero => ?_⟩
    rw [hlead (of_decide_eq_true hzero)]
    rfl
  simp only [readNumber, htake, hdrop, hstart, Bool.false_eq_true, if_false, hfraction, hexponent]

/-- What is read as a number starts with a digit. -/
theorem exists_digit_of_readNumber {negative : Bool} {s : List Char} {found : Json × List Char}
    (h : readNumber negative s = some found) : ∃ c more, s = c :: more ∧ c.isDigit = true := by
  cases s with
  | nil => cases h
  | cons c more =>
      refine ⟨c, more, rfl, ?_⟩
      by_contra hdigit
      have hwhole : (c :: more).takeWhile Char.isDigit = [] := List.takeWhile_cons_of_neg hdigit
      simp only [readNumber, hwhole] at h
      cases h

theorem fractional_eq (negative : Bool) {n : Nat} {exponent : Int}
    (h : (scaledFloat n exponent).isFinite = true) : fractional negative n exponent =
      some (.float (if negative then -scaledFloat n exponent else scaledFloat n exponent)) := by
  simp only [fractional, (Doubles.ordinary_of_isFinite h).1, Bool.false_eq_true, if_false]

/-- A number with a point or an exponent is fractional. -/
theorem numberOf_fractional (negative : Bool)
    (hword : ofDigitChars 10 (whole ++ parts.getD []) 0 ≤ largestWord)
    (hfloat : (parts.isNone && power.isNone) = false) :
    numberOf negative whole parts power =
      fractional negative (ofDigitChars 10 (whole ++ parts.getD []) 0)
        (power.getD 0 - (parts.getD []).length) := by
  rw [Nat.ofDigitChars_append] at hword ⊢
  simp only [numberOf, addDigits_eq 0 ((le_ofDigitChars _ _).trans hword), addDigits_eq 0 hword,
    hfloat, Bool.false_and, Bool.false_eq_true, if_false]
  congr 1
  simp only [List.length_nil, Nat.zero_add]
  omega

/-- A number without a point and an exponent is whole. -/
theorem numberOf_whole (negative : Bool) {n : Nat} (hword : n ≤ largestWord)
    (hnegative : negative = true → n ≠ 0 ∧ n ≤ 9223372036854775808) :
    numberOf negative (Nat.toDigits 10 n) none none =
      some (.int (if negative then -(n : Int) else n)) := by
  have hall : ofDigitChars 10 (Nat.toDigits 10 n) 0 ≤ largestWord := by
    rwa [Nat.ofDigitChars_ten_toDigits]
  have hdigits := addDigits_eq 0 hall
  rw [Nat.ofDigitChars_ten_toDigits] at hdigits
  simp only [numberOf, hdigits]
  cases negative with
  | false => rfl
  | true =>
      simp only [Option.isNone_none, List.isEmpty_nil, Bool.and_self, if_true, Bool.not_true,
        Bool.false_eq_true, if_false, if_pos (hnegative rfl)]

end Parts

section Ends

variable {rest : List Char}

/-- Nothing follows, or what may stand behind a value in an array or object. -/
def Ends (rest : List Char) : Prop := ∀ c ∈ rest.head?, c = ',' ∨ c = ']' ∨ c = '\x7d'

theorem ends_nil : Ends [] := fun _ hc => nomatch hc

theorem ends_cons {c : Char} (h : c = ',' ∨ c = ']' ∨ c = '\x7d') : Ends (c :: rest) := by
  rintro _ ⟨⟩
  exact h

namespace Ends

theorem noDigit (h : Ends rest) : NoDigit rest := by
  intro c hc
  rcases h c hc with rfl | rfl | rfl <;> rfl

theorem ne_point (h : Ends rest) : ∀ c ∈ rest.head?, c ≠ '.' := by
  intro c hc
  rcases h c hc with rfl | rfl | rfl <;> decide

theorem ne_exponent (h : Ends rest) : ∀ c ∈ rest.head?, c ≠ 'e' ∧ c ≠ 'E' := by
  intro c hc
  rcases h c hc with rfl | rfl | rfl <;> decide

theorem readExponent (h : Ends rest) : Json.readExponent rest = some (none, rest) :=
  readExponent_none h.ne_exponent

end Ends

/-- A whole number that fits a word is read as itself. -/
theorem readNumber_toDigits (negative : Bool) {n : Nat} (hrest : Ends rest)
    (hword : n ≤ largestWord) (hnegative : negative = true → n ≠ 0 ∧ n ≤ 9223372036854775808) :
    readNumber negative (Nat.toDigits 10 n ++ rest) =
      some (.int (if negative then -(n : Int) else n), rest) := by
  have hlead : (Nat.toDigits 10 n).head? = some '0' → Nat.toDigits 10 n = ['0'] := fun h => by
    rw [eq_zero_of_head?_toDigits h]
    rfl
  rw [readNumber_of_parts negative Nat.toDigits_ne_nil isDigit_of_mem_toDigits hlead hrest.noDigit
    (readFraction_none hrest.ne_point) hrest.readExponent, numberOf_whole negative hword hnegative]
  rfl

end Ends

section Fractional

/-- The digits that a decimal is written with, and the power of ten behind them. With a zero behind
the point the decimal has a digit more. -/
def spelled (d : ShortDecimal) : ShortDecimal :=
  if 0 ≤ d.exponent ∧
      (Nat.toDigits 10 d.digits).length + d.exponent ≤ floatNotation.positionalUpTo then
    ⟨d.digits * 10 ^ (d.exponent.toNat + 1), -1⟩
  else d

/-- The number that the text of a decimal is read as. -/
def ofDecimal (d : ShortDecimal) : Float := scaledFloat (spelled d).digits (spelled d).exponent

variable {digits : Nat} {exponent : Int} {rest : List Char}

theorem lt_pow_length (n : Nat) : n < 10 ^ (Nat.toDigits 10 n).length :=
  (Nat.length_toDigits_le_iff (by decide) Nat.length_toDigits_pos).mp le_rfl

theorem lead_ne_zero (h : 0 < digits) : (Nat.toDigits 10 digits).head? ≠ some '0' := fun hzero =>
  h.ne' (eq_zero_of_head?_toDigits hzero)

/-- Digits, zeros up to the point, and a zero behind it. -/
theorem readNumber_padded (negative : Bool) (digits zeros : Nat) (h : 0 < digits ∨ zeros = 0)
    (hwidth : (Nat.toDigits 10 digits).length + zeros ≤ 16) (hrest : Ends rest) :
    readNumber negative (Nat.toDigits 10 digits ++ List.replicate zeros '0' ++ '.' :: '0' :: rest) =
      (fractional negative (digits * 10 ^ (zeros + 1)) (-1)).map (·, rest) := by
  have hwhole : ∀ c ∈ Nat.toDigits 10 digits ++ List.replicate zeros '0', c.isDigit = true := by
    intro c hc
    rcases List.mem_append.mp hc with hc | hc
    · exact isDigit_of_mem_toDigits c hc
    · rw [List.eq_of_mem_replicate hc]
      rfl
  have hlead : (Nat.toDigits 10 digits ++ List.replicate zeros '0').head? = some '0' →
      Nat.toDigits 10 digits ++ List.replicate zeros '0' = ['0'] := by
    intro hzero
    rw [List.head?_append_of_ne_nil _ Nat.toDigits_ne_nil] at hzero
    obtain rfl := eq_zero_of_head?_toDigits hzero
    obtain rfl := h.resolve_left (lt_irrefl 0)
    rfl
  have hvalue : ofDigitChars 10 (Nat.toDigits 10 digits ++ List.replicate zeros '0' ++ ['0']) 0 =
      digits * 10 ^ (zeros + 1) := by
    rw [Nat.ofDigitChars_append, Nat.ofDigitChars_append, Nat.ofDigitChars_ten_toDigits,
      Nat.ofDigitChars_replicate_zero, Nat.ofDigitChars_cons, Nat.ofDigitChars_nil, Nat.pow_succ]
    simp only [Nat.sub_self, Nat.add_zero]
    ring
  have hword : digits * 10 ^ (zeros + 1) ≤ largestWord := by
    calc digits * 10 ^ (zeros + 1)
        ≤ 10 ^ (Nat.toDigits 10 digits).length * 10 ^ (zeros + 1) :=
          Nat.mul_le_mul_right _ (lt_pow_length digits).le
      _ = 10 ^ ((Nat.toDigits 10 digits).length + zeros + 1) := by rw [← Nat.pow_add, Nat.add_assoc]
      _ ≤ 10 ^ 17 := Nat.pow_le_pow_right (by decide) (by omega)
      _ ≤ largestWord := by decide
  have hfraction : readFraction ('.' :: '0' :: rest) = some (some ['0'], rest) :=
    readFraction_point rest (List.cons_ne_nil '0' []) forall_mem_zero hrest.noDigit
  rw [readNumber_of_parts negative (List.append_ne_nil_of_left_ne_nil Nat.toDigits_ne_nil _) hwhole
    hlead noDigit_point hfraction hrest.readExponent,
    numberOf_fractional negative (by simpa only [Option.getD_some, hvalue] using hword) rfl]
  simp only [Option.getD_some, hvalue]
  rfl

/-- Digits with a point among them. -/
theorem readNumber_pointed (negative : Bool) {k : Nat} (h : 0 < digits) (hk : 0 < k)
    (hlength : k < (Nat.toDigits 10 digits).length) (hword : digits ≤ largestWord)
    (hrest : Ends rest) :
    readNumber negative ((Nat.toDigits 10 digits).take k ++
        '.' :: ((Nat.toDigits 10 digits).drop k ++ rest)) =
      (fractional negative digits (k - (Nat.toDigits 10 digits).length)).map (·, rest) := by
  have hwhole : ∀ c ∈ (Nat.toDigits 10 digits).take k, c.isDigit = true := fun c hc =>
    isDigit_of_mem_toDigits c (List.mem_of_mem_take hc)
  have hparts : ∀ c ∈ (Nat.toDigits 10 digits).drop k, c.isDigit = true := fun c hc =>
    isDigit_of_mem_toDigits c (List.mem_of_mem_drop hc)
  have hlead : ((Nat.toDigits 10 digits).take k).head? = some '0' →
      (Nat.toDigits 10 digits).take k = ['0'] := by
    rw [List.head?_take, if_neg hk.ne']
    exact fun hzero => absurd hzero (lead_ne_zero h)
  have hfraction := readFraction_point rest (by simpa using hlength) hparts hrest.noDigit
  have hne : (Nat.toDigits 10 digits).take k ≠ [] := by
    simp [hk.ne']
  rw [readNumber_of_parts negative hne hwhole hlead noDigit_point hfraction
    hrest.readExponent,
    numberOf_fractional negative
      (by simpa only [Option.getD_some, List.take_append_drop, Nat.ofDigitChars_ten_toDigits]
        using hword) rfl]
  simp only [Option.getD_some, List.take_append_drop, Nat.ofDigitChars_ten_toDigits,
    List.length_drop, Option.getD_none]
  congr 2
  omega

/-- A zero, the point, zeros, and the digits. -/
theorem readNumber_small (negative : Bool) (zeros : Nat) (hword : digits ≤ largestWord)
    (hrest : Ends rest) :
    readNumber negative ('0' :: '.' :: (List.replicate zeros '0' ++ Nat.toDigits 10 digits ++ rest)) =
      (fractional negative digits (-((zeros + (Nat.toDigits 10 digits).length : Nat) : Int))).map
        (·, rest) := by
  have hparts : ∀ c ∈ List.replicate zeros '0' ++ Nat.toDigits 10 digits, c.isDigit = true := by
    intro c hc
    rcases List.mem_append.mp hc with hc | hc
    · rw [List.eq_of_mem_replicate hc]
      rfl
    · exact isDigit_of_mem_toDigits c hc
  have hvalue : ofDigitChars 10 (['0'] ++ (List.replicate zeros '0' ++ Nat.toDigits 10 digits)) 0 =
      digits := by
    rw [Nat.ofDigitChars_append, Nat.ofDigitChars_append, Nat.ofDigitChars_cons,
      Nat.ofDigitChars_nil, Nat.ofDigitChars_replicate_zero]
    simp
  have hfraction := readFraction_point rest (by simp) hparts hrest.noDigit
  refine (readNumber_of_parts negative (List.cons_ne_nil '0' []) forall_mem_zero (fun _ => rfl)
    noDigit_point hfraction hrest.readExponent).trans ?_
  rw [numberOf_fractional negative (by simpa only [Option.getD_some, hvalue] using hword) rfl]
  simp only [Option.getD_some, hvalue, Option.getD_none, List.length_append, List.length_replicate,
    zero_sub]

/-- A single digit and a power of ten. -/
theorem readNumber_power (negative : Bool) (n : Int) (h : 0 < digits) (hword : digits ≤ largestWord)
    (hrest : Ends rest) :
    readNumber negative
        (Nat.toDigits 10 digits ++ 'e' :: ((Text.signedDecimal n).toList ++ rest)) =
      (fractional negative digits n).map (·, rest) := by
  rw [readNumber_of_parts negative Nat.toDigits_ne_nil isDigit_of_mem_toDigits
    (fun hzero => absurd hzero (lead_ne_zero h)) noDigit_exponent
    (readFraction_none (by rintro _ ⟨⟩; decide)) (readExponent_signedDecimal n hrest.noDigit),
    numberOf_fractional negative
      (by simpa only [Option.getD_none, List.append_nil, Nat.ofDigitChars_ten_toDigits] using hword)
      rfl]
  simp only [Option.getD_none, List.append_nil, Nat.ofDigitChars_ten_toDigits, Option.getD_some,
    List.length_nil, Nat.cast_zero, sub_zero]

/-- A digit, the others behind the point, and a power of ten. -/
theorem readNumber_scientific (negative : Bool) (n : Int) {c : Char} {ds : List Char}
    (hdigits : Nat.toDigits 10 digits = c :: ds) (hne : ds ≠ []) (h : 0 < digits)
    (hword : digits ≤ largestWord) (hrest : Ends rest) :
    readNumber negative (c :: '.' :: (ds ++ 'e' :: ((Text.signedDecimal n).toList ++ rest))) =
      (fractional negative digits (n - ds.length)).map (·, rest) := by
  obtain ⟨hc, hds⟩ := List.forall_mem_cons.mp (hdigits ▸ isDigit_of_mem_toDigits (n := digits))
  have hlead : ([c] : List Char).head? = some '0' → [c] = ['0'] := fun hzero =>
    absurd (hdigits ▸ hzero) (lead_ne_zero h)
  have hvalue : ofDigitChars 10 ([c] ++ ds) 0 = digits := by
    rw [List.singleton_append, ← hdigits, Nat.ofDigitChars_ten_toDigits]
  refine (readNumber_of_parts negative (List.cons_ne_nil c []) (List.forall_mem_singleton.mpr hc)
    hlead noDigit_point (readFraction_point _ hne hds noDigit_exponent)
    (readExponent_signedDecimal n hrest.noDigit)).trans ?_
  rw [numberOf_fractional negative (by simpa only [Option.getD_some, hvalue] using hword) rfl]
  simp only [Option.getD_some, hvalue]

/-- A decimal that is not filled up with zeros is read by its digits and its exponent. -/
theorem readNumber_unpadded (negative : Bool) {d : ShortDecimal} (hpos : 0 < d.digits)
    (hword : d.digits ≤ largestWord) (hrest : Ends rest)
    (h : ¬ (0 ≤ d.exponent ∧
      (Nat.toDigits 10 d.digits).length + d.exponent ≤ floatNotation.positionalUpTo)) :
    readNumber negative ((floatNotation.write d).toList ++ rest) =
      (fractional negative d.digits d.exponent).map (·, rest) := by
  have hmost : floatNotation.positionalUpTo = 16 := rfl
  simp only [Text.DecimalNotation.write, if_neg h]
  generalize hk : (Nat.toDigits 10 d.digits).length + d.exponent = k at h ⊢
  split
  next hpointed =>
    have hread := readNumber_pointed negative (k := k.toNat) hpos (by omega) (by omega) hword hrest
    have hexponent : (k.toNat : Int) - (Nat.toDigits 10 d.digits).length = d.exponent := by omega
    rw [hexponent] at hread
    rw [String.toList_ofList, List.append_assoc]
    exact hread
  next =>
    split
    next hsmall =>
      have hread := readNumber_small negative (-k).toNat hword hrest
      have hexponent : -(((-k).toNat + (Nat.toDigits 10 d.digits).length : Nat) : Int) =
          d.exponent := by omega
      rw [hexponent] at hread
      rw [String.toList_ofList]
      exact hread
    next =>
      rw [String.toList_append, String.toList_append, String.toList_ofList, List.append_assoc,
        List.append_assoc]
      have hsome : Nat.toDigits 10 d.digits ≠ [] := Nat.toDigits_ne_nil
      obtain ⟨c, ds, hds⟩ := List.exists_cons_of_ne_nil hsome
      cases ds with
      | nil =>
          have hread := readNumber_power negative (k - 1) hpos hword hrest
          have hexponent : k - 1 = d.exponent := by
            rw [hds, List.length_singleton] at hk
            omega
          rw [hds, hexponent] at hread
          rw [hds, hexponent]
          exact hread
      | cons c' ds =>
          have hread := readNumber_scientific negative (k - 1) hds (List.cons_ne_nil c' ds) hpos hword
            hrest
          have hexponent : k - 1 - ((c' :: ds).length : Int) = d.exponent := by
            rw [hds, List.length_cons] at hk
            omega
          rw [hexponent] at hread
          rw [hds]
          exact hread

/-- The text of a decimal is read as the number that the decimal comes to. -/
theorem readNumber_write (negative : Bool) {d : ShortDecimal} (h : 0 < d.digits ∨ d = ⟨0, 0⟩)
    (hdigits : d.digits ≤ 10 ^ 17) (hfinite : (ofDecimal d).isFinite = true) (hrest : Ends rest) :
    readNumber negative ((floatNotation.write d).toList ++ rest) =
      some (.float (if negative then -ofDecimal d else ofDecimal d), rest) := by
  by_cases hpadded : 0 ≤ d.exponent ∧
      (Nat.toDigits 10 d.digits).length + d.exponent ≤ floatNotation.positionalUpTo
  · have hof : ofDecimal d = scaledFloat (d.digits * 10 ^ (d.exponent.toNat + 1)) (-1) := by
      rw [ofDecimal, spelled, if_pos hpadded]
    have hwidth : (Nat.toDigits 10 d.digits).length + d.exponent ≤ 16 := hpadded.2
    have hzeros : d = ⟨0, 0⟩ → d.exponent.toNat = 0 := fun hnone => by rw [hnone]; rfl
    have hread := readNumber_padded negative d.digits d.exponent.toNat
      (h.imp_right hzeros) (by omega) hrest
    rw [fractional_eq negative (hof ▸ hfinite), ← hof] at hread
    simp only [Text.DecimalNotation.write, if_pos hpadded]
    rw [String.toList_ofList, List.append_assoc]
    exact hread
  · have hof : ofDecimal d = scaledFloat d.digits d.exponent := by
      rw [ofDecimal, spelled, if_neg hpadded]
    have hpos : 0 < d.digits := h.resolve_right fun hnone => hpadded (hnone ▸ by decide)
    rw [readNumber_unpadded negative hpos (hdigits.trans (by decide)) hrest hpadded,
      fractional_eq negative (hof ▸ hfinite), ← hof]
    rfl

end Fractional

section Reread

/-- The sign and the decimal that are written for a number. -/
def decimalOf (x : Float) : Bool × ShortDecimal :=
  if x == 0 then (decide (x.toBits ≠ 0), ⟨0, 0⟩) else Text.shortest x

/-- The number that the text of a number is read as. -/
def rereadFloat (x : Float) : Float :=
  if (decimalOf x).1 then -ofDecimal (decimalOf x).2 else ofDecimal (decimalOf x).2

variable {x : Float}

theorem floatText_eq (hx : x.isFinite = true) : floatText x =
    (if (decimalOf x).1 then "-" else "") ++ floatNotation.write (decimalOf x).2 := by
  obtain ⟨hinf, hnan⟩ := Doubles.ordinary_of_isFinite hx
  simp only [floatText, hnan, hinf, Bool.false_eq_true, if_false, decimalOf]
  by_cases hzero : (x == 0) = true
  · have hwritten : floatNotation.write ⟨0, 0⟩ = "0.0" := by decide
    simp only [if_pos hzero, hwritten]
    by_cases hbits : x.toBits = 0
    · simp only [hbits, if_true, ne_eq, not_true_eq_false, decide_false, Bool.false_eq_true, if_false]
      rfl
    · simp only [hbits, if_false, ne_eq, not_false_eq_true, decide_true, if_true]
      rfl
  · simp only [if_neg hzero]

theorem isFinite_ofDecimal {d : ShortDecimal}
    (h : (scaledFloat d.digits d.exponent).isFinite = true) : (ofDecimal d).isFinite = true := by
  rw [ofDecimal, spelled]
  split
  next => exact Text.isFinite_scaledFloat_of_neg (by decide : (-1 : Int) < 0) _
  next => exact h

/-- What is written for a number is a decimal that comes to a finite number. -/
theorem decimalOf_spec (hx : x.isFinite = true) :
    (0 < (decimalOf x).2.digits ∨ (decimalOf x).2 = ⟨0, 0⟩) ∧
      (decimalOf x).2.digits ≤ 10 ^ 17 ∧ (ofDecimal (decimalOf x).2).isFinite = true := by
  simp only [decimalOf]
  split
  next =>
    have hzero : (ofDecimal ⟨0, 0⟩).isFinite = true := by decide +kernel
    exact ⟨.inr rfl, Nat.zero_le _, hzero⟩
  next hne =>
    obtain ⟨hpos, hmost⟩ := Text.digits_shortest hx hne
    exact ⟨.inl hpos, hmost, isFinite_ofDecimal (Text.isFinite_scaledFloat_shortest hx hne)⟩

theorem isFinite_rereadFloat (hx : x.isFinite = true) : (rereadFloat x).isFinite = true := by
  obtain ⟨-, -, hfinite⟩ := decimalOf_spec hx
  rw [rereadFloat]
  split
  next => exact Doubles.isFinite_neg hfinite
  next => exact hfinite

theorem value_spelled (d : ShortDecimal) : (spelled d).value = d.value := by
  rw [spelled]
  split
  next hpadded =>
    obtain ⟨e, he⟩ := Int.eq_ofNat_of_zero_le hpadded.1
    simp only [ShortDecimal.value, he, Int.toNat_natCast, Nat.cast_mul, Nat.cast_pow, Nat.cast_ofNat,
      zpow_neg, zpow_one, zpow_natCast, pow_succ]
    field_simp
  next => rfl

/-- A number with few digits: those of its text make a whole number below 2⁵³, and the power of ten
behind them is the twenty-second at most, or one by which it is divided. -/
def IsShort (x : Float) : Prop :=
  (spelled (decimalOf x).2).digits < 2 ^ 53 ∧ (spelled (decimalOf x).2).exponent.natAbs ≤ 22

instance : Decidable (IsShort x) := inferInstanceAs (Decidable (_ ∧ _))

/-- A number with few digits is read as itself: nothing is rounded before the one product or quotient
that makes it. -/
theorem rereadFloat_eq_self (hx : x.isFinite = true) (hshort : IsShort x) : rereadFloat x = x := by
  obtain ⟨hsmall, hexponent⟩ := hshort
  by_cases hzero : (x == 0) = true
  · rcases Doubles.eq_zero_of_beq hx hzero with rfl | rfl <;> decide +kernel
  · have hdecimal : decimalOf x = Text.shortest x := if_neg hzero
    rw [hdecimal] at hsmall hexponent
    rw [rereadFloat, hdecimal]
    exact Text.scaledFloat_eq_of_shortest hx hzero hsmall hexponent (value_spelled _)

end Reread

end HttpGateway.Json
