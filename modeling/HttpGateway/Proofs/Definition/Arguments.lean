import HttpGateway.Filter.Spec
import HttpGateway.Predicate.Spec
import HttpGateway.Proofs.Json.Records
import HttpGateway.Proofs.Text.Number
import Mathlib.Data.List.DropRight

/-!
# Numbers among the arguments

A few arguments are numbers, and may be given as such or as texts. A number in the range of its
argument is read like its text. Any other number is refused, and so is its text where a natural
number of 32 bits is asked for; a status is a text, so any text will do.
-/

namespace HttpGateway

open Dictionary (Together)

/-- Blanks are dropped only once. -/
theorem trimText_trimText (s : String) : trimText (trimText s) = trimText s := by
  have hends (t : List Char) : Text.trim t = (t.dropWhile Text.isBlank).rdropWhile Text.isBlank := rfl
  have hstart : (Text.trim s.toList).dropWhile Text.isBlank = Text.trim s.toList := by
    refine List.dropWhile_eq_self_iff.mpr fun hpos => ?_
    have hkept : 0 < (s.toList.dropWhile Text.isBlank).length :=
      Nat.lt_of_lt_of_le hpos (List.rdropWhile_prefix _ _).length_le
    have hfirst : (Text.trim s.toList)[0] = (s.toList.dropWhile Text.isBlank)[0] :=
      (List.rdropWhile_prefix _ _).getElem hpos
    rw [hfirst]
    exact List.dropWhile_get_zero_not _ _ hkept
  rw [trimText, trimText, String.toList_ofList, hends, hstart, hends, List.rdropWhile_idempotent]

/-- The text of a number. -/
def Json.numberText? : Json → Option String
  | .int n => some (Text.signedDecimal n)
  | .float x => some (floatText x)
  | _ => none

namespace Arguments

/-- The bounds between which an argument is a number, for those that may be. -/
def numberRange? : String → Option (Int × Int)
  | "retries" => some (0, Decoder.max32)
  | "replenish_rate" => some (0, Decoder.max32)
  | "burst_capacity" => some (0, Decoder.max32)
  | "status" => some (-9223372036854775808, 9223372036854775807)
  | _ => none

/-- A number under this key is a whole one within the bounds of the argument. -/
def Fits (key : String) (j : Json) : Prop :=
  j.numberText?.isSome → ∃ n low high, j = .int n ∧ numberRange? key = some (low, high) ∧
    low ≤ n ∧ n ≤ high

/-- The same argument in two forms: one and the same value, or a text and the number, within the
bounds of the argument, that it is the text of. -/
inductive Interchangeable (key : String) : Json → Json → Prop
  | refl (j : Json) : Interchangeable key j j
  | number {v : String} {n low high : Int} (hrange : numberRange? key = some (low, high))
      (hlow : low ≤ n) (hhigh : n ≤ high) (hv : trimText v = Text.signedDecimal n) :
      Interchangeable key (.str (trimText v)) (.int n)

variable {α β : Type}

theorem optional_of_ne_null {d : Decoder α} {j : Json} (h : j ≠ .null) :
    Decoder.optional d j = (d j).map some := by
  cases j with
  | null => exact absurd rfl h
  | _ => rfl

theorem flexibleNatural_str (type : String) (high : Nat) (s : String) :
    Decoder.flexibleNatural type high (.str s) =
      match Text.natural high (trimText s).toList with
      | .ok n => .ok n
      | .error e => .error (.refused e.message) := by
  simp only [Decoder.flexibleNatural, Decoder.flexible, Decoder.natural, Decoder.integer, Except.map]
  cases Text.natural high (trimText s).toList <;> rfl

theorem flexibleNatural_int {type : String} {high n : Nat} (h : n ≤ high) :
    Decoder.flexibleNatural type high (.int n) = .ok n := by
  simp only [Decoder.flexibleNatural, Decoder.flexible, Decoder.natural_int h]

theorem flexibleNatural_number {v type : String} {n : Int} {high : Nat} (hlow : 0 ≤ n)
    (hhigh : n ≤ high) (hv : trimText v = Text.signedDecimal n) :
    Decoder.flexibleNatural type high (.str (trimText v)) =
      Decoder.flexibleNatural type high (.int n) := by
  obtain ⟨m, rfl⟩ := Int.eq_ofNat_of_zero_le hlow
  have hm : m ≤ high := Int.ofNat_le.mp hhigh
  have htext : Text.signedDecimal (m : Int) = Text.decimal m := by
    simp [Text.signedDecimal, Int.natAbs_natCast]
  have hread : Text.natural high (trimText (trimText v)).toList = .ok m := by
    rw [trimText_trimText, hv, htext, Text.natural_decimal hm]
  rw [flexibleNatural_int hm, flexibleNatural_str, hread]

theorem respects_of_plain {f : Field α} (h : numberRange? f.name = none) :
    f.Respects Interchangeable := by
  intro j j' hj
  cases hj with
  | refl => rfl
  | number hrange => simp [h] at hrange

/-- A field that reads the numbers within its bounds like their texts. -/
theorem respects_of_number {f : Field α} {low high : Int}
    (hrange : numberRange? f.name = some (low, high))
    (hread : ∀ v n, low ≤ n → n ≤ high → trimText v = Text.signedDecimal n →
      f.read (.str (trimText v)) = f.read (.int n)) : f.Respects Interchangeable := by
  intro j j' hj
  cases hj with
  | refl => rfl
  | number hbounds hlow hhigh hv =>
      rw [hrange] at hbounds
      cases hbounds
      exact hread _ _ hlow hhigh hv

theorem respects_natural {f : Field Nat} {type : String}
    (hrange : numberRange? f.name = some (0, (Decoder.max32 : Int)))
    (hread : f.read = Decoder.flexibleNatural type Decoder.max32) : f.Respects Interchangeable := by
  refine respects_of_number hrange fun v n hlow hhigh hv => ?_
  rw [hread, flexibleNatural_number hlow hhigh hv]

theorem respects_optionalNatural {f : Field (Option Nat)} {type : String}
    (hrange : numberRange? f.name = some (0, (Decoder.max32 : Int)))
    (hread : f.read = Decoder.optional (Decoder.flexibleNatural type Decoder.max32)) :
    f.Respects Interchangeable := by
  refine respects_of_number hrange fun v n hlow hhigh hv => ?_
  rw [hread]
  simp only [Decoder.optional, flexibleNatural_number hlow hhigh hv]

theorem respects_status : (scalarField "status").Respects Interchangeable := by
  refine respects_of_number rfl fun v n hlow hhigh hv => ?_
  simp only [scalarField, Decoder.scalarText, if_pos (And.intro hlow hhigh), hv]

/-- The argument is read as what is asked for under its key: a text for a status, and otherwise a
natural number of 32 bits. -/
def IsRead (key : String) (j : Json) : Prop :=
  if key = "status" then ∃ s, Decoder.scalarText j = .ok s
  else ∃ n, Decoder.flexibleNatural "u32" Decoder.max32 j = .ok n

theorem flexibleNatural_ne_ok {j : Json} {text type : String} {high m : Nat}
    (hnumber : j.numberText? = some text) (hj : ∀ n, j = .int n → ¬ (0 ≤ n ∧ n ≤ high)) :
    Decoder.flexibleNatural type high j ≠ .ok m := by
  cases j with
  | int n =>
      simp [Decoder.flexibleNatural, Decoder.flexible, Decoder.natural, Decoder.integer,
        if_neg (hj n rfl), Except.map]
  | float x => simp [Decoder.flexibleNatural, Decoder.flexible, Decoder.natural, Decoder.integer,
      Except.map]
  | _ => cases hnumber

theorem flexibleNatural_str_ne_ok {j : Json} {v type : String} {high m : Nat}
    (hnumber : j.numberText? = some (trimText v)) (hj : ∀ n, j = .int n → ¬ (0 ≤ n ∧ n ≤ high)) :
    Decoder.flexibleNatural type high (.str (trimText v)) ≠ .ok m := by
  have hunread (n : Nat) : Text.natural high (trimText v).toList ≠ .ok n := by
    cases j with
    | int i =>
        rw [← Option.some.inj hnumber]
        exact Text.natural_signedDecimal_ne_ok (hj i rfl)
    | float x =>
        obtain ⟨c, hc, hdigit, hplus⟩ := Json.exists_mark_floatText x
        rw [← Option.some.inj hnumber]
        exact Text.natural_ne_ok hc hdigit hplus
    | _ => cases hnumber
  intro h
  rw [flexibleNatural_str, trimText_trimText] at h
  split at h
  next n hn => exact hunread n hn
  next => cases h

theorem numberRange?_cases {key : String} (h : (numberRange? key).isSome) :
    (key ≠ "status" ∧ numberRange? key = some (0, (Decoder.max32 : Int))) ∨
      (key = "status" ∧
        numberRange? key = some (-9223372036854775808, 9223372036854775807)) := by
  unfold numberRange? at h ⊢
  split at h
  · exact .inl ⟨by decide, rfl⟩
  · exact .inl ⟨by decide, rfl⟩
  · exact .inl ⟨by decide, rfl⟩
  · exact .inr ⟨rfl, rfl⟩
  · cases h

theorem Fits.of_number {key : String} {j : Json} {n low high : Int} (hj : j = .int n)
    (hrange : numberRange? key = some (low, high)) (hn : low ≤ n ∧ n ≤ high) : Fits key j :=
  fun _ => ⟨n, low, high, hj, hrange, hn⟩

/-- A number that does not fit its argument is not read. -/
theorem not_isRead_of_not_fits {key : String} {j : Json} (hkey : (numberRange? key).isSome)
    (h : ¬ Fits key j) : ¬ IsRead key j := by
  obtain ⟨text, hnumber⟩ := Option.isSome_iff_exists.mp (Classical.not_imp.mp h).1
  rcases numberRange?_cases hkey with ⟨hstatus, hrange⟩ | ⟨hstatus, hrange⟩
  · rw [IsRead, if_neg hstatus]
    rintro ⟨m, hm⟩
    exact flexibleNatural_ne_ok hnumber (fun n hj hn => h (.of_number hj hrange hn)) hm
  · rw [IsRead, if_pos hstatus]
    rintro ⟨s, hs⟩
    cases j with
    | int n =>
        have hout : ¬ ((-9223372036854775808 : Int) ≤ n ∧ n ≤ 9223372036854775807) :=
          fun hn => h (.of_number rfl hrange hn)
        rw [Decoder.scalarText, if_neg hout] at hs
        cases hs
    | float x => cases hs
    | _ => cases hnumber

/-- Nor is its text, unless it is a status. -/
theorem not_isRead_str_of_not_fits {key v : String} {j : Json} (hkey : (numberRange? key).isSome)
    (hstatus : key ≠ "status") (hnumber : j.numberText? = some (trimText v))
    (h : ¬ Fits key j) : ¬ IsRead key (.str (trimText v)) := by
  rcases numberRange?_cases hkey with ⟨-, hrange⟩ | ⟨heq, -⟩
  · rw [IsRead, if_neg hstatus]
    rintro ⟨m, hm⟩
    exact flexibleNatural_str_ne_ok hnumber (fun n hj hn => h (.of_number hj hrange hn)) hm
  · exact absurd heq hstatus

section Records

variable {a b : Fields}

theorem exists_of_entries {fields : List FieldRule} {found : List (String × Json)} {f : Field α}
    (h : entries fields a = .ok found) {e : String × Json} (he : e ∈ a)
    (hf : fields.find? (fun g => g.name = e.1) = some f.rule) : ∃ v, f.read e.2 = .ok v := by
  obtain ⟨v, hv, -⟩ := map_eq_ok_iff.mp (RecordRule.check_of_entries h he hf)
  exact ⟨v, hv⟩

theorem one_congr {f : Field α} (hf : f.Respects Interchangeable)
    (h : List.Forall₂ (Together Interchangeable) a b) : one f a = one f b := by
  refine RecordRule.bind_entries_congr (fun g hg j j' hj => ?_) h (Field.take_congr hf h)
  obtain rfl := List.mem_singleton.mp hg
  exact Field.check_congr hf hj

theorem two_congr {f : Field α} {g : Field β} (hf : f.Respects Interchangeable)
    (hg : g.Respects Interchangeable) (h : List.Forall₂ (Together Interchangeable) a b) :
    two f g a = two f g b := by
  refine RecordRule.bind_entries_congr (fun rule hrule j j' hj => ?_) h ?_
  · simp only [List.mem_cons, List.not_mem_nil, or_false] at hrule
    rcases hrule with rfl | rfl
    · exact Field.check_congr hf hj
    · exact Field.check_congr hg hj
  · simp only [Field.take_congr hf h, Field.take_congr hg h]

end Records

end Arguments

open Arguments

variable {a b : Fields}

theorem RetrySpec.ofArgs_congr (h : List.Forall₂ (Together Interchangeable) a b) :
    ofArgs a = ofArgs b := by
  have hretries : retriesField.Respects Interchangeable := respects_optionalNatural rfl rfl
  have hmethods : methodsField.Respects Interchangeable := respects_of_plain rfl
  have hseries : seriesField.Respects Interchangeable := respects_of_plain rfl
  have hstatuses : statusesField.Respects Interchangeable := respects_of_plain rfl
  have hretryOnError : retryOnErrorField.Respects Interchangeable := respects_of_plain rfl
  have hbackoff : backoffField.Respects Interchangeable := respects_of_plain rfl
  refine RecordRule.bind_entries_congr (fun f hf j j' hj => ?_) h ?_
  · simp only [List.mem_cons, List.not_mem_nil, or_false] at hf
    rcases hf with rfl | rfl | rfl | rfl | rfl | rfl
    · exact Field.check_congr hretries hj
    · exact Field.check_congr hmethods hj
    · exact Field.check_congr hseries hj
    · exact Field.check_congr hstatuses hj
    · exact Field.check_congr hretryOnError hj
    · exact Field.check_congr hbackoff hj
  · simp only [Field.take_congr hretries h, Field.take_congr hmethods h,
      Field.take_congr hseries h, Field.take_congr hstatuses h, Field.take_congr hretryOnError h,
      Field.take_congr hbackoff h]

theorem RateLimitSpec.ofArgs_congr (h : List.Forall₂ (Together Interchangeable) a b) :
    ofArgs a = ofArgs b := by
  have hreplenish : replenishField.Respects Interchangeable := respects_natural rfl rfl
  have hburst : burstField.Respects Interchangeable := respects_natural rfl rfl
  have hresolver : resolverField.Respects Interchangeable := respects_of_plain rfl
  have hdeny : denyField.Respects Interchangeable := respects_of_plain rfl
  refine RecordRule.bind_entries_congr (fun f hf j j' hj => ?_) h ?_
  · simp only [List.mem_cons, List.not_mem_nil, or_false] at hf
    rcases hf with rfl | rfl | rfl | rfl
    · exact Field.check_congr hreplenish hj
    · exact Field.check_congr hburst hj
    · exact Field.check_congr hresolver hj
    · exact Field.check_congr hdeny hj
  · simp only [Field.take_congr hreplenish h, Field.take_congr hburst h,
      Field.take_congr hresolver h, Field.take_congr hdeny h]

/-- Arguments that are the same but for their form make the same filter. -/
theorem FilterSpec.ofArgs_congr (kind : FilterKind)
    (h : List.Forall₂ (Together Interchangeable) a b) : ofArgs kind a = ofArgs kind b := by
  cases kind with
  | retry => simp only [ofArgs, RetrySpec.ofArgs_congr h]
  | rateLimiter => simp only [ofArgs, RateLimitSpec.ofArgs_congr h]
  | setStatus => simp only [ofArgs, one_congr respects_status h]
  | redirectTo => simp only [ofArgs, two_congr respects_status
      (respects_of_plain (f := textField "url") rfl) h]
  | addRequestHeader | addRequestParameter | addResponseHeader | setResponseHeader =>
      simp only [ofArgs, nameAndValue,
        two_congr (respects_of_plain (f := textField "name") rfl)
          (respects_of_plain (f := textField "value") rfl) h]
  | rewritePath =>
      simp only [ofArgs, two_congr (respects_of_plain (f := textField "regexp") rfl)
          (respects_of_plain (f := textField "replacement") rfl) h]
  | removeRequestHeader | removeResponseHeader =>
      simp only [ofArgs, one_congr (respects_of_plain (f := textField "name") rfl) h]
  | removeNonProxyHeaders =>
      simp only [ofArgs, one_congr (respects_of_plain (f := headersField) rfl) h]
  | secureHeaders => simp only [ofArgs, one_congr (respects_of_plain (f := disableField) rfl) h]
  | prefixPath => simp only [ofArgs, one_congr (respects_of_plain (f := textField "prefix") rfl) h]
  | setPath => simp only [ofArgs, one_congr (respects_of_plain (f := textField "template") rfl) h]

namespace ArgumentLayout

/-- The names that a layout gives. -/
def names : ArgumentLayout → List String
  | .fields names => names
  | .list name => [name]

end ArgumentLayout

/-- Which arguments of which filters are numbers. -/
theorem FilterKind.number_cases {kind : FilterKind} {key : String}
    (hkey : key ∈ kind.layout.names) (hnumber : (numberRange? key).isSome) :
    (kind, key) ∈ [(setStatus, "status"), (redirectTo, "status"), (retry, "retries"),
      (rateLimiter, "replenish_rate"), (rateLimiter, "burst_capacity")] := by
  have hnames : ∀ name ∈ kind.layout.names, (numberRange? name).isSome →
      (kind, name) ∈ [(setStatus, "status"), (redirectTo, "status"), (retry, "retries"),
        (rateLimiter, "replenish_rate"), (rateLimiter, "burst_capacity")] := by
    cases kind <;> decide
  exact hnames key hkey hnumber

/-- A filter is made only of numbers that can be read. -/
theorem FilterSpec.isRead_of_ofArgs {kind : FilterKind} {spec : FilterSpec}
    (h : ofArgs kind a = .ok spec) {e : String × Json} (he : e ∈ a)
    (hkey : e.1 ∈ kind.layout.names) (hnumber : (numberRange? e.1).isSome)
    (hnull : e.2 ≠ .null) : IsRead e.1 e.2 := by
  obtain ⟨key, j⟩ := e
  have hcases := FilterKind.number_cases hkey hnumber
  simp only [List.mem_cons, List.not_mem_nil, or_false, Prod.mk.injEq] at hcases
  rcases hcases with ⟨rfl, rfl⟩ | ⟨rfl, rfl⟩ | ⟨rfl, rfl⟩ | ⟨rfl, rfl⟩ | ⟨rfl, rfl⟩
  · obtain ⟨_, hone, -⟩ := map_eq_ok_iff.mp h
    obtain ⟨found, hfound, -⟩ := bind_eq_ok_iff.mp hone
    exact exists_of_entries (f := scalarField "status") hfound he rfl
  · obtain ⟨_, htwo, -⟩ := map_eq_ok_iff.mp h
    obtain ⟨found, hfound, -⟩ := bind_eq_ok_iff.mp htwo
    exact exists_of_entries (f := scalarField "status") hfound he rfl
  · obtain ⟨_, hretry, -⟩ := map_eq_ok_iff.mp h
    obtain ⟨found, hfound, -⟩ := bind_eq_ok_iff.mp hretry
    obtain ⟨n, hn⟩ := exists_of_entries (f := RetrySpec.retriesField) hfound he rfl
    have hread : (Decoder.flexibleNatural "u32" Decoder.max32 j).map some = .ok n :=
      (optional_of_ne_null hnull).symm.trans hn
    obtain ⟨m, hm, -⟩ := map_eq_ok_iff.mp hread
    exact ⟨m, hm⟩
  · obtain ⟨_, hlimit, -⟩ := map_eq_ok_iff.mp h
    obtain ⟨found, hfound, -⟩ := bind_eq_ok_iff.mp hlimit
    exact exists_of_entries (f := RateLimitSpec.replenishField) hfound he rfl
  · obtain ⟨_, hlimit, -⟩ := map_eq_ok_iff.mp h
    obtain ⟨found, hfound, -⟩ := bind_eq_ok_iff.mp hlimit
    exact exists_of_entries (f := RateLimitSpec.burstField) hfound he rfl

end HttpGateway
