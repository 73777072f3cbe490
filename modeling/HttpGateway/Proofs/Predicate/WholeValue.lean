import HttpGateway.Predicate.Compile
import HttpGateway.Proofs.Regex.Anchoring

/-!
# Conditions on whole values

The pattern of a condition on a header, a cookie or a query parameter must match the whole value. So
it does, for each pattern that closes no group it has not opened: such a pattern is accepted if it
is complete by itself and leaves room for its wrapper, and a value meets it if the pattern spans
the value. A pattern that closes the group of the wrapper escapes the anchors.
-/

namespace HttpGateway

open Regex

/-- The expression of a condition on a value. -/
def Predicate.regex? : Predicate → Option Regex
  | .header _ value => value
  | .cookie _ value => some value
  | .query _ value => value
  | _ => none

namespace PredicateSpec

variable {spec : PredicateSpec} {text : String}

/-- The pattern for a value, where an empty one may stand for none. -/
def optionalPattern? : Option String → Option String
  | none => none
  | some text => if text = "" then none else some text

/-- The pattern of a condition on a value. -/
def pattern? : PredicateSpec → Option String
  | .header _ regexp => optionalPattern? regexp
  | .cookie _ regexp => some regexp
  | .query _ regexp => optionalPattern? regexp
  | _ => none

/-- A condition on a header names one that can be. -/
def Named : PredicateSpec → Prop
  | .header name _ => (HeaderName.parse? name).isSome = true
  | _ => True

theorem readRegex_ok_iff {r : Regex} : readRegex text = .ok r ↔ compile (anchor text) = .ok r := by
  unfold readRegex anchor
  cases compile ("^(?:" ++ text ++ ")$") <;> simp

theorem readOptionalRegex_eq {regexp : Option String} (h : optionalPattern? regexp = some text) :
    readOptionalRegex regexp = (readRegex text).map some := by
  unfold optionalPattern? at h
  cases regexp with
  | none => cases h
  | some t =>
      dsimp only at h
      split at h
      · cases h
      · next hne =>
        cases h
        rw [readOptionalRegex, if_neg hne]

/-- A condition with a pattern is made from its compiled pattern, unless its header cannot be. -/
theorem build_eq_map (htext : spec.pattern? = some text) (hnamed : spec.Named) :
    ∃ make : Regex → Predicate, (∀ r, (make r).regex? = some r) ∧
      spec.build = (readRegex text).map make := by
  cases spec with
  | header name regexp =>
      obtain ⟨n, hname⟩ := Option.isSome_iff_exists.mp hnamed
      refine ⟨fun r => .header n (some r), fun _ => rfl, ?_⟩
      simp only [build, hname, readOptionalRegex_eq htext]
      cases readRegex text <;> rfl
  | cookie name regexp =>
      cases htext
      exact ⟨.cookie name, fun _ => rfl, rfl⟩
  | query param regexp =>
      refine ⟨fun r => .query param (some r), fun _ => rfl, ?_⟩
      simp only [build, readOptionalRegex_eq htext]
      cases readRegex text <;> rfl
  | path | host | method | remoteAddress | before | after | between => cases htext

theorem named_of_build {p : Predicate} (h : spec.build = .ok p) : spec.Named := by
  cases spec with
  | header name regexp =>
      cases hname : HeaderName.parse? name with
      | none => simp [build, hname] at h
      | some n => simp [Named, hname]
  | _ => trivial

theorem exists_regex_of_build {p : Predicate} (htext : spec.pattern? = some text)
    (h : spec.build = .ok p) : ∃ r, p.regex? = some r ∧ compile (anchor text) = .ok r := by
  obtain ⟨make, hmake, hbuild⟩ := build_eq_map htext (named_of_build h)
  rw [hbuild] at h
  cases hread : readRegex text with
  | error e => simp [hread, Except.map] at h
  | ok r =>
      rw [hread] at h
      cases h
      exact ⟨r, hmake r, readRegex_ok_iff.mp hread⟩

theorem exists_build_iff (htext : spec.pattern? = some text) :
    (∃ p, spec.build = .ok p) ↔ spec.Named ∧ ∃ r, compile (anchor text) = .ok r := by
  constructor
  · rintro ⟨p, h⟩
    obtain ⟨r, -, hcompile⟩ := exists_regex_of_build htext h
    exact ⟨named_of_build h, r, hcompile⟩
  · rintro ⟨hnamed, r, hcompile⟩
    obtain ⟨make, -, hbuild⟩ := build_eq_map htext hnamed
    rw [hbuild, readRegex_ok_iff.mpr hcompile]
    exact ⟨make r, rfl⟩

/-- A pattern that closes no group it has not opened is matched by whole values only, namely by
those that it spans by itself. It is accepted just if it is complete by itself, leaves room for the
wrapper in nesting and size, and does not hide the end of the wrapper in a comment. -/
theorem pattern_matches_whole (spec : PredicateSpec) (text : String)
    (htext : spec.pattern? = some text) (hbalanced : readPattern text ≠ .error .groupUnopened) :
    (∀ p, spec.build = .ok p → ∃ r e whole captures names, p.regex? = some r ∧
      readPattern text = .ok (e, captures, names) ∧
      readPattern (anchor text) = .ok (whole, captures, names) ∧
      ∀ value : String, (r.isMatch value = true ↔ whole.Spans value.toList) ∧
        (whole.Spans value.toList ↔ e.Spans value.toList)) ∧
    ((∃ p, spec.build = .ok p) ↔ spec.Named ∧
      ∃ r, Anchorable text r ∧ r.body.expr.weight + 2 * stateWeight ≤ largestPattern) := by
  refine ⟨fun p h => ?_, ?_⟩
  · obtain ⟨r, hr, hcompile⟩ := exists_regex_of_build htext h
    obtain ⟨e, whole, captures, names, hread, hwhole, hmatch⟩ :=
      isMatch_anchor_iff hbalanced hcompile
    exact ⟨r, e, whole, captures, names, hr, hread, hwhole, hmatch⟩
  · rw [exists_build_iff htext, compile_anchor_iff hbalanced]

/-- Both alternatives of a pattern are anchored. -/
theorem pattern_matches_whole_of_alternatives :
    ∃ p r, (cookie "id" "a|b").build = .ok p ∧ p.regex? = some r ∧
      ∀ value : String, r.isMatch value = true ↔ value.toList = ['a'] ∨ value.toList = ['b'] := by
  have hread : readPattern "a|b" =
      .ok (.alt (.set (.single 'a')) (.set (.single 'b')), 0, []) := rfl
  obtain ⟨hmatch, haccepted⟩ :=
    pattern_matches_whole (cookie "id" "a|b") "a|b" rfl (by simp [hread])
  obtain ⟨p, hp⟩ := haccepted.mpr ⟨trivial, _, ⟨rfl, rfl, by decide, rfl⟩, by decide⟩
  obtain ⟨r, e, whole, captures, names, hr, he, -, hvalues⟩ := hmatch p hp
  obtain ⟨rfl, -, -⟩ := Prod.mk.inj (Except.ok.inj (hread.symm.trans he))
  refine ⟨p, r, hp, hr, fun value => ?_⟩
  obtain ⟨hwhole, hspans⟩ := hvalues value
  rw [hwhole, hspans]
  exact or_congr spans_single_iff spans_single_iff

/-- A pattern that closes the group of the wrapper is accepted though it is not complete by itself,
and is met by a value that it does not span. -/
theorem pattern_escapes_anchors : ∃ p r whole,
    (header "X-Id" (some "a)|(?:b")).build = .ok p ∧ p.regex? = some r ∧
      readPattern "a)|(?:b" = .error .groupUnopened ∧
      readPattern (anchor "a)|(?:b") = .ok (whole, 0, []) ∧
      r.isMatch "abc" = true ∧ ¬ whole.Spans "abc".toList := by
  let whole : Expr := .alt (.cat (.look .start) (.set (.single 'a')))
    (.cat (.set (.single 'b')) (.look .finish))
  have hread : readPattern (anchor "a)|(?:b") = .ok (whole, 0, []) := rfl
  have htext : (header "X-Id" (some "a)|(?:b")).pattern? = some "a)|(?:b" := rfl
  have hcompile := compile_ok_iff.mpr ⟨_, hread, by decide, rfl⟩
  obtain ⟨p, hp⟩ := (exists_build_iff htext).mpr ⟨rfl, _, hcompile⟩
  obtain ⟨r, hr, hcompile⟩ := exists_regex_of_build htext hp
  refine ⟨p, r, whole, hp, hr, rfl, hread, ?_, ?_⟩
  · rw [isMatch_iff hread hcompile]
    exact ⟨.start "abc".toList, ⟨['a'], ['b', 'c']⟩, rfl,
      .inl ⟨.start "abc".toList, ⟨rfl, rfl⟩, 'a', by decide, rfl, rfl⟩⟩
  · rintro (⟨_, ⟨-, rfl⟩, h⟩ | ⟨q, h, -, rfl⟩)
    · cases spans_single_iff.mp h
    · cases spans_single_iff.mp h

end PredicateSpec

end HttpGateway
