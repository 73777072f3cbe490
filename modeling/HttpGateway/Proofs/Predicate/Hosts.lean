import HttpGateway.Predicate.Compile
import HttpGateway.Proofs.Answer
import HttpGateway.Proofs.Http.Readable
import Mathlib

/-!
# Conditions on hosts

A condition on the host has no regard to the case of letters, neither in its patterns nor in the
host header, and no regard to a port. Of a literal in brackets it looks at what stands between them.
-/

namespace HttpGateway

/-! ### Letters and other characters -/

namespace Text

variable {c d : Char} {s t : List Char}

theorem isAlpha_iff (c : Char) : c.isAlpha = true ↔
    (65 ≤ c.toNat ∧ c.toNat ≤ 90) ∨ (97 ≤ c.toNat ∧ c.toNat ≤ 122) := by
  simp [Char.isAlpha, Char.isUpper, Char.isLower, UInt32.le_iff_toNat_le]

/-- Only letters change in lower case, and they stay letters. -/
theorem toLower_eq_self_or (c : Char) :
    c.toLower = c ∨ (c.isAlpha = true ∧ c.toLower.isAlpha = true) := by
  rw [isAlpha_iff, isAlpha_iff, Char.toLower]
  split
  next hupper =>
    have hupper : 65 ≤ c.toNat ∧ c.toNat ≤ 90 := by
      simpa [UInt32.le_iff_toNat_le] using hupper
    have hlower : (c.val + ('a'.val - 'A'.val)).toNat = c.toNat + 32 := by
      rw [UInt32.toNat_add]
      exact Nat.mod_eq_of_lt (by change c.toNat + 32 < _; omega)
    refine .inr ⟨.inl hupper, .inr ?_⟩
    change 97 ≤ (c.val + ('a'.val - 'A'.val)).toNat ∧ (c.val + ('a'.val - 'A'.val)).toNat ≤ 122
    omega
  next => exact .inl rfl

theorem toLower_eq_iff (hd : d.isAlpha = false) : c.toLower = d ↔ c = d := by
  rcases toLower_eq_self_or c with hself | ⟨hletter, hlower⟩
  · rw [hself]
  · refine iff_of_false (fun h => ?_) fun h => ?_
    · rw [h, hd] at hlower
      cases hlower
    · rw [h, hd] at hletter
      cases hletter

theorem mem_lower_iff (hd : d.isAlpha = false) : d ∈ lower s ↔ d ∈ s := by
  simp [lower, toLower_eq_iff hd]

theorem head?_lower_eq_iff (hd : d.isAlpha = false) :
    (lower s).head? = some d ↔ s.head? = some d := by
  simp [lower, toLower_eq_iff hd]

theorem isBlank_of_isAlpha (h : c.isAlpha = true) : isBlank c = false := by
  rw [isAlpha_iff] at h
  simp [isBlank]
  omega

theorem isBlank_toLower (c : Char) : isBlank c.toLower = isBlank c := by
  rcases toLower_eq_self_or c with hself | ⟨hletter, hlower⟩
  · rw [hself]
  · rw [isBlank_of_isAlpha hletter, isBlank_of_isAlpha hlower]

theorem lower_trim (s : List Char) : lower (trim s) = trim (lower s) := by
  have hblank : isBlank ∘ Char.toLower = isBlank := funext isBlank_toLower
  simp only [lower, trim, trimEnd, trimStart, ← List.map_reverse, List.dropWhile_map, hblank]

/-- What stands before the first of a character that is not in it. -/
theorem takeWhile_ne_append (hd : d ∉ s) (ht : t = [] ∨ t.head? = some d) :
    (s ++ t).takeWhile (· ≠ d) = s := by
  have hs : ∀ c ∈ s, decide (c ≠ d) = true := fun c hc => decide_eq_true fun h => hd (h ▸ hc)
  rw [List.takeWhile_append_of_pos hs]
  rcases ht with rfl | ht
  · exact List.append_nil s
  · obtain ⟨rest, rfl⟩ := List.head?_eq_some_iff.mp ht
    rw [List.takeWhile_cons_of_neg (by simp), List.append_nil]

end Text

theorem lowerText_trimText (s : String) : lowerText (trimText s) = trimText (lowerText s) := by
  simp only [lowerText, trimText, String.toList_ofList, Text.lower_trim]

theorem lower_toList_eq {s t : String} (h : lowerText s = lowerText t) :
    Text.lower s.toList = Text.lower t.toList :=
  String.ofList_injective h

/-! ### The host that a header names -/

/-- What may follow a host: nothing, or a colon and a port. -/
def IsPort (s : String) : Prop := s = "" ∨ ∃ port, s = ":" ++ port

/-- A text that is taken for a host as it stands. -/
structure IsPlainHost (s : String) : Prop where
  noPort : ':' ∉ s.toList
  noLiteral : s.toList.head? ≠ some '['

/-- A text that is taken for a host between brackets. -/
structure IsLiteralHost (s : String) : Prop where
  noOpening : '[' ∉ s.toList
  noClosing : ']' ∉ s.toList

variable {host other literal port : String}

theorem IsPort.toList_eq (h : IsPort port) : port.toList = [] ∨ port.toList.head? = some ':' := by
  rcases h with rfl | ⟨port, rfl⟩
  · exact .inl rfl
  · exact .inr (by simp)

theorem IsPlainHost.of_lowerText_eq (h : IsPlainHost host)
    (hsame : lowerText other = lowerText host) : IsPlainHost other := by
  have hlower := lower_toList_eq hsame
  refine ⟨fun hcolon => h.noPort ?_, fun hhead => h.noLiteral ?_⟩
  · rwa [← Text.mem_lower_iff rfl, ← hlower, Text.mem_lower_iff rfl]
  · rwa [← Text.head?_lower_eq_iff rfl, ← hlower, Text.head?_lower_eq_iff rfl]

namespace Request

variable {r : Request}

theorem bareHost_plain (h : IsPlainHost host) (hport : IsPort port) :
    bareHost (host ++ port).toList = host.toList := by
  have hhead : (host ++ port).toList.head? ≠ some '[' := by
    rw [String.toList_append, List.head?_append]
    intro hbracket
    rcases Option.or_eq_some_iff.mp hbracket with hhost | ⟨-, hhead⟩
    · exact h.noLiteral hhost
    · rcases hport.toList_eq with hnil | hcolon
      · simp [hnil] at hhead
      · simp [hcolon] at hhead
  rw [bareHost, if_neg hhead, String.toList_append,
    Text.takeWhile_ne_append h.noPort hport.toList_eq]

theorem bareHost_literal (h : IsLiteralHost literal) (port : String) :
    bareHost ("[" ++ literal ++ "]" ++ port).toList = literal.toList := by
  have hlist : ("[" ++ literal ++ "]" ++ port).toList =
      ('[' :: literal.toList) ++ ']' :: port.toList := by
    simp
  have hclosing : ']' ∉ '[' :: literal.toList := by
    simpa using h.noClosing
  have hopening : ∀ c ∈ literal.toList.head?, ¬decide (c = '[') = true := by
    intro c hc heq
    exact h.noOpening (of_decide_eq_true heq ▸ List.mem_of_mem_head? hc)
  rw [hlist, bareHost, List.cons_append, if_pos List.head?_cons, ← List.cons_append,
    Text.takeWhile_ne_append hclosing (.inr rfl),
    List.dropWhile_cons_of_pos (by simp)]
  cases hliteral : literal.toList with
  | nil => rfl
  | cons c rest =>
      rw [hliteral] at hopening
      exact List.dropWhile_cons_of_neg (hopening c rfl)

theorem host_of_text {text : String} (h : r.headers.text? HeaderName.host = some text) :
    r.host = some (lowerText (String.ofList (bareHost text.toList))) := by
  simp only [Request.host, h, Option.some_or, Option.map_some]

theorem host_plain (h : IsPlainHost host) (hport : IsPort port)
    (hr : r.headers.text? HeaderName.host = some (host ++ port)) : r.host = some (lowerText host) := by
  rw [host_of_text hr, bareHost_plain h hport, String.ofList_toList]

theorem host_literal (h : IsLiteralHost literal)
    (hr : r.headers.text? HeaderName.host = some ("[" ++ literal ++ "]" ++ port)) :
    r.host = some (lowerText literal) := by
  rw [host_of_text hr, bareHost_literal h port, String.ofList_toList]

end Request

/-! ### The patterns of a condition -/

theorem SegmentPattern.host_congr {s t : String} (h : lowerText s = lowerText t) :
    SegmentPattern.host s = SegmentPattern.host t := by
  have hempty : s = "" ↔ t = "" := by
    have hlower := lower_toList_eq h
    rw [← String.toList_eq_nil_iff, ← String.toList_eq_nil_iff]
    simpa [Text.lower] using congrArg (· = []) hlower
  simp only [SegmentPattern.host, hempty, h]

/-- A condition on the host holds of a request if one of its patterns matches the host. -/
theorem Predicate.check_host {r : Request} {ctx : MatchContext} {patterns : List SegmentPattern}
    (h : r.host = some host) :
    ((Predicate.host patterns).check r ctx).1 = patterns.any fun q => (q.match? host).isSome := by
  simp [check, h]

theorem mapM_congr_forall₂ {α β ε : Type} {f : α → Except ε β} {l m : List α}
    (h : List.Forall₂ (fun a b => f a = f b) l m) : l.mapM f = m.mapM f := by
  induction h with
  | nil => rfl
  | cons hab _ ih => rw [List.mapM_cons, List.mapM_cons, hab, ih]

namespace PredicateSpec

variable {texts others : List String}

theorem readPatterns_host_congr
    (h : List.Forall₂ (fun s t => lowerText s = lowerText t) texts others) :
    readPatterns .host texts = readPatterns .host others := by
  have hempty : texts.isEmpty = others.isEmpty := by cases h <;> rfl
  rw [readPatterns, readPatterns, hempty]
  split
  · rfl
  · refine mapM_congr_forall₂ (h.imp fun s t hst => ?_)
    have hread : SegmentPattern.parse .host (trimText s) = SegmentPattern.parse .host (trimText t) :=
      SegmentPattern.host_congr (by rw [lowerText_trimText, lowerText_trimText, hst])
    rw [hread]

/-- Patterns that differ in case alone make the same condition, or are refused for the same reason.
Host headers that differ in case alone, with or without a port, get the same verdict. A literal in
brackets, with or without a port, gets the verdict on what is between them, in lower case. -/
theorem host_without_case_and_port (texts others : List String)
    (hsame : List.Forall₂ (fun s t => lowerText s = lowerText t) texts others) :
    (PredicateSpec.host texts).build = (PredicateSpec.host others).build ∧
    ∀ p, (PredicateSpec.host texts).build = .ok p →
      (∀ host other port, IsPlainHost host → lowerText other = lowerText host → IsPort port →
        ∀ (r r' : Request) ctx ctx', r.headers.text? HeaderName.host = some host →
          r'.headers.text? HeaderName.host = some (other ++ port) →
          (p.check r' ctx').1 = (p.check r ctx).1) ∧
      ∃ patterns, readPatterns .host texts = .ok patterns ∧
        ∀ literal port, IsLiteralHost literal → IsPort port → ∀ (r : Request) ctx,
          r.headers.text? HeaderName.host = some ("[" ++ literal ++ "]" ++ port) →
          (p.check r ctx).1 =
            patterns.any fun q => (q.match? (lowerText literal)).isSome := by
  refine ⟨by rw [build, build, readPatterns_host_congr hsame], fun p hp => ?_⟩
  obtain ⟨patterns, hpatterns, rfl⟩ := map_eq_ok_iff.mp hp
  refine ⟨fun host other port hhost hother hport r r' ctx ctx' hr hr' => ?_, patterns, hpatterns,
    fun literal port hliteral _ r ctx hr => Predicate.check_host (Request.host_literal hliteral hr)⟩
  have hbare : r.host = some (lowerText host) :=
    Request.host_plain hhost (.inl rfl) (by rw [hr, String.append_empty])
  have hwritten : r'.host = some (lowerText host) := by
    rw [Request.host_plain (hhost.of_lowerText_eq hother) hport hr', hother]
  rw [Predicate.check_host hbare, Predicate.check_host hwritten]

/-- A request with a host header. -/
def asking (host : String) : Request where
  uri := ⟨none, none, ⟨"/", none⟩⟩
  headers := ⟨[(HeaderName.host, HeaderValue.literal host)]⟩

/-- A host in other letters and with a port is taken as it is without, whichever way its pattern is
written, and an address between brackets is taken too. -/
theorem host_without_case_and_port_of_example :
    ∃ p, (PredicateSpec.host ["**.Example.org", "::1"]).build = .ok p ∧
      (PredicateSpec.host ["**.EXAMPLE.ORG", "::1"]).build = .ok p ∧
      ∀ ctx, (p.check (asking "api.EXAMPLE.org:8443") ctx).1 = true ∧
        (p.check (asking "[::1]:80") ctx).1 = true := by
  let patterns : List SegmentPattern :=
    [⟨.host, "**.example.org", [.anyPieces, .literal "example", .literal "org"]⟩,
      ⟨.host, "::1", [.literal "::1"]⟩]
  have hread : readPatterns .host ["**.Example.org", "::1"] = .ok patterns := by cbv
  obtain ⟨halike, hverdicts⟩ := host_without_case_and_port ["**.Example.org", "::1"]
    ["**.EXAMPLE.ORG", "::1"] (.cons (by cbv) (.cons rfl .nil))
  have hbuild : (PredicateSpec.host ["**.Example.org", "::1"]).build = .ok (.host patterns) :=
    map_eq_ok_iff.mpr ⟨patterns, hread, rfl⟩
  obtain ⟨hplain, read, hread', hliteral⟩ := hverdicts _ hbuild
  obtain rfl : patterns = read := Except.ok.inj (hread.symm.trans hread')
  refine ⟨_, hbuild, halike ▸ hbuild, fun ctx => ⟨?_, ?_⟩⟩
  · rw [hplain "Api.Example.org" "api.EXAMPLE.org" ":8443" ⟨by decide, by decide⟩ (by cbv)
      (.inr ⟨"8443", rfl⟩) (asking "Api.Example.org") _ ctx ctx (by cbv) (by cbv)]
    cbv
  · rw [hliteral "::1" ":80" ⟨by decide, by decide⟩ (.inr ⟨"80", rfl⟩) _ ctx (by cbv)]
    cbv

end PredicateSpec

end HttpGateway
