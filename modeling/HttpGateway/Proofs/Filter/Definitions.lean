import HttpGateway.Filter.Compile
import HttpGateway.Proofs.Answer

/-!
# Filters from definitions

What is known of a filter because it has been made from a definition. It is none of those that the
gateway itself puts into a chain, and if it tries requests again, it does so only for methods whose
repetition has the effect of one request. Neither its place nor the limit on bodies decides whether
it can be made.
-/

namespace HttpGateway

/-! ### Retry policies -/

/-- The policy makes an attempt, and more than one only for methods that may be repeated. -/
structure RetryPolicy.IsSafe (p : RetryPolicy) : Prop where
  attempts : 1 ≤ p.maxAttempts
  idempotent : ∀ m ∈ p.methods, m.isIdempotent = true

theorem RetrySpec.isIdempotent_of_readMethod {text : String} {m : Method}
    (h : readMethod text = .ok m) : m.isIdempotent = true := by
  unfold readMethod at h
  split at h
  · cases h
  · split at h
    next hm =>
      cases h
      exact hm
    next => cases h

theorem RetrySpec.isIdempotent_of_readMethods {texts : Option (List String)} {methods : List Method}
    (h : readMethods texts = .ok methods) : ∀ m ∈ methods, m.isIdempotent = true := by
  cases texts with
  | none =>
      obtain rfl : ({} : RetryPolicy).methods = methods := Except.ok.inj h
      decide
  | some texts =>
      intro m hm
      obtain ⟨text, -, htext⟩ := exists_of_mapM_eq_ok h m hm
      exact isIdempotent_of_readMethod htext

/-- What is known of a policy because it has been made from arguments. -/
structure RetrySpec.Builds (spec : RetrySpec) (policy : RetryPolicy) : Prop where
  retries : spec.retries ≠ some 0
  attempts : policy.maxAttempts = spec.retries.getD 4
  methods : readMethods spec.methods = .ok policy.methods
  bounds : ∀ b ∈ policy.backoff, b.firstMs ≤ b.maxMs

theorem RetrySpec.builds_of_build {spec : RetrySpec} {policy : RetryPolicy}
    (h : spec.build = .ok policy) : spec.Builds policy := by
  unfold build at h
  dsimp only at h
  split at h
  · obtain ⟨_, hfail, -⟩ := bind_eq_ok_iff.mp h
    cases hfail
  · rename_i hretries
    obtain ⟨methods, hmethods, h⟩ := bind_eq_ok_iff.mp h
    obtain ⟨statuses, -, h⟩ := bind_eq_ok_iff.mp h
    split at h
    · obtain ⟨_, hfail, -⟩ := bind_eq_ok_iff.mp h
      cases hfail
    · rename_i hbounds
      cases h
      exact ⟨hretries, rfl, hmethods, by simpa [Option.any_eq_true] using hbounds⟩

theorem RetrySpec.isSafe_of_build {spec : RetrySpec} {policy : RetryPolicy}
    (h : spec.build = .ok policy) : policy.IsSafe := by
  have hbuilds := builds_of_build h
  refine ⟨?_, isIdempotent_of_readMethods hbuilds.methods⟩
  rw [hbuilds.attempts]
  -- The number of attempts is the usual one, or a given one that is not zero.
  cases hgiven : spec.retries with
  | none => simp
  | some n =>
      have hn : n ≠ 0 := fun hzero => hbuilds.retries (by rw [hgiven, hzero])
      exact Nat.one_le_iff_ne_zero.mpr hn

/-! ### What filters are made -/

/-- Whether the gateway itself puts the filter into every chain. -/
def Filter.isOwn : Filter → Bool
  | .commit => true
  | .resolveUrl => true
  | .forward _ => true
  | _ => false

/-- What is known of a filter that has been made from a definition. -/
def Filter.IsMade : Filter → Prop
  | .request _ => True
  | .response _ => True
  | .redirect _ _ => True
  | .retry policy _ => policy.IsSafe
  | .rateLimit _ => True
  | _ => False

/-- All that can be made of the arguments of a filter. -/
inductive FilterSpec.Makes (bodyLimit : Nat) : Filter → Prop
  | request (edit : RequestEdit) : Makes bodyLimit (.request edit)
  | response (edit : ResponseEdit) : Makes bodyLimit (.response edit)
  | redirect (status : Status) (location : HeaderValue) : Makes bodyLimit (.redirect status location)
  | retry {spec : RetrySpec} {policy : RetryPolicy} (h : spec.build = .ok policy) :
      Makes bodyLimit (.retry policy bodyLimit)
  | rateLimit {spec : RateLimitSpec} {limit : RateLimit} (h : spec.build = .ok limit) :
      Makes bodyLimit (.rateLimit limit)

theorem FilterSpec.makes_of_build {bodyLimit : Nat} {spec : FilterSpec} {f : Filter}
    (h : spec.build bodyLimit = .ok f) : Makes bodyLimit f := by
  cases spec with
  | addRequestHeader =>
      rw [build] at h
      obtain ⟨_, -, h⟩ := bind_eq_ok_iff.mp h
      cases h
      exact .request _
  | addResponseHeader | setResponseHeader | secureHeaders =>
      rw [build] at h
      obtain ⟨_, -, h⟩ := bind_eq_ok_iff.mp h
      cases h
      exact .response _
  | removeRequestHeader =>
      rw [build] at h
      obtain ⟨_, -, rfl⟩ := map_eq_ok_iff.mp h
      exact .request _
  | removeResponseHeader | setStatus =>
      rw [build] at h
      obtain ⟨_, -, rfl⟩ := map_eq_ok_iff.mp h
      exact .response _
  | addRequestParameter | prefixPath | rewritePath | setPath =>
      rw [build] at h
      split at h <;> cases h
      exact .request _
  | removeNonProxyHeaders names =>
      cases names with
      | none =>
          cases h
          exact .request _
      | some names =>
          obtain ⟨_, -, rfl⟩ := map_eq_ok_iff.mp h
          exact .request _
  | redirectTo =>
      rw [build] at h
      obtain ⟨_, -, h⟩ := bind_eq_ok_iff.mp h
      dsimp only at h
      split at h
      · obtain ⟨_, hfail, -⟩ := bind_eq_ok_iff.mp h
        cases hfail
      · split at h <;> cases h
        exact .redirect ..
  | retry spec =>
      rw [build] at h
      obtain ⟨policy, hpolicy, rfl⟩ := map_eq_ok_iff.mp h
      exact .retry hpolicy
  | rateLimiter spec =>
      rw [build] at h
      obtain ⟨limit, hlimit, rfl⟩ := map_eq_ok_iff.mp h
      exact .rateLimit hlimit

theorem FilterSpec.Makes.isMade {bodyLimit : Nat} {f : Filter} (h : Makes bodyLimit f) :
    f.IsMade := by
  cases h with
  | retry hpolicy => exact RetrySpec.isSafe_of_build hpolicy
  | _ => trivial

theorem Filter.ofDefinition_eq_ok_iff {bodyLimit : Nat} {d : FilterDefinition} {f : Filter} :
    ofDefinition bodyLimit d = .ok f ↔
      ∃ spec, FilterSpec.ofDefinition d = .ok spec ∧ spec.build bodyLimit = .ok f := by
  rw [ofDefinition, bind_eq_ok_iff]
  refine exists_congr fun spec => and_congr_right fun _ => ?_
  split
  next hbuild => simp only [hbuild, Except.ok.injEq]
  next hbuild => simp [hbuild]

theorem Filter.makes_of_ofDefinition {bodyLimit : Nat} {d : FilterDefinition} {f : Filter}
    (h : ofDefinition bodyLimit d = .ok f) : FilterSpec.Makes bodyLimit f := by
  obtain ⟨spec, -, hbuild⟩ := ofDefinition_eq_ok_iff.mp h
  exact FilterSpec.makes_of_build hbuild

namespace OrderedFilter

variable {bodyLimit position : Nat} {ds es : List FilterDefinition} {filters : List OrderedFilter}

theorem ofDefinitionsFrom_cons_eq_ok_iff {d : FilterDefinition} :
    ofDefinitionsFrom bodyLimit position (d :: ds) = .ok filters ↔
      ∃ f others, Filter.ofDefinition bodyLimit d = .ok f ∧
        ofDefinitionsFrom bodyLimit (position + 1) ds = .ok others ∧
        filters = ⟨d.order.getD (orderAt position), f⟩ :: others := by
  simp only [ofDefinitionsFrom, bind_eq_ok_iff, Except.ok.injEq, exists_and_left,
    @eq_comm _ filters]

theorem makes_of_ofDefinitionsFrom (h : ofDefinitionsFrom bodyLimit position ds = .ok filters) :
    ∀ f ∈ filters, FilterSpec.Makes bodyLimit f.filter := by
  induction ds generalizing position filters with
  | nil =>
      obtain rfl : [] = filters := Except.ok.inj h
      simp
  | cons d ds ih =>
      obtain ⟨filter, others, hfilter, hothers, rfl⟩ := ofDefinitionsFrom_cons_eq_ok_iff.mp h
      exact List.forall_mem_cons.mpr ⟨Filter.makes_of_ofDefinition hfilter, ih hothers⟩

theorem isMade_of_ofDefinitionsFrom (h : ofDefinitionsFrom bodyLimit position ds = .ok filters) :
    ∀ f ∈ filters, f.filter.IsMade :=
  fun f hf => (makes_of_ofDefinitionsFrom h f hf).isMade

end OrderedFilter

/-! ### Whether a filter is made -/

theorem FilterSpec.exists_build {bodyLimit : Nat} {spec : FilterSpec} {f : Filter}
    (h : spec.build bodyLimit = .ok f) (bodyLimit' : Nat) : ∃ f', spec.build bodyLimit' = .ok f' := by
  cases spec with
  | retry spec =>
      obtain ⟨policy, hpolicy, -⟩ := map_eq_ok_iff.mp h
      exact ⟨_, map_eq_ok_iff.mpr ⟨policy, hpolicy, rfl⟩⟩
  | removeNonProxyHeaders names => cases names <;> exact ⟨f, h⟩
  | _ => exact ⟨f, h⟩

/-- The definition makes a filter, whatever the limit on bodies. -/
def FilterDefinition.IsValid (d : FilterDefinition) : Prop :=
  ∃ bodyLimit f, Filter.ofDefinition bodyLimit d = .ok f

theorem FilterDefinition.isValid_iff {d : FilterDefinition} (bodyLimit : Nat) :
    d.IsValid ↔ ∃ f, Filter.ofDefinition bodyLimit d = .ok f := by
  refine ⟨fun ⟨_, f, hf⟩ => ?_, fun hf => ⟨bodyLimit, hf⟩⟩
  obtain ⟨spec, hspec, hbuild⟩ := Filter.ofDefinition_eq_ok_iff.mp hf
  obtain ⟨f', hf'⟩ := FilterSpec.exists_build hbuild bodyLimit
  exact ⟨f', Filter.ofDefinition_eq_ok_iff.mpr ⟨spec, hspec, hf'⟩⟩

namespace OrderedFilter

variable {bodyLimit position : Nat} {ds es : List FilterDefinition} {filters : List OrderedFilter}

/-- The filters of two lists one after the other, the second of which is counted on. -/
theorem ofDefinitionsFrom_append_eq_ok_iff :
    ofDefinitionsFrom bodyLimit position (ds ++ es) = .ok filters ↔
      ∃ first second, ofDefinitionsFrom bodyLimit position ds = .ok first ∧
        ofDefinitionsFrom bodyLimit (position + ds.length) es = .ok second ∧
        filters = first ++ second := by
  induction ds generalizing position filters with
  | nil => simp [ofDefinitionsFrom, eq_comm]
  | cons d ds ih =>
      simp only [List.cons_append, ofDefinitionsFrom_cons_eq_ok_iff, ih, List.length_cons]
      rw [show position + 1 + ds.length = position + (ds.length + 1) by omega]
      constructor
      · rintro ⟨f, _, hf, ⟨first, second, hfirst, hsecond, rfl⟩, rfl⟩
        exact ⟨_, second, ⟨f, first, hf, hfirst, rfl⟩, hsecond, rfl⟩
      · rintro ⟨_, second, ⟨f, first, hf, hfirst, rfl⟩, hsecond, rfl⟩
        exact ⟨f, _, hf, ⟨first, second, hfirst, hsecond, rfl⟩, rfl⟩

theorem exists_ofDefinitionsFrom_iff (bodyLimit position : Nat) :
    (∃ filters, ofDefinitionsFrom bodyLimit position ds = .ok filters) ↔ ∀ d ∈ ds, d.IsValid := by
  induction ds generalizing position with
  | nil => simp [ofDefinitionsFrom]
  | cons d ds ih =>
      rw [List.forall_mem_cons, FilterDefinition.isValid_iff bodyLimit, ← ih (position + 1)]
      simp only [ofDefinitionsFrom_cons_eq_ok_iff]
      constructor
      · rintro ⟨_, f, others, hf, hothers, -⟩
        exact ⟨⟨f, hf⟩, others, hothers⟩
      · rintro ⟨⟨f, hf⟩, others, hothers⟩
        exact ⟨_, f, others, hf, hothers, rfl⟩

end OrderedFilter

end HttpGateway
