import HttpGateway.Proofs.Filter.Course
import HttpGateway.Proofs.Retry.Transparency
import Mathlib

/-!
# The number of attempts

A chain that may be retried is run until the first attempt that ends the matter: one that leaves the
response committed, the last that the policy allows, or one that the policy is content with. What
this attempt leaves is the result. Between two attempts there is one pause, and one retry is
recorded under the number of the attempt before it. Where there is no pause to be made the exchange
is given up behind the attempt.
-/

namespace HttpGateway

variable {τ : Type}

/-- Whether there is no other attempt after the `i`-th, given what it leaves. -/
def RetryPolicy.Ends (p : RetryPolicy) (i : Nat) (left : Outcome × Scene τ) : Prop :=
  left.2.exchange.abandoned = true ∨ left.2.exchange.response.isCommitted = true ∨
    i = p.maxAttempts ∨
    match left.1 with
    | .error e => e.isUpstream = false ∨ p.retryOnError = false
    | .ok () => ∀ reply ∈ left.2.exchange.upstream,
        reply.status ∉ p.statuses ∧ ∀ series ∈ reply.status.series?, series ∉ p.series

theorem RetryPolicy.isRetryableStatus_eq_false_iff {p : RetryPolicy} {status : Status} :
    p.isRetryableStatus status = false ↔
      status ∉ p.statuses ∧ ∀ series ∈ status.series?, series ∉ p.series := by
  rw [isRetryableStatus, Bool.or_eq_false_iff]
  cases status.series? <;> simp

theorem RetryPolicy.ends_iff {p : RetryPolicy} {method : Method} {i : Nat}
    {left : Outcome × Scene τ} (hmethod : p.allowsMethod method = true) (hi : i ≤ p.maxAttempts) :
    p.Ends i left ↔ ¬Filter.Asked p method i left.1 left.2 := by
  obtain ⟨outcome, t⟩ := left
  have hlast : p.maxAttempts ≤ i ↔ i = p.maxAttempts := by omega
  have hasked : Filter.Asked p method i outcome t ↔ t.exchange.abandoned = false ∧
      t.exchange.response.isCommitted = false ∧
      p.shouldRetry i method outcome (t.exchange.upstream.map Captured.status) = true :=
    ⟨fun h => ⟨h.kept, h.isOpen, h.retry⟩, fun h => ⟨h.1, h.2.1, h.2.2⟩⟩
  rw [hasked, Ends, not_and_or, not_and_or, Bool.not_eq_false, Bool.not_eq_false, Bool.not_eq_true]
  refine or_congr_right (or_congr_right ?_)
  by_cases hmax : i = p.maxAttempts
  · simp [shouldRetry, hmax]
  · have hmore : ¬p.maxAttempts ≤ i := fun h => hmax (hlast.mp h)
    cases outcome with
    | error e =>
        cases hupstream : e.isUpstream <;> simp [shouldRetry, hmax, hmore, hmethod, hupstream]
    | ok _ =>
        cases t.exchange.upstream <;>
          simp [shouldRetry, hmax, hmore, hmethod, isRetryableStatus_eq_false_iff]

namespace Filter

/-! ### The attempts -/

section

variable [TokenArithmetic τ] (policy : RetryPolicy) (point : RetryPoint) (next : Stage τ)
  (s : Scene τ)

/-- The scene in which the attempt after the first `i` begins. -/
def sceneAfter : (i : Nat) → Scene τ
  | 0 => s
  | i + 1 => again policy point (i + 1) (next (sceneAfter i)).2

/-- What the `i`-th attempt leaves; the first is the one with the number one. -/
def leaves (i : Nat) : Outcome × Scene τ := next (sceneAfter policy point next s (i - 1))

end

/-- How long the pause after an attempt lasts, if there is one. -/
def pauseLength? (backoff : Option Backoff) (attempt : Nat) (w : World τ) : Option Duration :=
  match backoff with
  | none => some Duration.zero
  | some b => (b.delay attempt w.draw.1).map fun length => Duration.ofMillis length.toNat

theorem pauseLength?_eq_none_iff {backoff : Option Backoff} {attempt : Nat} {w : World τ} :
    pauseLength? backoff attempt w = none ↔
      ∃ b, backoff = some b ∧ b.delay attempt w.draw.1 = none := by
  cases backoff <;> simp [pauseLength?]

/-- What becomes of what the last attempt, the `k`-th, leaves: it is the result, or the exchange is
given up for want of a pause. -/
inductive Settles [TokenArithmetic τ] (policy : RetryPolicy) (k : Nat) (last : Outcome × Scene τ) :
    Outcome × Scene τ → Prop
  | stands (hends : policy.Ends k last) : Settles policy k last last
  | givenUp (hmore : ¬policy.Ends k last) (hpause : pauseLength? policy.backoff k last.2.world = none) :
    Settles policy k last (last.1, givenUp policy k last.2)

variable [TokenArithmetic τ] {policy : RetryPolicy} {method : Method} {point : RetryPoint}
  {next : Stage τ} {s : Scene τ}

/-- No other attempt follows the `i`-th. -/
def Stops (policy : RetryPolicy) (i : Nat) (left : Outcome × Scene τ) : Prop :=
  policy.Ends i left ∨ pauseLength? policy.backoff i left.2.world = none

theorem Settles.stops {k : Nat} {last left : Outcome × Scene τ} (h : Settles policy k last left) :
    Stops policy k last := by
  cases h with
  | stands hends => exact .inl hends
  | givenUp _ hpause => exact .inr hpause

/-- The attempts stop at the first that no other one follows. -/
theorem exists_attempts_eq (point : RetryPoint) (next : Stage τ) (s : Scene τ)
    (hmethod : policy.allowsMethod method = true) (further before : Nat)
    (h : before + 1 + further = policy.maxAttempts) :
    ∃ k, before + 1 ≤ k ∧ k ≤ policy.maxAttempts ∧
      (∀ i, before + 1 ≤ i → i < k → ¬Stops policy i (leaves policy point next s i)) ∧
      Settles policy k (leaves policy point next s k)
        (attempts policy method point next further (before + 1)
          (sceneAfter policy point next s before)) := by
  induction further generalizing before with
  | zero =>
      refine ⟨before + 1, Nat.le_refl _, by omega, fun i hi hlt => by omega, ?_⟩
      exact .stands (.inr (.inr (.inl h)))
  | succ further ih =>
      let t := sceneAfter policy point next s before
      have hends : policy.Ends (before + 1) (next t) ↔ _ :=
        RetryPolicy.ends_iff hmethod (by omega)
      have hsequel := ensues_sequel policy method point (before + 1) (next t).1 (next t).2
      generalize hensuing : sequel policy method point (before + 1) (next t).1 (next t).2 = ensuing
        at hsequel
      cases hsequel with
      | stands hasked =>
          rw [attempts_of_over hensuing]
          exact ⟨before + 1, Nat.le_refl _, by omega, fun i hi hlt => by omega,
            .stands (hends.mpr hasked)⟩
      | givenUp hasked hb hdelay =>
          rw [attempts_of_over hensuing]
          refine ⟨before + 1, Nat.le_refl _, by omega, fun i hi hlt => by omega, ?_⟩
          refine .givenUp (fun h => hends.mp h hasked) ?_
          exact pauseLength?_eq_none_iff.mpr ⟨_, hb, hdelay⟩
      | again hasked hdelay =>
          rw [attempts_of_again hensuing]
          obtain ⟨k, hk, hle, hearlier, hsettles⟩ := ih (before + 1) (by omega)
          refine ⟨k, by omega, hle, fun i hi hlt => ?_, hsettles⟩
          rcases Nat.eq_or_lt_of_le hi with rfl | hi
          · rintro (hfirst | hnone)
            · exact hends.mp hfirst hasked
            · obtain ⟨b, hb, hnone⟩ := pauseLength?_eq_none_iff.mp hnone
              obtain ⟨length, hlength⟩ := hdelay b hb
              cases hnone.symm.trans hlength
          · exact hearlier i hi hlt

/-! ### Between the attempts -/

/-- The pause takes the time that it lasts, and one retry is recorded. -/
theorem exists_paused (policy : RetryPolicy) (attempt : Nat) (s : Scene τ) :
    ∃ clock drawn limiter waits, paused policy attempt s = { s.world with
      clock, drawn, limiter, waits
      waited := s.world.waited +
        (pauseLength? policy.backoff attempt s.world).getD Duration.zero
      metrics := s.world.metrics ++ [.retry s.exchange.routeLabel attempt] } := by
  unfold paused
  obtain ⟨hb, h⟩ | ⟨b, hb, ⟨length, hlength, h⟩ | ⟨hnone, h⟩⟩ := pause_cases policy.backoff attempt
    (s.world.count (.retry s.exchange.routeLabel attempt))
  · rw [hb] at h ⊢
    exact ⟨_, _, _, _, congrArg Prod.snd h⟩
  · have hlast : pauseLength? policy.backoff attempt s.world =
        some (Duration.ofMillis length.toNat) := by
      simp only [pauseLength?, hb]
      exact congrArg (Option.map _) hlength
    rw [hlast]
    exact ⟨_, _, _, _, congrArg Prod.snd h⟩
  · have hlast : pauseLength? policy.backoff attempt s.world = none :=
      pauseLength?_eq_none_iff.mpr ⟨b, hb, hnone⟩
    rw [hlast]
    exact ⟨_, _, _, _, congrArg Prod.snd h⟩

/-- A number that each run of the chain raises by one, and that nothing else changes which is done
between two attempts. -/
structure CountsRuns (next : Stage τ) (count : World τ → Nat) : Prop where
  run : ∀ s, count (next s).2.world = count s.world + 1
  between : ∀ (w : World τ) clock drawn limiter waits waited metrics,
    count { w with clock, drawn, limiter, waits, waited, metrics } = count w

theorem CountsRuns.paused {count : World τ → Nat} (h : CountsRuns next count) (attempt : Nat)
    (s : Scene τ) : count (Filter.paused policy attempt s) = count s.world := by
  obtain ⟨clock, drawn, limiter, waits, hworld⟩ := exists_paused policy attempt s
  rw [hworld, h.between]

theorem CountsRuns.sceneAfter {count : World τ → Nat} (h : CountsRuns next count) (i : Nat) :
    count (sceneAfter policy point next s i).world = count s.world + i := by
  induction i with
  | zero => rfl
  | succ i ih =>
      rw [Filter.sceneAfter, again, h.paused, h.run, ih]
      omega

/-- What is waited in the pause after an attempt. -/
def pauseNanos (policy : RetryPolicy) (attempt : Nat) (s : Scene τ) : Nat :=
  ((pauseLength? policy.backoff attempt s.world).getD Duration.zero).nanos

theorem waited_paused (policy : RetryPolicy) (attempt : Nat) (s : Scene τ) :
    (paused policy attempt s).waited.nanos =
      s.world.waited.nanos + pauseNanos policy attempt s := by
  obtain ⟨clock, drawn, limiter, waits, hworld⟩ := exists_paused policy attempt s
  rw [hworld]
  rfl

theorem waited_sceneAfter {own : Scene τ → Nat}
    (h : ∀ s, (next s).2.world.waited.nanos = s.world.waited.nanos + own s) (i : Nat) :
    (sceneAfter policy point next s i).world.waited.nanos = s.world.waited.nanos +
      ∑ j ∈ Finset.range i, (own (sceneAfter policy point next s j) +
        pauseNanos policy (j + 1) (leaves policy point next s (j + 1)).2) := by
  induction i with
  | zero => rfl
  | succ i ih =>
      rw [sceneAfter, again, waited_paused, h, ih, Finset.sum_range_succ, leaves,
        Nat.add_sub_cancel]
      omega

theorem metrics_paused (policy : RetryPolicy) (attempt : Nat) (s : Scene τ) :
    (paused policy attempt s).metrics =
      s.world.metrics ++ [.retry s.exchange.routeLabel attempt] := by
  obtain ⟨clock, drawn, limiter, waits, hworld⟩ := exists_paused policy attempt s
  rw [hworld]

theorem metrics_sceneAfter {own : Scene τ → List Metric}
    (h : ∀ s, (next s).2.world.metrics = s.world.metrics ++ own s) (i : Nat) :
    (sceneAfter policy point next s i).world.metrics = s.world.metrics ++
      (List.range i).flatMap fun j => own (sceneAfter policy point next s j) ++
        [.retry (leaves policy point next s (j + 1)).2.exchange.routeLabel (j + 1)] := by
  induction i with
  | zero => simp [sceneAfter]
  | succ i ih =>
      rw [sceneAfter, again, metrics_paused, h, ih, List.range_succ, List.flatMap_append]
      simp [leaves]

/-- That the chain has been run `k` times and has left this. -/
structure RunTimes (policy : RetryPolicy) (point : RetryPoint) (next : Stage τ) (s : Scene τ)
    (k : Nat) (left : Outcome × Scene τ) : Prop where
  settles : Settles policy k (leaves policy point next s k) left
  runs : ∀ count, CountsRuns next count → count left.2.world = count s.world + k
  /-- Besides what the runs wait themselves, there is the pause after each but the last. -/
  waited : ∀ own : Scene τ → Nat,
    (∀ s, (next s).2.world.waited.nanos = s.world.waited.nanos + own s) →
    left.2.world.waited.nanos = s.world.waited.nanos +
      ∑ i ∈ Finset.range k, own (sceneAfter policy point next s i) +
      ∑ i ∈ Finset.range (k - 1),
        pauseNanos policy (i + 1) (leaves policy point next s (i + 1)).2
  /-- Besides what the runs record themselves, there is one retry after each but the last; and after
  this as well, if the exchange has been given up where another one was to follow. -/
  metrics : ∀ own : Scene τ → List Metric,
    (∀ s, (next s).2.world.metrics = s.world.metrics ++ own s) →
    ∃ given, (policy.Ends k (leaves policy point next s k) → given = []) ∧
      (¬policy.Ends k (leaves policy point next s k) →
        given = [.retry (leaves policy point next s k).2.exchange.routeLabel k]) ∧
      left.2.world.metrics = s.world.metrics ++
        ((List.range (k - 1)).flatMap fun i => own (sceneAfter policy point next s i) ++
          [.retry (leaves policy point next s (i + 1)).2.exchange.routeLabel (i + 1)]) ++
        own (sceneAfter policy point next s (k - 1)) ++ given

theorem runTimes_of_settles {k : Nat} {left : Outcome × Scene τ} (hk : 1 ≤ k)
    (h : Settles policy k (leaves policy point next s k) left) :
    RunTimes policy point next s k left := by
  obtain ⟨m, rfl⟩ : ∃ m, k = m + 1 := ⟨k - 1, by omega⟩
  refine ⟨h, fun count hcount => ?_, fun own hown => ?_, fun own hown => ?_⟩
  · have hlast : count (leaves policy point next s (m + 1)).2.world = count s.world + (m + 1) := by
      rw [leaves, hcount.run, Nat.add_sub_cancel, hcount.sceneAfter, Nat.add_assoc]
    cases h with
    | stands => exact hlast
    | givenUp => exact (hcount.paused ..).trans hlast
  · have hlast : (leaves policy point next s (m + 1)).2.world.waited.nanos = s.world.waited.nanos +
        ∑ i ∈ Finset.range (m + 1), own (sceneAfter policy point next s i) +
        ∑ i ∈ Finset.range (m + 1 - 1),
          pauseNanos policy (i + 1) (leaves policy point next s (i + 1)).2 := by
      rw [leaves, hown, Nat.add_sub_cancel, waited_sceneAfter hown, Finset.sum_add_distrib,
        Finset.sum_range_succ]
      omega
    cases h with
    | stands => exact hlast
    | givenUp _ hpause =>
        have hnone : pauseNanos policy (m + 1) (leaves policy point next s (m + 1)).2 = 0 := by
          rw [pauseNanos, hpause]
          rfl
        exact (waited_paused ..).trans (by rw [hnone, hlast]; rfl)
  · have hlast : (leaves policy point next s (m + 1)).2.world.metrics = s.world.metrics ++
        ((List.range (m + 1 - 1)).flatMap fun i => own (sceneAfter policy point next s i) ++
          [.retry (leaves policy point next s (i + 1)).2.exchange.routeLabel (i + 1)]) ++
        own (sceneAfter policy point next s (m + 1 - 1)) := by
      rw [leaves, hown, Nat.add_sub_cancel, metrics_sceneAfter hown]
    cases h with
    | stands hends =>
        exact ⟨[], fun _ => rfl, fun hno => absurd hends hno, hlast.trans (List.append_nil _).symm⟩
    | givenUp hmore =>
        refine ⟨_, fun hends => absurd hends hmore, fun _ => rfl, ?_⟩
        exact (metrics_paused ..).trans (by rw [hlast])

end Filter

/-- How often the rest of the chain is run. Where the policy allows another attempt and the body of
the request can be read, it is run until the first attempt that ends the matter or is followed by no
pause. If this attempt ends the matter, what it leaves is the result, and so it is whenever all
pauses are words; if not, the exchange is given up. If the body cannot be read the chain is not run
at all; where the policy allows no other attempt it is run once, on the request as it is. -/
theorem retry_runs [TokenArithmetic τ] (policy : RetryPolicy) (bodyLimit : Nat)
    (next : Stage τ) (s : Scene τ) :
    let left := (Filter.retry policy bodyLimit).run next s
    let retries := policy.allowsMethod s.exchange.request.method = true ∧ 2 ≤ policy.maxAttempts
    (¬retries → left = next s) ∧
      (∀ e, retries → (s.exchange.request.body.materialize bodyLimit).1 = .error e →
        left = (.error e, s.mapExchange (Filter.materialized bodyLimit))) ∧
      (∀ bytes, retries → (s.exchange.request.body.materialize bodyLimit).1 = .ok bytes →
        let entry := s.mapExchange (Filter.materialized bodyLimit)
        let point := Filter.RetryPoint.of entry.exchange
        ∃ k, IsLeast
            {i | 1 ≤ i ∧ Filter.Stops policy i (Filter.leaves policy point next entry i)} k ∧
          Filter.RunTimes policy point next entry k left ∧
          ((∀ b, policy.backoff = some b → ∀ attempt draw, b.delay attempt draw ≠ none) →
            IsLeast {i | 1 ≤ i ∧ policy.Ends i (Filter.leaves policy point next entry i)} k ∧
              left = Filter.leaves policy point next entry k)) := by
  intro left retries
  refine ⟨fun hno => ?_, fun e hyes hbody => ?_, fun bytes hyes hbody => ?_⟩
  · refine if_pos ?_
    rw [Bool.or_eq_true, Bool.not_eq_true', decide_eq_true_iff]
    by_contra hboth
    rw [not_or, Bool.not_eq_false, not_le] at hboth
    exact hno hboth
  · have hleft : left = _ := Filter.retryThen_eq_match hyes.1 hyes.2
    rw [hleft, hbody]
  · intro entry point
    obtain ⟨hmethod, hattempts⟩ := hyes
    obtain ⟨k, hk, -, hearlier, hsettles⟩ := Filter.exists_attempts_eq point next entry hmethod
      (policy.maxAttempts - 1) 0 (by omega)
    have hleft : left = _ := Filter.retryThen_of_allowed hmethod hattempts hbody
    have hsettles : Filter.Settles policy k (Filter.leaves policy point next entry k) left := by
      rw [hleft]
      exact hsettles
    refine ⟨k, ⟨⟨hk, hsettles.stops⟩, fun i hi => ?_⟩, Filter.runTimes_of_settles hk hsettles,
      fun hfits => ?_⟩
    · exact Nat.not_lt.mp fun hlt => hearlier i hi.1 hlt hi.2
    · clear_value left
      cases hsettles with
      | stands hends =>
          refine ⟨⟨⟨hk, hends⟩, fun i hi => ?_⟩, rfl⟩
          exact Nat.not_lt.mp fun hlt => hearlier i hi.1 hlt (.inl hi.2)
      | givenUp _ hpause =>
          obtain ⟨b, hb, hnone⟩ := Filter.pauseLength?_eq_none_iff.mp hpause
          exact absurd hnone (hfits b hb _ _)

/-- A chain that calls the backend once, whatever it is given. -/
def callOnce : Stage Rat := fun s =>
  match s.world.send ⟨Method.get, s.exchange.request.uri, .empty, .whole []⟩ with
  | (.error e, world) => (.error e, { s with world })
  | (.ok reply, world) => (.ok (), ⟨s.exchange.capture reply, world⟩)

theorem world_callOnce (s : Scene Rat) : (callOnce s).2.world =
    (s.world.send ⟨Method.get, s.exchange.request.uri, .empty, .whole []⟩).2 := by
  unfold callOnce
  rcases s.world.send ⟨Method.get, s.exchange.request.uri, .empty, .whole []⟩ with
    ⟨_ | reply, world⟩ <;> rfl

theorem countsRuns_callOnce : Filter.CountsRuns callOnce World.calls where
  run s := by
    rw [world_callOnce]
    exact List.length_append
  between _ _ _ _ _ _ _ := rfl

/-- The first attempt finds the service unavailable, and the second one is answered: there are two
calls, one retry and one pause, which is lengthened by the one millisecond that is drawn. -/
theorem retry_runs_twice :
    let s := (twiceSent (.ok { status := Status.ok })).mapWorld fun w => { w with random := fun _ => 1 }
    let policy : RetryPolicy := { backoff := some { firstMs := 20, maxMs := 50 } }
    let left := (Filter.retry policy 1024).run callOnce s
    left.2.world.calls = 2 ∧ left.2.world.waited = Duration.ofMillis 21 ∧
      left.2.world.metrics = [.retry "r" 1] := by
  intro s policy left
  obtain ⟨-, -, hallowed⟩ := retry_runs policy 1024 callOnce s
  obtain ⟨k, ⟨⟨hk, hstops⟩, hleast⟩, hruns, -⟩ := hallowed [] ⟨by decide, by decide⟩ rfl
  change Filter.RunTimes policy (Filter.RetryPoint.of s.exchange) callOnce s k left at hruns
  have hget : policy.allowsMethod Method.get = true := by decide
  have hfirst : ¬Filter.Stops policy 1
      (Filter.leaves policy (Filter.RetryPoint.of s.exchange) callOnce s 1) := by
    rintro (hends | hnone)
    · exact (RetryPolicy.ends_iff hget (by decide)).mp hends ⟨rfl, rfl, by decide⟩
    · exact absurd hnone (by decide)
  have hsecond : policy.Ends 2
      (Filter.leaves policy (Filter.RetryPoint.of s.exchange) callOnce s 2) := by
    refine (RetryPolicy.ends_iff hget (by decide)).mpr fun hasked => ?_
    exact absurd hasked.retry (by decide)
  have htwo : k = 2 := by
    have hle : k ≤ 2 := hleast ⟨by decide, .inl hsecond⟩
    rcases Nat.eq_or_lt_of_le hk with rfl | hlt
    · exact absurd hstops hfirst
    · omega
  subst htwo
  refine ⟨hruns.runs _ countsRuns_callOnce, ?_, ?_⟩
  · have hpause : Filter.pauseNanos policy 1
        (Filter.leaves policy (Filter.RetryPoint.of s.exchange) callOnce s 1).2 = 21000000 := by
      decide
    have hwaited := hruns.waited (fun _ => 0) fun s => by
      rw [world_callOnce]
      rfl
    rw [show 2 - 1 = 1 from rfl, Finset.sum_range_one, Finset.sum_const_zero, hpause] at hwaited
    exact congrArg Duration.mk (hwaited.trans (Nat.zero_add _))
  · obtain ⟨given, hgiven, -, hmetrics⟩ := hruns.metrics (fun _ => []) fun s => by
      rw [world_callOnce]
      exact (List.append_nil _).symm
    rw [hgiven hsecond] at hmetrics
    exact hmetrics

end HttpGateway
