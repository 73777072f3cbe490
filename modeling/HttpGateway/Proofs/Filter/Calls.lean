import HttpGateway.Proofs.Filter.Definitions
import HttpGateway.Proofs.Filter.Entry
import HttpGateway.Proofs.Filter.Plain
import Mathlib.Algebra.BigOperators.Group.List.Basic

/-!
# Calls of the backend

How often a chain of filters calls the backend. A filter is given the rest of the chain as something
to run, so the number of its calls is bounded by means of that of the rest: forwarding adds one call,
retrying multiplies them, and every other filter leaves the bound as it is. Since all filters also
keep the method of the request, the bound of a whole chain depends on that method alone.
-/

namespace HttpGateway

variable {τ : Type}

/-- Between two scenes the request keeps its method and the backend is called at most `n` times. -/
structure Scene.CallsAtMost (n : Nat) (s s' : Scene τ) : Prop where
  method : s'.exchange.request.method = s.exchange.request.method
  calls : ∃ k ≤ n, s'.world.calls = s.world.calls + k

namespace Scene.CallsAtMost

variable {n n' : Nat} {s s' s'' : Scene τ}

theorem of_eq (hmethod : s'.exchange.request.method = s.exchange.request.method)
    (hcalls : s'.world.calls = s.world.calls) : s.CallsAtMost n s' :=
  ⟨hmethod, 0, Nat.zero_le n, hcalls⟩

theorem mono (h : s.CallsAtMost n s') (hn : n ≤ n') : s.CallsAtMost n' s' := by
  obtain ⟨hmethod, k, hk, hcalls⟩ := h
  exact ⟨hmethod, k, by omega, hcalls⟩

theorem trans (h : s.CallsAtMost n s') (h' : s'.CallsAtMost n' s'') :
    s.CallsAtMost (n + n') s'' := by
  obtain ⟨hmethod, k, hk, hcalls⟩ := h
  obtain ⟨hmethod', k', hk', hcalls'⟩ := h'
  exact ⟨hmethod'.trans hmethod, k + k', by omega, by omega⟩

/-- What calls nothing may follow. -/
theorem trans_eq (h : s.CallsAtMost n s')
    (hmethod : s''.exchange.request.method = s'.exchange.request.method)
    (hcalls : s''.world.calls = s'.world.calls) : s.CallsAtMost n s'' := by
  obtain ⟨hmethod', k, hk, hcalls'⟩ := h
  exact ⟨hmethod.trans hmethod', k, hk, hcalls.trans hcalls'⟩

end Scene.CallsAtMost

/-- For a request with this method the stage calls the backend at most `n` times. -/
def Stage.CallsAtMost (m : Method) (n : Nat) (stage : Stage τ) : Prop :=
  ∀ s : Scene τ, s.exchange.request.method = m → s.CallsAtMost n (stage s).2

/-! ### What the filters are made of -/

theorem World.calls_send [TokenArithmetic τ] (w : World τ) (o : Outbound) :
    (w.send o).2.calls = w.calls + 1 :=
  List.length_append

theorem RequestEdit.method_apply (e : RequestEdit) (x : Exchange) :
    (e.apply x).2.request.method = x.request.method := by
  obtain ⟨p, -, hcovers, -⟩ := e.exists_passage x
  rw [hcovers x rfl rfl]
  rfl

theorem Filter.method_outboundBody (limit : Nat) (r : Request) :
    (outboundBody limit r).2.method = r.method := by
  unfold outboundBody
  split
  · split <;> rfl
  · rfl

theorem Exchange.request_takeUpstreamBody (x : Exchange) :
    x.takeUpstreamBody.2.request = x.request := by
  unfold takeUpstreamBody
  split <;> rfl

/-! ### One filter -/

/-- How often the policy lets a request with this method be tried. -/
def RetryPolicy.tries (p : RetryPolicy) (m : Method) : Nat :=
  if p.allowsMethod m then max 1 p.maxAttempts else 1

theorem RetryPolicy.tries_pos (p : RetryPolicy) (m : Method) : 0 < p.tries m := by
  unfold tries
  split <;> omega

section Filter

variable {m : Method} {n : Nat} {next : Stage τ}

/-- A stage that goes on from a scene to which the request has come without a call. -/
theorem Stage.CallsAtMost.after (h : Stage.CallsAtMost m n next) {s s' : Scene τ}
    (hs : s.exchange.request.method = m)
    (hmethod : s'.exchange.request.method = s.exchange.request.method)
    (hcalls : s'.world.calls = s.world.calls) : s.CallsAtMost n (next s').2 := by
  obtain ⟨hmethod', k, hk, hcalls'⟩ := h s' (hmethod.trans hs)
  exact ⟨hmethod'.trans hmethod, k, hk, by rw [hcalls', hcalls]⟩

theorem RequestEdit.callsAtMost_run (e : RequestEdit) (h : Stage.CallsAtMost m n next) :
    Stage.CallsAtMost m n (e.run next) := by
  intro s hs
  have hmethod := e.method_apply s.exchange
  simp only [run]
  rcases hedit : e.apply s.exchange with ⟨_ | ⟨⟨⟩⟩, x⟩
  · rw [hedit] at hmethod
    exact .of_eq hmethod rfl
  · rw [hedit] at hmethod
    exact h.after hs hmethod rfl

theorem ResponseEdit.callsAtMost_run (e : ResponseEdit) (h : Stage.CallsAtMost m n next) :
    Stage.CallsAtMost m n (e.run next) := by
  intro s hs
  have hnext := h s hs
  simp only [run]
  rcases hrun : next s with ⟨_ | ⟨⟨⟩⟩, s'⟩
  · rw [hrun] at hnext
    exact hnext
  · rw [hrun] at hnext
    exact hnext.trans_eq rfl rfl

namespace Filter

theorem callsAtMost_commitAfter (h : Stage.CallsAtMost m n next) :
    Stage.CallsAtMost m n (commitAfter next) := by
  intro s hs
  have hnext := h s hs
  simp only [commitAfter]
  split
  · exact hnext
  · split
    · have hrequest := (next s).2.exchange.request_takeUpstreamBody
      exact hnext.trans_eq (congrArg Request.method hrequest) rfl
    · exact hnext.trans_eq rfl rfl

theorem callsAtMost_resolveThen [TokenArithmetic τ] (h : Stage.CallsAtMost m n next) :
    Stage.CallsAtMost m n (resolveThen next) := by
  intro s hs
  have hcalls := congrArg List.length (sent_targetUrl s.exchange s.world)
  simp only [resolveThen]
  generalize targetUrl s.exchange s.world = found at hcalls ⊢
  obtain ⟨_ | url, world⟩ := found
  · exact .of_eq rfl hcalls
  · exact h.after hs rfl hcalls

theorem callsAtMost_forwardThen [TokenArithmetic τ] (bodyLimit : Nat) (h : Stage.CallsAtMost m n next) :
    Stage.CallsAtMost m (n + 1) (forwardThen bodyLimit next) := by
  intro s hs
  simp only [forwardThen]
  split
  · exact .of_eq rfl rfl
  · rename_i url _
    have hmethod := method_outboundBody bodyLimit s.exchange.request
    generalize outboundBody bodyLimit s.exchange.request = made at hmethod ⊢
    obtain ⟨_ | body, r⟩ := made
    · exact .of_eq hmethod rfl
    · have hcalls := s.world.calls_send ⟨r.method, url, outboundHeaders r, body⟩
      dsimp only [Scene.mapExchange] at hmethod ⊢
      -- The one call of the filter; what the backend answers decides whether the chain goes on.
      generalize s.world.send ⟨r.method, url, outboundHeaders r, body⟩ = answer at hcalls ⊢
      obtain ⟨_ | reply, world⟩ := answer
      · exact ⟨hmethod, 1, by omega, hcalls⟩
      · have hsent : s.CallsAtMost 1 ⟨{ s.exchange with request := r }.capture
            { reply with headers := reply.headers.stripHopByHop }, world⟩ :=
          ⟨hmethod, 1, Nat.le_refl _, hcalls⟩
        have hrest := h _ (hsent.method.trans hs)
        exact (hsent.trans hrest).mono (by omega)

theorem callsAtMost_limitThen [TokenArithmetic τ] (limit : RateLimit)
    (h : Stage.CallsAtMost m n next) : Stage.CallsAtMost m n (limitThen limit next) := by
  intro s hs
  simp only [limitThen]
  split
  · split
    · exact .of_eq rfl rfl
    · exact h s hs
  · split
    · exact h.after hs rfl rfl
    · split
      · exact h.after hs rfl rfl
      · exact .of_eq rfl rfl

/-- Every attempt makes at most the calls of the rest of the chain, and what stands between two of
them makes none. -/
theorem callsAtMost_attempts [TokenArithmetic τ] (policy : RetryPolicy) (method : Method)
    (point : RetryPoint) (h : Stage.CallsAtMost m n next) (further attempt : Nat) :
    Stage.CallsAtMost m ((further + 1) * n) (attempts policy method point next further attempt) := by
  induction further generalizing attempt with
  | zero => simpa [attempts] using h
  | succ further ih =>
      intro s hs
      have hnext := h s hs
      have hmul : (further + 1 + 1) * n = (further + 1) * n + n := Nat.succ_mul _ _
      have hpaused : (paused policy attempt (next s).2).calls = (next s).2.world.calls :=
        congrArg List.length (sent_paused policy attempt (next s).2)
      have hsequel := ensues_sequel policy method point attempt (next s).1 (next s).2
      simp only [attempts]
      generalize sequel policy method point attempt (next s).1 (next s).2 = ensuing at hsequel ⊢
      cases hsequel with
      | stands => exact hnext.mono (by omega)
      | givenUp =>
          have hgivenUp : s.CallsAtMost n (givenUp policy attempt (next s).2) :=
            hnext.trans_eq rfl hpaused
          exact hgivenUp.mono (by omega)
      | again =>
          have hback : s.CallsAtMost n (again policy point attempt (next s).2) :=
            hnext.trans_eq rfl hpaused
          have hrest := ih (attempt + 1) _ (hback.method.trans hs)
          exact (hback.trans hrest).mono (by omega)

theorem callsAtMost_retryThen [TokenArithmetic τ] (policy : RetryPolicy) (bodyLimit : Nat)
    (h : Stage.CallsAtMost m n next) :
    Stage.CallsAtMost m (policy.tries m * n) (retryThen policy bodyLimit next) := by
  intro s hs
  simp only [retryThen]
  split
  · have hone : n ≤ policy.tries m * n := Nat.le_mul_of_pos_left n (policy.tries_pos m)
    exact (h s hs).mono hone
  · rename_i hagain
    simp only [Bool.or_eq_true, Bool.not_eq_true', decide_eq_true_eq, not_or,
      Bool.not_eq_false] at hagain
    obtain ⟨hallowed, hmore⟩ := hagain
    rw [hs] at hallowed
    -- The first attempt and those that may follow it make up the number of attempts.
    have htries : policy.tries m = policy.maxAttempts - 1 + 1 := by
      rw [RetryPolicy.tries, if_pos hallowed]
      omega
    rw [htries]
    split
    · exact .of_eq rfl rfl
    · exact (callsAtMost_attempts policy _ _ h _ 1).after hs rfl rfl

/-- The most calls of a filter, if the rest of the chain makes at most `n`. -/
def maxCalls (m : Method) (n : Nat) : Filter → Nat
  | .forward _ => n + 1
  | .retry policy _ => policy.tries m * n
  | _ => n

theorem callsAtMost_run [TokenArithmetic τ] (f : Filter) (h : Stage.CallsAtMost m n next) :
    Stage.CallsAtMost m (f.maxCalls m n) (f.run next) := by
  cases f with
  | request edit => exact edit.callsAtMost_run h
  | response edit => exact edit.callsAtMost_run h
  | redirect status location => exact fun s _ => .of_eq rfl rfl
  | retry policy bodyLimit => exact callsAtMost_retryThen policy bodyLimit h
  | rateLimit limit => exact callsAtMost_limitThen limit h
  | commit => exact callsAtMost_commitAfter h
  | resolveUrl => exact callsAtMost_resolveThen h
  | forward bodyLimit => exact callsAtMost_forwardThen bodyLimit h

end Filter

end Filter

/-! ### Chains -/

def maxCalls (m : Method) : List OrderedFilter → Nat
  | [] => 0
  | f :: rest => f.filter.maxCalls m (maxCalls m rest)

theorem callsAtMost_runChain [TokenArithmetic τ] (m : Method) (chain : List OrderedFilter) :
    Stage.CallsAtMost m (maxCalls m chain) (runChain (τ := τ) chain) := by
  induction chain with
  | nil => exact fun s _ => .of_eq rfl rfl
  | cons f rest ih => exact f.filter.callsAtMost_run ih

/-- The policy of a filter that tries requests again. -/
def Filter.retryPolicy? : Filter → Option RetryPolicy
  | .retry policy _ => some policy
  | _ => none

/-- The policies that apply to requests with this method, in the order of the chain. -/
def retryPolicies (m : Method) (chain : List OrderedFilter) : List RetryPolicy :=
  (chain.filterMap fun f => f.filter.retryPolicy?).filter fun p => p.allowsMethod m

/-- The product of the numbers of attempts of all policies that apply. -/
def attemptProduct (m : Method) (chain : List OrderedFilter) : Nat :=
  ((retryPolicies m chain).map RetryPolicy.maxAttempts).prod

def Filter.isForward : Filter → Bool
  | .forward _ => true
  | _ => false

theorem attemptProduct_cons_retry {policy : RetryPolicy} (hpolicy : policy.IsSafe) (m : Method)
    (order : Int32) (bodyLimit : Nat) (rest : List OrderedFilter) :
    attemptProduct m (⟨order, .retry policy bodyLimit⟩ :: rest) =
      policy.tries m * attemptProduct m rest := by
  have hattempts := hpolicy.attempts
  by_cases hallowed : policy.allowsMethod m = true
  · have htries : policy.tries m = policy.maxAttempts := by
      rw [RetryPolicy.tries, if_pos hallowed]
      omega
    rw [htries]
    simp [attemptProduct, retryPolicies, Filter.retryPolicy?, hallowed]
  · have htries : policy.tries m = 1 := by rw [RetryPolicy.tries, if_neg hallowed]
    rw [htries]
    simp [attemptProduct, retryPolicies, Filter.retryPolicy?, hallowed]

theorem attemptProduct_cons {f : OrderedFilter} (hf : f.filter.retryPolicy? = none) (m : Method)
    (rest : List OrderedFilter) : attemptProduct m (f :: rest) = attemptProduct m rest := by
  simp [attemptProduct, retryPolicies, hf]

variable {chain : List OrderedFilter}

theorem attemptProduct_pos (h : ∀ f ∈ chain, f.filter.IsMade ∨ f.filter.isOwn = true) (m : Method) :
    0 < attemptProduct m chain := by
  induction chain with
  | nil => exact Nat.one_pos
  | cons f rest ih =>
      have hrest := ih fun g hg => h g (List.mem_cons_of_mem _ hg)
      rcases f with ⟨order, filter⟩
      cases filter with
      | retry policy bodyLimit =>
          have hpolicy : policy.IsSafe := (h _ List.mem_cons_self).resolve_right nofun
          rw [attemptProduct_cons_retry hpolicy]
          exact Nat.mul_pos (policy.tries_pos m) hrest
      | _ => rwa [attemptProduct_cons rfl]

/-- Every filter that sends requests on has each attempt of every policy at most once. -/
theorem maxCalls_le (h : ∀ f ∈ chain, f.filter.IsMade ∨ f.filter.isOwn = true) (m : Method) :
    maxCalls m chain ≤ (chain.countP fun f => f.filter.isForward) * attemptProduct m chain := by
  induction chain with
  | nil => exact Nat.zero_le _
  | cons f rest ih =>
      have hrest : ∀ g ∈ rest, g.filter.IsMade ∨ g.filter.isOwn = true :=
        fun g hg => h g (List.mem_cons_of_mem _ hg)
      have hle := ih hrest
      have hpos := attemptProduct_pos hrest m
      have hhead := h _ List.mem_cons_self
      rcases f with ⟨order, filter⟩
      cases filter with
      | retry policy bodyLimit =>
          rw [attemptProduct_cons_retry (hhead.resolve_right nofun),
            List.countP_cons_of_neg (by simp [Filter.isForward])]
          calc policy.tries m * maxCalls m rest
              ≤ policy.tries m * (_ * attemptProduct m rest) := Nat.mul_le_mul_left _ hle
            _ = _ * (policy.tries m * attemptProduct m rest) := Nat.mul_left_comm _ _ _
      | forward bodyLimit =>
          -- One call more is at most one more product, since there is no empty one.
          rw [attemptProduct_cons rfl, List.countP_cons_of_pos (by rfl), Nat.succ_mul]
          exact Nat.add_le_add hle hpos
      | _ =>
          rw [attemptProduct_cons rfl, List.countP_cons_of_neg (by simp [Filter.isForward])]
          exact hle

/-- No policy applies to a method that must not be repeated. -/
theorem attemptProduct_of_not_isIdempotent
    (h : ∀ f ∈ chain, f.filter.IsMade ∨ f.filter.isOwn = true) {m : Method}
    (hm : m.isIdempotent = false) : attemptProduct m chain = 1 := by
  suffices hnone : retryPolicies m chain = [] by simp [attemptProduct, hnone]
  refine List.filter_eq_nil_iff.mpr fun policy hpolicy hallowed => ?_
  obtain ⟨⟨order, filter⟩, hmem, hfilter⟩ := List.mem_filterMap.mp hpolicy
  cases filter with
  | retry p bodyLimit =>
      obtain rfl : p = policy := Option.some.inj hfilter
      have hsafe : p.IsSafe := (h _ hmem).resolve_right nofun
      have hidempotent := hsafe.idempotent m (List.contains_iff_mem.mp hallowed)
      rw [hm] at hidempotent
      cases hidempotent
  | _ => cases hfilter

end HttpGateway
