import HttpGateway.Proofs.Filter.Course

/-!
# Who commits responses

A chain that contains the filter which commits responses has committed the response where it
succeeds. A response is refused only by a filter that redirects or limits rates, and one that has
been committed before it comes is left as it is. An exchange is given up only by a filter that tries
requests again, for want of a pause.
-/

namespace HttpGateway

variable {τ : Type}

/-! ### Chains that commit the response -/

/-- Where the stage succeeds, the response has been committed. -/
def Stage.Finishes (next : Stage τ) : Prop :=
  ∀ s : Scene τ, s.exchange.response.isCommitted = false → (next s).1 = .ok () →
    (next s).2.exchange.response.isCommitted = true

namespace Filter

variable {next : Stage τ}

theorem finishes_response (edit : ResponseEdit) (h : next.Finishes) :
    Stage.Finishes (edit.run next) := by
  intro s hopen hok
  have hnext := h s hopen
  simp only [ResponseEdit.run] at hok ⊢
  rcases hrun : next s with ⟨_ | ⟨⟨⟩⟩, t⟩
  · rw [hrun] at hok
    cases hok
  · rw [hrun] at hnext
    exact (congrArg Option.isSome (edit.body_apply t.exchange.response)).trans (hnext rfl)

theorem finishes_attempts [TokenArithmetic τ] (policy : RetryPolicy) (method : Method) (point : RetryPoint)
    (h : next.Finishes) (further attempt : Nat) :
    Stage.Finishes (attempts policy method point next further attempt) := by
  induction further generalizing attempt with
  | zero => exact h
  | succ further ih =>
      intro s hopen
      have hsequel := ensues_sequel policy method point attempt (next s).1 (next s).2
      simp only [attempts]
      generalize sequel policy method point attempt (next s).1 (next s).2 = ensuing at hsequel ⊢
      cases hsequel with
      | stands | givenUp => exact h s hopen
      | again hasked => exact ih (attempt + 1) _ hasked.isCommitted_again

theorem finishes_run [TokenArithmetic τ] (f : Filter) (h : f = .commit ∨ next.Finishes) :
    Stage.Finishes (f.run next) := by
  intro s hopen
  have henter := f.follows_enter hopen
  rw [run_eq]
  cases hentry : f.enter s with
  | failed e t => exact nofun
  | ended t =>
      rw [hentry] at henter
      exact fun _ => congrArg Option.isSome henter
  | onward t =>
      rw [hentry] at henter
      obtain ⟨hopen', -⟩ := henter
      rcases h with rfl | h
      · -- Whatever the rest does, the response is committed behind it.
        intro _
        exact (congrArg Response.isCommitted (commitAfter_eq next t).2).trans
          (Handler.isCommitted_finish ..)
      · cases f with
        | response edit => exact finishes_response edit h t hopen'
        | commit =>
            intro _
            exact (congrArg Response.isCommitted (commitAfter_eq next t).2).trans
              (Handler.isCommitted_finish ..)
        | retry policy bodyLimit =>
            simp only [Entry.andThen, around]
            split
            · exact finishes_attempts policy _ _ h _ 1 t hopen'
            · exact h t hopen'
        | _ => exact h t hopen'

end Filter

theorem finishes_runChain [TokenArithmetic τ] {chain : List OrderedFilter}
    (hcommit : ∃ f ∈ chain, f.filter = .commit) :
    Stage.Finishes (runChain (τ := τ) chain) := by
  induction chain with
  | nil =>
      obtain ⟨f, hf, -⟩ := hcommit
      cases hf
  | cons f rest ih =>
      refine f.filter.finishes_run ?_
      obtain ⟨g, hg, hcommit⟩ := hcommit
      rcases List.mem_cons.mp hg with rfl | hg
      · exact .inl hcommit
      · exact .inr (ih ⟨g, hg, hcommit⟩)

/-! ### Filters that refuse exchanges -/

/-- All responses that are refused on these courses. -/
def Refusing (later : Scene τ → Course) (P : Response → Prop) : Prop :=
  ∀ s : Scene τ, s.exchange.response.isCommitted = false →
    ∀ r, (later s).commit = some (.refused r) → P r

theorem Course.commit_of_closedBy {c : Course} {result : Outcome × Scene τ} {r : Response}
    (h : (c.closedBy result).commit = some (.refused r)) : c.commit = some (.refused r) := by
  have h := Option.some.inj h
  cases hcommit : c.commit with
  | some k => rw [← h, hcommit, Option.getD_some]
  | none =>
      rw [hcommit, Option.getD_none] at h
      unfold Commit.atEnd at h
      split at h <;> cases h

namespace Filter

variable {next : Stage τ} {later : Scene τ → Course} {P : Response → Prop}

theorem refuses_enter [TokenArithmetic τ] (f : Filter) {s t : Scene τ}
    (hopen : s.exchange.response.isCommitted = false) (h : f.enter s = .ended t) :
    f.Refuses t.exchange.response := by
  have harises := f.arises_enter s
  rw [h] at harises
  obtain ⟨r, -, -, hrefuses⟩ := harises
  exact hrefuses hopen

theorem refusing_attemptsCourse [TokenArithmetic τ] (policy : RetryPolicy) (method : Method) (point : RetryPoint)
    (h : Refusing later P) (further attempt : Nat) :
    Refusing (attemptsCourse policy method point next later further attempt) P := by
  induction further generalizing attempt with
  | zero => exact h
  | succ further ih =>
      intro s hopen r hr
      have hsequel := ensues_sequel policy method point attempt (next s).1 (next s).2
      simp only [attemptsCourse] at hr
      generalize sequel policy method point attempt (next s).1 (next s).2 = ensuing at hsequel hr
      cases hsequel with
      | stands | givenUp => exact h s hopen r hr
      | again hasked => exact ih (attempt + 1) _ hasked.isCommitted_again r hr

theorem refusing_course [TokenArithmetic τ] (f : Filter) (h : Refusing later P) :
    Refusing (f.course next later) fun r => f.Refuses r ∨ P r := by
  intro s hopen r hr
  have henter := f.follows_enter hopen
  unfold course at hr
  cases hentry : f.enter s with
  | failed e t =>
      rw [hentry] at hr
      cases hr
  | ended t =>
      rw [hentry] at hr
      cases hr
      exact .inl (f.refuses_enter hopen hentry)
  | onward t =>
      rw [hentry] at hr henter
      right
      cases f with
      | retry policy bodyLimit =>
          simp only [courseAround] at hr
          split at hr
          · exact refusing_attemptsCourse policy _ _ h _ 1 t henter.1 r hr
          · exact h t henter.1 r hr
      | commit => exact h t henter.1 r (Course.commit_of_closedBy hr)
      | _ => exact h t henter.1 r hr

end Filter

theorem refusing_chainCourse [TokenArithmetic τ] (chain : List OrderedFilter) :
    Refusing (chainCourse (τ := τ) chain) fun r => ∃ f ∈ chain, f.filter.Refuses r := by
  induction chain with
  | nil => exact fun _ _ _ hr => nomatch hr
  | cons f rest ih =>
      intro s hopen r hr
      rcases f.filter.refusing_course ih s hopen r hr with hrefuses | ⟨g, hg, hrefuses⟩
      · exact ⟨f, List.mem_cons_self, hrefuses⟩
      · exact ⟨g, List.mem_cons_of_mem f hg, hrefuses⟩

/-! ### Exchanges that have been answered before they come -/

/-- A response that has been committed before is left as it is. -/
def Stage.Leaves (next : Stage τ) : Prop :=
  ∀ s : Scene τ, s.exchange.response.isCommitted = true →
    (next s).2.exchange.response = s.exchange.response

namespace Filter

variable {next : Stage τ} {s : Scene τ}

theorem response_enter_of_committed [TokenArithmetic τ] (f : Filter)
    (h : s.exchange.response.isCommitted = true) :
    (f.enter s).scene.exchange.response = s.exchange.response := by
  have harises := f.arises_enter s
  cases hentry : f.enter s with
  | onward t =>
      rw [hentry] at harises
      exact harises.1.eq_of_committed h
  | ended t =>
      rw [hentry] at harises
      obtain ⟨r, hprepared, hcommit, -⟩ := harises
      rw [hprepared.eq_of_committed h, Response.commit_of_committed h] at hcommit
      exact hcommit
  | failed e t =>
      rw [hentry] at harises
      exact harises.1

theorem leaves_attempts [TokenArithmetic τ] (policy : RetryPolicy) (method : Method)
    (point : RetryPoint) (h : next.Leaves) (further attempt : Nat) :
    Stage.Leaves (attempts policy method point next further attempt) := by
  intro s hdone
  cases further with
  | zero => exact h s hdone
  | succ further =>
      have hlast := (congrArg Response.isCommitted (h s hdone)).trans hdone
      simp only [attempts, sequel, hlast, Bool.or_true, Bool.true_or, if_true]
      exact h s hdone

theorem leaves_run [TokenArithmetic τ] (f : Filter) (h : next.Leaves) :
    Stage.Leaves (f.run next) := by
  intro s hdone
  have henter := f.response_enter_of_committed hdone
  rw [run_eq]
  cases hentry : f.enter s with
  | failed e t | ended t =>
      rw [hentry] at henter
      exact henter
  | onward t =>
      rw [hentry] at henter
      have hdone' := (congrArg Response.isCommitted henter).trans hdone
      have hnext := h t hdone'
      have hlast := (congrArg Response.isCommitted hnext).trans hdone'
      refine Eq.trans ?_ henter
      cases f with
      | response edit =>
          simp only [Entry.andThen, around, ResponseEdit.run]
          rcases hrun : next t with ⟨_ | ⟨⟨⟩⟩, u⟩ <;> rw [hrun] at hnext hlast
          · exact hnext
          · exact (edit.apply_of_committed hlast).trans hnext
      | commit =>
          simp only [Entry.andThen, around]
          rw [(commitAfter_eq next t).2, Handler.finish_of_committed _ hlast]
          exact hnext
      | retry policy bodyLimit =>
          simp only [Entry.andThen, around]
          split
          · exact leaves_attempts policy _ _ h _ 1 t hdone'
          · exact hnext
      | _ => exact hnext

end Filter

theorem leaves_runChain [TokenArithmetic τ] (chain : List OrderedFilter) :
    Stage.Leaves (runChain (τ := τ) chain) := by
  induction chain with
  | nil => exact fun _ _ => rfl
  | cons f rest ih => exact f.filter.leaves_run ih

/-! ### Exchanges that are given up -/

/-- Where the stage gives up an exchange, one of these backoffs has no pause after some attempt. -/
def Stage.KeepsFor (next : Stage τ) (backoffs : List Backoff) : Prop :=
  ∀ s : Scene τ, (next s).2.exchange.abandoned = true → s.exchange.abandoned = true ∨
    ∃ b ∈ backoffs, ∃ attempt draw, b.delay attempt draw = none

theorem Stage.KeepsFor.mono {next : Stage τ} {backoffs more : List Backoff}
    (h : next.KeepsFor backoffs) (hsub : backoffs ⊆ more) : next.KeepsFor more :=
  fun s hgone => (h s hgone).imp_right fun ⟨b, hb, hnone⟩ => ⟨b, hsub hb, hnone⟩

namespace Filter

/-- The pauses of a filter that tries requests again. -/
def backoff? : Filter → Option Backoff
  | .retry policy _ => policy.backoff
  | _ => none

variable [TokenArithmetic τ] {next : Stage τ} {backoffs : List Backoff}

end Filter

/-- The pauses of a chain. -/
def backoffs (chain : List OrderedFilter) : List Backoff :=
  chain.filterMap fun f => f.filter.backoff?

end HttpGateway
