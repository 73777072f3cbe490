import HttpGateway.Proofs.Filter.Events

/-!
# Filters that are entered

The filters that are entered on the way of an exchange through a chain, each with the scene in which
it is, once for every attempt. In all of these scenes the exchange knows of the path what it knew at
the start of the chain, and every error of the chain is that of one of these filters.
-/

namespace HttpGateway

variable {τ : Type}

/-- The filters that are entered on the way of an exchange through a chain. -/
def chainEntered [TokenArithmetic τ] : List OrderedFilter → Scene τ → List (Filter × Scene τ)
  | [] => fun _ => []
  | f :: rest => fun s => (f.filter, s) :: match f.filter.enter s with
    | .onward t => (f.filter.rounds (runChain rest) t).flatMap fun r => chainEntered rest r.1
    | _ => []

/-- Wherever a filter is entered, of the path is known what was known at the start. -/
theorem pathMatch_of_mem_chainEntered [TokenArithmetic τ] (chain : List OrderedFilter)
    (s : Scene τ) : ∀ v ∈ chainEntered chain s, v.2.exchange.pathMatch = s.exchange.pathMatch := by
  induction chain generalizing s with
  | nil => exact List.forall_mem_nil _
  | cons f rest ih =>
      rw [chainEntered]
      refine List.forall_mem_cons.mpr ⟨rfl, fun v hv => ?_⟩
      have henter := (f.filter.happens_enter s).pathMatch
      cases hentry : f.filter.enter s with
      | failed e t | ended t =>
          rw [hentry] at hv
          cases hv
      | onward t =>
          rw [hentry] at hv henter
          obtain ⟨r, hr, hv⟩ := List.mem_flatMap.mp hv
          have hround := (passes_runChain f.filter rest t).forall_mem
            (P := fun u => u.exchange.pathMatch = s.exchange.pathMatch) henter
            (fun hs hround => hround.pathMatch.trans hs) r hr
          exact (ih r.1 v hv).trans hround

/-! ### Errors -/

/-- One of the filters fails with this error where it is entered. -/
def FailsIn [TokenArithmetic τ] (entered : List (Filter × Scene τ)) (e : GatewayError) : Prop :=
  ∃ v ∈ entered, ∃ t, v.1.enter v.2 = .failed e t

namespace Filter

variable {next : Stage τ} {later : Scene τ → Course} {e : GatewayError}

/-- Several attempts end as one of them does, and so does their course. -/
theorem exists_attemptRound [TokenArithmetic τ] (policy : RetryPolicy) (method : Method)
    (point : RetryPoint) (next : Stage τ) (later : Scene τ → Course) (further attempt : Nat)
    (s : Scene τ) :
    ∃ r ∈ attemptRounds policy method point next further attempt s,
      (attempts policy method point next further attempt s).1 = (next r.1).1 ∧
      (attemptsCourse policy method point next later further attempt s).commit =
        (later r.1).commit := by
  induction further generalizing attempt s with
  | zero => exact ⟨(s, []), List.mem_singleton_self _, rfl, rfl⟩
  | succ further ih =>
      simp only [attemptRounds, attempts, attemptsCourse]
      rcases sequel policy method point attempt (next s).1 (next s).2 with _ | t
      · exact ⟨(s, []), List.mem_singleton_self _, rfl, rfl⟩
      · obtain ⟨r, hr, houtcome, hcommit⟩ := ih (attempt + 1) t
        exact ⟨r, List.mem_cons_of_mem _ hr, houtcome, hcommit⟩

variable [TokenArithmetic τ]

/-- An error comes from a run of the rest of the chain. -/
theorem exists_round_of_error (f : Filter) {s : Scene τ} (h : (f.around next s).1 = .error e) :
    ∃ r ∈ f.rounds next s, (next r.1).1 = .error e := by
  cases f with
  | response edit =>
      refine ⟨(s, []), List.mem_singleton_self _, ?_⟩
      simp only [around, ResponseEdit.run] at h
      rcases hrun : next s with ⟨_ | ⟨⟨⟩⟩, u⟩ <;> rw [hrun] at h
      · exact h
      · cases h
  | commit =>
      rw [show (around .commit next s).1 = .ok () from (commitAfter_eq next s).1] at h
      cases h
  | retry policy bodyLimit =>
      simp only [around, rounds] at h ⊢
      by_cases hretry : mayRetry policy s.exchange = true
      · rw [if_pos hretry] at h ⊢
        obtain ⟨r, hr, houtcome, -⟩ :=
          exists_attemptRound policy _ _ next (fun _ => {}) _ 1 s
        exact ⟨r, hr, houtcome.symm.trans h⟩
      · rw [if_neg hretry] at h ⊢
        exact ⟨(s, []), List.mem_singleton_self _, h⟩
  | _ => exact ⟨(s, []), List.mem_singleton_self _, h⟩

/-- A response that reports an error reports one of the rest of the chain. -/
theorem exists_round_of_failed (f : Filter) {s : Scene τ}
    (h : (f.courseAround next later s).commit = some (.failed e)) :
    ∃ r ∈ f.rounds next s,
      (next r.1).1 = .error e ∨ (later r.1).commit = some (.failed e) := by
  cases f with
  | retry policy bodyLimit =>
      simp only [courseAround, rounds] at h ⊢
      by_cases hretry : mayRetry policy s.exchange = true
      · rw [if_pos hretry] at h ⊢
        obtain ⟨r, hr, -, hcommit⟩ := exists_attemptRound policy _ _ next later _ 1 s
        exact ⟨r, hr, .inr (hcommit.symm.trans h)⟩
      · rw [if_neg hretry] at h ⊢
        exact ⟨(s, []), List.mem_singleton_self _, .inr h⟩
  | commit =>
      refine ⟨(s, []), List.mem_singleton_self _, ?_⟩
      have h := Option.some.inj h
      cases hcommit : (later s).commit with
      | some k =>
          rw [hcommit] at h
          exact .inr (congrArg some h)
      | none =>
          rw [hcommit, Option.getD_none] at h
          cases houtcome : (next s).1 with
          | error e' =>
              rw [houtcome] at h
              exact .inl (congrArg Except.error (Commit.failed.inj h))
          | ok _ =>
              rw [houtcome] at h
              cases h
  | _ => exact ⟨(s, []), List.mem_singleton_self _, .inr h⟩

end Filter

/-- The error that a chain ends with, and the one that its response reports, is that of a filter
that has been entered. -/
theorem failsIn_chainEntered [TokenArithmetic τ] (chain : List OrderedFilter) {e : GatewayError}
    (s : Scene τ)
    (h : (runChain chain s).1 = .error e ∨ (chainCourse chain s).commit = some (.failed e)) :
    FailsIn (chainEntered chain s) e := by
  induction chain generalizing s with
  | nil => rcases h with h | h <;> cases h
  | cons f rest ih =>
      rw [runChain, Filter.run_eq, chainCourse, Filter.course] at h
      cases hentry : f.filter.enter s with
      | failed e' t =>
          rw [hentry] at h
          obtain rfl : e' = e := by
            rcases h with h | h
            · exact Except.error.inj h
            · cases h
          exact ⟨(f.filter, s), List.mem_cons_self, t, hentry⟩
      | ended t =>
          rw [hentry] at h
          rcases h with h | h <;> cases h
      | onward t =>
          rw [hentry] at h
          obtain ⟨r, hr, h⟩ : ∃ r ∈ f.filter.rounds (runChain rest) t,
              (runChain rest r.1).1 = .error e ∨
                (chainCourse rest r.1).commit = some (.failed e) := by
            rcases h with h | h
            · obtain ⟨r, hr, h⟩ := f.filter.exists_round_of_error h
              exact ⟨r, hr, .inl h⟩
            · exact f.filter.exists_round_of_failed h
          obtain ⟨v, hv, hfails⟩ := ih r.1 h
          refine ⟨v, List.mem_cons_of_mem _ ?_, hfails⟩
          rw [hentry]
          exact List.mem_flatMap.mpr ⟨r, hr, hv⟩

end HttpGateway
