import HttpGateway.Proofs.Dictionary
import HttpGateway.Proofs.RateLimit.Scope

/-!
# What the answers of a bucket depend on

All answers that a bucket gives follow from what it was at first and from the times, rates and
capacities that it has been asked with. Two runs that ask it the same get the same answers from it
and leave it the same, whatever other buckets are asked in between; and a limiter keeps one bucket
for each name that it has been asked about.
-/

namespace HttpGateway.RateLimiter

variable {τ : Type} {l l' m m' k : RateLimiter τ} {name : String}

theorem SameFor.symm (h : SameFor name l m) : SameFor name m l := by
  cases l <;> cases m <;> first | exact Eq.symm h | exact h.elim

theorem SameFor.trans (h : SameFor name l m) (h' : SameFor name m k) : SameFor name l k := by
  cases l <;> cases m <;> cases k <;> first | exact Eq.trans h h' | exact h.elim | exact h'.elim

namespace Answered

variable [TokenArithmetic τ] {es fs : List Answered}

/-- What the bucket with this name has been asked, and its answers. -/
def own (name : String) (es : List Answered) : List Answered := es.filter fun e => e.name = name

theorem mem_own {e : Answered} : e ∈ own name es ↔ e ∈ es ∧ e.name = name := by
  simp [own]

theorem map_toCheck_own (name : String) (es : List Answered) :
    (own name es).map toCheck = (es.map toCheck).filter fun c => c.name = name := by
  rw [List.filter_map]
  rfl

/-- The checks of all other buckets may be left out. -/
theorem exists_run_own (run : Run Step l es l') (name : String) :
    ∃ m, Run Step l (own name es) m ∧ SameFor name l' m := by
  induction run with
  | nil => exact ⟨l, .nil, .refl ..⟩
  | @snoc es e u u' _ hstep ih =>
      obtain ⟨m, run, hsame⟩ := ih
      rw [own, List.filter_append]
      by_cases hname : e.name = name
      · obtain ⟨m', hstep', hsame'⟩ := (hname ▸ hsame : SameFor e.name u m).step hstep
        rw [List.filter_singleton, decide_eq_true hname, cond_true]
        exact ⟨m', run.snoc hstep', hname ▸ hsame'⟩
      · rw [List.filter_singleton, decide_eq_false hname, cond_false, List.append_nil]
        exact ⟨m, run, hsame.step_of_ne hstep (Ne.symm hname)⟩

/-- A bucket that is asked the same gives the same answers. -/
theorem eq_of_run (hsame : SameFor name l m) (run : Run Step l es l') (run' : Run Step m fs m')
    (hown : ∀ e ∈ es, e.name = name) (hchecks : es.map toCheck = fs.map toCheck) :
    es = fs ∧ SameFor name l' m' := by
  induction run generalizing fs m' with
  | nil =>
      obtain rfl : fs = [] := by simpa using hchecks.symm
      exact ⟨rfl, run'.of_nil ▸ hsame⟩
  | @snoc es e u u' _ hstep ih =>
      obtain ⟨hes, he⟩ := List.forall_mem_append.mp hown
      obtain rfl := List.forall_mem_singleton.mp he
      -- The other run ends with the same check.
      cases fs using List.reverseRecOn with
      | nil => simp at hchecks
      | append_singleton fs f _ =>
          rw [List.map_append, List.map_append] at hchecks
          obtain ⟨hinit, hlast⟩ := List.append_inj' hchecks rfl
          have hcheck : e.toCheck = f.toCheck := List.singleton_inj.mp hlast
          obtain ⟨v, runInit, hstep'⟩ := run'.of_snoc
          obtain ⟨rfl, hbefore⟩ := ih runInit hes hinit
          obtain ⟨w, hanswered, hafter⟩ := hbefore.step hstep
          obtain ⟨c, answer⟩ := e
          obtain ⟨c', answer'⟩ := f
          obtain rfl : c = c' := hcheck
          obtain ⟨rfl, rfl⟩ := Prod.mk.inj (hanswered.symm.trans hstep')
          exact ⟨rfl, hafter⟩

/-- Two runs that ask one bucket the same get the same answers from it, and leave it the same. -/
theorem own_eq_of_run (hsame : SameFor name l m) (run : Run Step l es l') (run' : Run Step m fs m')
    (hchecks : (own name es).map toCheck = (own name fs).map toCheck) :
    own name es = own name fs ∧ SameFor name l' m' := by
  obtain ⟨u, hes, hleft⟩ := exists_run_own run name
  obtain ⟨v, hfs, hright⟩ := exists_run_own run' name
  obtain ⟨heq, hboth⟩ := eq_of_run hsame hes hfs (fun e he => (mem_own.mp he).2) hchecks
  exact ⟨heq, (hleft.trans hboth).trans hright.symm⟩

/-- A limiter in memory has a bucket for each name that it has been asked about, and gains no
others. -/
theorem exists_store_of_run {store : BucketStore τ} (hordered : store.Ordered)
    (run : Run Step (.buckets store) es l') (hburst : ∀ e ∈ es, e.burst ≠ 0) :
    ∃ store', l' = .buckets store' ∧ store'.Ordered ∧ ∀ name, name ∈ store'.map Prod.fst ↔
      name ∈ store.map Prod.fst ∨ ∃ e ∈ es, e.name = name := by
  induction run with
  | nil => exact ⟨store, rfl, hordered, by simp⟩
  | @snoc es e u u' _ hstep ih =>
      obtain ⟨hes, he⟩ := List.forall_mem_append.mp hburst
      obtain ⟨before, rfl, hbefore, hnames⟩ := ih hes
      obtain ⟨hzero, -⟩ | ⟨state, v, -, -, rfl⟩ := hstep.cases
      · exact absurd hzero (he e List.mem_cons_self)
      · refine ⟨_, rfl, Dictionary.ordered_insert hbefore e.name state, fun name => ?_⟩
        rw [Dictionary.mem_keys_insert, hnames]
        simp only [List.mem_append, List.mem_singleton, or_and_right, exists_or, exists_eq_left,
          eq_comm (a := name)]
        rw [or_comm, or_assoc]

end Answered

end HttpGateway.RateLimiter
