import HttpGateway.Proofs.RateLimit.Checks

/-!
# Denied checks

A denial counts the tokens of a bucket anew and takes none of them. Counting in several steps comes
to the same as counting once, so a bucket that has been asked in vain and one that has been left
alone hold the same from then on. Of a run of checks the denied ones may be left out, in any pattern,
and all others are answered as before.
-/

namespace HttpGateway

/-- The second list is what remains of the first when some members with a property are left out. -/
inductive LeavesOut {α : Type} (p : α → Prop) : List α → List α → Prop
  | nil : LeavesOut p [] []
  | keep {as bs : List α} (a : α) (h : LeavesOut p as bs) : LeavesOut p (as ++ [a]) (bs ++ [a])
  | skip {as bs : List α} {a : α} (ha : p a) (h : LeavesOut p as bs) : LeavesOut p (as ++ [a]) bs

namespace Bucket

variable {rate burst now : Nat} {b b' : Option (BucketState Rat)}

theorem take_congr (h : filled b now rate burst = filled b' now rate burst) :
    take b now rate burst = take b' now rate burst := by
  simp only [take, h]

theorem lastRefill_take (b : Option (BucketState Rat)) (now rate burst : Nat) :
    (take b now rate burst).1.lastRefill = now := by
  by_cases h : 1 ≤ filled b now rate burst + 1 / 1000000
  · rw [take_of_enough h]
  · rw [take_of_lack h]

theorem tokens_take_nonneg (b : Option (BucketState Rat)) (now rate burst : Nat) :
    0 ≤ (take b now rate burst).1.tokens := by
  by_cases h : 1 ≤ filled b now rate burst + 1 / 1000000
  · simp [take_of_enough h]
  · simp [take_of_lack h]

/-- A denial finds less than a token, and writes down what it finds. -/
theorem take_of_denied (h : (take b now rate burst).2.allowed = false) :
    filled b now rate burst < 1 ∧
      (take b now rate burst).1 = ⟨max (filled b now rate burst) 0, now⟩ := by
  by_cases henough : 1 ≤ filled b now rate burst + 1 / 1000000
  · rw [take_of_enough henough] at h
    cases h
  · rw [take_of_lack henough]
    exact ⟨by linarith, rfl⟩

/-- The first bucket is the second one counted again later: it holds what the second has come to
hold by then, nothing of which has overflowed. A bucket that has not been used is only the same as
itself. -/
inductive Recounts (rate : Nat) : Option (BucketState Rat) → Option (BucketState Rat) → Prop
  | unused : Recounts rate none none
  | counted {state earlier : BucketState Rat} (nonneg : 0 ≤ earlier.tokens)
      (hle : earlier.lastRefill ≤ state.lastRefill)
      (htokens : state.tokens = earlier.tokens + inflow rate earlier.lastRefill state.lastRefill) :
      Recounts rate (some state) (some earlier)

theorem recounts_self (rate : Nat) (h : ∀ state ∈ b, 0 ≤ state.tokens) : Recounts rate b b := by
  cases b with
  | none => exact .unused
  | some state => exact .counted (h state rfl) le_rfl (by simp [inflow])

/-- From the later of the two countings on both hold the same. -/
theorem Recounts.filled (h : Recounts rate b b') (hnow : ∀ state ∈ b, state.lastRefill ≤ now)
    (burst : Nat) : filled b now rate burst = Bucket.filled b' now rate burst := by
  cases h with
  | unused => rfl
  | counted nonneg hle htokens =>
      rw [filled_some, filled_some, htokens, add_assoc, inflow_add hle (hnow _ rfl)]

/-- A denial counts again. -/
theorem Recounts.deny (h : Recounts rate b b') (hnow : ∀ state ∈ b, state.lastRefill ≤ now)
    (hburst : burst ≠ 0) (hdenied : (take b now rate burst).2.allowed = false) :
    Recounts rate (some (take b now rate burst).1) b' := by
  obtain ⟨hlack, htake⟩ := take_of_denied hdenied
  have hone : (1 : Rat) ≤ burst := by exact_mod_cast Nat.one_le_iff_ne_zero.mpr hburst
  rw [h.filled hnow] at hlack htake
  rw [htake]
  cases h with
  | unused =>
      -- A bucket that is used for the first time is full.
      rw [filled_none] at hlack
      exact absurd hlack (not_lt.mpr hone)
  | @counted state earlier nonneg hle htokens =>
      -- Less than a token is less than the capacity, so nothing has overflowed.
      have hfilled : Bucket.filled (some earlier) now rate burst =
          earlier.tokens + inflow rate earlier.lastRefill now := by
        rw [filled_some] at hlack ⊢
        rcases min_lt_iff.mp hlack with hsmall | hsmall
        · exact min_eq_left (hsmall.le.trans hone)
        · exact absurd hsmall (not_lt.mpr hone)
      refine .counted nonneg (hle.trans (hnow state rfl)) ?_
      rw [hfilled]
      exact max_eq_left (add_nonneg nonneg inflow_nonneg)

end Bucket

namespace RateLimiter

variable {l l' m : RateLimiter Rat} {rate : String → Nat} {name : String} {now : Nat}

theorem check_of_burst_ne_zero {τ : Type} [TokenArithmetic τ] (store : BucketStore τ) (now : Nat)
    (name : String) (rate : Nat) {burst : Nat} (hburst : burst ≠ 0) :
    (buckets store).check now name rate burst =
      (.ok (Bucket.take (store.get? name) now rate burst).2,
        .buckets (store.insert name (Bucket.take (store.get? name) now rate burst).1)) := by
  simp only [check, if_neg hburst, BucketStore.modify_eq]

/-- Two limiters that are alike but for when their buckets have been counted. -/
def Recounts (rate : String → Nat) : RateLimiter Rat → RateLimiter Rat → Prop
  | .buckets store, .buckets store' =>
    ∀ name, Bucket.Recounts (rate name) (store.get? name) (store'.get? name)
  | .failing reason, .failing reason' => reason = reason'
  | _, _ => False

theorem recounts_self (rate : String → Nat)
    (h : ∀ name, ∀ state ∈ l.bucket? name, 0 ≤ state.tokens) : Recounts rate l l := by
  cases l with
  | buckets store => exact fun name => Bucket.recounts_self (rate name) (h name)
  | failing reason => rfl

/-- The buckets of a limiter that is about to be asked these checks: none holds less than nothing,
and none has been counted later than it is going to be asked. -/
structure Ready (l : RateLimiter Rat) (checks : List Check) : Prop where
  nonneg : ∀ name, ∀ state ∈ l.bucket? name, 0 ≤ state.tokens
  counted : ∀ c ∈ checks, ∀ state ∈ l.bucket? c.name, state.lastRefill ≤ c.now

theorem ready_empty (checks : List Check) : Ready .empty checks where
  nonneg _ _ h := by cases h
  counted _ _ _ h := by cases h

theorem Ready.of_append {checks more : List Check} (h : Ready l (checks ++ more)) :
    Ready l checks :=
  ⟨h.nonneg, fun c hc => h.counted c (List.mem_append_left more hc)⟩

theorem Steady.of_append {rate burst : Nat} {checks more : List Check}
    (h : Steady name rate burst (checks ++ more)) : Steady name rate burst checks where
  same c hc := h.same c (List.mem_append_left more hc)
  sorted := by
    have hsorted := h.sorted
    rw [List.filter_append] at hsorted
    exact (List.pairwise_append.mp hsorted).1

/-- No check of a bucket comes later than the last one. -/
theorem Steady.le_last {rate burst : Nat} {checks : List Check} {c d : Check}
    (h : Steady d.name rate burst (checks ++ [d])) (hc : c ∈ checks) (hname : c.name = d.name) :
    c.now ≤ d.now := by
  have hsorted := h.sorted
  rw [List.filter_append] at hsorted
  exact (List.pairwise_append.mp hsorted).2.2 c (by simpa [hc] using hname) d (by simp)

namespace Answered

variable {e : Answered} {es fs : List Answered}

/-- The check was answered, and no token was granted. -/
def IsDenied (e : Answered) : Prop := ∃ v, e.answer = .ok v ∧ v.allowed = false

/-- The answers of a limiter to a list of checks, one after the other, and what is left of it. -/
def ask {τ : Type} [TokenArithmetic τ] (l : RateLimiter τ) :
    List Check → List Answered × RateLimiter τ
  | [] => ([], l)
  | c :: checks =>
    let (answer, l) := l.check c.now c.name c.rate c.burst
    let (es, l) := ask l checks
    (⟨c, answer⟩ :: es, l)

theorem run_ask {τ : Type} [TokenArithmetic τ] (l : RateLimiter τ) (checks : List Check) :
    Run Step l (ask l checks).1 (ask l checks).2 := by
  induction checks generalizing l with
  | nil => exact .nil
  | cons c checks ih => exact (Run.single rfl).trans (ih _)

/-! ### When buckets are counted -/

/-- A bucket has been counted last when it was asked last. -/
theorem Step.lastRefill_le (hstep : Step l e l')
    (hstart : ∀ state ∈ l.bucket? name, state.lastRefill ≤ now)
    (he : e.name = name → e.now ≤ now) : ∀ state ∈ l'.bucket? name, state.lastRefill ≤ now := by
  by_cases hname : name = e.name
  · subst hname
    cases l with
    | failing reason =>
        obtain ⟨-, rfl⟩ := Prod.mk.inj hstep
        exact hstart
    | buckets store =>
        obtain ⟨-, rfl⟩ | ⟨state, v, htake, -, rfl⟩ := hstep.cases
        · exact hstart
        · intro state' hstate'
          have hget := Dictionary.get?_insert_self store e.name state
          obtain rfl : state = state' := Option.some.inj (hget.symm.trans hstate')
          have hcounted := Bucket.lastRefill_take (store.get? e.name) e.now e.rate e.burst
          rw [htake] at hcounted
          exact hcounted.le.trans (he rfl)
  · rw [hstep.bucket?_of_ne hname]
    exact hstart

theorem lastRefill_le_of_run (run : Run Step l es l')
    (hstart : ∀ state ∈ l.bucket? name, state.lastRefill ≤ now)
    (hes : ∀ e ∈ es, e.name = name → e.now ≤ now) :
    ∀ state ∈ l'.bucket? name, state.lastRefill ≤ now := by
  induction run with
  | nil => exact hstart
  | snoc _ hstep ih =>
      obtain ⟨hes, he⟩ := List.forall_mem_append.mp hes
      exact hstep.lastRefill_le (ih hes) (he _ List.mem_cons_self)

/-- When the last check of a run comes, its bucket has not been counted later. -/
theorem lastRefill_le_last {rate burst : Nat} (run : Run Step l es l')
    (hready : Ready l (es.map toCheck ++ [e.toCheck]))
    (hsteady : Steady e.name rate burst (es.map toCheck ++ [e.toCheck])) :
    ∀ state ∈ l'.bucket? e.name, state.lastRefill ≤ e.now :=
  lastRefill_le_of_run run (hready.counted e.toCheck (by simp)) fun _ hx hname =>
    hsteady.le_last (List.mem_map_of_mem hx) hname

/-! ### Leaving out what was denied -/

/-- A check is answered alike by limiters that are alike, and leaves them so. -/
theorem Step.recounts (hstep : Step l e l') (h : Recounts rate l m) (hrate : e.rate = rate e.name)
    (hnow : ∀ state ∈ l.bucket? e.name, state.lastRefill ≤ e.now) :
    ∃ m', Step m e m' ∧ Recounts rate l' m' := by
  cases l with
  | failing reason =>
      cases m with
      | buckets store' => exact h.elim
      | failing reason' =>
          obtain ⟨hanswer, rfl⟩ := Prod.mk.inj hstep
          exact ⟨_, congrArg (fun a => (a, failing reason')) (h ▸ hanswer), h⟩
  | buckets store =>
      cases m with
      | failing reason' => exact h.elim
      | buckets store' =>
          by_cases hburst : e.burst = 0
          · simp only [Step, check, if_pos hburst] at hstep ⊢
            obtain ⟨hanswer, rfl⟩ := Prod.mk.inj hstep
            exact ⟨_, by rw [hanswer], h⟩
          · have htake : Bucket.take (store.get? e.name) e.now e.rate e.burst =
                Bucket.take (store'.get? e.name) e.now e.rate e.burst :=
              Bucket.take_congr (hrate ▸ (h e.name).filled hnow e.burst)
            rw [Step, check_of_burst_ne_zero store _ _ _ hburst, htake] at hstep
            obtain ⟨hanswer, rfl⟩ := Prod.mk.inj hstep
            refine ⟨_, (check_of_burst_ne_zero store' _ _ _ hburst).trans (by rw [hanswer]),
              fun name => ?_⟩
            by_cases hname : name = e.name
            · subst hname
              rw [Dictionary.get?_insert_self, Dictionary.get?_insert_self]
              refine Bucket.recounts_self _ fun state hstate => ?_
              obtain rfl := Option.some.inj hstate
              exact Bucket.tokens_take_nonneg ..
            · rw [Dictionary.get?_insert_of_ne _ _ hname, Dictionary.get?_insert_of_ne _ _ hname]
              exact h name

/-- A limiter that has denied a check is like one that was not asked. -/
theorem Step.recounts_of_isDenied (hstep : Step l e l') (h : Recounts rate l m)
    (hrate : e.rate = rate e.name)
    (hnow : ∀ state ∈ l.bucket? e.name, state.lastRefill ≤ e.now) (hdenied : e.IsDenied) :
    Recounts rate l' m := by
  obtain ⟨v, hanswer, hrefused⟩ := hdenied
  cases l with
  | failing reason =>
      obtain ⟨herror, -⟩ := Prod.mk.inj hstep
      cases herror.trans hanswer
  | buckets store =>
      cases m with
      | failing reason' => exact h.elim
      | buckets store' =>
          by_cases hburst : e.burst = 0
          · simp only [Step, check, if_pos hburst] at hstep
            cases (Prod.mk.inj hstep).1.trans hanswer
          · rw [Step, check_of_burst_ne_zero store _ _ _ hburst, hanswer] at hstep
            obtain ⟨hverdict, rfl⟩ := Prod.mk.inj hstep
            obtain rfl := Except.ok.inj hverdict
            intro name
            by_cases hname : name = e.name
            · subst hname
              rw [Dictionary.get?_insert_self]
              rw [hrate] at hrefused ⊢
              exact (h e.name).deny hnow hburst hrefused
            · rw [Dictionary.get?_insert_of_ne _ _ hname]
              exact h name

/-- Leaving out denied checks leads to a limiter that is alike. -/
theorem exists_run_recounts {burst : String → Nat} (h : LeavesOut IsDenied es fs)
    (run : Run Step l es l') (hready : Ready l (es.map toCheck))
    (hsteady : ∀ name, Steady name (rate name) (burst name) (es.map toCheck)) :
    ∃ m, Run Step l fs m ∧ Recounts rate l' m := by
  induction h generalizing l' with
  | nil =>
      obtain rfl := run.of_nil
      exact ⟨l, .nil, RateLimiter.recounts_self rate hready.nonneg⟩
  | @keep es fs e _ ih =>
      rw [List.map_append] at hready hsteady
      obtain ⟨u, hes, hstep⟩ := run.of_snoc
      obtain ⟨m, hfs, hlike⟩ := ih hes hready.of_append fun name => (hsteady name).of_append
      have hrate : e.rate = rate e.name := ((hsteady e.name).same e.toCheck (by simp) rfl).1
      obtain ⟨m', hstep', hlike'⟩ :=
        hstep.recounts hlike hrate (lastRefill_le_last hes hready (hsteady e.name))
      exact ⟨m', hfs.snoc hstep', hlike'⟩
  | @skip es fs e hdenied _ ih =>
      rw [List.map_append] at hready hsteady
      obtain ⟨u, hes, hstep⟩ := run.of_snoc
      obtain ⟨m, hfs, hlike⟩ := ih hes hready.of_append fun name => (hsteady name).of_append
      have hrate : e.rate = rate e.name := ((hsteady e.name).same e.toCheck (by simp) rfl).1
      exact ⟨m, hfs, hstep.recounts_of_isDenied hlike hrate
        (lastRefill_le_last hes hready (hsteady e.name)) hdenied⟩

/-- Denials are free. Let each bucket be asked with one rate and capacity and in the order of the
clock, and leave any of the denied checks out: what remains is a run from the same start, so every
other check has the verdict and the number of tokens remaining that it had. -/
theorem run_without_denied (run : Run Step l es l') (hready : Ready l (es.map toCheck))
    (hsteady : ∀ name, ∃ rate burst, Steady name rate burst (es.map toCheck))
    (h : LeavesOut IsDenied es fs) : ∃ m, Run Step l fs m := by
  choose rate burst hsteady using hsteady
  obtain ⟨m, hfs, -⟩ := exists_run_recounts h run hready hsteady
  exact ⟨m, hfs⟩

/-- A check of a bucket with one token that comes back in a second, and what is said to remain. -/
def knock (now : Nat) (remaining : Int) : Answered :=
  ⟨⟨now, "client", 1, 1⟩, .ok ⟨0 ≤ remaining, remaining⟩⟩

/-- Who knocks twice while it is denied is admitted again when one that waits is. -/
theorem run_without_denied_knocking :
    let knocking := [knock 0 0, knock 400000000 (-1), knock 900000000 (-1), knock 1000000000 0]
    ∃ l, Run Step (.empty : RateLimiter Rat) knocking l ∧
      ∃ m, Run Step (.empty : RateLimiter Rat) [knock 0 0, knock 1000000000 0] m := by
  intro knocking
  have hanswers : (ask (.empty : RateLimiter Rat) (knocking.map toCheck)).1 = knocking := by cbv
  have run := run_ask (.empty : RateLimiter Rat) (knocking.map toCheck)
  rw [hanswers] at run
  have hsteady (name : String) : Steady name 1 1 (knocking.map toCheck) :=
    ⟨by simp [knocking, knock], .filter _ (by simp [knocking, knock])⟩
  have hspared : LeavesOut IsDenied knocking [knock 0 0, knock 1000000000 0] :=
    (((LeavesOut.nil.keep (knock 0 0)).skip ⟨_, rfl, rfl⟩).skip ⟨_, rfl, rfl⟩).keep _
  exact ⟨_, run, run_without_denied run (ready_empty _) (fun name => ⟨1, 1, hsteady name⟩) hspared⟩

end Answered

end RateLimiter

end HttpGateway
