import HttpGateway.Proofs.RateLimit.Tokens

/-!
# The checks of a limiter

A limiter is asked about many buckets. Of each of them the checks of the others can be left out: a
run of checks is, for each bucket, a run of its own turns.
-/

namespace HttpGateway

variable {τ : Type}

theorem BucketStore.modify_eq (store : BucketStore τ) (name : String) (update : Update τ) :
    store.modify name update =
      (store.insert name (update (store.get? name)).1, (update (store.get? name)).2) := by
  simp only [modify, updateExisting?, updateOrCreate]
  cases store.get? name <;> rfl

namespace RateLimiter

/-- What a limiter keeps under a name. -/
def bucket? (l : RateLimiter τ) (name : String) : Option (BucketState τ) :=
  match l with
  | .buckets store => store.get? name
  | .failing _ => none

def InMemory : RateLimiter τ → Prop
  | .buckets _ => True
  | .failing _ => False

/-- A check and its answer. -/
structure Answered extends Check where
  answer : Except GatewayError Verdict

variable [TokenArithmetic τ] {l l' : RateLimiter τ} {name : String} {now rate burst : Nat}

def Answered.Step (l : RateLimiter τ) (e : Answered) (l' : RateLimiter τ) : Prop :=
  l.check e.now e.name e.rate e.burst = (e.answer, l')

namespace Answered

variable {e : Answered} {es : List Answered} {store : BucketStore τ}

/-- All that a check of a limiter in memory can come to: without a capacity it is refused, and else
the bucket takes its turn. -/
theorem Step.cases (h : Step (.buckets store) e l') :
    (e.burst = 0 ∧ l' = .buckets store) ∨
      ∃ state v, Bucket.take (store.get? e.name) e.now e.rate e.burst = (state, v) ∧
        e.answer = .ok v ∧ l' = .buckets (store.insert e.name state) := by
  simp only [Step, check] at h
  by_cases hburst : e.burst = 0
  · rw [if_pos hburst] at h
    exact .inl ⟨hburst, (Prod.mk.inj h).2.symm⟩
  · rw [if_neg hburst, BucketStore.modify_eq] at h
    obtain ⟨hanswer, rfl⟩ := Prod.mk.inj h
    exact .inr ⟨_, _, rfl, hanswer.symm, rfl⟩

theorem Step.inMemory (h : Step l e l') (hl : l.InMemory) : l'.InMemory := by
  cases l with
  | failing reason => exact hl.elim
  | buckets store =>
      obtain ⟨-, rfl⟩ | ⟨_, _, -, -, rfl⟩ := h.cases <;> trivial

/-- A check of one bucket leaves the others alone. -/
theorem Step.bucket?_of_ne (h : Step l e l') (hne : name ≠ e.name) :
    l'.bucket? name = l.bucket? name := by
  cases l with
  | failing reason => rw [← (Prod.mk.inj h).2]
  | buckets store =>
      obtain ⟨-, rfl⟩ | ⟨state, _, -, -, rfl⟩ := h.cases
      · rfl
      · exact Dictionary.get?_insert_of_ne store state hne

theorem Step.exists_ok (h : Step l e l') (hl : l.InMemory) (hburst : e.burst ≠ 0) :
    ∃ v, e.answer = .ok v := by
  cases l with
  | failing reason => exact hl.elim
  | buckets store =>
      obtain ⟨hzero, -⟩ | ⟨_, v, -, hanswer, -⟩ := h.cases
      · exact absurd hzero hburst
      · exact ⟨v, hanswer⟩

/-- The turn of the bucket with this name, if it was asked for a token. -/
def turn? (name : String) (e : Answered) : Option Bucket.Turn :=
  if e.name = name then e.answer.toOption.map fun v => ⟨e.now, v⟩ else none

theorem Step.turns (h : Step l e l') (hburst : burst ≠ 0)
    (hsame : e.name = name → e.rate = rate ∧ e.burst = burst) :
    Run (Bucket.Turn.Step rate burst) (l.bucket? name) (e.turn? name).toList (l'.bucket? name) := by
  by_cases hname : e.name = name
  · -- The bucket is asked, and a limiter in memory has it take its turn.
    obtain ⟨rfl, rfl⟩ := hsame hname
    subst hname
    rw [turn?, if_pos rfl]
    cases l with
    | failing reason =>
        obtain ⟨hanswer, rfl⟩ := Prod.mk.inj h
        rw [← hanswer]
        exact .nil
    | buckets store =>
        obtain ⟨hzero, -⟩ | ⟨state, v, htake, hanswer, rfl⟩ := h.cases
        · exact absurd hzero hburst
        · rw [hanswer]
          exact .single ⟨state, htake, Dictionary.get?_insert_self ..⟩
  · rw [turn?, if_neg hname, h.bucket?_of_ne (Ne.symm hname)]
    exact .nil

theorem exists_ok_of_run (run : Run Step l es l') (hl : l.InMemory) :
    ∀ e ∈ es, e.burst ≠ 0 → ∃ v, e.answer = .ok v := by
  intro e he hburst
  obtain ⟨_, _, hmemory, hstep⟩ := run.exists_step hl Step.inMemory e he
  exact hstep.exists_ok hmemory hburst

end Answered

/-- Checks that are made one after the other, with their answers. -/
def answersTo (l : RateLimiter τ) : List Check → List Answered
  | [] => []
  | c :: rest =>
    let (answer, l) := l.check c.now c.name c.rate c.burst
    ⟨c, answer⟩ :: answersTo l rest

theorem map_toCheck_answersTo (l : RateLimiter τ) (checks : List Check) :
    (l.answersTo checks).map Answered.toCheck = checks := by
  induction checks generalizing l with
  | nil => rfl
  | cons c rest ih => exact congrArg (c :: ·) (ih _)

theorem run_answersTo (l : RateLimiter τ) (checks : List Check) :
    Run Answered.Step l (l.answersTo checks) (l.afterAll checks) := by
  induction checks generalizing l with
  | nil => exact .nil
  | cons c rest ih => exact (Run.single rfl).trans (ih _)

/-- All checks of a bucket have the same rate and capacity and stand in the order of their times. -/
structure Steady (name : String) (rate burst : Nat) (checks : List Check) : Prop where
  same : ∀ c ∈ checks, c.name = name → c.rate = rate ∧ c.burst = burst
  sorted : (checks.filter fun c => c.name = name).Pairwise fun c d => c.now ≤ d.now

namespace Answered

variable {e : Answered} {es : List Answered}

/-- Whether the bucket with this name admitted a request within a window of time. -/
def admittedWithin (name : String) (s t : Nat) (e : Answered) : Bool :=
  e.name = name && s ≤ e.now && e.now ≤ t &&
    match e.answer with
    | .ok v => v.allowed
    | .error _ => false

theorem turns_of_run (run : Run Step l es l') (hburst : burst ≠ 0)
    (hsteady : Steady name rate burst (es.map toCheck)) :
    Run (Bucket.Turn.Step rate burst) (l.bucket? name) (es.filterMap (turn? name))
      (l'.bucket? name) :=
  run.filterMap (fun l => l.bucket? name) fun he hstep =>
    hstep.turns hburst (hsteady.same _ (List.mem_map_of_mem he))

theorem of_turn? {a : Bucket.Turn} (h : e.turn? name = some a) :
    e.name = name ∧ e.now = a.now ∧ e.answer = .ok a.verdict := by
  unfold turn? at h
  split at h
  · next hname =>
    cases hanswer : e.answer with
    | error err => rw [hanswer] at h; cases h
    | ok v =>
        rw [hanswer] at h
        obtain rfl := Option.some.inj h
        exact ⟨hname, rfl, rfl⟩
  · cases h

theorem sorted_turns (hsteady : Steady name rate burst (es.map toCheck)) :
    (es.filterMap (turn? name)).Pairwise fun a b => a.now ≤ b.now := by
  have hsorted := hsteady.sorted
  rw [List.filter_map, List.pairwise_map, List.pairwise_filter] at hsorted
  rw [List.pairwise_filterMap]
  refine hsorted.imp fun hle a ha b hb => ?_
  obtain ⟨hname, hnow, -⟩ := of_turn? ha
  obtain ⟨hname', hnow', -⟩ := of_turn? hb
  rw [← hnow, ← hnow']
  exact hle (by simpa using hname) (by simpa using hname')

theorem countP_turns (name : String) (s t : Nat) (es : List Answered) :
    (es.filterMap (turn? name)).countP (Bucket.Turn.grantedWithin s t) =
      es.countP (admittedWithin name s t) := by
  rw [List.countP_filterMap]
  refine List.countP_congr fun e _ => ?_
  unfold turn? admittedWithin
  split
  · next hname =>
    rw [hname]
    cases e.answer <;>
      simp [Except.toOption, Bucket.Turn.grantedWithin, Bucket.Turn.grantedSince]
    tauto
  · next hname => simp [hname]

/-- Of all checks of a bucket that was full at first, those it admits in a window of time are paid
for by one full bucket and by what flows in. -/
theorem admitted_of_run {k : RateLimiter Rat} (run : Run Step .empty es k) (hburst : 1 ≤ burst)
    (hsteady : Steady name rate burst (es.map toCheck)) {s t : Nat} (hst : s ≤ t) :
    (es.countP (admittedWithin name s t) : Rat) * (1 - 1 / 1000000) ≤
      burst + rate * (((t : Rat) - s) / 1000000000) := by
  have hturns := turns_of_run run (Nat.one_le_iff_ne_zero.mp hburst) hsteady
  have hgranted := Bucket.granted_of_run hturns hburst (sorted_turns hsteady) s t
  rw [countP_turns, Bucket.price, Bucket.inflow, Nat.cast_sub hst] at hgranted
  rwa [mul_comm (rate : Rat)]

end Answered

end RateLimiter

end HttpGateway
