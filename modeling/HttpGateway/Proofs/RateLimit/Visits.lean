import HttpGateway.Proofs.Filter.Entry
import HttpGateway.Proofs.RateLimit.Checks

/-!
# Visits to the filter that limits rates

A visit is what the filter does with one exchange: it asks the limiter, or does not, and runs the
rest of the chain once, or not at all. Whatever the rest of the chain may be, and whatever other
exchanges do meanwhile, what happens to the limiter at the visit happens at one moment.
-/

namespace HttpGateway

open RateLimiter

variable {τ : Type}

def Scene.withLimiter (s : Scene τ) (l : RateLimiter τ) : Scene τ :=
  s.mapWorld fun w => { w with limiter := l }

def RateLimit.check? (limit : RateLimit) (s : Scene τ) : Option Check :=
  (Filter.resolveKey limit.resolver s.exchange).map fun key =>
    ⟨s.world.clock, Filter.bucketName s.exchange.routeLabel key, limit.rate, limit.burst⟩

/-- A visit: how the exchange comes to the filter, what the limiter answers if it is asked, whether
the exchange goes on, and how it is left. The limiter in these scenes does not matter. -/
structure Visit (τ : Type) where
  limit : RateLimit
  entry : Scene τ
  asked? : Option Answered
  goesOn : Bool
  left : Scene τ

namespace Visit

variable [TokenArithmetic τ] {l l' : RateLimiter τ} {v : Visit τ} {vs : List (Visit τ)}
  {name : String} {rate burst : Nat}

def check? (v : Visit τ) : Option Check := v.limit.check? v.entry

structure Step (l : RateLimiter τ) (v : Visit τ) (l' : RateLimiter τ) : Prop where
  asks : v.asked?.map Answered.toCheck = v.check?
  answers : Run Answered.Step l v.asked?.toList l'
  runs : ∀ next, Filter.limitThen v.limit next (v.entry.withLimiter l) =
    if v.goesOn then next (v.left.withLimiter l') else (.ok (), v.left.withLimiter l')

end Visit

def RateLimiter.answered? [TokenArithmetic τ] (l : RateLimiter τ) (c : Option Check) :
    Option Answered :=
  c.map fun c => ⟨c, (l.check c.now c.name c.rate c.burst).1⟩

/-- What runs the same for every rest of the chain is told by whether it runs it. -/
theorem Entry.eq_of_andThen {entry : Entry τ} {goesOn : Bool} {s : Scene τ}
    (h : ∀ next, entry.andThen next = if goesOn then next s else (.ok (), s)) :
    entry = if goesOn then .onward s else .ended s := by
  -- A stage that succeeds and one that fails tell the entries apart.
  have hstay := h fun s => (.ok (), s)
  have hfail := h fun s => (.error (.missingState .route), s)
  cases goesOn with
  | true =>
      cases entry with
      | onward t => exact congrArg Entry.onward (Prod.mk.inj hstay).2
      | ended t => cases (Prod.mk.inj hfail).1
      | failed e t => cases (Prod.mk.inj hstay).1
  | false =>
      cases entry with
      | onward t => cases (Prod.mk.inj hfail).1
      | ended t => exact congrArg Entry.ended (Prod.mk.inj hstay).2
      | failed e t => cases (Prod.mk.inj hstay).1

theorem Filter.enterLimit_of_check [TokenArithmetic τ] {limit : RateLimit} {s : Scene τ} {c : Check}
    (hc : limit.check? s = some c) {l l' : RateLimiter τ} {answer : Except GatewayError Verdict}
    (hanswer : l.check c.now c.name c.rate c.burst = (answer, l')) :
    enterLimit limit (s.withLimiter l) = applyVerdict limit answer (s.withLimiter l') := by
  obtain ⟨key, hkey, rfl⟩ := Option.map_eq_some_iff.mp hc
  simp only [enterLimit, Scene.withLimiter, Scene.mapWorld, hkey, hanswer]

namespace Filter

theorem exists_applyVerdict (limit : RateLimit) (answer : Except GatewayError Verdict)
    (s : Scene τ) : ∃ (goesOn : Bool) (x : Scene τ), x.world.limiter = s.world.limiter ∧
      applyVerdict limit answer s = if goesOn then .onward x else .ended x := by
  cases answer with
  | error e => exact ⟨true, s, rfl, rfl⟩
  | ok verdict =>
      simp only [applyVerdict]
      cases verdict.allowed with
      | true => exact ⟨true, s.mapResponse _, rfl, rfl⟩
      | false => exact ⟨false, (refuse _ (Scene.mapWorld _ _)).2, rfl, rfl⟩

/-- Coming to the filter never fails, and the limiter is changed only by asking it. -/
theorem exists_enterLimit [TokenArithmetic τ] (limit : RateLimit) (s : Scene τ) :
    ∃ (goesOn : Bool) (x : Scene τ),
      Run Answered.Step s.world.limiter (s.world.limiter.answered? (limit.check? s)).toList
        x.world.limiter ∧
      enterLimit limit s = if goesOn then .onward x else .ended x := by
  cases hc : limit.check? s with
  | none =>
      have hkey := Option.map_eq_none_iff.mp hc
      simp only [enterLimit, hkey]
      cases limit.denyWithoutKey with
      | true => exact ⟨false, (refuse Status.forbidden s).2, .nil, rfl⟩
      | false => exact ⟨true, s, .nil, rfl⟩
  | some c =>
      obtain ⟨goesOn, x, hlimiter, happly⟩ := exists_applyVerdict limit
        (s.world.limiter.check c.now c.name c.rate c.burst).1
        (s.withLimiter (s.world.limiter.check c.now c.name c.rate c.burst).2)
      refine ⟨goesOn, x, ?_, (enterLimit_of_check hc rfl).trans happly⟩
      rw [hlimiter]
      exact .single rfl

end Filter

/-- The visit that takes place when an exchange comes to the filter, and the limiter after it. -/
def RateLimit.visit [TokenArithmetic τ] (limit : RateLimit) (entry : Scene τ) (l : RateLimiter τ) :
    Visit τ × RateLimiter τ :=
  let entered := Filter.enterLimit limit (entry.withLimiter l)
  ({ limit, entry
     asked? := l.answered? (limit.check? entry)
     goesOn := entered.goesOn
     left := entered.scene }, entered.scene.world.limiter)

theorem RateLimit.step_visit [TokenArithmetic τ] (limit : RateLimit) (entry : Scene τ)
    (l : RateLimiter τ) : Visit.Step l (limit.visit entry l).1 (limit.visit entry l).2 := by
  obtain ⟨goesOn, x, hrun, henter⟩ := Filter.exists_enterLimit limit (entry.withLimiter l)
  have hgoesOn : (Filter.enterLimit limit (entry.withLimiter l)).goesOn = goesOn := by
    rw [henter]
    cases goesOn <;> rfl
  have hscene : (Filter.enterLimit limit (entry.withLimiter l)).scene = x := by
    rw [henter]
    cases goesOn <;> rfl
  simp only [visit, hgoesOn, hscene]
  refine ⟨?_, hrun, fun next => ?_⟩
  · -- What is asked does not depend on the limiter that is put in place.
    rw [answered?, Option.map_map]
    exact Option.map_id'
  · rw [Filter.limitThen_eq, henter]
    cases goesOn <;> rfl

/-- The visits of exchanges that come one after the other, and the limiter after them. -/
def RateLimiter.visits [TokenArithmetic τ] :
    List (RateLimit × Scene τ) → RateLimiter τ → List (Visit τ) × RateLimiter τ
  | [], l => ([], l)
  | (limit, entry) :: rest, l =>
    let (v, l) := limit.visit entry l
    let (vs, l) := visits rest l
    (v :: vs, l)

theorem RateLimiter.run_visits [TokenArithmetic τ] (arrivals : List (RateLimit × Scene τ))
    (l : RateLimiter τ) : Run Visit.Step l (visits arrivals l).1 (visits arrivals l).2 := by
  induction arrivals generalizing l with
  | nil => exact .nil
  | cons arrival rest ih =>
      obtain ⟨limit, entry⟩ := arrival
      exact (Run.single (limit.step_visit entry l)).trans (ih _)

namespace Visit

variable [TokenArithmetic τ] {l l' : RateLimiter τ} {v : Visit τ} {vs : List (Visit τ)}
  {name : String} {rate burst : Nat}

theorem Step.enter (h : Step l v l') : Filter.enterLimit v.limit (v.entry.withLimiter l) =
    if v.goesOn then .onward (v.left.withLimiter l') else .ended (v.left.withLimiter l') :=
  Entry.eq_of_andThen fun next => (Filter.limitThen_eq ..).symm.trans (h.runs next)

/-- What becomes of an exchange once the limiter has answered. -/
theorem Step.of_asked {e : Answered} (h : Step l v l') (he : v.asked? = some e) :
    Answered.Step l e l' ∧ Filter.applyVerdict v.limit e.answer (v.entry.withLimiter l') =
      if v.goesOn then .onward (v.left.withLimiter l') else .ended (v.left.withLimiter l') := by
  have hasks := h.asks
  have hanswers := h.answers
  rw [he] at hasks hanswers
  have hstep := hanswers.of_single
  refine ⟨hstep, ?_⟩
  rw [← h.enter, Filter.enterLimit_of_check hasks.symm hstep]

variable {e : Answered} {verdict : Verdict}

theorem Step.goesOn_eq (h : Step l v l') (he : v.asked? = some e)
    (hverdict : e.answer = .ok verdict) : v.goesOn = verdict.allowed := by
  have happly := (h.of_asked he).2
  rw [hverdict] at happly
  unfold Filter.applyVerdict at happly
  cases hallowed : verdict.allowed <;> cases hgoes : v.goesOn <;>
    simp [hallowed, hgoes] at happly ⊢

/-- A request that is denied is refused, unless it has been answered already. -/
theorem Step.refused (h : Step l v l') (he : v.asked? = some e) (hstays : v.goesOn = false) :
    v.left.exchange.response.isCommitted = true ∧
      (v.entry.exchange.response.isCommitted = false →
        v.left.exchange.response.status = some Status.tooManyRequests ∧
          v.left.exchange.response.body = some Body.empty) := by
  have happly := (h.of_asked he).2
  rw [hstays] at happly
  -- The headers tell of the limit first; then the response is refused as any other.
  obtain ⟨edit, hleft⟩ : ∃ edit, v.left.exchange.response =
      ((v.entry.exchange.response.editHeaders edit).setStatus Status.tooManyRequests).commit
        Body.empty := by
    unfold Filter.applyVerdict at happly
    cases hanswer : e.answer with
    | error err => simp [hanswer] at happly
    | ok verdict =>
        rw [hanswer] at happly
        cases hallowed : verdict.allowed with
        | true => simp [hallowed] at happly
        | false =>
            simp only [hallowed, Bool.false_eq_true, if_false, Entry.ended.injEq] at happly
            exact ⟨_, (congrArg (fun s => s.exchange.response) happly).symm⟩
  rw [hleft]
  refine ⟨Response.isCommitted_commit .., fun hopen => ?_⟩
  have hedited := (Response.isCommitted_editHeaders _ edit).trans hopen
  have hstatus := (Response.isCommitted_setStatus _ Status.tooManyRequests).trans hedited
  rw [Response.commit_of_open hstatus, Response.setStatus_of_open hedited]
  exact ⟨rfl, rfl⟩

/-- An exchange went on within a window of time, for which the bucket with this name was asked. -/
def wentOnWithin (name : String) (s t : Nat) (v : Visit τ) : Bool :=
  v.goesOn && v.check?.any fun c => c.name = name && s ≤ c.now && c.now ≤ t

theorem answered_of_run (run : Run Step l vs l') :
    Run Answered.Step l (vs.filterMap asked?) l' :=
  run.filterMap (fun l => l) fun _ hstep => hstep.answers

theorem checks_of_run (run : Run Step l vs l') :
    (vs.filterMap asked?).map Answered.toCheck = vs.filterMap check? := by
  induction run with
  | nil => rfl
  | @snoc vs v _ _ _ hstep ih =>
      have hlast : ([v].filterMap asked?).map Answered.toCheck = [v].filterMap check? := by
        simp only [List.filterMap_cons, List.filterMap_nil, ← hstep.asks]
        cases v.asked? <;> rfl
      rw [List.filterMap_append, List.map_append, ih, hlast, List.filterMap_append]

theorem Step.inMemory (h : Step l v l') (hl : l.InMemory) : l'.InMemory :=
  h.answers.invariant hl Answered.Step.inMemory

/-- An exchange goes on if the bucket admits it. -/
theorem Step.wentOnWithin_eq (h : Step l v l') (hl : l.InMemory)
    (hburst : ∀ c ∈ v.check?, c.name = name → c.burst ≠ 0) (s t : Nat) :
    v.wentOnWithin name s t = v.asked?.any (Answered.admittedWithin name s t) := by
  have hasks := h.asks
  rw [wentOnWithin, ← hasks]
  cases he : v.asked? with
  | none => simp
  | some e =>
      rw [he] at hasks
      by_cases hname : e.name = name
      · obtain ⟨verdict, hverdict⟩ :=
          (h.of_asked he).1.exists_ok hl (hburst e.toCheck hasks.symm hname)
        simp [Answered.admittedWithin, hname, h.goesOn_eq he hverdict, hverdict, Bool.and_comm]
      · simp [Answered.admittedWithin, hname]

/-- Seen through the checks alone, the exchanges that go on are the requests that are admitted. -/
theorem countP_wentOnWithin (run : Run Step l vs l') (hl : l.InMemory)
    (hburst : ∀ c ∈ vs.filterMap check?, c.name = name → c.burst ≠ 0) (s t : Nat) :
    vs.countP (wentOnWithin name s t) =
      (vs.filterMap asked?).countP (Answered.admittedWithin name s t) := by
  rw [List.countP_filterMap]
  refine List.countP_congr fun v hv => ?_
  obtain ⟨u, u', hmemory, hstep⟩ := run.exists_step hl Step.inMemory v hv
  rw [hstep.wentOnWithin_eq hmemory fun c hc => hburst c (List.mem_filterMap.mpr ⟨v, hv, hc⟩)]
  cases v.asked? <;> simp

/-- A bucket that is always asked with the same rate and capacity never holds less than nothing or
more than its capacity, and each answer tells what it has left. In no window of time does it admit
more than one full bucket and what flows in, but for the tolerance. So many exchanges at most go on;
every other one is refused, and the rest of the chain is not run for it. -/
theorem admissions_bounded (name : String) (rate : Nat) {burst : Nat} (hburst : 1 ≤ burst) :
    (∀ (es : List Answered) (l : RateLimiter Rat), Run Answered.Step .empty es l →
      Steady name rate burst (es.map Answered.toCheck) →
        (∀ b ∈ l.bucket? name, 0 ≤ b.tokens ∧ b.tokens ≤ burst) ∧
        (∀ e ∈ es, e.name = name → ∃ verdict, e.answer = .ok verdict ∧
          if verdict.allowed then 0 ≤ verdict.remaining ∧ verdict.remaining ≤ burst - 1
          else verdict.remaining = -1) ∧
        ∀ s t : Nat, s ≤ t →
          (es.countP (Answered.admittedWithin name s t) : Rat) * (1 - 1 / 1000000) ≤
            burst + rate * (((t : Rat) - s) / 1000000000)) ∧
    ∀ (vs : List (Visit Rat)) (l : RateLimiter Rat), Run Step .empty vs l →
      Steady name rate burst (vs.filterMap check?) →
        (∀ s t : Nat, s ≤ t → (vs.countP (wentOnWithin name s t) : Rat) * (1 - 1 / 1000000) ≤
          burst + rate * (((t : Rat) - s) / 1000000000)) ∧
        ∀ v ∈ vs, v.check?.any (fun c => c.name = name) → v.goesOn = false →
          v.left.exchange.response.isCommitted = true ∧
            (v.entry.exchange.response.isCommitted = false →
              v.left.exchange.response.status = some Status.tooManyRequests ∧
                v.left.exchange.response.body = some Body.empty) := by
  have hpos : burst ≠ 0 := Nat.one_le_iff_ne_zero.mp hburst
  refine ⟨fun es l run hsteady => ?_, fun vs l run hsteady => ⟨fun s t hst => ?_, fun v hv => ?_⟩⟩
  · have hturns := Answered.turns_of_run run hpos hsteady
    have hsorted := Answered.sorted_turns hsteady
    refine ⟨fun b hb => ?_, fun e he hname => ?_, fun s t hst => ?_⟩
    · rw [hb] at hturns
      exact Bucket.tokens_of_run hturns hburst hsorted
    · obtain ⟨-, rfl⟩ := hsteady.same e.toCheck (List.mem_map_of_mem he) hname
      obtain ⟨verdict, hverdict⟩ := Answered.exists_ok_of_run run trivial e he hpos
      have hturn : e.turn? name = some ⟨e.now, verdict⟩ := by
        rw [Answered.turn?, if_pos hname, hverdict]
        rfl
      exact ⟨verdict, hverdict, Bucket.remaining_of_run hturns hburst hsorted _
        (List.mem_filterMap.mpr ⟨e, he, hturn⟩)⟩
    · exact Answered.admitted_of_run run hburst hsteady hst
  · have hasked := checks_of_run run
    rw [countP_wentOnWithin run trivial fun c hc hname => (hsteady.same c hc hname).2 ▸ hpos]
    exact Answered.admitted_of_run (answered_of_run run) hburst (hasked ▸ hsteady) hst
  · obtain ⟨u, u', -, hstep⟩ := run.exists_step trivial Step.inMemory v hv
    intro hname hstays
    cases he : v.asked? with
    | none =>
        have hasks := hstep.asks
        rw [he] at hasks
        rw [← hasks] at hname
        cases hname
    | some e => exact hstep.refused he hstays

/-- A request for a route with the id `r`. -/
def comingAt (clock : Nat) : Scene Rat where
  exchange :=
    { request := { method := Method.get, uri := ⟨none, none, ⟨"/a", none⟩⟩ }
      route := some ⟨"r", ⟨none, none, ⟨"/", none⟩⟩⟩ }
  world := { clock, limiter := .empty }

/-- Three requests within a second, of which there may be one in a second. -/
def threeVisits : List (Visit Rat) × RateLimiter Rat :=
  RateLimiter.empty.visits
    ([0, 500000000, 1000000000].map fun clock => (⟨.routeId, 1, 1, true⟩, comingAt clock))

/-- The second request finds half a token and is denied, the third finds a whole one. -/
theorem admissions_bounded_of_threeVisits :
    threeVisits.1.map goesOn = [true, false, true] ∧
      (threeVisits.1.countP (wentOnWithin "r:r" 0 1000000000) : Rat) * (1 - 1 / 1000000) ≤
        (1 : Nat) + (1 : Nat) * ((((1000000000 : Nat) : Rat) - (0 : Nat)) / 1000000000) ∧
      (∀ b ∈ threeVisits.2.bucket? "r:r", 0 ≤ b.tokens ∧ b.tokens ≤ (1 : Nat)) ∧
      ∀ v ∈ threeVisits.1, v.goesOn = false →
        v.left.exchange.response.status = some Status.tooManyRequests := by
  have run := RateLimiter.run_visits
    ([0, 500000000, 1000000000].map fun clock => (⟨.routeId, 1, 1, true⟩, comingAt clock)) .empty
  have hchecks : threeVisits.1.filterMap check? =
      [⟨0, "r:r", 1, 1⟩, ⟨500000000, "r:r", 1, 1⟩, ⟨1000000000, "r:r", 1, 1⟩] := by cbv
  have hsteady : Steady "r:r" 1 1 (threeVisits.1.filterMap check?) := by
    rw [hchecks]
    exact ⟨by simp, by decide⟩
  have hcame : threeVisits.1.all fun v => v.check?.any (fun c => c.name = "r:r") &&
      !v.entry.exchange.response.isCommitted := by cbv
  obtain ⟨hwindow, hdenied⟩ := (admissions_bounded "r:r" 1 (Nat.le_refl 1)).2 _ _ run hsteady
  obtain ⟨hstored, -⟩ := (admissions_bounded "r:r" 1 (Nat.le_refl 1)).1 _ _ (answered_of_run run)
    (checks_of_run run ▸ hsteady)
  refine ⟨by cbv, hwindow 0 1000000000 (by decide), hstored, fun v hv hstays => ?_⟩
  obtain ⟨hasked, hopen⟩ := Bool.and_eq_true_iff.mp (List.all_eq_true.mp hcame v hv)
  exact ((hdenied v hv hasked hstays).2 (by simpa using hopen)).1

end Visit

end HttpGateway
