import HttpGateway.Proofs.RateLimit.Visits

/-!
# Whom a bucket serves

A bucket is named after the route and the key of a client, with a colon between them. Two clients
share one when the route of one goes on, behind a colon, where that of the other ends, and the keys
make up for it. The verdicts for a client that shares its bucket with no other are the same as if it
were alone.
-/

namespace HttpGateway

open RateLimiter

variable {τ : Type}

/-- What tells those apart for whom limits are kept: a route, and a key on it. -/
structure Client where
  route : String
  key : String
  deriving DecidableEq, Repr

namespace Client

variable {p q : Client}

def bucket (p : Client) : String := Filter.bucketName p.route p.key

/-- The route of the second client starts with that of the first and a colon, and the key of the
first ends with a colon and that of the second; what is between them is the same. -/
def Overlaps (p q : Client) : Prop := ∃ m, q.route = p.route ++ ":" ++ m ∧ p.key = m ++ ":" ++ q.key

def Clashes (p q : Client) : Prop := p.Overlaps q ∨ q.Overlaps p

theorem bucket_eq_of_overlaps (h : p.Overlaps q) : p.bucket = q.bucket := by
  obtain ⟨m, hroute, hkey⟩ := h
  simp only [bucket, Filter.bucketName, hroute, hkey, String.append_assoc]

theorem overlaps_of_append (m : List Char) (hroute : q.route.toList = p.route.toList ++ m)
    (hkey : ':' :: p.key.toList = m ++ ':' :: q.key.toList) : p = q ∨ p.Overlaps q := by
  cases m with
  | nil =>
      left
      have hroute : q.route = p.route := String.toList_inj.mp (by simpa using hroute)
      have hkey : p.key = q.key := String.toList_inj.mp (by simpa using hkey)
      cases p; cases q
      simp_all
  | cons c m =>
      right
      obtain ⟨rfl, hrest⟩ := List.cons.inj hkey
      exact ⟨String.ofList m, String.toList_inj.mp (by simp [hroute]),
        String.toList_inj.mp (by simpa using hrest)⟩

/-- Two clients have the same bucket just if they are the same or their names run together. -/
theorem bucket_eq_iff : p.bucket = q.bucket ↔ p = q ∨ p.Clashes q := by
  constructor
  · intro h
    have hlists :
        p.route.toList ++ ':' :: p.key.toList = q.route.toList ++ ':' :: q.key.toList := by
      have := congrArg String.toList h
      simpa [bucket, Filter.bucketName] using this
    -- One of the two names is cut further to the right; `m` is what lies between the cuts.
    rcases List.append_eq_append_iff.mp hlists with ⟨m, hroute, hkey⟩ | ⟨m, hroute, hkey⟩
    · exact (overlaps_of_append m hroute hkey).imp_right .inl
    · exact (overlaps_of_append m hroute hkey).imp Eq.symm .inr
  · rintro (rfl | h | h)
    · rfl
    · exact bucket_eq_of_overlaps h
    · exact (bucket_eq_of_overlaps h).symm

/-- Clients clash only if the route of one starts with that of the other and a colon. -/
theorem Clashes.isPrefix (h : p.Clashes q) :
    p.route.toList ++ [':'] <+: q.route.toList ∨ q.route.toList ++ [':'] <+: p.route.toList := by
  rcases h with ⟨m, hroute, -⟩ | ⟨m, hroute, -⟩
  · exact .inl ⟨m.toList, by simp [hroute]⟩
  · exact .inr ⟨m.toList, by simp [hroute]⟩

theorem not_clashes_self (p : Client) : ¬p.Clashes p := by
  have hself : ¬p.Overlaps p := by
    rintro ⟨m, hroute, -⟩
    have hlength := congrArg (fun route => route.toList.length) hroute
    simp at hlength
  exact fun h => h.elim hself hself

end Client

/-- The client for whom a request counts, if it has a key. -/
def RateLimit.client? (limit : RateLimit) (x : Exchange) : Option Client :=
  (Filter.resolveKey limit.resolver x).map fun key => ⟨x.routeLabel, key⟩

theorem RateLimit.name_check? (limit : RateLimit) (s : Scene τ) :
    (limit.check? s).map Check.name = (limit.client? s.exchange).map Client.bucket := by
  simp only [check?, client?, Option.map_map]
  rfl

namespace RateLimiter

variable {l l' m : RateLimiter τ} {name : String} {e : Answered}

/-- Two limiters that do not differ in the bucket with this name. -/
def SameFor (name : String) : RateLimiter τ → RateLimiter τ → Prop
  | .buckets store, .buckets store' => store.get? name = store'.get? name
  | .failing reason, .failing reason' => reason = reason'
  | _, _ => False

theorem SameFor.refl (name : String) (l : RateLimiter τ) : SameFor name l l := by
  cases l <;> rfl

variable [TokenArithmetic τ]

/-- What another bucket is asked makes no difference. -/
theorem SameFor.step_of_ne (h : SameFor name l m) (hstep : Answered.Step l e l')
    (hne : name ≠ e.name) : SameFor name l' m := by
  cases l with
  | failing reason =>
      obtain ⟨-, rfl⟩ := Prod.mk.inj hstep
      exact h
  | buckets store =>
      obtain ⟨-, rfl⟩ | ⟨state, v, -, -, rfl⟩ := hstep.cases
      · exact h
      · cases m with
        | failing reason => exact h.elim
        | buckets store' => exact (Dictionary.get?_insert_of_ne store state hne).trans h

/-- What the bucket itself is asked is answered in the same way. -/
theorem SameFor.step (h : SameFor e.name l m) (hstep : Answered.Step l e l') :
    ∃ m', Answered.Step m e m' ∧ SameFor e.name l' m' := by
  cases l with
  | failing reason =>
      cases m with
      | failing reason' =>
          obtain ⟨hanswer, rfl⟩ := Prod.mk.inj hstep
          exact ⟨_, congrArg (fun a => (a, failing reason')) (h ▸ hanswer), h⟩
      | buckets store' => exact h.elim
  | buckets store =>
      cases m with
      | failing reason => exact h.elim
      | buckets store' =>
          simp only [Answered.Step, check] at hstep ⊢
          have hget : store.get? e.name = store'.get? e.name := h
          by_cases hburst : e.burst = 0
          · rw [if_pos hburst] at hstep ⊢
            obtain ⟨hanswer, rfl⟩ := Prod.mk.inj hstep
            exact ⟨_, by rw [hanswer], h⟩
          · rw [if_neg hburst, BucketStore.modify_eq] at hstep ⊢
            obtain ⟨hanswer, rfl⟩ := Prod.mk.inj hstep
            refine ⟨_, by rw [← hget, hanswer], ?_⟩
            exact (Dictionary.get?_insert_self ..).trans (Dictionary.get?_insert_self ..).symm

end RateLimiter

def Entry.withLimiter (entry : Entry τ) (l : RateLimiter τ) : Entry τ :=
  match entry with
  | .onward s => .onward (s.withLimiter l)
  | .ended s => .ended (s.withLimiter l)
  | .failed e s => .failed e (s.withLimiter l)

theorem Entry.withLimiter_withLimiter (entry : Entry τ) (l m : RateLimiter τ) :
    (entry.withLimiter l).withLimiter m = entry.withLimiter m := by
  cases entry <;> rfl

theorem Filter.applyVerdict_withLimiter (limit : RateLimit) (answer : Except GatewayError Verdict)
    (s : Scene τ) (l : RateLimiter τ) :
    applyVerdict limit answer (s.withLimiter l) = (applyVerdict limit answer s).withLimiter l := by
  cases answer with
  | error e => rfl
  | ok verdict =>
      simp only [applyVerdict]
      cases verdict.allowed <;> rfl

namespace Visit

variable [TokenArithmetic τ] {l l' m : RateLimiter τ} {v : Visit τ} {vs : List (Visit τ)}
  {p mine : Client}

def client? (v : Visit τ) : Option Client := v.limit.client? v.entry.exchange

theorem Step.name_asked? (h : Step l v l') :
    v.asked?.map (fun e => e.name) = v.client?.map Client.bucket := by
  have hname : v.check?.map Check.name = v.client?.map Client.bucket := v.limit.name_check? v.entry
  rw [← hname, ← h.asks, Option.map_map]
  rfl

/-- What happens to a client depends on its own bucket alone. -/
theorem Step.alone (h : Step l v l') (hsame : SameFor mine.bucket l m)
    (hmine : v.client? = some mine) : ∃ m', Step m v m' ∧ SameFor mine.bucket l' m' := by
  have hname := h.name_asked?
  rw [hmine] at hname
  obtain ⟨e, he, hbucket⟩ := Option.map_eq_some_iff.mp hname
  obtain ⟨hstep, happly⟩ := h.of_asked he
  obtain ⟨m', hstep', hsame'⟩ := (hbucket ▸ hsame).step hstep
  refine ⟨m', ⟨h.asks, by rw [he]; exact .single hstep', fun next => ?_⟩, hbucket ▸ hsame'⟩
  have hcheck : v.check? = some e.toCheck := by rw [← h.asks, he]; rfl
  -- With the same answer the filter does the same, whichever limiter is left behind.
  have happly' : Filter.applyVerdict v.limit e.answer (v.entry.withLimiter m') =
      if v.goesOn then .onward (v.left.withLimiter m') else .ended (v.left.withLimiter m') := by
    have hmoved := congrArg (fun entry => entry.withLimiter m') happly
    rw [Filter.applyVerdict_withLimiter] at hmoved ⊢
    rw [Entry.withLimiter_withLimiter] at hmoved
    rw [hmoved]
    cases v.goesOn <;> rfl
  rw [Filter.limitThen_eq, Filter.enterLimit_of_check hcheck hstep', happly']
  cases v.goesOn <;> rfl

theorem Step.sameFor (h : Step l v l') (hsame : SameFor mine.bucket l m)
    (hother : ∀ p ∈ v.client?, p.bucket ≠ mine.bucket) : SameFor mine.bucket l' m := by
  have hname := h.name_asked?
  have hanswers := h.answers
  cases he : v.asked? with
  | none =>
      rw [he] at hanswers
      exact hanswers.of_nil ▸ hsame
  | some e =>
      rw [he] at hname hanswers
      obtain ⟨p, hp, hbucket⟩ := Option.map_eq_some_iff.mp hname.symm
      exact hsame.step_of_ne hanswers.of_single fun h => hother p hp (hbucket.trans h.symm)

theorem exists_run_alone (run : Run Step l vs l') (mine : Client)
    (hapart : ∀ v ∈ vs, ∀ p ∈ v.client?, ¬p.Clashes mine) :
    ∃ m, Run Step l (vs.filter fun v => v.client? = some mine) m ∧ SameFor mine.bucket l' m := by
  -- The limiters of the two runs may differ in all buckets but this one.
  induction run with
  | nil => exact ⟨l, .nil, .refl ..⟩
  | @snoc vs v u u' _ hstep ih =>
      obtain ⟨hvs, hv⟩ := List.forall_mem_append.mp hapart
      obtain ⟨m, hrun, hsame⟩ := ih hvs
      rw [List.filter_append]
      by_cases hmine : v.client? = some mine
      · obtain ⟨m', hstep', hsame'⟩ := hstep.alone hsame hmine
        rw [List.filter_singleton, decide_eq_true hmine, cond_true]
        exact ⟨m', hrun.snoc hstep', hsame'⟩
      · rw [List.filter_singleton, decide_eq_false hmine, cond_false, List.append_nil]
        refine ⟨m, hrun, hstep.sameFor hsame fun p hp hbucket => ?_⟩
        rcases Client.bucket_eq_iff.mp hbucket with rfl | hclash
        · exact hmine hp
        · exact hv v List.mem_cons_self p hp hclash

/-- Two requests are counted in the same bucket just if they are of one client, or of two that
clash. A client that clashes with no other gets the verdicts that it would get if the visits of all
others were left out. -/
theorem verdicts_alone :
    (∀ (v w : Visit τ) (p q : Client), v.client? = some p → w.client? = some q →
      (v.check?.map Check.name = w.check?.map Check.name ↔ p = q ∨ p.Clashes q)) ∧
    ∀ (vs : List (Visit τ)) (l l' : RateLimiter τ), Run Step l vs l' → ∀ mine : Client,
      (∀ v ∈ vs, ∀ p ∈ v.client?, ¬p.Clashes mine) →
        ∃ m, Run Step l (vs.filter fun v => v.client? = some mine) m := by
  refine ⟨fun v w p q hp hq => ?_, fun vs l l' run mine hapart => ?_⟩
  · have hv : v.check?.map Check.name = v.client?.map Client.bucket :=
      v.limit.name_check? v.entry
    have hw : w.check?.map Check.name = w.client?.map Client.bucket :=
      w.limit.name_check? w.entry
    rw [hv, hw, hp, hq, Option.map_some, Option.map_some, Option.some_inj, Client.bucket_eq_iff]
  · obtain ⟨m, hrun, -⟩ := exists_run_alone run mine hapart
    exact ⟨m, hrun⟩

/-- A request on a route, with a key in a header. -/
def ofClient (p : Client) : RateLimit × Scene Rat :=
  (⟨.header ⟨"x-api-key"⟩, 1, 1, true⟩,
    { exchange :=
        { request :=
            { method := Method.get, uri := ⟨none, none, ⟨"/a", none⟩⟩
              headers := Headers.empty.append ⟨"x-api-key"⟩ (HeaderValue.literal p.key) }
          route := some ⟨p.route, ⟨none, none, ⟨"/", none⟩⟩⟩ }
      world := { limiter := .empty } })

/-- The visits of clients at the same moment, with one token for each bucket. -/
def inTurn (clients : List Client) : List (Visit Rat) × RateLimiter Rat :=
  RateLimiter.empty.visits (clients.map ofClient)

theorem run_inTurn (clients : List Client) :
    Run Step .empty (inTurn clients).1 (inTurn clients).2 :=
  RateLimiter.run_visits ..

theorem verdicts_alone_of_inTurn :
    let vs := (inTurn [⟨"a", "k"⟩, ⟨"b", "k"⟩, ⟨"a", "k"⟩]).1
    vs.map goesOn = [true, true, false] ∧
      ∃ m, Run Step .empty (vs.filter fun v => v.client? = some ⟨"b", "k"⟩) m := by
  have hclients : (inTurn [⟨"a", "k"⟩, ⟨"b", "k"⟩, ⟨"a", "k"⟩]).1.map client? =
      [some ⟨"a", "k"⟩, some ⟨"b", "k"⟩, some ⟨"a", "k"⟩] := by cbv
  refine ⟨by cbv, verdicts_alone.2 _ _ _ (run_inTurn _) _ fun v hv p hp hclash => ?_⟩
  have hclient := List.mem_map_of_mem (f := client?) hv
  rw [hclients, show v.client? = some p from hp] at hclient
  have hp : p = ⟨"a", "k"⟩ ∨ p = ⟨"b", "k"⟩ := by simpa [or_comm] using hclient
  rcases hp with rfl | rfl
  · exact absurd hclash.isPrefix (by decide)
  · exact Client.not_clashes_self _ hclash

theorem verdicts_alone_fails :
    let vs := (inTurn [⟨"a", "b:c"⟩, ⟨"a:b", "c"⟩]).1
    vs.map client? = [some ⟨"a", "b:c"⟩, some ⟨"a:b", "c"⟩] ∧
      vs.map (fun v => v.check?.map Check.name) = [some "a:b:c", some "a:b:c"] ∧
      ¬∃ m, Run Step .empty (vs.filter fun v => v.client? = some ⟨"a:b", "c"⟩) m := by
  refine ⟨by cbv, by cbv, ?_⟩
  rintro ⟨m, hrun⟩
  have hanswers := answered_of_run hrun
  have hdenied : ((inTurn [⟨"a", "b:c"⟩, ⟨"a:b", "c"⟩]).1.filter fun v =>
      v.client? = some ⟨"a:b", "c"⟩).filterMap asked? =
      [⟨⟨0, "a:b:c", 1, 1⟩, .ok ⟨false, -1⟩⟩] := by
    cbv
  rw [hdenied] at hanswers
  have hgranted :
      ((RateLimiter.empty : RateLimiter Rat).check 0 "a:b:c" 1 1).1 = .ok ⟨true, 0⟩ := by
    cbv
  have hsame := hgranted.symm.trans (Prod.mk.inj hanswers.of_single).1
  simp at hsame

end Visit

end HttpGateway
