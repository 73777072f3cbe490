import HttpGateway.Proofs.Cache.Interleaving

/-!
# Calls share what is asked for

Only the call that holds the lock asks the source, and those that waited for it find the list that
it was given. How often the source gives a list is a matter of bookkeeping. An invalidation pays for
one list, and one list is free: either the last list that was given is the valid one, or the call
that was given it may still make it valid, or an invalidation has come since that call looked and
pays for it.
-/

namespace HttpGateway.Cache

variable {ρ ε : Type}

/-- The call waits for what the source will say. -/
def Call.isAsking : Call ρ ε → Bool
  | .asking _ _ => true
  | _ => false

/-- The call has looked at the cache with the lock, and found nothing valid. -/
def Call.isRebuilding : Call ρ ε → Bool
  | .loaded _ _ | .asking _ _ | .answered _ _ | .overtaken _ => true
  | _ => false

/-- The list of a call: the one it falls back on, was given, or comes back with. -/
def Call.list? : Call ρ ε → Option ρ
  | .loaded _ stale | .asking _ stale => stale
  | .answered _ routes | .overtaken routes | .returned (.ok routes) => some routes
  | _ => none

/-- The source gives a list. -/
def Event.gives : Event ρ ε → Bool
  | .call _ (.answer (.ok _)) => true
  | _ => false

def Event.invalidates : Event ρ ε → Bool
  | .invalidate => true
  | .call _ _ => false

theorem Call.holdsLock_of_isAsking {x : Call ρ ε} (h : x.isAsking = true) : x.holdsLock = true := by
  cases x <;> first | rfl | cases h

theorem Call.holdsLock_of_isRebuilding {x : Call ρ ε} (h : x.isRebuilding = true) :
    x.holdsLock = true := by
  cases x <;> first | rfl | cases h

/-! ### The lock -/

theorem Call.Step.of_holdsLock {k k' : Cache ρ} {x y : Call ρ ε} {a : Action ρ ε}
    (h : Call.Step k x a k' y) (hy : y.holdsLock = true) : x.holdsLock = true ∨ a = .lock := by
  cases h <;> simp_all [Call.holdsLock]

/-- A call that does not hold the lock leaves the cache as it is, and is given nothing. -/
theorem Call.Step.of_not_holdsLock {k k' : Cache ρ} {x y : Call ρ ε} {a : Action ρ ε}
    (h : Call.Step k x a k' y) (hx : x.holdsLock = false) (c : Nat) :
    k' = k ∧ (Event.call c a).gives = false := by
  cases h <;> first | exact ⟨rfl, rfl⟩ | cases hx

theorem Call.Step.of_isRebuilding {k k' : Cache ρ} {x y : Call ρ ε} {a : Action ρ ε}
    (h : Call.Step k x a k' y) (hy : y.isRebuilding = true) :
    k' = k ∧ (x.isRebuilding = true ∨ ∃ stale, k.state = .invalidated stale) := by
  cases h <;> simp_all [Call.isRebuilding]

/-- The lock is held by one call at most, and nothing is valid while that call has something to put
into the cache. -/
structure Traffic.Locked (t : Traffic ρ ε) : Prop where
  exclusive : ∀ c d, (t.calls c).holdsLock = true → (t.calls d).holdsLock = true → c = d
  invalid : ∀ c r, (t.calls c).isRebuilding = true → t.cache.state ≠ .valid r

theorem Traffic.locked_start : (Traffic.start : Traffic ρ ε).Locked := ⟨nofun, nofun⟩

/-- The others do not hold the lock when a call holds it or has just been given it. -/
theorem Traffic.Locked.of_ne {t : Traffic ρ ε} (locked : t.Locked) {c d : Nat} {k : Cache ρ}
    {y : Call ρ ε} {a : Action ρ ε} (h : Call.Step t.cache (t.calls c) a k y)
    (hlock : a = .lock → t.Free) (hy : y.holdsLock = true) (hd : d ≠ c) :
    (t.calls d).holdsLock = false := by
  rcases h.of_holdsLock hy with hx | rfl
  · by_contra hheld
    exact hd (locked.exclusive d c (by simpa using hheld) hx)
  · exact hlock rfl d

theorem Traffic.Locked.step {t t' : Traffic ρ ε} {e : Event ρ ε} (locked : t.Locked)
    (step : Step t e t') : t'.Locked := by
  cases step with
  | invalidate => exact ⟨locked.exclusive, nofun⟩
  | @call c a k y h hlock =>
      have other {d : Nat} (hd : d ≠ c) : (t.move c k y).calls d = t.calls d :=
        t.calls_move_of_ne k y hd
      refine ⟨fun d d' hheld hheld' => ?_, fun d r hbuild hvalid => ?_⟩
      · by_cases hd : d = c <;> by_cases hd' : d' = c
        · rw [hd, hd']
        · rw [hd, Traffic.calls_move_self] at hheld
          rw [other hd', locked.of_ne h hlock hheld hd'] at hheld'
          cases hheld'
        · rw [hd', Traffic.calls_move_self] at hheld'
          rw [other hd, locked.of_ne h hlock hheld' hd] at hheld
          cases hheld
        · rw [other hd] at hheld
          rw [other hd'] at hheld'
          exact locked.exclusive d d' hheld hheld'
      · by_cases hd : d = c
        · rw [hd, Traffic.calls_move_self] at hbuild
          obtain ⟨rfl, hx | ⟨stale, hk⟩⟩ := h.of_isRebuilding hbuild
          · exact locked.invalid c r hx hvalid
          · rw [Traffic.cache_move, hk] at hvalid
            cases hvalid
        · rw [other hd] at hbuild
          rcases h.of_valid hvalid with hk | hx
          · exact locked.invalid d r hbuild hk
          · have hheld := Call.holdsLock_of_isRebuilding hbuild
            exact hd (locked.exclusive d c hheld (by rw [hx]; rfl))

theorem Run.locked {es : List (Event ρ ε)} {t : Traffic ρ ε} (run : Run .start es t) : t.Locked :=
  run.invariant Traffic.locked_start fun step locked => locked.step step

/-! ### What has been paid for -/

/-- Of a call that looked at a state which is gone: an invalidation has come since, and has paid for
the list that the call was given, or is to be given. -/
def Call.Paid (given invalidations version : Nat) : Call ρ ε → Prop
  | .loaded seen _ | .asking seen _ => seen ≠ version → given < invalidations
  | .answered seen _ => seen ≠ version → given ≤ invalidations
  | _ => True

/-- So many lists have been given after so many invalidations. The free one is in use only if the
last list is valid or may become so. -/
structure Traffic.Paid (given invalidations : Nat) (t : Traffic ρ ε) : Prop where
  le : given ≤ invalidations + 1
  spare : (∀ r, t.cache.state ≠ .valid r) → (∀ c seen r, t.calls c ≠ .answered seen r) →
    given ≤ invalidations
  calls : ∀ c, (t.calls c).Paid given invalidations t.cache.version

theorem Call.paid_of_not_holdsLock {x : Call ρ ε} (hx : x.holdsLock = false)
    (given invalidations version : Nat) : x.Paid given invalidations version := by
  cases x <;> trivial

section Payment

variable {t : Traffic ρ ε} {given invalidations : Nat}

/-- The free list is not in use while a call is about to ask. -/
theorem Traffic.Paid.le_of_rebuilding (paid : t.Paid given invalidations) (locked : t.Locked)
    {c : Nat} (hc : (t.calls c).isRebuilding = true)
    (hanswered : ∀ seen r, t.calls c ≠ .answered seen r) : given ≤ invalidations := by
  refine paid.spare (fun r => locked.invalid c r hc) fun d seen r hd => ?_
  have hheld := Call.holdsLock_of_isRebuilding hc
  obtain rfl := locked.exclusive d c (by rw [hd]; rfl) hheld
  exact hanswered seen r hd

theorem Traffic.Paid.invalidate (paid : t.Paid given invalidations) (locked : t.Locked) :
    Traffic.Paid given (invalidations + 1) { t with cache := t.cache.invalidate } where
  le := Nat.le_succ_of_le paid.le
  spare _ _ := paid.le
  calls c := by
    show (t.calls c).Paid _ _ _
    match hc : t.calls c with
    | .loaded _ _ | .asking _ _ =>
        intro _
        refine Nat.lt_succ_of_le (paid.le_of_rebuilding locked (c := c) (by rw [hc]; rfl) ?_)
        rw [hc]
        exact nofun
    | .answered _ _ => exact fun _ => paid.le
    | .absent | .arrived | .queued | .locked | .overtaken _ | .returned _ | .dropped => trivial

/-- While a call moves on, the others wait for the lock or have come back, or nothing happens that
concerns them. -/
theorem Traffic.Paid.of_ne (paid : t.Paid given invalidations) (locked : t.Locked) {c d : Nat}
    {k : Cache ρ} {y : Call ρ ε} {a : Action ρ ε} (h : Call.Step t.cache (t.calls c) a k y)
    (hd : d ≠ c) :
    (t.calls d).Paid (given + if (Event.call c a).gives then 1 else 0) invalidations k.version := by
  cases hx : (t.calls c).holdsLock with
  | false =>
      obtain ⟨rfl, hgives⟩ := h.of_not_holdsLock hx c
      rw [hgives]
      exact paid.calls d
  | true =>
      refine Call.paid_of_not_holdsLock ?_ _ _ _
      by_contra hheld
      exact hd (locked.exclusive d c (by simpa using hheld) hx)

/-- If a call that was not given a list moves on, one that has been given a list before is so still. -/
theorem Traffic.not_answered_of_move {c : Nat} {k : Cache ρ} {y : Call ρ ε}
    (hc : ∀ seen r, t.calls c ≠ .answered seen r)
    (hmoved : ∀ d seen r, (t.move c k y).calls d ≠ .answered seen r) :
    ∀ d seen r, t.calls d ≠ .answered seen r := by
  intro d seen r hd
  by_cases hdc : d = c
  · exact hc seen r (hdc ▸ hd)
  · exact hmoved d seen r (by rwa [t.calls_move_of_ne _ _ hdc])

/-- What a call has to have paid for when it has moved on. -/
theorem Traffic.Paid.self (paid : t.Paid given invalidations) (locked : t.Locked) {c : Nat}
    {k : Cache ρ} {y : Call ρ ε} {a : Action ρ ε} (h : Call.Step t.cache (t.calls c) a k y) :
    (given + if (Event.call c a).gives then 1 else 0) ≤ invalidations + 1 ∧
      y.Paid (given + if (Event.call c a).gives then 1 else 0) invalidations k.version := by
  have hc := paid.calls c
  have hle := paid.le_of_rebuilding locked (c := c)
  generalize t.calls c = x at h hc hle
  cases h with
  | answerOk =>
      -- The free list is given now, unless the state that the call looked at is gone.
      exact ⟨Nat.succ_le_succ (hle rfl nofun), fun hne => hc hne⟩
  | lookInvalid => exact ⟨paid.le, fun hne => absurd rfl hne⟩
  | ask => exact ⟨paid.le, hc⟩
  | _ => exact ⟨paid.le, trivial⟩

theorem Traffic.Paid.spare_move (paid : t.Paid given invalidations) (locked : t.Locked) {c : Nat}
    {k : Cache ρ} {y : Call ρ ε} {a : Action ρ ε} (h : Call.Step t.cache (t.calls c) a k y)
    (hvalid : ∀ r, k.state ≠ .valid r)
    (hmoved : ∀ d seen r, (t.move c k y).calls d ≠ .answered seen r) :
    (given + if (Event.call c a).gives then 1 else 0) ≤ invalidations := by
  have hc := paid.calls c
  have hle := paid.le_of_rebuilding locked (c := c)
  have hnone := fun hx => Traffic.not_answered_of_move (t := t) (c := c) hx hmoved
  have hself := hmoved c
  rw [Traffic.calls_move_self] at hself
  generalize t.calls c = x at h hc hle hnone
  cases h with
  | answerOk => exact absurd rfl (hself _ _)
  | install hk =>
      obtain ⟨-, rfl⟩ := install?_eq_some_iff.mp hk
      exact absurd rfl (hvalid _)
  | overtake hk =>
      refine hc fun heq => ?_
      rw [install?_eq_some_iff.mpr ⟨heq.symm, rfl⟩] at hk
      cases hk
  | keep => exact hle rfl nofun
  | _ => exact paid.spare hvalid (hnone nofun)

theorem Traffic.Paid.step {t' : Traffic ρ ε} {e : Event ρ ε} (paid : t.Paid given invalidations)
    (locked : t.Locked) (step : Step t e t') :
    t'.Paid (given + if e.gives then 1 else 0)
      (invalidations + if e.invalidates then 1 else 0) := by
  cases step with
  | invalidate => exact paid.invalidate locked
  | @call c a k y h _ =>
      refine ⟨(paid.self locked h).1, fun hvalid hmoved => ?_, fun d => ?_⟩
      · exact paid.spare_move locked h hvalid hmoved
      · by_cases hd : d = c
        · subst hd
          rw [Traffic.calls_move_self]
          exact (paid.self locked h).2
        · rw [t.calls_move_of_ne _ _ hd]
          exact paid.of_ne locked h hd

end Payment

theorem Run.paid {es : List (Event ρ ε)} {t : Traffic ρ ε} (run : Run .start es t) :
    t.Paid (es.countP Event.gives) (es.countP Event.invalidates) := by
  induction run with
  | nil => exact ⟨Nat.zero_le _, fun _ _ => Nat.le_refl _, fun _ => trivial⟩
  | snoc run step ih =>
      rw [List.countP_append, List.countP_append, List.countP_singleton, List.countP_singleton]
      exact ih.step (Run.locked run) step

/-! ### Where lists come from -/

/-- Some call has been given this list. -/
def Given (es : List (Event ρ ε)) (r : ρ) : Prop := ∃ c, Event.call c (.answer (.ok r)) ∈ es

theorem Given.snoc {es : List (Event ρ ε)} {r : ρ} (h : Given es r) (e : Event ρ ε) :
    Given (es ++ [e]) r :=
  h.imp fun _ => List.mem_append_left _

theorem Call.Step.of_list {k k' : Cache ρ} {x y : Call ρ ε} {a : Action ρ ε} {r : ρ}
    (h : Call.Step k x a k' y) (hr : y.list? = some r) :
    x.list? = some r ∨ k.state.snapshot = some r ∨ a = .answer (.ok r) := by
  cases h <;> simp_all [Call.list?, CacheState.snapshot]

theorem Call.Step.of_snapshot {k k' : Cache ρ} {x y : Call ρ ε} {a : Action ρ ε} {r : ρ}
    (h : Call.Step k x a k' y) (hr : k'.state.snapshot = some r) :
    k.state.snapshot = some r ∨ x.list? = some r := by
  cases h with
  | install hk =>
      obtain ⟨-, rfl⟩ := install?_eq_some_iff.mp hk
      exact .inr hr
  | keep =>
      rw [keepStale, state_replace] at hr
      cases hk : k.state with
      | valid current =>
          rw [hk] at hr
          exact .inl hr
      | invalidated stale =>
          rw [hk] at hr
          exact .inr hr
  | _ => exact .inl hr

/-- Every list in the cache, and every list of a call, has been given by the source. -/
structure Traffic.Sourced (es : List (Event ρ ε)) (t : Traffic ρ ε) : Prop where
  cache : ∀ r, t.cache.state.snapshot = some r → Given es r
  calls : ∀ c r, (t.calls c).list? = some r → Given es r

theorem Run.sourced {es : List (Event ρ ε)} {t : Traffic ρ ε} (run : Run .start es t) :
    t.Sourced es := by
  induction run with
  | nil => exact ⟨nofun, nofun⟩
  | snoc _ step ih =>
      cases step with
      | invalidate =>
          exact ⟨fun r hr => (ih.cache r hr).snoc _, fun c r hr => (ih.calls c r hr).snoc _⟩
      | @call c a k y h _ =>
          refine ⟨fun r hr => ?_, fun d r hr => ?_⟩
          · exact ((h.of_snapshot hr).elim (ih.cache r) (ih.calls c r)).snoc _
          · by_cases hd : d = c
            · rw [hd, Traffic.calls_move_self] at hr
              rcases h.of_list hr with hx | hk | rfl
              · exact (ih.calls c r hx).snoc _
              · exact (ih.cache r hk).snoc _
              · exact ⟨c, List.mem_append_right _ List.mem_cons_self⟩
            · rw [Traffic.calls_move_of_ne _ _ _ hd] at hr
              exact (ih.calls d r hr).snoc _

/-- A source that has given one list at most has given no two. -/
theorem Given.unique {es : List (Event ρ ε)} {r r' : ρ} (hone : es.countP Event.gives ≤ 1)
    (h : Given es r) (h' : Given es r') : r = r' := by
  obtain ⟨c, hc⟩ := h
  obtain ⟨d, hd⟩ := h'
  rw [List.countP_eq_length_filter] at hone
  have hc := List.mem_filter.mpr ⟨hc, show Event.gives _ = true from rfl⟩
  have hd := List.mem_filter.mpr ⟨hd, show Event.gives _ = true from rfl⟩
  obtain ⟨e, he⟩ := List.length_eq_one_iff.mp (Nat.le_antisymm hone (List.length_pos_of_mem hc))
  rw [he, List.mem_singleton] at hc hd
  cases hc.trans hd.symm
  rfl

/-! ### One asking for all -/

/-- However calls, their ends and invalidations are interleaved, one call at most waits for the
source at any moment, and the source gives one list more than the cache has been invalidated at
most. Without invalidations all calls that come back with a list come back with the same. -/
theorem one_asking_serves_all {es : List (Event ρ ε)} {t : Traffic ρ ε} (run : Run .start es t) :
    (∀ c d, (t.calls c).isAsking = true → (t.calls d).isAsking = true → c = d) ∧
    es.countP Event.gives ≤ 1 + es.countP Event.invalidates ∧
    (.invalidate ∉ es → ∀ c d r r', t.calls c = .returned (.ok r) →
      t.calls d = .returned (.ok r') → r = r') := by
  refine ⟨fun c d hc hd => ?_, ?_, fun hcalm c d r r' hc hd => ?_⟩
  · exact (Run.locked run).exclusive c d (Call.holdsLock_of_isAsking hc)
      (Call.holdsLock_of_isAsking hd)
  · rw [Nat.add_comm]
    exact (Run.paid run).le
  · have hnone : es.countP Event.invalidates = 0 := by
      refine List.countP_eq_zero.mpr fun e he hinv => ?_
      cases e with
      | invalidate => exact hcalm he
      | call _ _ => cases hinv
    have hone : es.countP Event.gives ≤ 1 := by
      have hle := (Run.paid run).le
      rwa [hnone] at hle
    have sourced := Run.sourced run
    exact (sourced.calls c r (by rw [hc]; rfl)).unique hone (sourced.calls d r' (by rw [hd]; rfl))

/-- Call 1 waits for the lock while call 0 asks. Call 0 is dropped, call 1 asks in its place and is
given the list 7, and call 2 finds it in the cache. -/
theorem one_asking_serves_all_of_dropped :
    let es := [Action.arrive, .glance, .lock, .look, .ask].map (Event.call 0) ++
      [Action.arrive, .glance].map (Event.call 1) ++ [.call 0 .drop] ++
      [Action.lock, .look, .ask, .answer (.ok 7), .swap].map (Event.call 1) ++
      [Action.arrive, .glance].map (Event.call 2)
    ∃ t : Traffic Nat String, Run .start es t ∧ t.calls 0 = .dropped ∧
      t.calls 1 = .returned (.ok 7) ∧ t.calls 2 = .returned (.ok 7) ∧
      es.countP Event.gives ≤ 1 + es.countP Event.invalidates ∧
      ∀ c d r r', t.calls c = .returned (.ok r) → t.calls d = .returned (.ok r') → r = r' := by
  intro es
  have free : (Traffic.start : Traffic Nat String).Free := fun _ => rfl
  have arrived := Run.arrive (t := (.start : Traffic Nat String)) (c := 0) rfl
  have locked := (arrived.move (.glanceInvalid rfl) nofun).move .lock fun _ => free.move rfl
  have asking := (locked.move (.lookInvalid rfl) nofun).move .ask nofun
  have arrived' : Run .start _ _ := asking.trans (Run.arrive (c := 1) rfl)
  have queued := arrived'.move (.glanceInvalid rfl) nofun
  have dropped : Run .start _ _ := queued.snoc (.call (c := 0) .dropAsking nofun)
  have locked' : Run .start _ _ := dropped.snoc (.call (c := 1) .lock fun _ d =>
    match d with
    | 0 | 1 | _ + 2 => rfl)
  have asking' := (locked'.move (.lookInvalid rfl) nofun).move .ask nofun
  have installed := (asking'.move (.answerOk (r := 7)) nofun).move (.install rfl) nofun
  have arrived'' : Run .start _ _ := installed.trans (Run.arrive (c := 2) rfl)
  have run : Run .start es _ := arrived''.move (.glanceValid rfl) nofun
  obtain ⟨-, hgiven, hsame⟩ := one_asking_serves_all run
  exact ⟨_, run, rfl, rfl, rfl, hgiven, hsame (by simp [es])⟩

end HttpGateway.Cache
