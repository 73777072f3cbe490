import HttpGateway.Proofs.Cache.Sharing

/-!
# The last good list

The list that the source gave last is never lost. It is in the cache, valid or not, or the call that
was given it is about to put it there; only one call at a time can be, since it holds the lock. An
invalidation leaves it where it is, whenever it comes. So a call that the source fails comes back
with that list, if there has been any, and the cache stays as it was.
-/

namespace HttpGateway.Cache

variable {ρ ε : Type} {last : Option ρ} {es later : List (Event ρ ε)} {e : Event ρ ε}
  {t t' u : Traffic ρ ε} {k k' : Cache ρ} {x y : Call ρ ε} {a : Action ρ ε} {c : Nat}

/-- The list that the source gives. -/
def Event.given? : Event ρ ε → Option ρ
  | .call _ (.answer (.ok r)) => some r
  | _ => none

/-- The list that the source gave last. -/
def lastGiven (es : List (Event ρ ε)) : Option ρ := (es.filterMap Event.given?).getLast?

/-- The list that a call has been given and has not put into the cache yet. -/
def Call.unsaved? : Call ρ ε → Option ρ
  | .answered _ r | .overtaken r => some r
  | _ => none

/-- What a call comes back with when the source fails it. -/
def fallBack (last : Option ρ) (cause : ε) : Except ε ρ :=
  match last with
  | some r => .ok r
  | none => .error cause

theorem lastGiven_snoc (es : List (Event ρ ε)) (e : Event ρ ε) :
    lastGiven (es ++ [e]) = e.given?.or (lastGiven es) := by
  simp only [lastGiven, List.filterMap_append, List.getLast?_append, List.filterMap_cons,
    List.filterMap_nil]
  cases e.given? <;> rfl

theorem Event.given?_eq_none_of_not_gives (h : e.gives = false) : e.given? = none := by
  match e with
  | .call _ (.answer (.ok _)) => cases h
  | .invalidate | .call _ (.answer (.error _)) | .call _ .arrive | .call _ .glance | .call _ .lock
  | .call _ .look | .call _ .ask | .call _ .swap | .call _ .keep | .call _ .drop => rfl

theorem Call.unsaved?_of_not_holdsLock (h : x.holdsLock = false) : x.unsaved? = none := by
  cases x <;> first | rfl | cases h

theorem Call.stale?_of_not_holdsLock (h : x.holdsLock = false) : x.stale? = none := by
  cases x <;> first | rfl | cases h

theorem snapshot_invalidateTimes (k : Cache ρ) (n : Nat) :
    (k.invalidateTimes n).state.snapshot = k.state.snapshot := by
  induction n generalizing k with
  | zero => rfl
  | succ n ih => exact ih k.invalidate

/-! ### Where the last list is -/

/-- This list is in the cache unless a call has still to put it there; a call that may fall back on
a list falls back on this one. -/
structure Traffic.Keeps (last : Option ρ) (t : Traffic ρ ε) : Prop where
  cache : (∀ c, (t.calls c).unsaved? = none) → t.cache.state.snapshot = last
  stale : ∀ c s, (t.calls c).stale? = some s → s = last
  unsaved : ∀ c r, (t.calls c).unsaved? = some r → last = some r

/-- While a call holds the lock, no other has a list to put into the cache. -/
theorem Traffic.Locked.unsaved? (locked : t.Locked) (hc : (t.calls c).holdsLock = true)
    (hsaved : (t.calls c).unsaved? = none) (d : Nat) : (t.calls d).unsaved? = none := by
  by_cases hd : d = c
  · rw [hd, hsaved]
  · refine Call.unsaved?_of_not_holdsLock ?_
    by_contra hheld
    exact hd (locked.exclusive d c (by simpa using hheld) hc)

/-- What a step of a call leaves in the cache. -/
theorem Traffic.Keeps.snapshot (keeps : t.Keeps last) (locked : t.Locked)
    (h : Call.Step t.cache (t.calls c) a k y)
    (hsaved : ∀ d, ((t.move c k y).calls d).unsaved? = none) :
    k.state.snapshot = (Event.call c a).given?.or last := by
  -- If the call itself has nothing left to put into the cache, nobody had.
  have hother : (t.calls c).unsaved? = none → t.cache.state.snapshot = last := by
    refine fun hc => keeps.cache fun d => ?_
    by_cases hd : d = c
    · rw [hd, hc]
    · rw [← t.calls_move_of_ne k y hd]
      exact hsaved d
  have hself := hsaved c
  rw [Traffic.calls_move_self] at hself
  have hlast := keeps.unsaved c
  have hinvalid := locked.invalid c
  generalize t.calls c = x at h hother hlast hinvalid
  cases h with
  | answerOk => cases hself
  | overtake => cases hself
  | install hk =>
      obtain ⟨-, rfl⟩ := install?_eq_some_iff.mp hk
      exact (hlast _ rfl).symm
  | keep =>
      rw [keepStale, state_replace]
      cases hk : t.cache.state with
      | valid r => exact absurd hk (hinvalid r rfl)
      | invalidated stale => exact (hlast _ rfl).symm
  | _ => exact hother rfl

/-- What a call falls back on, and what it has still to put into the cache, after a step. -/
theorem Traffic.Keeps.self (keeps : t.Keeps last) (locked : t.Locked)
    (h : Call.Step t.cache (t.calls c) a k y) (hlock : a = .lock → t.Free) :
    (∀ s, y.stale? = some s → s = (Event.call c a).given?.or last) ∧
      ∀ r, y.unsaved? = some r → (Event.call c a).given?.or last = some r := by
  have hstale := keeps.stale c
  have hlast := keeps.unsaved c
  have hsaved := locked.unsaved? (c := c)
  have hcache := keeps.cache
  generalize t.calls c = x at h hstale hlast hsaved
  cases h with
  | lookInvalid hk =>
      refine ⟨fun s hs => ?_, nofun⟩
      have hsnapshot := hcache (hsaved rfl rfl)
      rw [hk] at hsnapshot
      exact (Option.some.inj hs).symm.trans hsnapshot
  | ask => exact ⟨hstale, nofun⟩
  | answerOk => exact ⟨nofun, fun r hr => hr⟩
  | overtake => exact ⟨nofun, hlast⟩
  | _ => exact ⟨nofun, nofun⟩

/-- The other calls wait for the lock, or nothing is given that concerns them. -/
theorem Traffic.Keeps.of_ne (keeps : t.Keeps last) (locked : t.Locked)
    (h : Call.Step t.cache (t.calls c) a k y) {d : Nat} (hd : d ≠ c) :
    (∀ s, (t.calls d).stale? = some s → s = (Event.call c a).given?.or last) ∧
      ∀ r, (t.calls d).unsaved? = some r → (Event.call c a).given?.or last = some r := by
  cases hx : (t.calls c).holdsLock with
  | false =>
      rw [Event.given?_eq_none_of_not_gives (h.of_not_holdsLock hx c).2]
      exact ⟨keeps.stale d, keeps.unsaved d⟩
  | true =>
      have hfree : (t.calls d).holdsLock = false := by
        by_contra hheld
        exact hd (locked.exclusive d c (by simpa using hheld) hx)
      rw [Call.stale?_of_not_holdsLock hfree, Call.unsaved?_of_not_holdsLock hfree]
      exact ⟨nofun, nofun⟩

theorem Traffic.Keeps.step (keeps : t.Keeps last) (locked : t.Locked) (step : Step t e t') :
    t'.Keeps (e.given?.or last) := by
  cases step with
  | invalidate => exact ⟨keeps.cache, keeps.stale, keeps.unsaved⟩
  | @call c a k y h hlock =>
      have hcalls (d : Nat) :
          (∀ s, ((t.move c k y).calls d).stale? = some s → s = (Event.call c a).given?.or last) ∧
            ∀ r, ((t.move c k y).calls d).unsaved? = some r →
              (Event.call c a).given?.or last = some r := by
        by_cases hd : d = c
        · rw [hd, Traffic.calls_move_self]
          exact keeps.self locked h hlock
        · rw [t.calls_move_of_ne _ _ hd]
          exact keeps.of_ne locked h hd
      exact ⟨keeps.snapshot locked h, fun d => (hcalls d).1, fun d => (hcalls d).2⟩

theorem Run.keeps (run : Run .start es t) : t.Keeps (lastGiven es) := by
  induction run with
  | nil => exact ⟨fun _ => rfl, nofun, nofun⟩
  | snoc run step ih =>
      rw [lastGiven_snoc]
      exact ih.step (Run.locked run) step

/-! ### Failures -/

/-- A call that the source fails comes back with the last list, or with the cause if there is none,
and nothing else changes. -/
theorem Run.step_failure_iff (run : Run .start es t) {cause : ε} :
    Step t (.call c (.answer (.error cause))) t' ↔ (t.calls c).isAsking = true ∧
      t' = t.move c t.cache (.returned (fallBack (lastGiven es) cause)) := by
  constructor
  · intro step
    cases step with
    | @call _ _ k y h _ =>
        have hstale := (Run.keeps run).stale c
        generalize t.calls c = x at h hstale
        cases h with
        | answerStale | answerError =>
            rw [← hstale _ rfl]
            exact ⟨rfl, rfl⟩
  · rintro ⟨hasking, rfl⟩
    have hstale := (Run.keeps run).stale c
    cases hc : t.calls c with
    | asking seen stale =>
        rw [hc] at hstale
        rw [← hstale stale rfl]
        refine .call ?_ nofun
        rw [hc]
        cases stale with
        | none => exact .answerError
        | some r => exact .answerStale
    | _ =>
        rw [hc] at hasking
        cases hasking

/-- A call comes back with an error if the source failed it and had never given a list before. -/
theorem Run.exists_failure (run : Run .start es t) {cause : ε}
    (hc : t.calls c = .returned (.error cause)) :
    ∃ before after, es = before ++ .call c (.answer (.error cause)) :: after ∧
      lastGiven before = none := by
  induction run with
  | nil => cases hc
  | @snoc es e t _ run step ih =>
      have earlier (h : t.calls c = .returned (.error cause)) :
          ∃ before after, es ++ [e] = before ++ .call c (.answer (.error cause)) :: after ∧
            lastGiven before = none := by
        obtain ⟨before, after, rfl, hnone⟩ := ih h
        exact ⟨before, after ++ [e], by simp, hnone⟩
      cases step with
      | invalidate => exact earlier hc
      | @call d a k y h hlock =>
          by_cases hd : c = d
          · subst hd
            rw [Traffic.calls_move_self] at hc
            subst hc
            obtain rfl := h.of_error
            refine ⟨es, [], rfl, ?_⟩
            -- With a list to fall back on, the call would have come back with it.
            obtain ⟨-, hmoved⟩ := (Run.step_failure_iff run).mp (.call h hlock)
            have hself := congrArg (fun s => s.calls c) hmoved
            simp only [Traffic.calls_move_self] at hself
            cases hlast : lastGiven es with
            | none => rfl
            | some r =>
                rw [hlast] at hself
                cases hself
          · rw [Traffic.calls_move_of_ne _ _ _ hd] at hc
            exact earlier hc

/-! ### After a failure -/

/-- Nothing is valid, nobody has a list to put into the cache, and whoever has come back since was
back before or has been failed by the source itself. -/
structure FailedSince (first : Traffic ρ ε) (later : List (Event ρ ε)) (t : Traffic ρ ε) : Prop where
  invalid : ∀ r, t.cache.state ≠ .valid r
  saved : ∀ c, (t.calls c).unsaved? = none
  returned : ∀ c result, t.calls c = .returned result →
    first.calls c = .returned result ∨ ∃ cause, .call c (.answer (.error cause)) ∈ later

/-- While nothing is valid and the source gives nothing, a call comes back only by being failed. -/
theorem Call.Step.of_invalid (h : Call.Step k x a k' y) (hinvalid : ∀ r, k.state ≠ .valid r)
    (hsaved : x.unsaved? = none) (hgives : (Event.call c a).gives = false) :
    k' = k ∧ y.unsaved? = none ∧
      ∀ result, y = .returned result → ∃ cause, a = .answer (.error cause) := by
  cases h with
  | glanceValid hk | lookValid hk => exact absurd hk (hinvalid _)
  | answerOk => cases hgives
  | install | overtake | keep => cases hsaved
  | answerStale | answerError => exact ⟨rfl, rfl, fun _ _ => ⟨_, rfl⟩⟩
  | _ => exact ⟨rfl, rfl, nofun⟩

theorem FailedSince.snoc (h : FailedSince u later t) (step : Step t e t')
    (hgives : e.gives = false) : FailedSince u (later ++ [e]) t' := by
  have hreturned (c : Nat) (result : Except ε ρ) (hc : t.calls c = .returned result) :
      u.calls c = .returned result ∨ ∃ cause, .call c (.answer (.error cause)) ∈ later ++ [e] :=
    (h.returned c result hc).imp_right fun ⟨cause, hmem⟩ => ⟨cause, List.mem_append_left _ hmem⟩
  cases step with
  | invalidate => exact ⟨nofun, h.saved, hreturned⟩
  | @call c a k y hcall _ =>
      obtain ⟨rfl, hsaved, hback⟩ := hcall.of_invalid h.invalid (h.saved c) hgives
      refine ⟨h.invalid, fun d => ?_, fun d result hd => ?_⟩
      · by_cases hdc : d = c
        · rw [hdc, Traffic.calls_move_self, hsaved]
        · rw [t.calls_move_of_ne _ _ hdc, h.saved d]
      · by_cases hdc : d = c
        · rw [hdc, Traffic.calls_move_self] at hd
          obtain ⟨cause, rfl⟩ := hback result hd
          exact .inr ⟨cause, by simp [hdc]⟩
        · rw [t.calls_move_of_ne _ _ hdc] at hd
          exact hreturned d result hd

/-- As long as the source gives nothing after a failure, every reader tries anew. -/
theorem Run.failedSince (run : Run .start es t) {cause : ε}
    (step : Step t (.call c (.answer (.error cause))) t') (run' : Run t' later u)
    (hgives : ∀ e ∈ later, e.gives = false) : FailedSince t' later u := by
  induction run' with
  | nil =>
      obtain ⟨hasking, rfl⟩ := (Run.step_failure_iff run).mp step
      have locked := Run.locked run
      have hbuild : (t.calls c).isRebuilding = true ∧ (t.calls c).unsaved? = none := by
        cases hc : t.calls c with
        | asking => exact ⟨rfl, rfl⟩
        | _ =>
            rw [hc] at hasking
            cases hasking
      refine ⟨fun r => locked.invalid c r hbuild.1, fun d => ?_, fun d result hd => .inl hd⟩
      by_cases hd : d = c
      · rw [hd, Traffic.calls_move_self]
        rfl
      · rw [t.calls_move_of_ne _ _ hd]
        exact locked.unsaved? (Call.holdsLock_of_isRebuilding hbuild.1) hbuild.2 d
  | snoc _ hstep ih =>
      obtain ⟨hlater, hlast⟩ := List.forall_mem_append.mp hgives
      exact (ih hlater).snoc hstep (hlast _ List.mem_cons_self)

theorem lastGiven_append_of_not_gives (es : List (Event ρ ε)) (h : ∀ e ∈ later, e.gives = false) :
    lastGiven (es ++ later) = lastGiven es := by
  have hnone : later.filterMap Event.given? = [] :=
    List.filterMap_eq_nil_iff.mpr fun e he => Event.given?_eq_none_of_not_gives (h e he)
  rw [lastGiven, List.filterMap_append, hnone, List.append_nil, lastGiven]

/-! ### The fallback -/

/-- However calls, their ends and invalidations are interleaved: a call that the source fails comes
back with the list that the source gave last, and with the cause only if it has never given any. The
failure changes nothing else, so that the cache stays invalid with that list in it, and until the
source gives another one nobody comes back without having been failed by the source as well. The
last list is always in the cache, or about to be put there by the call that was given it, and no
number of invalidations removes it. -/
theorem failure_falls_back {es : List (Event ρ ε)} {t : Traffic ρ ε} (run : Run .start es t) :
    (∀ c cause t', Step t (.call c (.answer (.error cause))) t' ↔ (t.calls c).isAsking = true ∧
      t' = t.move c t.cache (.returned (fallBack (lastGiven es) cause))) ∧
    (∀ c cause, t.calls c = .returned (.error cause) → ∃ before after,
      es = before ++ .call c (.answer (.error cause)) :: after ∧ lastGiven before = none) ∧
    (∀ c cause t' later u, Step t (.call c (.answer (.error cause))) t' → Run t' later u →
      (∀ e ∈ later, e.gives = false) → u.cache.state = .invalidated (lastGiven es) ∧
        ∀ d result, u.calls d = .returned result →
          t'.calls d = .returned result ∨ ∃ cause', .call d (.answer (.error cause')) ∈ later) ∧
    (t.cache.state.snapshot = lastGiven es ∨
      ∃ c r, (t.calls c).unsaved? = some r ∧ lastGiven es = some r) ∧
    ∀ n, (t.cache.invalidateTimes n).state.snapshot = t.cache.state.snapshot := by
  refine ⟨fun c cause t' => Run.step_failure_iff run, fun c cause => Run.exists_failure run, ?_, ?_,
    snapshot_invalidateTimes t.cache⟩
  · intro c cause t' later u step run' hgives
    have failed := Run.failedSince run step run' hgives
    refine ⟨?_, failed.returned⟩
    have hsnapshot := (Run.keeps ((run.snoc step).trans run')).cache failed.saved
    rw [lastGiven_append_of_not_gives _ hgives, lastGiven_snoc] at hsnapshot
    cases hstate : u.cache.state with
    | valid r => exact absurd hstate (failed.invalid r)
    | invalidated stale =>
        rw [hstate] at hsnapshot
        exact congrArg CacheState.invalidated hsnapshot
  · have keeps := Run.keeps run
    by_cases hsaved : ∀ c, (t.calls c).unsaved? = none
    · exact .inl (keeps.cache hsaved)
    · obtain ⟨c, hc⟩ := not_forall.mp hsaved
      obtain ⟨r, hr⟩ := Option.ne_none_iff_exists'.mp hc
      exact .inr ⟨c, r, hr, keeps.unsaved c r hr⟩

/-- An invalidation lands while call 0 waits for the source, and another between its lost swap and
its next step. The list 7 that it is given stays the last good one, and call 1 comes back with it
when the source fails. -/
theorem failure_falls_back_after_lost_swap :
    let es := [Action.arrive, .glance, .lock, .look, .ask].map (Event.call 0) ++ [.invalidate] ++
      [Action.answer (.ok 7), .swap].map (Event.call 0) ++ [.invalidate] ++ [.call 0 .keep] ++
      [Action.arrive, .glance, .lock, .look, .ask].map (Event.call 1)
    ∃ t u : Traffic Nat String, Run .start es t ∧
      Step t (.call 1 (.answer (.error "down"))) u ∧ u.calls 1 = .returned (.ok 7) ∧
      u.cache.state = .invalidated (some 7) := by
  intro es
  have free : (Traffic.start : Traffic Nat String).Free := fun _ => rfl
  have arrived := Run.arrive (t := (.start : Traffic Nat String)) (c := 0) rfl
  have locked := (arrived.move (.glanceInvalid rfl) nofun).move .lock fun _ => free.move rfl
  have asking := (locked.move (.lookInvalid rfl) nofun).move .ask nofun
  have waited : Run .start _ _ := asking.trans (.single .invalidate)
  have overtaken := (waited.move (.answerOk (r := 7)) nofun).move (.overtake rfl) nofun
  have waited' : Run .start _ _ := overtaken.trans (.single .invalidate)
  have kept := waited'.move .keep nofun
  have arrived' : Run .start _ _ := kept.trans (Run.arrive (c := 1) rfl)
  have locked' := (arrived'.move (.glanceInvalid rfl) nofun).move .lock fun _ =>
    (free.move rfl).move rfl
  have run : Run .start es _ := (locked'.move (.lookInvalid rfl) nofun).move .ask nofun
  obtain ⟨hfails, -, hlater, -⟩ := failure_falls_back run
  have step := (hfails 1 "down" _).mpr ⟨rfl, rfl⟩
  exact ⟨_, _, run, step, rfl, (hlater 1 "down" _ [] _ step .nil nofun).1⟩

end HttpGateway.Cache
