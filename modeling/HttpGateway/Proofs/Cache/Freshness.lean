import HttpGateway.Proofs.Cache.Interleaving

/-!
# No invalidation is lost

A call that begins after an invalidation is never served from before it: the list it comes back
with was given by the source to an asking that began later, unless its own asking failed and it
falls back on the last good list. In between stands an invariant on the events since the
invalidation: it ties every list that may still become valid to an asking among them.
-/

namespace HttpGateway.Cache

variable {ρ ε : Type}

/-- Among these events, a call asked the source and was given this list. -/
def Gave (es : List (Event ρ ε)) (c : Nat) (r : ρ) : Prop :=
  [Event.call c .ask, .call c (.answer (.ok r))].Sublist es

/-- This is what a call found as the last good list when it looked at the cache with the lock. -/
def FoundStale (es : List (Event ρ ε)) (c : Nat) (stale : Option ρ) : Prop :=
  ∃ before after, ∃ t : Traffic ρ ε, es = before ++ .call c .look :: after ∧
    Run .start before t ∧ t.cache.state = .invalidated stale

/-- The source failed the call itself, and this is the last good list it had found. -/
def FellBack (es : List (Event ρ ε)) (c : Nat) (r : ρ) : Prop :=
  (∃ e, Event.call c (.answer (.error e)) ∈ es) ∧ FoundStale es c (some r)

section Extension

variable {es : List (Event ρ ε)} {e : Event ρ ε} {c : Nat}

theorem Gave.snoc {r : ρ} (h : Gave es c r) : Gave (es ++ [e]) c r :=
  h.trans (List.sublist_append_left es [e])

theorem Gave.of_ask {r : ρ} (h : Event.call c .ask ∈ es) :
    Gave (es ++ [.call c (.answer (.ok r))]) c r :=
  (List.singleton_sublist.mpr h).append (List.Sublist.refl [_])

theorem FoundStale.snoc {stale : Option ρ} (h : FoundStale es c stale) :
    FoundStale (es ++ [e]) c stale := by
  obtain ⟨before, after, t, rfl, run, hstale⟩ := h
  exact ⟨before, after ++ [e], t, by simp, run, hstale⟩

theorem FellBack.snoc {r : ρ} (h : FellBack es c r) : FellBack (es ++ [e]) c r :=
  ⟨h.1.imp fun _ hmem => List.mem_append_left _ hmem, h.2.snoc⟩

end Extension

/-- A call that may fall back on a list did find it. -/
theorem Run.foundStale {es : List (Event ρ ε)} {t : Traffic ρ ε} (run : Run .start es t) {c : Nat}
    {stale : Option ρ} (hs : (t.calls c).stale? = some stale) : FoundStale es c stale := by
  induction run with
  | nil => cases hs
  | @snoc es e t _ run step ih =>
      cases step with
      | invalidate => exact (ih hs).snoc
      | @call d _ _ _ h _ =>
          by_cases hc : c = d
          · subst hc
            rw [Traffic.calls_move_self] at hs
            rcases h.of_stale hs with hx | ⟨rfl, hk⟩
            · exact (ih hx).snoc
            · exact ⟨es, [], t, rfl, run, hk⟩
          · rw [Traffic.calls_move_of_ne _ _ _ hc] at hs
            exact (ih hs).snoc

/-! ### The invariant on the events since an invalidation -/

/-- What the events `after` an invalidation say of a call: a list that it may still make valid, or
that it comes back with after arriving among these events, was given among them. `all` are the
events from the start. -/
def Call.Fresh (all after : List (Event ρ ε)) (version c : Nat) : Call ρ ε → Prop
  | .asking seen _ =>
      seen = version ∨ .call c .arrive ∈ after → .call c .ask ∈ after
  | .answered seen r => seen = version ∨ .call c .arrive ∈ after → Gave after c r
  | .overtaken r => .call c .arrive ∈ after → Gave after c r
  | .returned (.ok r) => .call c .arrive ∈ after → (∃ d, Gave after d r) ∨ FellBack all c r
  | _ => True

/-- The same of the cache and of all calls. -/
structure FreshSince (all after : List (Event ρ ε)) (t : Traffic ρ ε) : Prop where
  valid : ∀ r, t.cache.state = .valid r → ∃ d, Gave after d r
  calls : ∀ c, (t.calls c).Fresh all after t.cache.version c

section Preservation

variable {all after : List (Event ρ ε)} {c : Nat}

theorem mem_snoc_of_ne {e f : Event ρ ε} (hne : f ≠ e) (h : f ∈ after ++ [e]) : f ∈ after := by
  simpa [hne] using h

/-- Events in which a call does not arrive leave it fresh, as long as the state it started from does
not become the present one. -/
theorem Call.Fresh.snoc {x : Call ρ ε} {version version' : Nat} {e : Event ρ ε}
    (h : x.Fresh all after version c) (he : Event.call c .arrive ≠ e)
    (hv : ∀ n, x.seen? = some n → n = version' → n = version) :
    x.Fresh (all ++ [e]) (after ++ [e]) version' c := by
  have arrived : .call c .arrive ∈ after ++ [e] → .call c .arrive ∈ after := mem_snoc_of_ne he
  match x with
  | .asking seen _ =>
      intro hc
      exact List.mem_append_left _ (h (hc.imp (hv _ rfl) arrived))
  | .answered seen r =>
      intro hc
      exact (h (hc.imp (hv _ rfl) arrived)).snoc
  | .overtaken r =>
      intro hc
      exact (h (arrived hc)).snoc
  | .returned (.ok r) =>
      intro hc
      exact (h (arrived hc)).imp (fun ⟨d, hd⟩ => ⟨d, hd.snoc⟩) FellBack.snoc
  | .returned (.error _) | .absent | .arrived | .queued | .locked | .loaded _ _ | .dropped =>
      trivial

/-- A call stays fresh when it moves on. -/
theorem Call.Step.fresh {k k' : Cache ρ} {x y : Call ρ ε} {a : Action ρ ε}
    (h : Call.Step k x a k' y) (hx : x.Fresh all after k.version c)
    (hvalid : ∀ r, k.state = .valid r → ∃ d, Gave after d r)
    (hstale : ∀ s, x.stale? = some s → FoundStale all c s) :
    y.Fresh (all ++ [.call c a]) (after ++ [.call c a]) k'.version c := by
  cases h with
  | glanceValid hk | lookValid hk =>
      intro _
      obtain ⟨d, hd⟩ := hvalid _ hk
      exact .inl ⟨d, hd.snoc⟩
  | ask => exact fun _ => List.mem_append_right _ List.mem_cons_self
  | answerOk =>
      intro hc
      exact .of_ask (hx (hc.imp_right (mem_snoc_of_ne (by simp))))
  | answerStale =>
      intro _
      exact .inr ⟨⟨_, List.mem_append_right _ List.mem_cons_self⟩, (hstale _ rfl).snoc⟩
  | install hk =>
      intro _
      obtain ⟨rfl, -⟩ := install?_eq_some_iff.mp hk
      exact .inl ⟨c, (hx (.inl rfl)).snoc⟩
  | overtake hk =>
      intro hc
      exact (hx (.inr (mem_snoc_of_ne (by simp) hc))).snoc
  | keep =>
      intro hc
      exact .inl ⟨c, (hx (mem_snoc_of_ne (by simp) hc)).snoc⟩
  | _ => trivial

end Preservation

/-- Right after an invalidation nothing is valid, and no call has started from the present state. -/
theorem FreshSince.invalidate {es : List (Event ρ ε)} {t : Traffic ρ ε} (run : Run .start es t) :
    FreshSince (es ++ [.invalidate]) [] { t with cache := t.cache.invalidate } where
  valid r hr := by simp at hr
  calls c := by
    have hseen : ∀ n, (t.calls c).seen? = some n → n ≠ t.cache.invalidate.version := by
      intro n hn
      exact Nat.ne_of_lt (Nat.lt_succ_of_le (run.seen_le hn))
    show (t.calls c).Fresh _ _ _ c
    match hx : t.calls c with
    | .asking seen _ | .answered seen _ =>
        rintro (heq | hmem)
        · exact absurd heq (hseen seen (by rw [hx]; rfl))
        · cases hmem
    | .overtaken _ | .returned (.ok _) => nofun
    | .returned (.error _) | .absent | .arrived | .queued | .locked | .loaded _ _ | .dropped =>
        trivial

theorem FreshSince.snoc {all after : List (Event ρ ε)} {t t' : Traffic ρ ε} {e : Event ρ ε}
    (fresh : FreshSince all after t) (run : Run .start all t) (step : Step t e t') :
    FreshSince (all ++ [e]) (after ++ [e]) t' := by
  cases step with
  | invalidate =>
      have hseen : ∀ c n, (t.calls c).seen? = some n → n ≠ t.cache.invalidate.version :=
        fun c n hn => Nat.ne_of_lt (Nat.lt_succ_of_le (run.seen_le hn))
      exact {
        valid := fun r hr => by simp at hr
        calls := fun c => (fresh.calls c).snoc nofun fun n hn heq => absurd heq (hseen c n hn) }
  | @call c a k y h _ =>
      refine ⟨?_, ?_⟩
      · intro r hr
        -- Only a call that started from the present state makes its list the valid one.
        rcases h.of_valid hr with hk | hx
        · obtain ⟨d, hd⟩ := fresh.valid r hk
          exact ⟨d, hd.snoc⟩
        · have hc := fresh.calls c
          rw [hx] at hc
          exact ⟨c, (hc (.inl rfl)).snoc⟩
      · intro d
        by_cases hd : d = c
        · subst hd
          rw [Traffic.calls_move_self]
          exact h.fresh (fresh.calls d) fresh.valid fun s hs => run.foundStale hs
        · rw [Traffic.calls_move_of_ne _ _ _ hd]
          refine (fresh.calls d).snoc (by simp [hd]) fun n hn heq => ?_
          -- The number of a state that is gone does not come back.
          have hle := run.seen_le hn
          have hgrows := h.version_le
          rw [Traffic.cache_move] at heq
          omega

/-- Whatever happened before an invalidation, what happens after it is fresh. -/
theorem Run.freshSince {before after : List (Event ρ ε)} {t : Traffic ρ ε}
    (run : Run .start (before ++ .invalidate :: after) t) :
    FreshSince (before ++ .invalidate :: after) after t := by
  -- The events since the invalidation are taken away one by one, the last first.
  induction after using List.reverseRecOn generalizing t with
  | nil =>
      obtain ⟨u, hu, step⟩ := run.of_snoc
      cases step
      exact .invalidate hu
  | append_singleton after e ih =>
      rw [← List.cons_append, ← List.append_assoc] at run ⊢
      obtain ⟨u, hu, step⟩ := run.of_snoc
      exact (ih hu).snoc hu step

/-! ### No lost invalidation -/

/-- No invalidation is lost, however calls, their ends and invalidations are interleaved. A call
that arrives after an invalidation and comes back with a list comes back with one that the source
gave to an asking begun after the invalidation, unless the source failed this very call and it
falls back on the last good list. And a list is valid, or is made valid by the call that was given
it, only if it was given to an asking begun after every invalidation so far. -/
theorem list_fresh_after_invalidate {before after : List (Event ρ ε)} {t : Traffic ρ ε}
    (run : Run .start (before ++ .invalidate :: after) t) :
    (∀ c r, .call c .arrive ∈ after → t.calls c = .returned (.ok r) →
      (∃ d, Gave after d r) ∨ FellBack (before ++ .invalidate :: after) c r) ∧
    (∀ r, t.cache.state = .valid r → ∃ d, Gave after d r) ∧
    (∀ c r t', Step t (.call c .swap) t' → t'.calls c = .returned (.ok r) →
      t'.cache.state = .valid r ∧ Gave after c r) := by
  have fresh := run.freshSince
  refine ⟨?_, fresh.valid, ?_⟩
  · intro c r harrive hret
    have hc := fresh.calls c
    rw [hret] at hc
    exact hc harrive
  · intro c r t' step hret
    cases step with
    | @call _ _ k y h _ =>
        rw [Traffic.calls_move_self] at hret
        subst hret
        have hc := fresh.calls c
        generalize t.calls c = x at h hc
        cases h with
        | install hk =>
            obtain ⟨rfl, rfl⟩ := install?_eq_some_iff.mp hk
            exact ⟨rfl, hc (.inl rfl)⟩

/-- An invalidation lands while call 0 waits for the source. The list 1 that it is given does not
become valid, and call 1, which arrives later, asks anew and comes back with the list 2. -/
theorem list_fresh_after_invalidate_while_asking :
    let before := [Action.arrive, .glance, .lock, .look, .ask].map (Event.call 0)
    let after := [Action.answer (.ok 1), .swap, .keep].map (Event.call 0) ++
      [Action.arrive, .glance, .lock, .look, .ask, .answer (.ok 2), .swap].map (Event.call 1)
    ∃ t : Traffic Nat String, Run .start (before ++ .invalidate :: after) t ∧
      t.calls 1 = .returned (.ok 2) ∧ t.cache.state = .valid 2 ∧
      ((∃ d, Gave after d 2) ∨ FellBack (before ++ .invalidate :: after) 1 2) := by
  intro before after
  have free : (Traffic.start : Traffic Nat String).Free := fun _ => rfl
  have arrived := Run.arrive (t := (.start : Traffic Nat String)) (c := 0) rfl
  have locked := (arrived.move (.glanceInvalid rfl) nofun).move .lock fun _ => free.move rfl
  have asking := (locked.move (.lookInvalid rfl) nofun).move .ask nofun
  have waited : Run .start _ _ := asking.trans (.single .invalidate)
  have answered := waited.move (.answerOk (r := 1)) nofun
  have first := (answered.move (.overtake rfl) nofun).move .keep nofun
  have arrived' : Run .start _ _ := first.trans (Run.arrive (c := 1) rfl)
  have locked' := (arrived'.move (.glanceInvalid rfl) nofun).move .lock fun _ =>
    (free.move rfl).move rfl
  have asking' := (locked'.move (.lookInvalid rfl) nofun).move .ask nofun
  have run := (asking'.move (.answerOk (r := 2)) nofun).move (.install rfl) nofun
  refine ⟨_, run, by simp, rfl, ?_⟩
  have fresh := list_fresh_after_invalidate (show Run .start (before ++ .invalidate :: after) _ from run)
  exact fresh.1 1 2 (by simp [after]) (by simp)

end HttpGateway.Cache
