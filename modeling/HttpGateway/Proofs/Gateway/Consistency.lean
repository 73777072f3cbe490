import HttpGateway.Proofs.Gateway.Interleaving

/-!
# The routes are those of the sources

When nothing that concerns the cache is under way, a valid list of routes is the one that the two
sources make as they stand. The invariant speaks of every moment: it says of every list that is
valid, or may still become so, which definitions it can have been made from. While a change to the
repository is on its way these are any, and likewise while a reload is half done; every end of such
a time invalidates the cache, and then there is no such list.
-/

namespace HttpGateway

open Cache (Call Traffic)

/-- Which configured and which stored definitions a list may have been made from. -/
structure Scope where
  configured : List RouteDefinition → Prop
  stored : List RouteDefinition → Prop

structure Scope.Le (S S' : Scope) : Prop where
  configured : ∀ {p}, S.configured p → S'.configured p
  stored : ∀ {q}, S.stored q → S'.stored q

/-- The list can be made from definitions of the scope. -/
def Scope.Gives (S : Scope) (κ : RouteCompiler) (r : List Route) : Prop :=
  ∃ p q, S.configured p ∧ S.stored q ∧ r = κ.compileAll (p ++ q)

/-- What a call has read so far lies in the scope. -/
def Reading.Within (S : Scope) : Reading → Prop
  | .nothing => True
  | .configured p => S.configured p
  | .both p q => S.configured p ∧ S.stored q

theorem Scope.Gives.mono {S S' : Scope} {κ : RouteCompiler} {r : List Route} (h : S.Gives κ r)
    (hS : S.Le S') : S'.Gives κ r := by
  obtain ⟨p, q, hp, hq, hr⟩ := h
  exact ⟨p, q, hS.configured hp, hS.stored hq, hr⟩

theorem Reading.Within.mono {S S' : Scope} {x : Reading} (h : x.Within S) (hS : S.Le S') :
    x.Within S' := by
  cases x with
  | nothing => trivial
  | configured p => exact hS.configured h
  | both p q => exact ⟨hS.configured h.1, hS.stored h.2⟩

namespace Site

variable {κ : RouteCompiler} {S S' : Scope}

/-- What is known of a call that has read this much. What it may still make valid lies in the scope,
and so does what it comes back with if it is a late call. -/
def CallSound (κ : RouteCompiler) (S : Scope) (version : Nat) (late : Prop) (reading : Reading) :
    Call (List Route) GatewayError → Prop
  | .absent | .arrived | .queued | .locked | .loaded _ _ => reading = .nothing
  | .asking seen _ => seen = version ∨ late → reading.Within S
  | .answered seen r => seen = version ∨ late → S.Gives κ r
  | .overtaken r | .returned (.ok r) => late → S.Gives κ r
  | .returned (.error _) | .dropped => True

/-- The same of the valid list and of all calls. -/
structure Sound (κ : RouteCompiler) (S : Scope) (late : Nat → Prop)
    (t : Traffic (List Route) GatewayError) (readings : Nat → Reading) : Prop where
  valid : ∀ r, t.cache.state = .valid r → S.Gives κ r
  calls : ∀ c, CallSound κ S t.cache.version (late c) (readings c) (t.calls c)

/-! ### One step of the cache -/

theorem CallSound.mono {version version' : Nat} {late late' : Prop} {reading : Reading}
    {x : Call (List Route) GatewayError} (h : CallSound κ S version late reading x) (hS : S.Le S')
    (hlate : late' → late) (hv : ∀ n, x.seen? = some n → n = version' → n = version) :
    CallSound κ S' version' late' reading x := by
  match x with
  | .absent | .arrived | .queued | .locked | .loaded _ _ => exact h
  | .asking seen _ =>
      intro hc
      exact (h (hc.imp (hv _ rfl) hlate)).mono hS
  | .answered seen r =>
      intro hc
      exact (h (hc.imp (hv _ rfl) hlate)).mono hS
  | .overtaken r | .returned (.ok r) =>
      intro hc
      exact (h (hlate hc)).mono hS
  | .returned (.error _) | .dropped => trivial

/-- A call that moves on stays sound, whether it is late from the start or not at all. -/
theorem CallSound.step {k k' : Cache (List Route)} {x y : Call (List Route) GatewayError}
    {a : Cache.Action (List Route) GatewayError} {late late' : Prop} {reading : Reading}
    (hx : CallSound κ S k.version late reading x) (h : Call.Step k x a k' y)
    (hvalid : ∀ r, k.state = .valid r → S.Gives κ r)
    (hanswer : ∀ result, a = .answer result → ∃ p q, reading = .both p q ∧
      result = κ.locate [{ definitions := p }, { definitions := q }])
    (hlate : late' → late ∨ a = .arrive) : CallSound κ S k'.version late' reading y := by
  cases h with
  | arrive | glanceInvalid _ | lock | lookInvalid _ => exact hx
  | glanceValid hk | lookValid hk => exact fun _ => hvalid _ hk
  | ask =>
      intro _
      obtain rfl : reading = .nothing := hx
      trivial
  | answerOk =>
      intro hc
      obtain ⟨p, q, rfl, hr⟩ := hanswer _ rfl
      obtain ⟨hp, hq⟩ := hx (hc.imp_right fun hl => by simpa using hlate hl)
      rw [κ.locate_pair] at hr
      exact ⟨p, q, hp, hq, Except.ok.inj hr⟩
  | answerStale | answerError =>
      -- The two sources cannot fail.
      obtain ⟨p, q, -, hr⟩ := hanswer _ rfl
      rw [κ.locate_pair] at hr
      cases hr
  | install hk =>
      intro _
      exact hx (.inl (Cache.install?_eq_some_iff.mp hk).1.symm)
  | overtake hk => exact fun hl => hx (.inr (by simpa using hlate hl))
  | keep => exact fun hl => hx (by simpa using hlate hl)
  | dropQueued | dropAsking => trivial

section Steps

variable {late late' : Nat → Prop} {t t' : Traffic (List Route) GatewayError}
  {readings : Nat → Reading}

/-- No call started from a state that is still to come. -/
def SeenLe (t : Traffic (List Route) GatewayError) : Prop :=
  ∀ c n, (t.calls c).seen? = some n → n ≤ t.cache.version

theorem Sound.mono (h : Sound κ S late t readings) (hS : S.Le S') (hlate : ∀ c, late' c → late c) :
    Sound κ S' late' t readings where
  valid r hr := (h.valid r hr).mono hS
  calls c := (h.calls c).mono hS (hlate c) fun _ _ heq => heq

theorem Sound.cacheStep {e : Cache.Event (List Route) GatewayError}
    (h : Sound κ S late t readings) (hseen : SeenLe t) (step : Cache.Step t e t')
    (hanswer : ∀ c result, e = .call c (.answer result) → ∃ p q, readings c = .both p q ∧
      result = κ.locate [{ definitions := p }, { definitions := q }])
    (hlate : ∀ c, late' c → late c ∨ e = .call c .arrive) : Sound κ S late' t' readings := by
  cases step with
  | invalidate =>
      refine ⟨fun r hr => by simp at hr, fun c => ?_⟩
      refine (h.calls c).mono ⟨id, id⟩ (fun hl => by simpa using hlate c hl) fun n hn heq => ?_
      exact absurd heq (Nat.ne_of_lt (Nat.lt_succ_of_le (hseen c n hn)))
  | @call d a k y hcall _ =>
      refine ⟨fun r hr => ?_, fun c => ?_⟩
      · rcases hcall.of_valid hr with hk | hx
        · exact h.valid r hk
        · have hc := h.calls d
          rw [hx] at hc
          exact hc (.inl rfl)
      · by_cases hc : c = d
        · subst hc
          rw [Traffic.calls_move_self]
          refine (h.calls c).step hcall h.valid (fun result ha => hanswer c result (by rw [ha])) ?_
          exact fun hl => by simpa using hlate c hl
        · rw [Traffic.calls_move_of_ne _ _ _ hc]
          have hl : late' c → late c := fun hl => by simpa [Ne.symm hc] using hlate c hl
          refine (h.calls c).mono ⟨id, id⟩ hl fun n hn heq => ?_
          have hle := hseen c n hn
          have hgrows := hcall.version_le
          rw [Traffic.cache_move] at heq
          omega

/-- After an invalidation no list is valid, and none that is under way may become so. -/
theorem Sound.invalidate (h : Sound κ S late t readings) (hseen : SeenLe t) :
    Sound κ S' (fun _ => False) { t with cache := t.cache.invalidate } readings where
  valid r hr := by simp at hr
  calls c := by
    have hne : ∀ n, (t.calls c).seen? = some n → n ≠ t.cache.version + 1 :=
      fun n hn => Nat.ne_of_lt (Nat.lt_succ_of_le (hseen c n hn))
    have hc := h.calls c
    show CallSound _ _ _ _ _ (t.calls c)
    match hx : t.calls c, hc with
    | .absent, hc | .arrived, hc | .queued, hc | .locked, hc | .loaded _ _, hc => exact hc
    | .asking seen _, _ | .answered seen _, _ =>
        rintro (heq | hl)
        · exact absurd heq (hne seen (by rw [hx]; rfl))
        · exact hl.elim
    | .overtaken _, _ | .returned (.ok _), _ => nofun
    | .returned (.error _), _ | .dropped, _ => trivial

/-- A call that asks may read what lies in the scope. -/
theorem Sound.read (h : Sound κ S late t readings) {c seen : Nat} {stale : Option (List Route)}
    {reading : Reading} (hc : t.calls c = .asking seen stale)
    (hread : seen = t.cache.version ∨ late c → reading.Within S) :
    Sound κ S late t (Function.update readings c reading) where
  valid := h.valid
  calls d := by
    by_cases hd : d = c
    · subst hd
      rw [Function.update_self, hc]
      exact hread
    · rw [Function.update_of_ne hd]
      exact h.calls d

end Steps

/-! ### One step of the gateway -/

/-- The definitions that the sources hold lie in the scope. -/
structure Holds (s : Site) (S : Scope) : Prop where
  configured : S.configured s.configured
  stored : S.stored s.stored

theorem Step.compiler {s s' : Site} {e : Event} (step : Step s e s') :
    s'.gateway.compiler = s.gateway.compiler := by
  cases step <;> rfl

theorem Step.exists_run_traffic {s s' : Site} {e : Event} (step : Step s e s') :
    ∃ fs, Cache.Run s.traffic fs s'.traffic := by
  cases step with
  | finishReload | hear => exact ⟨_, .single .invalidate⟩
  | cache step => exact ⟨_, .single step⟩
  | _ => exact ⟨[], .nil⟩

theorem Run.seenLe {routes : List RouteDefinition} {defaultFilters : List FilterDefinition}
    {bodyLimit : Nat} {es : List Event} {s : Site}
    (run : Run (start routes defaultFilters bodyLimit) es s) : SeenLe s.traffic := by
  obtain ⟨fs, hfs⟩ := run.exists_map Step.exists_run_traffic
  intro c n hn
  exact Cache.Run.seen_le (show Cache.Run .start fs _ from hfs) hn

/-- Lists stay sound in a scope that grows so as to hold what the sources hold. -/
theorem Step.sound {s s' : Site} {e : Event} {late late' : Nat → Prop} (step : Step s e s')
    (h : Sound s.gateway.compiler S late s.traffic s.readings) (hseen : SeenLe s.traffic)
    (hS : S.Le S') (hholds : s'.Holds S')
    (hlate : ∀ c, late' c → late c ∨ e = .cache (.call c .arrive)) :
    Sound s'.gateway.compiler S' late' s'.traffic s'.readings := by
  rw [step.compiler]
  cases step with
  | save | delete | announce | replace | receive =>
      exact h.mono hS fun c hl => (hlate c hl).resolve_right nofun
  | finishReload | hear =>
      refine (h.cacheStep hseen .invalidate nofun fun c hl => ?_).mono hS fun _ hl => hl
      exact .inl ((hlate c hl).resolve_right nofun)
  | readConfigured hc hread =>
      have grown := h.mono hS fun c hl => (hlate c hl).resolve_right nofun
      exact grown.read hc fun _ => hholds.configured
  | @readRepository c _ _ _ hc hread =>
      have grown := h.mono hS fun c hl => (hlate c hl).resolve_right nofun
      refine grown.read hc fun hl => ⟨?_, hholds.stored⟩
      have hcall := grown.calls c
      rw [show s.traffic.calls c = _ from hc, hread] at hcall
      exact hcall hl
  | @cache e t step hanswer =>
      refine (h.cacheStep hseen step (fun c result he => ?_) fun c hl => ?_).mono hS fun _ hl => hl
      · subst he
        exact hanswer
      · exact (hlate c hl).imp_right fun he => by simpa using he

/-! ### The invariant -/

/-- What the lists of a site may have been made from: the definitions as they stand, unless a change
to them is on its way. -/
def scope (s : Site) : Scope where
  configured p := s.reloads = 0 → p = s.configured
  stored q := s.Told → q = s.stored

/-- What holds at every moment: the listener is owed nothing in silence, and lists that are valid or
may become so have been made from the definitions as they stand, but for changes on their way. -/
structure Kept (κ : RouteCompiler) (s : Site) : Prop where
  compiler : s.gateway.compiler = κ
  attended : s.gateway.repository.events.Attended s.gateway.listener
  sound : Sound κ s.scope (fun _ => False) s.traffic s.readings

theorem holds_scope (s : Site) : s.Holds s.scope := ⟨fun _ => rfl, fun _ => rfl⟩

theorem kept_start (routes : List RouteDefinition) (defaultFilters : List FilterDefinition)
    (bodyLimit : Nat) : Kept ⟨bodyLimit, defaultFilters⟩ (start routes defaultFilters bodyLimit) where
  compiler := rfl
  attended := Channel.attended_subscribe 64
  sound := ⟨nofun, fun _ => rfl⟩

theorem Step.attended {s s' : Site} {e : Event} (step : Step s e s')
    (h : s.gateway.repository.events.Attended s.gateway.listener) :
    s'.gateway.repository.events.Attended s'.gateway.listener := by
  cases step with
  | announce => exact h.send _
  | receive => exact h.receive
  | _ => exact h

theorem scope_le {s s' : Site}
    (hconfigured : s'.reloads = 0 → s.reloads = 0 ∧ s'.configured = s.configured)
    (hstored : s'.Told → s.Told ∧ s'.stored = s.stored) : s.scope.Le s'.scope where
  configured hp hs' := by
    obtain ⟨hs, heq⟩ := hconfigured hs'
    rw [heq]
    exact hp hs
  stored hq hs' := by
    obtain ⟨hs, heq⟩ := hstored hs'
    rw [heq]
    exact hq hs

/-- Only an invalidation ends a time in which changes are on their way. -/
theorem Step.scope_le {s s' : Site} {e : Event} (step : Step s e s')
    (h : s.gateway.repository.events.Attended s.gateway.listener)
    (hreload : e ≠ .finishReload) (hhear : e ≠ .hear) : s.scope.Le s'.scope := by
  cases step with
  | save | delete => exact Site.scope_le (fun hr => ⟨hr, rfl⟩) fun told => nomatch told.announced
  | announce =>
      refine Site.scope_le (fun hr => ⟨hr, rfl⟩) fun told => ?_
      exact absurd told.received (h.receive_send_ne_empty _)
  | receive => exact Site.scope_le (fun hr => ⟨hr, rfl⟩) fun told => nomatch told.heard
  | replace =>
      exact Site.scope_le (fun hr => nomatch hr) fun told =>
        ⟨⟨told.announced, told.received, told.heard⟩, rfl⟩
  | finishReload => exact absurd rfl hreload
  | hear => exact absurd rfl hhear
  | readConfigured | readRepository | cache =>
      exact Site.scope_le (fun hr => ⟨hr, rfl⟩) fun told =>
        ⟨⟨told.announced, told.received, told.heard⟩, rfl⟩

theorem Step.kept {s s' : Site} {e : Event} (step : Step s e s') (h : Kept κ s)
    (hseen : SeenLe s.traffic) : Kept κ s' := by
  obtain ⟨rfl, attended, sound⟩ := h
  refine ⟨step.compiler, step.attended attended, ?_⟩
  -- At the end of a reload and of hearing the cache is invalidated; otherwise the scope grows.
  by_cases he : e = .finishReload ∨ e = .hear
  · cases step with
    | finishReload | hear => exact sound.invalidate hseen
    | _ => simp at he
  · obtain ⟨hreload, hhear⟩ := not_or.mp he
    rw [← step.compiler]
    exact step.sound sound hseen (step.scope_le attended hreload hhear) s'.holds_scope nofun

theorem Run.kept {routes : List RouteDefinition} {defaultFilters : List FilterDefinition}
    {bodyLimit : Nat} {es : List Event} {s : Site}
    (run : Run (start routes defaultFilters bodyLimit) es s) :
    Kept ⟨bodyLimit, defaultFilters⟩ s := by
  induction run with
  | nil => exact kept_start ..
  | snoc run step ih => exact step.kept ih (Run.seenLe run)

/-! ### After a quiet moment -/

/-- What the sources hold at some moment of a run. -/
def heldScope (s : Site) (es : List Event) : Scope where
  configured := Held Step configured s es
  stored := Held Step stored s es

theorem heldScope_le_snoc (s : Site) (es : List Event) (e : Event) :
    (s.heldScope es).Le (s.heldScope (es ++ [e])) :=
  ⟨fun h => h.snoc e, fun h => h.snoc e⟩

section Quiet

variable {routes : List RouteDefinition} {defaultFilters : List FilterDefinition} {bodyLimit : Nat}
  {before later : List Event} {s t : Site}

/-- If the lists that are valid or may become so are made from what the sources hold at a moment,
they are made from what the sources hold from then on ever after, and so are those that calls come
back with that arrive later. -/
theorem Run.sound_since (run : Run (start routes defaultFilters bodyLimit) before s)
    (sound : Sound ⟨bodyLimit, defaultFilters⟩ (s.heldScope []) (fun _ => False) s.traffic s.readings)
    (run' : Run s later t) :
    Sound ⟨bodyLimit, defaultFilters⟩ (s.heldScope later)
      (fun c => .cache (.call c .arrive) ∈ later) t.traffic t.readings := by
  induction run' with
  | nil => exact sound.mono ⟨id, id⟩ fun c hc => by simp at hc
  | @snoc later e t t' run' step ih =>
      have hrun : Run (start routes defaultFilters bodyLimit) (before ++ later) t := run.trans run'
      have hcompiler := (Run.kept hrun).compiler
      have hlate : ∀ c, .cache (.call c .arrive) ∈ later ++ [e] →
          .cache (.call c .arrive) ∈ later ∨ e = .cache (.call c .arrive) := by
        intro c hc
        simpa [eq_comm] using hc
      have hsound := step.sound (hcompiler ▸ ih) (Run.seenLe hrun) (s.heldScope_le_snoc later e)
        ⟨.last (run'.snoc step), .last (run'.snoc step)⟩ hlate
      rwa [step.compiler, hcompiler] at hsound

/-- At a quiet moment the lists that are valid or may become so are made from the definitions as
they stand. -/
theorem Run.sound_at_quiet (run : Run (start routes defaultFilters bodyLimit) before s)
    (quiet : s.Quiet) :
    Sound ⟨bodyLimit, defaultFilters⟩ (s.heldScope []) (fun _ => False) s.traffic s.readings := by
  refine (Run.kept run).sound.mono ⟨fun hp => ?_, fun hq => ?_⟩ fun _ => id
  · obtain rfl := hp quiet.reloaded
    exact .last .nil
  · obtain rfl := hq quiet.told
    exact .last .nil

/-- From a quiet moment on, lists that are valid or may become so, and those that calls come back
with that arrive later, are made from what the sources hold from then on. -/
theorem Run.sound_of_quiet (run : Run (start routes defaultFilters bodyLimit) before s)
    (quiet : s.Quiet) (run' : Run s later t) :
    Sound ⟨bodyLimit, defaultFilters⟩ (s.heldScope later)
      (fun c => .cache (.call c .arrive) ∈ later) t.traffic t.readings :=
  Run.sound_since run (Run.sound_at_quiet run quiet) run'

/-- A valid list is the one that the sources make as they stand, whenever every change to the
repository has been announced, received and acted upon and no reload is half done. A call that
arrives after such a moment and comes back with a list comes back with one made from definitions
that the sources have held since, so that no earlier change is missing from it. Which routes
`compileAll` makes of definitions is what `RouteCompiler.eq_compileAll_iff` says. -/
theorem routes_consistent (run : Run (start routes defaultFilters bodyLimit) before s)
    (quiet : s.Quiet) :
    (∀ r, s.gateway.cache.state = .valid r →
      r = RouteCompiler.compileAll ⟨bodyLimit, defaultFilters⟩ (s.configured ++ s.stored)) ∧
    (∀ later t, Run s later t → ∀ c r, .cache (.call c .arrive) ∈ later →
      t.calls c = .returned (.ok r) →
      ∃ p q, Held Step configured s later p ∧ Held Step stored s later q ∧
        r = RouteCompiler.compileAll ⟨bodyLimit, defaultFilters⟩ (p ++ q)) := by
  constructor
  · intro r hr
    obtain ⟨p, q, hp, hq, rfl⟩ := (Run.kept run).sound.valid r hr
    rw [hp quiet.reloaded, hq quiet.told]
  · intro later t run' c r harrive hret
    have hcall := (Run.sound_of_quiet run quiet run').calls c
    rw [show t.traffic.calls c = _ from hret] at hcall
    exact hcall harrive

/-- A definition is saved while call 0 has read the sources and waits for its routes. They do not
become valid, and call 1, which arrives after the listener has heard of the change, comes back with
the routes that the definition gives. -/
theorem routes_consistent_after_save :
    let d : RouteDefinition := { id := "a", uri := "http://one" }
    ∃ before s later t, Run (start [] [] 64) before s ∧ s.Quiet ∧ Run s later t ∧ t.Quiet ∧
      t.calls 0 = .returned (.ok (RouteCompiler.compileAll ⟨64, []⟩ [])) ∧
      t.calls 1 = .returned (.ok (RouteCompiler.compileAll ⟨64, []⟩ [d])) ∧
      (∀ r, t.gateway.cache.state = .valid r →
        r = RouteCompiler.compileAll ⟨64, []⟩ (t.configured ++ t.stored)) ∧
      ∃ p q, Held Step configured s later p ∧ Held Step stored s later q ∧
        RouteCompiler.compileAll ⟨64, []⟩ [d] = RouteCompiler.compileAll ⟨64, []⟩ (p ++ q) := by
  intro d
  have free : (start [] [] 64).traffic.Free := fun _ => rfl
  have arrived : Run (start [] [] 64) _ _ := Run.arrive (c := 0) .nil rfl
  have queued := arrived.move (.glanceInvalid rfl) nofun trivial
  have locked := queued.move .lock (fun _ => free.move rfl) trivial
  have asking := (locked.move (.lookInvalid rfl) nofun trivial).move .ask nofun trivial
  have saved : Run (start [] [] 64) _ _ :=
    (asking.readBoth rfl).snoc (.save (d := d) (by decide +kernel))
  have told : Run (start [] [] 64) _ _ := saved.announce.trans (run_receive_hear rfl rfl nofun)
  generalize hs : Site.afterHearing _ _ = s at told
  have quiet : s.Quiet := by
    subst hs
    exact ⟨⟨rfl, rfl, rfl⟩, rfl⟩
  have begun : Run s [] (s.withTraffic (Traffic.start.move 0 s.gateway.cache (.asking 0 none))) := by
    subst hs
    exact .nil
  have answered := begun.move .answerOk nofun
    ⟨[], [], by subst hs; rfl, (RouteCompiler.locate_pair _ _ _).symm⟩
  have first := (answered.move (.overtake (by subst hs; rfl)) nofun trivial).move .keep nofun trivial
  have arrived' : Run s _ _ := Run.arrive (c := 1) first rfl
  have queued' := arrived'.move (.glanceInvalid (by subst hs; rfl)) nofun trivial
  have locked' := queued'.move .lock (fun _ => (free.move rfl).move rfl) trivial
  have asking' := (locked'.move (.lookInvalid (by subst hs; rfl)) nofun trivial).move .ask nofun trivial
  have answered' := asking'.answer (by subst hs; rfl)
  have later := answered'.move (.install (by subst hs; rfl)) nofun trivial
  have hnone : s.gateway.compiler.compileAll [] = RouteCompiler.compileAll ⟨64, []⟩ [] := by
    subst hs
    rfl
  have hsaved : s.gateway.compiler.compileAll (s.configured ++ s.stored) =
      RouteCompiler.compileAll ⟨64, []⟩ [d] := by
    subst hs
    rfl
  obtain ⟨t, ht, later⟩ : ∃ t, t = _ ∧ Run s _ t := ⟨_, rfl, later⟩
  have quiet' : t.Quiet := by
    subst ht
    exact ⟨⟨quiet.told.announced, quiet.told.received, quiet.told.heard⟩, quiet.reloaded⟩
  have h0 : t.calls 0 = .returned (.ok (RouteCompiler.compileAll ⟨64, []⟩ [])) := by
    rw [← hnone]
    subst ht
    rfl
  have h1 : t.calls 1 = .returned (.ok (RouteCompiler.compileAll ⟨64, []⟩ [d])) := by
    rw [← hsaved]
    subst ht
    rw [calls_withTraffic, Traffic.calls_move_self]
    rfl
  exact ⟨_, s, _, t, told, quiet, later, quiet', h0, h1,
    (routes_consistent (told.trans later) quiet').1,
    (routes_consistent told quiet).2 _ t later 1 _ (by simp) h1⟩

end Quiet

end Site

end HttpGateway
