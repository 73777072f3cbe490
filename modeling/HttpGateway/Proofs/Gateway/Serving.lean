import HttpGateway.Proofs.Gateway.Consistency

/-!
# What a gateway serves

A gateway shows a list of routes if everyone who asks it for its routes is given that list until a
source is changed: whoever reads them at one moment, and every call that arrives from now on,
whatever happens while it is under way. At a quiet moment, and at the end of a reload, this is the
list that the sources make as they stand.
-/

namespace HttpGateway.Site

/-- Whether the event changes what a source holds. -/
def Event.changes : Event → Bool
  | .save _ | .delete _ | .replace _ => true
  | _ => false

def Calm (es : List Event) : Prop := ∀ e ∈ es, e.changes = false

/-- Until a source is changed, everyone who asks for the routes is given these. -/
structure Shows (s : Site) (routes : List Route) : Prop where
  reads : ∀ later t, Run s later t → Calm later → ∀ {τ : Type} (w : World τ),
    (t.gateway.routes w).1 = .ok routes
  calls : ∀ later t, Run s later t → Calm later → ∀ c result,
    .cache (.call c .arrive) ∈ later → t.calls c = .returned result → result = .ok routes

/-- Among the routes that everyone is given is this one. -/
def ShowsRoute (s : Site) (route : Route) : Prop := ∃ routes, s.Shows routes ∧ route ∈ routes

variable {s s' t : Site} {e : Event} {es before later : List Event} {κ : RouteCompiler}
  {routes : List RouteDefinition} {defaultFilters : List FilterDefinition} {bodyLimit : Nat}

/-! ### While no source is changed -/

theorem Step.eq_of_calm (step : Step s e s') (calm : e.changes = false) :
    s'.configured = s.configured ∧ s'.stored = s.stored := by
  cases step with
  | save | delete | replace => cases calm
  | _ => exact ⟨rfl, rfl⟩

theorem Run.eq_of_calm (run : Run s es t) (calm : Calm es) :
    t.configured = s.configured ∧ t.stored = s.stored := by
  induction run with
  | nil => exact ⟨rfl, rfl⟩
  | snoc _ step ih =>
      obtain ⟨hes, he⟩ := List.forall_mem_append.mp calm
      obtain ⟨hconfigured, hstored⟩ := step.eq_of_calm (he _ List.mem_cons_self)
      rw [hconfigured, hstored]
      exact ih hes

/-- What is made from definitions that the sources have held is made from those that they hold. -/
theorem eq_of_gives {r : List Route} (calm : Calm es) (h : (s.heldScope es).Gives κ r) :
    r = κ.compileAll (s.configured ++ s.stored) := by
  obtain ⟨p, q, ⟨fs, gs, u, rfl, run, rfl⟩, ⟨fs', gs', u', heq, run', rfl⟩, rfl⟩ := h
  have calm' : Calm (fs' ++ gs') := heq ▸ calm
  rw [(Run.eq_of_calm run (List.forall_mem_append.mp calm).1).1,
    (Run.eq_of_calm run' (List.forall_mem_append.mp calm').1).2]

/-! ### Nobody is refused -/

theorem Step.sources (step : Step s e s') : s'.gateway.sources = s.gateway.sources := by
  cases step <;> rfl

theorem Step.calls_ne_error (step : Step s e s')
    (h : ∀ c cause, s.calls c ≠ .returned (.error cause)) (c : Nat) (cause : GatewayError) :
    s'.calls c ≠ .returned (.error cause) := by
  cases step with
  | cache step hanswer =>
      cases step with
      | invalidate => exact h c cause
      | @call d a k y hcall _ =>
          by_cases hc : c = d
          · subst hc
            rw [calls_withTraffic, Cache.Traffic.calls_move_self]
            rintro rfl
            -- The call has been answered so, but the two sources cannot fail.
            obtain rfl := hcall.of_error
            obtain ⟨p, q, -, hfails⟩ := hanswer
            rw [s.gateway.compiler.locate_pair] at hfails
            cases hfails
          · rw [calls_withTraffic, Cache.Traffic.calls_move_of_ne _ _ _ hc]
            exact h c cause
  | _ => exact h c cause

theorem Run.calls_ne_error (run : Run (start routes defaultFilters bodyLimit) es s) (c : Nat)
    (cause : GatewayError) : s.calls c ≠ .returned (.error cause) := by
  induction run generalizing c cause with
  | nil => simp [start]
  | snoc _ step ih => exact step.calls_ne_error ih c cause

/-! ### What is shown -/

/-- If the lists that are valid or may become so are made from what the sources hold, the list that
is made from it is shown. -/
theorem Run.shows_of_sound (run : Run (start routes defaultFilters bodyLimit) before s)
    (sound : Sound ⟨bodyLimit, defaultFilters⟩ (s.heldScope []) (fun _ => False) s.traffic
      s.readings) :
    s.Shows (RouteCompiler.compileAll ⟨bodyLimit, defaultFilters⟩ (s.configured ++ s.stored)) where
  reads later t run' calm τ w := by
    have hrun : Run (start routes defaultFilters bodyLimit) (before ++ later) t := run.trans run'
    cases hk : t.gateway.cache.state with
    | valid r =>
        simp only [Gateway.routes, Cache.fetch, hk]
        rw [eq_of_gives calm ((Run.sound_since run sound run').valid r hk)]
    | invalidated stale =>
        have hsources : t.gateway.sources = [] :=
          hrun.invariant (P := fun u => u.gateway.sources = []) rfl fun step hu => step.sources.trans hu
        obtain ⟨hconfigured, hstored⟩ := Run.eq_of_calm run' calm
        simp only [Gateway.routes, Cache.fetch, hk, compiledRoutes_eq hsources]
        rw [hconfigured, hstored, (Run.kept hrun).compiler]
  calls later t run' calm c result harrive hreturned := by
    have hrun : Run (start routes defaultFilters bodyLimit) (before ++ later) t := run.trans run'
    cases result with
    | error cause =>
        exact absurd hreturned (Run.calls_ne_error hrun c cause)
    | ok r =>
        have hcall := (Run.sound_since run sound run').calls c
        rw [show t.traffic.calls c = _ from hreturned] at hcall
        rw [eq_of_gives calm (hcall harrive)]

/-- Every change has reached the cache: nothing is under way, or a reload has just come to its end. -/
def Settled (s : Site) (before : List Event) : Prop :=
  s.Quiet ∨ ∃ earlier, before = earlier ++ [.finishReload]

/-- At the end of a reload it does not matter whether the listener has heard of all changes. -/
theorem Run.shows (run : Run (start routes defaultFilters bodyLimit) before s)
    (settled : s.Settled before) :
    s.Shows (RouteCompiler.compileAll ⟨bodyLimit, defaultFilters⟩ (s.configured ++ s.stored)) := by
  refine Run.shows_of_sound run ?_
  rcases settled with quiet | ⟨earlier, rfl⟩
  · exact Run.sound_at_quiet run quiet
  · obtain ⟨u, run', step⟩ := run.of_snoc
    have hsound := (Run.kept run').sound
    cases step with
    | finishReload => exact hsound.invalidate (Run.seenLe run')

theorem quiet_start (routes : List RouteDefinition) (defaultFilters : List FilterDefinition)
    (bodyLimit : Nat) : (start routes defaultFilters bodyLimit).Quiet :=
  ⟨⟨rfl, rfl, rfl⟩, rfl⟩

/-! ### A definition is saved -/

/-- A definition is saved at a quiet moment, and the listener hears of it. -/
def save (s : Site) (d : RouteDefinition) : Site :=
  { s with gateway := (s.gateway.save d).2.hear }

@[simp] theorem stored_save (s : Site) (d : RouteDefinition) :
    (s.save d).stored = (s.gateway.save d).2.repository.definitions := by
  simp [save, stored]

@[simp] theorem reloads_save (s : Site) (d : RouteDefinition) : (s.save d).reloads = s.reloads := by
  simp [save]

theorem mem_stored_save (s : Site) {d : RouteDefinition} (hd : isBlankId d.id = false) :
    d ∈ (s.save d).stored := by
  rw [stored_save, Gateway.save, s.gateway.repository.save_of_named hd]
  exact RouteRepository.mem_place d s.stored

theorem Run.exists_run_save (run : Run (start routes defaultFilters bodyLimit) before s)
    (quiet : s.Quiet) (d : RouteDefinition) :
    ∃ es, Run (start routes defaultFilters bodyLimit) es (s.save d) ∧ (s.save d).Quiet := by
  obtain ⟨fs, saved⟩ := s.exists_run_save d
  have attended := (Run.kept (run.trans saved)).attended
  let t : Site := { s with gateway := (s.gateway.save d).2 }
  obtain ⟨gs, heard⟩ := exists_run_hear (s := t) quiet.told.heard attended
  have told := told_hear (s := t) quiet.told.heard quiet.told.announced attended
  exact ⟨before ++ fs ++ gs, (run.trans saved).trans heard, told,
    (s.reloads_save d).trans quiet.reloaded⟩

end HttpGateway.Site
