import HttpGateway.Config.Validation
import HttpGateway.Proofs.Gateway.Serving
import HttpGateway.Proofs.Route.Compilation
import Mathlib

/-!
# What the acceptance of a configuration promises

A configuration is accepted only if all its routes compile and have different ids. The gateway that
is made from it compiles them in the same way, so it serves them all. The filters of all routes are
looked at only as part of some route, so a configuration that has no routes is accepted whatever
these filters are, and its gateway may then refuse every route that it is given later.
-/

namespace HttpGateway.GatewayConfig

variable {c : GatewayConfig} {κ : RouteCompiler} {seen : List String} {ds : List RouteDefinition}

/-! ### Acceptance -/

theorem routeFaults_eq_nil_iff :
    routeFaults κ seen ds = [] ↔ (∀ d ∈ ds, ∃ route, κ.compile d = .ok route) ∧
      (ds.map RouteDefinition.id).Nodup ∧ ∀ d ∈ ds, d.id ∉ seen := by
  induction ds generalizing seen with
  | nil => simp [routeFaults]
  | cons d ds ih =>
      cases hroute : κ.compile d with
      | error cause => simp [routeFaults, hroute]
      | ok route =>
          -- The id has been seen when it comes to the routes after this one.
          have hhere : routeFaults κ seen (d :: ds) = [] ↔
              d.id ∉ seen ∧ routeFaults κ (d.id :: seen) ds = [] := by
            simp [routeFaults, hroute]
          rw [hhere, ih, List.forall_mem_cons, List.forall_mem_cons, List.map_cons, List.nodup_cons]
          constructor
          · rintro ⟨hd, hroutes, hnodup, hfresh⟩
            refine ⟨⟨⟨route, hroute⟩, hroutes⟩, ⟨fun hmem => ?_, hnodup⟩, hd, fun e he hmem => ?_⟩
            · obtain ⟨e, he, heq⟩ := List.mem_map.mp hmem
              exact hfresh e he (heq ▸ List.mem_cons_self)
            · exact hfresh e he (List.mem_cons_of_mem _ hmem)
          · rintro ⟨⟨-, hroutes⟩, ⟨hothers, hnodup⟩, hd, hfresh⟩
            refine ⟨hd, hroutes, hnodup, fun e he hmem => ?_⟩
            rcases List.mem_cons.mp hmem with heq | hmem
            · exact hothers (List.mem_map.mpr ⟨e, he, heq⟩)
            · exact hfresh e he hmem

theorem validate_eq_ok_iff : c.validate = .ok () ↔ c.faults = [] := by
  simp [validate]

theorem routeFaults_eq_nil (h : c.validate = .ok ()) : routeFaults c.compiler [] c.routes = [] :=
  (List.append_eq_nil_iff.mp (validate_eq_ok_iff.mp h)).2

theorem exists_compile_of_validate (h : c.validate = .ok ()) :
    ∀ d ∈ c.routes, ∃ route, c.compiler.compile d = .ok route :=
  (routeFaults_eq_nil_iff.mp (routeFaults_eq_nil h)).1

theorem nodup_of_validate (h : c.validate = .ok ()) : (c.routes.map RouteDefinition.id).Nodup :=
  (routeFaults_eq_nil_iff.mp (routeFaults_eq_nil h)).2.1

/-- The filters of all routes are good if there is a route that they have been compiled with. -/
theorem isValid_of_validate (h : c.validate = .ok ()) (hroutes : c.routes ≠ []) :
    ∀ f ∈ c.defaultFilters, f.IsValid := by
  obtain ⟨d, ds, hd⟩ := List.exists_cons_of_ne_nil hroutes
  obtain ⟨route, hroute⟩ := exists_compile_of_validate h d (by simp [hd])
  exact RouteCompiler.isValid_of_compile hroute

/-! ### The gateway of a configuration -/

/-- The gateway that is made from the configuration, before anything has happened to it. -/
def site (c : GatewayConfig) : Site := .start c.routes c.defaultFilters c.limits.maxBodyBytes

theorem shows_site (c : GatewayConfig) : c.site.Shows (c.compiler.compileAll c.routes) := by
  have hshows := Site.Run.shows (s := c.site) .nil (.inl (Site.quiet_start ..))
  rwa [show c.site.stored = [] from rfl, List.append_nil] at hshows

/-- A gateway into whose repository nothing has been put goes over to another configuration. -/
theorem shows_of_settled {c' : GatewayConfig} {before : List Site.Event} {s : Site}
    (run : Site.Run c.site before s) (settled : s.Settled before)
    (hfilters : c'.defaultFilters = c.defaultFilters) (hlimits : c'.limits = c.limits)
    (hconfigured : s.configured = c'.routes) (hstored : s.stored = []) :
    s.Shows (c'.compiler.compileAll c'.routes) := by
  have hshows := Site.Run.shows run settled
  rw [hconfigured, hstored, List.append_nil] at hshows
  rwa [compiler, hfilters, hlimits]

/-- The gateway of an accepted configuration serves one route for each of its routes, in the order
of their numbers and with the filters of all routes before their own, and their ids are different
and not blank. If it goes over to another configuration with the same such filters and limits, it
serves what the gateway serves that is made from that one, which is what `shows_site` and
`RouteCompiler.eq_compileAll_iff` say of that configuration. -/
theorem serves_configured (h : c.validate = .ok ()) :
    ∃ routes, c.site.Shows routes ∧
      List.Forall₂ (fun d route => c.compiler.Makes d route ∧ ∃ usual own,
          OrderedFilter.ofDefinitions c.limits.maxBodyBytes c.defaultFilters = .ok usual ∧
          OrderedFilter.ofDefinitionsFrom c.limits.maxBodyBytes (1 + c.defaultFilters.length)
            d.filters = .ok own ∧
          route.filters = usual ++ own)
        (c.routes.mergeSort fun d e => d.order ≤ e.order) routes ∧
      (routes.map Route.id).Nodup ∧ (∀ route ∈ routes, isBlankId route.id = false) ∧
      ∀ c' : GatewayConfig, c'.defaultFilters = c.defaultFilters → c'.limits = c.limits →
        ∃ routes', c'.site.Shows routes' ∧
          (∀ before s, Site.Run c.site before s → s.stored = [] →
            Site.Shows { s with gateway := s.gateway.applyRoutes c'.routes } routes') ∧
          ∀ before s, Site.Run c.site before s → s.Settled before → s.configured = c'.routes →
            s.stored = [] → s.Shows routes' := by
  have hmakes := RouteCompiler.forall₂_compileAll (exists_compile_of_validate h)
  have hids : (c.compiler.compileAll c.routes).map Route.id =
      (c.routes.mergeSort fun d e => d.order ≤ e.order).map RouteDefinition.id := by
    rw [← List.forall₂_eq_eq_eq, List.forall₂_map_left_iff, List.forall₂_map_right_iff]
    exact hmakes.flip.imp fun _ _ hmakes => hmakes.id
  refine ⟨_, c.shows_site, hmakes.imp fun _ _ hmakes => ⟨hmakes, hmakes.exists_filters⟩, ?_, ?_, ?_⟩
  · rw [hids, ((List.mergeSort_perm c.routes _).map _).nodup_iff]
    exact nodup_of_validate h
  · intro route hroute
    obtain ⟨d, -, hd⟩ := RouteCompiler.mem_compileAll_iff.mp hroute
    have hmakes := RouteCompiler.compile_eq_ok_iff.mp hd
    rw [hmakes.id]
    exact hmakes.named
  · intro c' hfilters hlimits
    refine ⟨_, c'.shows_site, fun before s run hstored => ?_, fun before s run settled => ?_⟩
    · have reloaded := run.trans (s.run_applyRoutes c'.routes)
      exact shows_of_settled reloaded (.inr ⟨before ++ [.replace c'.routes], by simp⟩) hfilters
        hlimits rfl hstored
    · exact shows_of_settled run settled hfilters hlimits

/-- Of two routes the second comes first, and they are given up for a third one. -/
theorem serves_configured_of_two :
    let tagged : FilterDefinition :=
      ⟨"AddRequestHeader", [("name", .str "x-tag"), ("value", .str "1")], none⟩
    let c : GatewayConfig :=
      { defaultFilters := [tagged]
        routes := [{ id := "late", uri := "http://one", order := 5 },
          { id := "early", uri := "http://two" }] }
    let c' : GatewayConfig :=
      { defaultFilters := [tagged], routes := [{ id := "other", uri := "http://one" }] }
    c.validate = .ok () ∧ ∃ routes routes', c.site.Shows routes ∧
      routes.map Route.id = ["early", "late"] ∧ c'.site.Shows routes' ∧
      Site.Shows { c.site with gateway := c.site.gateway.applyRoutes c'.routes } routes' := by
  intro tagged c c'
  have accepted : c.validate = .ok () :=
    validate_eq_ok_iff.mpr (List.isEmpty_iff.mp (by decide +kernel))
  obtain ⟨routes, hshows, hroutes, -, -, hreload⟩ := serves_configured accepted
  have hsort : c.routes.mergeSort (fun d e => d.order ≤ e.order) =
      [{ id := "early", uri := "http://two" }, { id := "late", uri := "http://one", order := 5 }] := by
    cbv
  obtain ⟨routes', hshows', hreload', -⟩ := hreload c' rfl rfl
  refine ⟨accepted, routes, routes', hshows, ?_, hshows', hreload' [] c.site .nil rfl⟩
  rw [hsort] at hroutes
  obtain _ | ⟨⟨hearly, -⟩, _ | ⟨⟨hlate, -⟩, _ | _⟩⟩ := hroutes
  simp [hearly.id, hlate.id]

/-! ### Definitions that come later -/

theorem showsRoute_of_settled {before : List Site.Event} {s : Site} {d : RouteDefinition}
    {made : Route} (run : Site.Run c.site before s) (settled : s.Settled before)
    (hmade : c.compiler.compile d = .ok made) (hmem : d ∈ s.configured ++ s.stored) :
    s.ShowsRoute made :=
  ⟨_, Site.Run.shows run settled, RouteCompiler.mem_compileAll_iff.mpr ⟨d, hmem, hmade⟩⟩

/-- If a configuration is accepted, the filters of all routes are good, and every good definition is
compiled and served that its gateway comes by, be it saved or part of a configuration that the
gateway goes over to. Or else the configuration has no routes and one of these filters is bad, and
then its gateway never serves a route. -/
theorem good_definition_served (h : c.validate = .ok ()) :
    ((∀ f ∈ c.defaultFilters, f.IsValid) ∧
      ∀ bodyLimit d route, RouteCompiler.compile ⟨bodyLimit, []⟩ d = .ok route →
        ∃ made, c.compiler.compile d = .ok made ∧
          (∀ before s, Site.Run c.site before s → s.Settled before →
            d ∈ s.configured ++ s.stored → s.ShowsRoute made) ∧
          (∀ before s, Site.Run c.site before s → s.Quiet → (s.save d).ShowsRoute made) ∧
          ∀ before s ds, Site.Run c.site before s → d ∈ ds →
            Site.ShowsRoute { s with gateway := s.gateway.applyRoutes ds } made) ∨
    (c.routes = [] ∧ (∃ f ∈ c.defaultFilters, ¬f.IsValid) ∧
      (∀ d made, c.compiler.compile d ≠ .ok made) ∧
      ∀ before s, Site.Run c.site before s → s.Settled before → s.Shows []) := by
  by_cases hvalid : ∀ f ∈ c.defaultFilters, f.IsValid
  · refine .inl ⟨hvalid, fun bodyLimit d route hd => ?_⟩
    obtain ⟨made, hmade⟩ := RouteCompiler.exists_compile_of_valid (κ := c.compiler) hvalid hd
    have hserved : ∀ before s, Site.Run c.site before s → s.Settled before →
        d ∈ s.configured ++ s.stored → s.ShowsRoute made :=
      fun _ _ run settled => showsRoute_of_settled run settled hmade
    refine ⟨made, hmade, hserved, fun before s run quiet => ?_, fun before s ds run hmem => ?_⟩
    · obtain ⟨es, saved, quiet'⟩ := Site.Run.exists_run_save run quiet d
      have hstored := s.mem_stored_save (RouteCompiler.compile_eq_ok_iff.mp hmade).named
      exact hserved es _ saved (.inl quiet') (List.mem_append_right _ hstored)
    · have reloaded := run.trans (s.run_applyRoutes ds)
      exact hserved _ _ reloaded (.inr ⟨before ++ [.replace ds], by simp⟩)
        (List.mem_append_left _ hmem)
  · have hroutes : c.routes = [] := by
      by_contra hne
      exact hvalid (isValid_of_validate h hne)
    push Not at hvalid
    obtain ⟨f, hf, hbad⟩ := hvalid
    refine .inr ⟨hroutes, ⟨f, hf, hbad⟩, fun d made => ?_, fun before s run settled => ?_⟩
    · exact RouteCompiler.compile_ne_ok (κ := c.compiler) hf hbad
    · have hshows := Site.Run.shows run settled
      rwa [RouteCompiler.compileAll_eq_nil hf hbad] at hshows

theorem exists_compile_plain (bodyLimit : Nat) {id : String} (named : isBlankId id = false) :
    ∃ route, RouteCompiler.compile ⟨bodyLimit, []⟩ { id, uri := "http://a" } = .ok route :=
  RouteCompiler.exists_compile_iff.mpr
    ⟨named, ⟨⟨some "http", some "a", ⟨"", none⟩⟩, by cbv⟩, ⟨[], rfl⟩, nofun, nofun⟩

/-- A route that is saved while the gateway runs is compiled as the configured one is, and served. -/
theorem good_definition_served_of_saved :
    let c : GatewayConfig :=
      { defaultFilters := [⟨"RemoveRequestHeader", [("name", .str "cookie")], none⟩]
        routes := [{ id := "a", uri := "http://one" }] }
    let d : RouteDefinition := { id := "b", uri := "http://a" }
    c.validate = .ok () ∧
      ∃ made, c.compiler.compile d = .ok made ∧ (c.site.save d).ShowsRoute made := by
  intro c d
  have accepted : c.validate = .ok () :=
    validate_eq_ok_iff.mpr (List.isEmpty_iff.mp (by decide +kernel))
  obtain ⟨route, hd⟩ := exists_compile_plain 0 (show isBlankId "b" = false by decide +kernel)
  rcases good_definition_served accepted with ⟨-, hgood⟩ | ⟨hnone, -⟩
  · obtain ⟨made, hmade, -, hsaved, -⟩ := hgood 0 d route hd
    exact ⟨accepted, made, hmade, hsaved [] c.site .nil (Site.quiet_start ..)⟩
  · cases hnone

/-- A filter of an unknown kind for all routes is not noticed while there are none. A good route
that is saved later is refused, and the gateway serves none. -/
theorem good_definition_served_fails :
    let c : GatewayConfig := { defaultFilters := [⟨"Nope", [], none⟩] }
    let d : RouteDefinition := { id := "r", uri := "http://a" }
    c.validate = .ok () ∧
      (∃ route, RouteCompiler.compile ⟨c.limits.maxBodyBytes, []⟩ d = .ok route) ∧
      (∀ made, c.compiler.compile d ≠ .ok made) ∧
      d ∈ (c.site.save d).stored ∧ (c.site.save d).Shows [] := by
  intro c d
  have hmem : ⟨"Nope", [], none⟩ ∈ c.defaultFilters := List.mem_singleton.mpr rfl
  have hbad : ¬FilterDefinition.IsValid ⟨"Nope", [], none⟩ := by
    rw [FilterDefinition.isValid_iff 0]
    rintro ⟨f, hf⟩
    cases hf
  have named : isBlankId "r" = false := by decide +kernel
  obtain ⟨es, saved, quiet⟩ := Site.Run.exists_run_save (s := c.site) .nil (Site.quiet_start ..) d
  have hshows := Site.Run.shows saved (.inl quiet)
  rw [RouteCompiler.compileAll_eq_nil hmem hbad] at hshows
  exact ⟨validate_eq_ok_iff.mpr (List.isEmpty_iff.mp (by decide +kernel)),
    exists_compile_plain _ named, fun made => RouteCompiler.compile_ne_ok (κ := c.compiler) hmem hbad,
    c.site.mem_stored_save named, hshows⟩

end HttpGateway.GatewayConfig
