import HttpGateway.Proofs.Filter.Definitions
import HttpGateway.Proofs.Sorting
import HttpGateway.Route.Source

/-!
# What definitions compile to

A definition compiles just if its id is not blank, its address can be read, and each of its
predicates and filters, and each of the filters of all routes, can be made. The routes of a list of
definitions are those of the definitions that compile, by their order, and those with one order
stand as their definitions do.
-/

namespace HttpGateway

/-! ### Predicates -/

theorem Predicate.ofDefinition_eq_ok_iff {d : PredicateDefinition} {p : Predicate} :
    ofDefinition d = .ok p ↔
      ∃ spec, PredicateSpec.ofDefinition d = .ok spec ∧ spec.build = .ok p := by
  rw [ofDefinition, bind_eq_ok_iff]
  refine exists_congr fun spec => and_congr_right fun _ => ?_
  split
  next hbuild => simp only [hbuild, Except.ok.injEq]
  next hbuild => simp [hbuild]

/-- A condition on the path is made from the texts of its patterns. -/
theorem Predicate.ofDefinition_of_patterns {d : PredicateDefinition} {texts : List String}
    {patterns : List SegmentPattern} (hspec : PredicateSpec.ofDefinition d = .ok (.path texts))
    (h : PredicateSpec.readPatterns .path texts = .ok patterns) :
    ofDefinition d = .ok (.path patterns) :=
  ofDefinition_eq_ok_iff.mpr ⟨_, hspec, map_eq_ok_iff.mpr ⟨patterns, h, rfl⟩⟩

namespace RouteCompiler

variable {κ : RouteCompiler} {d : RouteDefinition} {route : Route} {ds : List RouteDefinition}

/-! ### Routes -/

/-- The route that a definition describes. -/
structure Makes (κ : RouteCompiler) (d : RouteDefinition) (route : Route) : Prop where
  named : isBlankId d.id = false
  uri : parseRouteUri d.uri = .ok route.uri
  predicates : Predicate.ofDefinitions d.predicates = .ok route.predicates
  filters : OrderedFilter.ofDefinitions κ.bodyLimit (κ.defaultFilters ++ d.filters) =
    .ok route.filters
  id : route.id = d.id
  order : route.order = d.order

theorem compile_eq_ok_iff : κ.compile d = .ok route ↔ κ.Makes d route := by
  constructor
  · intro h
    rw [compile] at h
    split at h
    · cases h
    next hid =>
      split at h
      next hbuild =>
        obtain ⟨uri, huri, hbuild⟩ := bind_eq_ok_iff.mp hbuild
        obtain ⟨predicates, hpredicates, hbuild⟩ := bind_eq_ok_iff.mp hbuild
        obtain ⟨filters, hfilters, hbuild⟩ := bind_eq_ok_iff.mp hbuild
        cases hbuild
        cases h
        exact ⟨by simpa using hid, huri, hpredicates, hfilters, rfl, rfl⟩
      next => cases h
  · intro h
    obtain ⟨id, uri, order, predicates, filters⟩ := route
    obtain ⟨hid, huri, hpredicates, hfilters, rfl, rfl⟩ := h
    have hbuild : κ.build d = .ok ⟨d.id, uri, d.order, predicates, filters⟩ :=
      bind_eq_ok_iff.mpr ⟨uri, huri, bind_eq_ok_iff.mpr ⟨predicates, hpredicates,
        bind_eq_ok_iff.mpr ⟨filters, hfilters, rfl⟩⟩⟩
    simp [compile, hid, hbuild]

/-- The filters of all routes come before those of the definition. -/
theorem Makes.exists_filters (h : κ.Makes d route) :
    ∃ usual own, OrderedFilter.ofDefinitions κ.bodyLimit κ.defaultFilters = .ok usual ∧
      OrderedFilter.ofDefinitionsFrom κ.bodyLimit (1 + κ.defaultFilters.length) d.filters = .ok own ∧
      route.filters = usual ++ own :=
  OrderedFilter.ofDefinitionsFrom_append_eq_ok_iff.mp h.filters

theorem exists_compile_iff :
    (∃ route, κ.compile d = .ok route) ↔ isBlankId d.id = false ∧
      (∃ uri, parseRouteUri d.uri = .ok uri) ∧
      (∃ predicates, Predicate.ofDefinitions d.predicates = .ok predicates) ∧
      (∀ f ∈ κ.defaultFilters, f.IsValid) ∧ ∀ f ∈ d.filters, f.IsValid := by
  rw [← List.forall_mem_append, ← OrderedFilter.exists_ofDefinitionsFrom_iff κ.bodyLimit 1]
  constructor
  · rintro ⟨route, hroute⟩
    have h := compile_eq_ok_iff.mp hroute
    exact ⟨h.named, ⟨_, h.uri⟩, ⟨_, h.predicates⟩, ⟨_, h.filters⟩⟩
  · rintro ⟨hid, ⟨uri, huri⟩, ⟨predicates, hpredicates⟩, ⟨filters, hfilters⟩⟩
    exact ⟨⟨d.id, uri, d.order, predicates, filters⟩,
      compile_eq_ok_iff.mpr ⟨hid, huri, hpredicates, hfilters, rfl, rfl⟩⟩

/-- What compiles with no filters for all routes compiles with good ones. -/
theorem exists_compile_of_valid {bodyLimit : Nat} (hvalid : ∀ f ∈ κ.defaultFilters, f.IsValid)
    (h : compile ⟨bodyLimit, []⟩ d = .ok route) : ∃ made, κ.compile d = .ok made := by
  obtain ⟨hnamed, huri, hpredicates, -, hfilters⟩ := exists_compile_iff.mp ⟨route, h⟩
  exact exists_compile_iff.mpr ⟨hnamed, huri, hpredicates, hvalid, hfilters⟩

theorem isValid_of_compile (h : κ.compile d = .ok route) : ∀ f ∈ κ.defaultFilters, f.IsValid := by
  obtain ⟨-, -, -, hvalid, -⟩ := exists_compile_iff.mp ⟨route, h⟩
  exact hvalid

/-- With a bad filter for all routes nothing compiles. -/
theorem compile_ne_ok {f : FilterDefinition} (hf : f ∈ κ.defaultFilters) (hbad : ¬f.IsValid) :
    κ.compile d ≠ .ok route :=
  fun h => hbad (isValid_of_compile h f hf)

/-! ### Lists of routes -/

theorem mem_compileAll_iff : route ∈ κ.compileAll ds ↔ ∃ d ∈ ds, κ.compile d = .ok route := by
  simp only [compileAll, Route.sort, List.mem_mergeSort, List.mem_filterMap,
    toOption_eq_some_iff]

theorem compileAll_eq_nil {f : FilterDefinition} (hf : f ∈ κ.defaultFilters) (hbad : ¬f.IsValid) :
    κ.compileAll ds = [] := by
  refine List.eq_nil_iff_forall_not_mem.mpr fun route hroute => ?_
  obtain ⟨d, -, hd⟩ := mem_compileAll_iff.mp hroute
  exact compile_ne_ok hf hbad hd

theorem compileAll_filter_isOk :
    κ.compileAll (ds.filter fun d => (κ.compile d).isOk) = κ.compileAll ds := by
  have hsame : (fun d => if (κ.compile d).isOk then (κ.compile d).toOption else none) =
      fun d => (κ.compile d).toOption := by
    funext d
    cases κ.compile d <;> rfl
  rw [compileAll, compileAll, List.filterMap_filter, hsame]

/-- If all definitions compile, their routes stand as the definitions do by their order. -/
theorem forall₂_compileAll (h : ∀ d ∈ ds, ∃ route, κ.compile d = .ok route) :
    List.Forall₂ κ.Makes (ds.mergeSort fun d e => d.order ≤ e.order) (κ.compileAll ds) := by
  refine forall₂_mergeSort RouteDefinition.order Route.order ?_ fun hmakes => hmakes.order.symm
  induction ds with
  | nil => exact .nil
  | cons d ds ih =>
      obtain ⟨⟨route, hroute⟩, hrest⟩ := List.forall_mem_cons.mp h
      rw [List.filterMap_cons, toOption_eq_some_iff.mpr hroute]
      exact .cons (compile_eq_ok_iff.mp hroute) (ih hrest)

theorem forall₂_filter_filterMap (n : Int32) :
    List.Forall₂ κ.Makes (ds.filter fun d => (κ.compile d).isOk && d.order = n)
      ((ds.filterMap fun d => (κ.compile d).toOption).filter fun route => route.order = n) := by
  induction ds with
  | nil => exact .nil
  | cons d ds ih =>
      cases hd : κ.compile d with
      | error e =>
          rw [List.filterMap_cons,
            List.filter_cons_of_neg (by simp [hd, Except.isOk, Except.toBool])]
          simpa [hd, Except.toOption] using ih
      | ok route =>
          have hmakes := compile_eq_ok_iff.mp hd
          rw [List.filterMap_cons, toOption_eq_some_iff.mpr hd]
          by_cases hn : d.order = n
          · rw [List.filter_cons_of_pos (by simp [hd, hn, Except.isOk, Except.toBool]),
              List.filter_cons_of_pos (by simp [hmakes.order, hn])]
            exact .cons hmakes ih
          · rwa [List.filter_cons_of_neg (by simp [hn]),
              List.filter_cons_of_neg (by simp [hmakes.order, hn])]

/-- What the routes of a list of definitions are: they stand by their order, and those of each order
are made, one from each and as these stand, from the definitions of that order that compile. -/
theorem eq_compileAll_iff {routes : List Route} : routes = κ.compileAll ds ↔
    routes.Pairwise (fun a b => a.order ≤ b.order) ∧
      ∀ n, List.Forall₂ κ.Makes (ds.filter fun d => (κ.compile d).isOk && d.order = n)
        (routes.filter fun route => route.order = n) := by
  have hsorted : (κ.compileAll ds).Pairwise fun a b => a.order ≤ b.order :=
    (List.pairwise_mergeSort (le_key_trans Route.order) (le_key_total Route.order) _).imp
      of_decide_eq_true
  have hmade (n : Int32) : List.Forall₂ κ.Makes
      (ds.filter fun d => (κ.compile d).isOk && d.order = n)
      ((κ.compileAll ds).filter fun route => route.order = n) := by
    rw [compileAll, Route.sort, filter_key_mergeSort Route.order]
    exact forall₂_filter_filterMap n
  have hunique : Relator.RightUnique κ.Makes := fun d a b ha hb =>
    Except.ok.inj ((compile_eq_ok_iff.mpr ha).symm.trans (compile_eq_ok_iff.mpr hb))
  constructor
  · rintro rfl
    exact ⟨hsorted, hmade⟩
  · rintro ⟨hroutes, h⟩
    exact eq_of_filter_key_eq hroutes hsorted fun n =>
      List.right_unique_forall₂' hunique (h n) (hmade n)

end RouteCompiler

end HttpGateway
