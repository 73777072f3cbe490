import HttpGateway.Handler
import HttpGateway.Proofs.Route.Compilation
import Mathlib

/-!
# Which route a request takes

A request takes the route of the definition that is least by its order, and then by its place among
the definitions of all sources, of those that compile and whose conditions hold for the request at
that moment. Every route is tried with nothing captured, so that an exchange knows only what the
conditions of its own route have captured.
-/

namespace HttpGateway

/-! ### Conditions -/

namespace Predicate

/-- The condition holds for a request at a moment. -/
def Holds (p : Predicate) (r : Request) (now : Timestamp) : Prop := (p.check r { now }).1 = true

/-- What the condition captures. -/
def capture? : Predicate → Request → Option PathMatch
  | .path patterns, r => patterns.findSome? fun p => p.match? r.path
  | _, _ => none

/-- What has been captured before neither decides a condition nor is lost unless it captures
something itself. -/
theorem check_eq (p : Predicate) (r : Request) (ctx : MatchContext) :
    p.check r ctx = ((p.check r { now := ctx.now }).1,
      { ctx with pathMatch := (p.capture? r).or ctx.pathMatch }) := by
  cases p with
  | path patterns =>
      simp only [check, capture?]
      cases patterns.findSome? fun p => p.match? r.path <;> rfl
  | header name value => cases value <;> rfl
  | _ => rfl

/-- The last of the captures of some conditions. -/
def lastCapture? (ps : List Predicate) (r : Request) : Option PathMatch :=
  (ps.filterMap fun p => p.capture? r).getLast?

theorem lastCapture?_cons (p : Predicate) (ps : List Predicate) (r : Request) :
    lastCapture? (p :: ps) r = (lastCapture? ps r).or (p.capture? r) := by
  rw [lastCapture?, lastCapture?, List.filterMap_cons]
  cases p.capture? r with
  | none => simp
  | some m =>
      rw [List.getLast?_cons]
      cases (ps.filterMap fun p => p.capture? r).getLast? <;> rfl

theorem checkAll_iff {ps : List Predicate} {r : Request} {ctx : MatchContext} :
    (checkAll ps r ctx).1 = true ↔ ∀ p ∈ ps, p.Holds r ctx.now := by
  induction ps generalizing ctx with
  | nil => simp [checkAll]
  | cons p ps ih =>
      rw [checkAll, check_eq, List.forall_mem_cons]
      cases hp : (p.check r { now := ctx.now }).1 with
      | true => simpa [Holds, hp] using ih
      | false => simp [Holds, hp]

theorem pathMatch_checkAll {ps : List Predicate} {r : Request} {ctx : MatchContext}
    (h : ∀ p ∈ ps, p.Holds r ctx.now) :
    (checkAll ps r ctx).2.pathMatch = (lastCapture? ps r).or ctx.pathMatch := by
  induction ps generalizing ctx with
  | nil => rfl
  | cons p ps ih =>
      obtain ⟨hp, hps⟩ := List.forall_mem_cons.mp h
      rw [Holds] at hp
      rw [checkAll, check_eq, hp, lastCapture?_cons, Option.or_assoc]
      exact ih hps

end Predicate

/-! ### Definitions -/

namespace RouteCompiler

variable {κ : RouteCompiler} {r : Request} {now : Timestamp} {ds : List RouteDefinition}

/-- The definition makes this route, and the request may take it. -/
structure Admits (κ : RouteCompiler) (r : Request) (now : Timestamp) (d : RouteDefinition)
    (route : Route) : Prop where
  compiles : κ.compile d = .ok route
  holds : ∀ p ∈ route.predicates, p.Holds r now

/-- Of all definitions whose routes the request may take, the one at this place is least by its
order and its place. -/
structure IsLeast (κ : RouteCompiler) (r : Request) (now : Timestamp) (ds : List RouteDefinition)
    (place : Nat) (d : RouteDefinition) (route : Route) : Prop where
  found : ds[place]? = some d
  admits : κ.Admits r now d route
  least : ∀ place' d' route', ds[place']? = some d' → κ.Admits r now d' route' →
    d.order < d'.order ∨ d.order = d'.order ∧ place ≤ place'

/-- The source without the definitions that do not compile. -/
def prune (κ : RouteCompiler) (s : RouteSource) : RouteSource :=
  { s with definitions := s.definitions.filter fun d => (κ.compile d).isOk }

theorem readAll_eq {sources : List RouteSource} (h : ∀ s ∈ sources, s.failure = none) :
    RouteSource.readAll sources = .ok (sources.flatMap RouteSource.definitions) := by
  induction sources with
  | nil => rfl
  | cons s rest ih =>
      obtain ⟨hs, hrest⟩ := List.forall_mem_cons.mp h
      refine bind_eq_ok_iff.mpr ⟨s.definitions, by rw [RouteSource.read, hs], ?_⟩
      exact bind_eq_ok_iff.mpr ⟨_, ih hrest, rfl⟩

theorem readAll_map_prune (κ : RouteCompiler) (sources : List RouteSource) :
    RouteSource.readAll (sources.map κ.prune) =
      (RouteSource.readAll sources).map (List.filter fun d => (κ.compile d).isOk) := by
  induction sources with
  | nil => rfl
  | cons s rest ih =>
      rw [List.map_cons, RouteSource.readAll, RouteSource.readAll, ih]
      cases hs : s.failure with
      | some reason => simp [RouteSource.read, prune, hs, bind, Except.bind, Except.map]
      | none =>
          cases RouteSource.readAll rest <;>
            simp [RouteSource.read, prune, hs, bind, Except.bind, Except.map]

theorem locate_map_prune (κ : RouteCompiler) (sources : List RouteSource) :
    κ.locate (sources.map κ.prune) = κ.locate sources := by
  rw [locate, locate, readAll_map_prune]
  cases RouteSource.readAll sources with
  | error e => rfl
  | ok ds => exact congrArg Except.ok compileAll_filter_isOk

/-! ### Selection -/

theorem check_iff {route : Route} :
    (route.check r now).1 = true ↔ ∀ p ∈ route.predicates, p.Holds r now :=
  Predicate.checkAll_iff

/-- The first route in the list that the request may take is that of the least definition. -/
theorem exists_isLeast {route : Route}
    (h : (κ.compileAll ds).find? (fun route => (route.check r now).1) = some route) :
    ∃ place d, κ.IsLeast r now ds place d route := by
  obtain ⟨before, after, hsplit, hbefore, hafter⟩ := exists_of_find?_mergeSort Route.order h
  obtain ⟨front, back, rfl, rfl, hback⟩ := List.filterMap_eq_append_iff.mp hsplit
  obtain ⟨skipped, d, rest, rfl, hskipped, hd, rfl⟩ := List.filterMap_eq_cons_iff.mp hback
  have hcompiles := toOption_eq_some_iff.mp hd
  have horder := (compile_eq_ok_iff.mp hcompiles).order
  refine ⟨(front ++ skipped).length, d, by simp, ⟨hcompiles, ?_⟩, fun place' d' route' hd' admits' => ?_⟩
  · have hcheck := List.find?_some (p := fun route : Route => (route.check r now).1) h
    exact check_iff.mp hcheck
  · have hroute' := toOption_eq_some_iff.mpr admits'.compiles
    have hcheck' := check_iff.mpr admits'.holds
    have horder' := (compile_eq_ok_iff.mp admits'.compiles).order
    rw [← List.append_assoc] at hd'
    rcases Nat.lt_or_ge place' (front ++ skipped).length with hlt | hge
    · -- Before the place stand those of a greater order, and those that do not compile.
      rw [List.getElem?_append_left hlt] at hd'
      rcases List.mem_append.mp (List.mem_of_getElem? hd') with hmem | hmem
      · have hlt := hbefore route' (List.mem_filterMap.mpr ⟨d', hmem, hroute'⟩) hcheck'
        rw [horder, horder'] at hlt
        exact .inl hlt
      · rw [hskipped d' hmem] at hroute'
        cases hroute'
    · rw [List.getElem?_append_right hge] at hd'
      have hle : d.order ≤ d'.order := by
        rcases List.mem_cons.mp (List.mem_of_getElem? hd') with rfl | hmem
        · exact Int32.le_refl _
        · have hle := hafter route' (List.mem_filterMap.mpr ⟨d', hmem, hroute'⟩) hcheck'
          rwa [horder, horder'] at hle
      rcases Int32.lt_or_eq_of_le hle with hlt | heq
      · exact .inl hlt
      · exact .inr ⟨heq, hge⟩

end RouteCompiler

namespace Handler

variable {routes : List Route} {now : Timestamp} {x : Exchange}

/-- Looking up a route finds the first whose conditions hold; it is tried with nothing captured. -/
theorem lookup_ok (routes : List Route) (now : Timestamp) (x : Exchange) :
    lookup (.ok routes) now x =
      match routes.find? fun route => (route.check x.request now).1 with
      | none => (.ok none, x)
      | some route => (.ok (some route),
          { x with pathMatch :=
            (Predicate.checkAll route.predicates x.request { now }).2.pathMatch }) := by
  have hselect : Route.select routes x.request now =
      (routes.find? fun route => (route.check x.request now).1).map
        fun route => (route, (route.check x.request now).2) := by
    induction routes with
    | nil => rfl
    | cons route rest ih =>
        rw [Route.select, List.findSome?_cons, List.find?_cons]
        cases hc : route.check x.request now with
        | mk holds found => cases holds <;> simp [hc, ← ih, Route.select]
  rw [lookup, hselect]
  cases routes.find? fun route => (route.check x.request now).1 <;> rfl

end Handler

open RouteCompiler

/-- If all sources answer, an exchange takes the route of the least of all definitions that compile
and whose conditions hold for it, or no route if there is no such definition. It is left as it is,
but for what the conditions of its route capture, which is what the last of them captures that
captures anything. Definitions that do not compile make no difference. -/
theorem lookup_least (κ : RouteCompiler) {sources : List RouteSource}
    (hanswer : ∀ s ∈ sources, s.failure = none) (now : Timestamp) (x : Exchange) :
    let ds := sources.flatMap RouteSource.definitions
    let found := Handler.lookup (κ.locate sources) now x
    ((∃ place d route, κ.IsLeast x.request now ds place d route ∧
        found = (.ok (some route), { x with pathMatch :=
          (Predicate.checkAll route.predicates x.request { now }).2.pathMatch }) ∧
        found.2.pathMatch = Predicate.lastCapture? route.predicates x.request) ∨
      ((∀ d ∈ ds, ∀ route, ¬κ.Admits x.request now d route) ∧ found = (.ok none, x))) ∧
    Handler.lookup (κ.locate (sources.map κ.prune)) now x = found := by
  intro ds found
  have hlocate : κ.locate sources = .ok (κ.compileAll ds) := by
    rw [locate, readAll_eq hanswer]
    rfl
  have hfound : found = Handler.lookup (.ok (κ.compileAll ds)) now x := by rw [← hlocate]
  rw [Handler.lookup_ok] at hfound
  refine ⟨?_, by rw [locate_map_prune]⟩
  cases hfirst : (κ.compileAll ds).find? fun route => (route.check x.request now).1 with
  | some route =>
      rw [hfirst] at hfound
      obtain ⟨place, d, least⟩ := exists_isLeast hfirst
      refine .inl ⟨place, d, route, least, hfound, ?_⟩
      rw [hfound]
      exact (Predicate.pathMatch_checkAll least.admits.holds).trans Option.or_none
  | none =>
      rw [hfirst] at hfound
      refine .inr ⟨fun d hd route admits => ?_, hfound⟩
      have hmem := mem_compileAll_iff.mpr ⟨d, hd, admits.compiles⟩
      exact List.find?_eq_none.mp hfirst route hmem (check_iff.mpr admits.holds)

/-- A definition with a condition on the path for each of these patterns. -/
def pathDefinition (id : String) (patterns : List String) : RouteDefinition :=
  { id, uri := "http://a"
    predicates := patterns.map fun pattern => ⟨"Path", [("patterns", .arr [.str pattern])]⟩ }

def pathRoute (id : String) (patterns : List SegmentPattern) : Route :=
  { id, uri := ⟨some "http", some "a", ⟨"", none⟩⟩
    predicates := patterns.map fun pattern => .path [pattern] }

theorem compile_pathDefinition {id : String} {texts : List String} {patterns : List SegmentPattern}
    (hid : isBlankId id = false)
    (h : List.Forall₂ (fun text pattern =>
      PredicateSpec.ofDefinition ⟨"Path", [("patterns", .arr [.str text])]⟩ = .ok (.path [text]) ∧
        PredicateSpec.readPatterns .path [text] = .ok [pattern]) texts patterns) :
    compile ⟨64, []⟩ (pathDefinition id texts) = .ok (pathRoute id patterns) := by
  have hpredicates : Predicate.ofDefinitions (pathDefinition id texts).predicates =
      .ok (pathRoute id patterns).predicates := by
    simp only [Predicate.ofDefinitions, pathDefinition, pathRoute, List.mapM_map]
    induction h with
    | nil => rfl
    | cons hpattern _ ih =>
        rw [List.mapM_cons]
        exact bind_eq_ok_iff.mpr ⟨_, Predicate.ofDefinition_of_patterns hpattern.1 hpattern.2,
          bind_eq_ok_iff.mpr ⟨_, ih, rfl⟩⟩
  exact compile_eq_ok_iff.mpr ⟨hid, by cbv, hpredicates, rfl, rfl, rfl⟩

/-- A definition without an id comes first by its order, and another captures a number before its
second condition fails. The route of the second source is taken, before one of the same order. -/
theorem lookup_least_of_tie :
    let sources : List RouteSource :=
      [{ definitions :=
          [{ id := " ", uri := "http://a", order := -1 }, pathDefinition "x" ["/x/{id}", "/y"]] },
        { definitions := [pathDefinition "any" ["/{kind}/7"], pathDefinition "tie" []] }]
    let ds := sources.flatMap RouteSource.definitions
    let x : Exchange := { request := { uri := ⟨none, none, ⟨"/x/7", none⟩⟩ } }
    let taken := pathRoute "any" [⟨.path, "/{kind}/7", [.capture "kind", .literal "7"]⟩]
    let found := Handler.lookup (locate ⟨64, []⟩ sources) ⟨0, 0, 0⟩ x
    (∀ s ∈ sources, s.failure = none) ∧
      found = (.ok (some taken), { x with pathMatch := some ⟨[("kind", "x")], none⟩ }) ∧
      ∃ place d, IsLeast ⟨64, []⟩ x.request ⟨0, 0, 0⟩ ds place d taken := by
  intro sources ds x taken found
  let failing := pathRoute "x" [⟨.path, "/x/{id}", [.literal "x", .capture "id"]⟩,
    ⟨.path, "/y", [.literal "y"]⟩]
  have hblank : compile ⟨64, []⟩ { id := " ", uri := "http://a", order := -1 } = .error .missingId := by
    cbv
  have hread {text : String} {pattern : SegmentPattern}
      (h : (PredicateSpec.ofDefinition ⟨"Path", [("patterns", .arr [.str text])]⟩).toOption =
          some (.path [text]) ∧
        (PredicateSpec.readPatterns .path [text]).toOption = some [pattern]) :=
    h.imp toOption_eq_some_iff.mp toOption_eq_some_iff.mp
  have hfailing : compile ⟨64, []⟩ (pathDefinition "x" ["/x/{id}", "/y"]) = .ok failing :=
    compile_pathDefinition (by decide)
      (.cons (hread (by decide +kernel)) (.cons (hread (by decide +kernel)) .nil))
  have htaken : compile ⟨64, []⟩ (pathDefinition "any" ["/{kind}/7"]) = .ok taken :=
    compile_pathDefinition (by decide) (.cons (hread (by decide +kernel)) .nil)
  have htie : compile ⟨64, []⟩ (pathDefinition "tie" []) = .ok (pathRoute "tie" []) :=
    compile_pathDefinition (by decide) .nil
  have hanswer : ∀ s ∈ sources, s.failure = none := by simp [sources]
  have hlocate : locate ⟨64, []⟩ sources = .ok [failing, taken, pathRoute "tie" []] := by
    rw [locate, readAll_eq hanswer]
    simp only [sources, compileAll, Except.map, List.flatMap_cons, List.flatMap_nil, List.append_nil,
      List.cons_append, List.nil_append, List.filterMap_cons, hblank, hfailing, htaken, htie,
      Except.toOption, List.filterMap_nil]
    cbv
  have hfails : failing.check x.request ⟨0, 0, 0⟩ = (false, some ⟨[("id", "7")], none⟩) := by
    decide +kernel
  have hholds : taken.check x.request ⟨0, 0, 0⟩ = (true, some ⟨[("kind", "x")], none⟩) := by
    decide +kernel
  have hfound : found = (.ok (some taken), { x with pathMatch := some ⟨[("kind", "x")], none⟩ }) := by
    simp [found, hlocate, Handler.lookup, Route.select, hfails, hholds]
  refine ⟨hanswer, hfound, ?_⟩
  rcases (lookup_least ⟨64, []⟩ hanswer ⟨0, 0, 0⟩ x).1 with ⟨place, d, route, least, h, -⟩ | ⟨-, h⟩
  · obtain rfl : taken = route := by simpa using congrArg Prod.fst (hfound.symm.trans h)
    exact ⟨place, d, least⟩
  · have hfirst := congrArg Prod.fst (hfound.symm.trans h)
    simp at hfirst

end HttpGateway
