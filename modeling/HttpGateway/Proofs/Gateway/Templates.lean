import HttpGateway.Proofs.Filter.Entered
import HttpGateway.Proofs.Gateway.Outcome
import HttpGateway.Proofs.Pattern.Filling
import HttpGateway.Proofs.Route.Selection

/-!
# Templates of a route

A filter of a route that sets the path fills its template with what the last condition on the path
has captured. If every pattern of this condition captures all variables of the template, they have
values wherever the filter is entered, whatever filters stand around it and however often they run
it: none of them changes what is known of the path. So no request of the route fails for want of
one.
-/

namespace HttpGateway

variable {τ : Type}

/-! ### Filling templates -/

theorem exists_mapM_eq_some_iff {α β : Type} {f : α → Option β} {l : List α} :
    (∃ r, l.mapM f = some r) ↔ ∀ a ∈ l, ∃ b, f a = some b := by
  induction l with
  | nil => simp
  | cons a l ih =>
      rw [List.forall_mem_cons, ← ih, List.mapM_cons]
      cases f a <;> cases l.mapM f <;> simp

namespace PathTemplate

/-- A template stands for a path just if all its variables have values. -/
theorem exists_expand_iff {t : PathTemplate} {value? : String → Option String} :
    (∃ path, t.expand value? = some path) ↔
      ∀ name, .variable name ∈ t.parts → ∃ v, value? name = some v := by
  have hexpand : (∃ path, t.expand value? = some path) ↔
      ∃ texts, t.parts.mapM (expandPart value?) = some texts := by simp [expand]
  rw [hexpand, exists_mapM_eq_some_iff]
  constructor
  · intro h name hname
    obtain ⟨text, htext⟩ := h _ hname
    obtain ⟨v, hv, -⟩ := Option.map_eq_some_iff.mp htext
    exact ⟨v, hv⟩
  · intro h p hp
    cases p with
    | literal text => exact ⟨text, rfl⟩
    | «variable» name =>
        obtain ⟨v, hv⟩ := h name hp
        exact ⟨_, Option.map_eq_some_iff.mpr ⟨v, hv, rfl⟩⟩

end PathTemplate

/-! ### Captures of patterns -/

namespace SegmentPattern

variable {p : SegmentPattern} {pattern text name : String} {m : PathMatch}

/-- A match knows a value for each name of the pattern. -/
theorem exists_captured_of_match (hp : path pattern = .ok p) (hm : p.match? text = some m)
    (hname : name ∈ p.names) : ∃ v, m.captured.get? name = some v := by
  have hfinds := finds_matchFrom p.kind (restLast_of_path hp) (p.piecesOf text)
  obtain ⟨found, hfound, rfl⟩ := Option.map_eq_some_iff.mp hm
  rw [hfound] at hfinds
  obtain ⟨groups, hfirst, rfl⟩ := hfinds
  refine Dictionary.exists_mem_ofList ?_
  rwa [kind_of_path hp, Segment.keys_capturesAlong hfirst.isCut.takes]

end SegmentPattern

/-! ### Conditions on the path -/

namespace PredicateSpec

theorem exists_path_of_readPatterns {texts : List String} {patterns : List SegmentPattern}
    (h : readPatterns .path texts = .ok patterns) :
    ∀ q ∈ patterns, ∃ text, SegmentPattern.path text = .ok q := by
  unfold readPatterns at h
  split at h
  · cases h
  · intro q hq
    obtain ⟨text, -, hread⟩ := exists_of_mapM_eq_ok h q hq
    refine ⟨trimText text, ?_⟩
    cases hparse : SegmentPattern.path (trimText text) with
    | ok p =>
        simp only [SegmentPattern.parse, hparse, Except.ok.injEq] at hread
        rw [hread]
    | error cause => simp [SegmentPattern.parse, hparse] at hread

theorem exists_path_of_build {spec : PredicateSpec} {patterns : List SegmentPattern}
    (h : spec.build = .ok (.path patterns)) :
    ∀ q ∈ patterns, ∃ text, SegmentPattern.path text = .ok q := by
  cases spec with simp only [build] at h
  | path texts =>
      obtain ⟨read, hread, hpath⟩ := map_eq_ok_iff.mp h
      obtain rfl := Predicate.path.inj hpath
      exact exists_path_of_readPatterns hread
  | host _ | cookie _ _ | query _ _ | before _ | after _ =>
      obtain ⟨_, -, hpath⟩ := map_eq_ok_iff.mp h
      cases hpath
  | method _ =>
      split at h
      · cases h
      · split at h <;> cases h
  | header _ _ =>
      split at h
      · cases h
      · obtain ⟨_, -, hpath⟩ := map_eq_ok_iff.mp h
        cases hpath
  | remoteAddress _ =>
      obtain ⟨_, -, h⟩ := bind_eq_ok_iff.mp h
      split at h <;> cases h
  | between _ _ =>
      obtain ⟨_, -, h⟩ := bind_eq_ok_iff.mp h
      obtain ⟨_, -, h⟩ := bind_eq_ok_iff.mp h
      split at h <;> cases h

end PredicateSpec

namespace Predicate

def isPath : Predicate → Bool
  | .path _ => true
  | _ => false

theorem capture?_of_not_isPath {p : Predicate} (h : p.isPath = false) (r : Request) :
    p.capture? r = none := by
  cases p with
  | path patterns => cases h
  | _ => rfl

/-- What has been captured is what the last condition on the path has captured. -/
theorem lastCapture?_of_last (before : List Predicate) {after : List Predicate}
    {patterns : List SegmentPattern} {r : Request} {now : Timestamp}
    (hafter : ∀ p ∈ after, p.isPath = false)
    (h : (Predicate.path patterns).Holds r now) :
    ∃ q ∈ patterns, ∃ m, q.match? r.path = some m ∧
      lastCapture? (before ++ .path patterns :: after) r = some m := by
  have hnone : after.filterMap (fun p => p.capture? r) = [] :=
    List.filterMap_eq_nil_iff.mpr fun p hp => capture?_of_not_isPath (hafter p hp) r
  cases hfound : patterns.findSome? fun p => p.match? r.path with
  | none =>
      rw [Holds, check, hfound] at h
      cases h
  | some m =>
      obtain ⟨q, hq, hm⟩ := List.exists_of_findSome?_eq_some hfound
      refine ⟨q, hq, m, hm, ?_⟩
      rw [lastCapture?, List.filterMap_append, List.filterMap_cons, hnone,
        show (Predicate.path patterns).capture? r = some m from hfound, List.getLast?_concat]

/-- The patterns of a condition have been read from texts. -/
theorem exists_path_of_ofDefinitions {ds : List PredicateDefinition} {ps : List Predicate}
    (h : ofDefinitions ds = .ok ps) {patterns : List SegmentPattern} (hp : .path patterns ∈ ps) :
    ∀ q ∈ patterns, ∃ text, SegmentPattern.path text = .ok q := by
  obtain ⟨d, -, hd⟩ := exists_of_mapM_eq_ok h _ hp
  obtain ⟨spec, -, hbuild⟩ := ofDefinition_eq_ok_iff.mp hd
  exact PredicateSpec.exists_path_of_build hbuild

end Predicate

/-! ### Routes -/

namespace Exchange

/-- The value that the path of the request has given to a name. -/
def captured? (x : Exchange) (name : String) : Option String :=
  x.pathMatch.bind fun m => m.captured.get? name

end Exchange

theorem RequestEdit.apply_setPath (template : PathTemplate) (x : Exchange) :
    (setPath template).apply x =
      match template.expand x.captured? with
      | none => (.error (.missingState .templateVariable), x)
      | some path => rewrite x path := rfl

namespace Route

/-- Every pattern of the last condition on the path captures all variables of the template. -/
def Provides (route : Route) (template : PathTemplate) : Prop :=
  ∃ before patterns after, route.predicates = before ++ .path patterns :: after ∧
    (∀ p ∈ after, p.isPath = false) ∧
    ∀ q ∈ patterns, ∀ name, .variable name ∈ template.parts → name ∈ q.names

/-- A route that is selected for a request holds for it. -/
theorem check_of_select {routes : List Route} {r : Request} {now : Timestamp} {route : Route}
    {found : Option PathMatch} (h : select routes r now = some (route, found)) :
    route.check r now = (true, found) := by
  obtain ⟨tried, -, h⟩ := List.exists_of_findSome?_eq_some h
  dsimp only at h
  split at h
  · next holds =>
      obtain ⟨rfl, rfl⟩ := Prod.mk.inj (Option.some.inj h)
      exact Prod.ext holds rfl
  · cases h

/-- A request that is matched to the route has values for all variables of the template. -/
theorem Provides.exists_captured {route : Route} {template : PathTemplate} {c : RouteCompiler}
    {d : RouteDefinition} (h : route.Provides template) (hcompile : c.compile d = .ok route)
    {r : Request} {now : Timestamp} {found : Option PathMatch}
    (hcheck : route.check r now = (true, found)) {name : String}
    (hname : .variable name ∈ template.parts) :
    ∃ v, (found.bind fun m => m.captured.get? name) = some v := by
  obtain ⟨before, patterns, after, hsplit, hafter, hpatterns⟩ := h
  have hholds := RouteCompiler.check_iff.mp (congrArg Prod.fst hcheck)
  have hfound : found = (Predicate.lastCapture? route.predicates r).or none :=
    (congrArg Prod.snd hcheck).symm.trans (Predicate.pathMatch_checkAll hholds)
  rw [hsplit, Option.or_none] at hfound
  rw [hsplit] at hholds
  obtain ⟨q, hq, m, hm, hlast⟩ := Predicate.lastCapture?_of_last before hafter
    (hholds _ (List.mem_append_right _ List.mem_cons_self))
  obtain ⟨text, htext⟩ := Predicate.exists_path_of_ofDefinitions
    (RouteCompiler.compile_eq_ok_iff.mp hcompile).predicates
    (hsplit ▸ List.mem_append_right _ List.mem_cons_self) q hq
  rw [hfound, hlast]
  exact SegmentPattern.exists_captured_of_match htext hm (hpatterns q hq name hname)

end Route

/-! ### Setting paths -/

theorem Request.invalidRequest_of_setTarget {r : Request} {text : String} {e : GatewayError}
    (h : r.setTarget text = .error e) : ∃ reason, e = .invalidRequest reason := by
  unfold setTarget at h
  split at h
  · exact ⟨_, (Except.error.inj h).symm⟩
  · split at h <;> cases h
    exact ⟨_, rfl⟩

/-- Once the template has been filled, all that may be wrong is the path it stands for. -/
theorem Filter.invalidRequest_of_enter_setPath [TokenArithmetic τ] {template : PathTemplate}
    {s t : Scene τ} {e : GatewayError}
    (hfilled : ∃ path, template.expand s.exchange.captured? = some path)
    (hfails : (Filter.request (.setPath template)).enter s = .failed e t) :
    ∃ reason, e = .invalidRequest reason := by
  obtain ⟨path, hpath⟩ := hfilled
  simp only [enter, enterRequest, RequestEdit.apply_setPath, hpath, RequestEdit.rewrite,
    RequestEdit.replaceRequest] at hfails
  cases hset : s.exchange.request.setPath path with
  | ok r =>
      rw [hset] at hfails
      cases hfails
  | error cause =>
      rw [hset] at hfails
      cases hfails
      exact Request.invalidRequest_of_setTarget hset

namespace Handler

/-- On a route that provides a template, the filter that sets the path by it finds values for all
variables wherever it is entered, and fails only for a path that is no path. So if the client is
told of an error, it is that of another filter or a bad request. There is no answer only to an
exchange that has been given up. -/
theorem templates_filled [TokenArithmetic τ] (bodyLimit : Nat) {c : RouteCompiler}
    {d : RouteDefinition} {route : Route} (hcompile : c.compile d = .ok route)
    {routes : List Route} {now : Timestamp} {s : Scene τ} {found : Option PathMatch}
    (hselect : Route.select routes s.exchange.request now = some (route, found)) :
    let globals := Gateway.globalFilters bodyLimit
    let chain := OrderedFilter.merge globals route.filters
    let t := enterRoute route found s
    let course := (chainCourse chain t).closedBy (runChain chain t)
    (∀ template, route.Provides template → ∀ u,
      (.request (.setPath template), u) ∈ chainEntered chain t →
      (∃ path, template.expand u.exchange.captured? = some path) ∧
      ∀ e u', (Filter.request (.setPath template)).enter u = .failed e u' →
        ∃ reason, e = .invalidRequest reason) ∧
    (s.exchange.response.isCommitted = false → ∃ k, course.commit = some k ∧
      (handle globals (.ok routes) now s).1 =
        (if (runChain chain t).2.exchange.abandoned then none
          else some (k.reply (course.held s.exchange.upstream))) ∧
      ∀ e, k = .failed e → ∃ v ∈ chainEntered chain t, (∃ u, v.1.enter v.2 = .failed e u) ∧
        ∀ template, route.Provides template → v.1 = .request (.setPath template) →
          e.status = Status.badRequest) := by
  intro globals chain t course
  have hfilled : ∀ template, route.Provides template → ∀ u,
      (.request (.setPath template), u) ∈ chainEntered chain t →
      (∃ path, template.expand u.exchange.captured? = some path) ∧
      ∀ e u', (Filter.request (.setPath template)).enter u = .failed e u' →
        ∃ reason, e = .invalidRequest reason := by
    intro template hprovides u hu
    have hknown : u.exchange.pathMatch = found := pathMatch_of_mem_chainEntered chain t _ hu
    have hexpand : ∃ path, template.expand u.exchange.captured? = some path :=
      PathTemplate.exists_expand_iff.mpr fun name hname => by
        rw [Exchange.captured?, hknown]
        exact hprovides.exists_captured hcompile (Route.check_of_select hselect) hname
    exact ⟨hexpand, fun e u' => Filter.invalidRequest_of_enter_setPath hexpand⟩
  refine ⟨hfilled, fun hopen => ?_⟩
  obtain ⟨k, hk, hresponse, hcase⟩ := exists_commit_passRoute found
    (commit_mem_merge bodyLimit route.filters) hopen
  refine ⟨k, hk, ?_, fun e hfailed => ?_⟩
  · rw [handle_of_select hselect, passRoute]
    dsimp only
    split
    · rfl
    · exact congrArg some ((congrArg Response.toReply hresponse).trans (k.toReply_response _))
  · subst hfailed
    obtain ⟨v, hv, hfails⟩ := failsIn_chainEntered chain t hcase
    refine ⟨v, hv, hfails, fun template hprovides hfilter => ?_⟩
    obtain ⟨f, u⟩ := v
    obtain rfl : f = .request (.setPath template) := hfilter
    obtain ⟨u', hu'⟩ := hfails
    obtain ⟨reason, rfl⟩ := (hfilled template hprovides u hv).2 e u' hu'
    rfl

/-- Both paths of a user stand for one path of the backend, which is asked twice. -/
def usersDefinition : RouteDefinition :=
  { id := "users", uri := "http://b"
    predicates := [⟨"Path", [("patterns", .arr [.str "/users/{id}", .str "/u/{id}"])]⟩]
    filters :=
      [⟨"Retry", [("retries", .int 2)], none⟩,
        ⟨"SetPath", [("template", .str "/v2/{id}")], some 7⟩] }

def userTemplate : PathTemplate := ⟨[.literal "/v2/", .variable "id"]⟩

def usersRoute : Route :=
  { id := "users", uri := ⟨some "http", some "b", ⟨"", none⟩⟩
    predicates := [.path [⟨.path, "/users/{id}", [.literal "users", .capture "id"]⟩,
      ⟨.path, "/u/{id}", [.literal "u", .capture "id"]⟩]]
    filters := [⟨1, .retry { maxAttempts := 2 } 1024⟩, ⟨7, .request (.setPath userTemplate)⟩] }

/-- A request for a user, to a backend that is unavailable at first. -/
def userAtFirst : Scene Rat :=
  { unavailableAtFirst with
    exchange := { request := { method := Method.get, uri := ⟨none, none, ⟨"/u/7", none⟩⟩ } } }

theorem compile_usersDefinition :
    RouteCompiler.compile ⟨1024, []⟩ usersDefinition = .ok usersRoute := by
  have hspec : PredicateSpec.ofDefinition
      ⟨"Path", [("patterns", .arr [.str "/users/{id}", .str "/u/{id}"])]⟩ =
        .ok (.path ["/users/{id}", "/u/{id}"]) := toOption_eq_some_iff.mp (by decide +kernel)
  have hpatterns : PredicateSpec.readPatterns .path ["/users/{id}", "/u/{id}"] =
      .ok [⟨.path, "/users/{id}", [.literal "users", .capture "id"]⟩,
        ⟨.path, "/u/{id}", [.literal "u", .capture "id"]⟩] :=
    toOption_eq_some_iff.mp (by decide +kernel)
  have hpredicates : Predicate.ofDefinitions usersDefinition.predicates =
      .ok usersRoute.predicates := by
    simp [Predicate.ofDefinitions, usersDefinition, usersRoute,
      Predicate.ofDefinition_of_patterns hspec hpatterns]
  exact RouteCompiler.compile_eq_ok_iff.mpr ⟨by decide, by cbv, hpredicates, by cbv, rfl, rfl⟩

/-- The path is set from the capture at both attempts. -/
theorem templates_filled_of_userAtFirst :
    let globals := Gateway.globalFilters 1024
    let found : Option PathMatch := some ⟨[("id", "7")], none⟩
    let answered := handle globals (.ok [usersRoute]) ⟨0, 0, 0⟩ userAtFirst
    answered.2.sent.map (fun sent => sent.url.path) = ["/v2/7", "/v2/7"] ∧
    (∀ u, (.request (.setPath userTemplate), u) ∈
        chainEntered (OrderedFilter.merge globals usersRoute.filters)
          (enterRoute usersRoute found userAtFirst) →
      ∃ path, userTemplate.expand u.exchange.captured? = some path) ∧
    ∃ k held, answered.1 = some (Commit.reply held k) := by
  intro globals found answered
  have hselect : Route.select [usersRoute] userAtFirst.exchange.request ⟨0, 0, 0⟩ =
      some (usersRoute, found) := by
    have hholds : usersRoute.check userAtFirst.exchange.request ⟨0, 0, 0⟩ = (true, found) := by
      decide +kernel
    simp [Route.select, hholds]
  have hprovides : usersRoute.Provides userTemplate :=
    ⟨[], _, [], rfl, by simp, by simp [userTemplate, SegmentPattern.names, Segment.name?]⟩
  have hmerge : OrderedFilter.merge globals usersRoute.filters =
      [⟨-1, .commit⟩, ⟨1, .retry { maxAttempts := 2 } 1024⟩,
        ⟨7, .request (.setPath userTemplate)⟩, ⟨10000, .resolveUrl⟩,
        ⟨2147483647, .forward 1024⟩] := by cbv
  have hsent : answered.2.sent.map (fun sent => sent.url.path) = ["/v2/7", "/v2/7"] := by
    simp only [answered, handle_of_select hselect, passRoute, hmerge]
    decide +kernel
  have hkept : (runChain (OrderedFilter.merge globals usersRoute.filters)
      (enterRoute usersRoute found userAtFirst)).2.exchange.abandoned = false := by
    rw [hmerge]
    decide +kernel
  obtain ⟨hfilled, hanswer⟩ := templates_filled 1024 compile_usersDefinition hselect
  obtain ⟨k, -, hreply, -⟩ := hanswer rfl
  rw [hkept] at hreply
  exact ⟨hsent, fun u hu => (hfilled userTemplate hprovides u hu).1, k, _, hreply⟩

end Handler

end HttpGateway
