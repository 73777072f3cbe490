import HttpGateway.Proofs.Config.Serialisation
import HttpGateway.Proofs.Definition.Texts

/-!
# Configurations written to texts and read again

As a structured value a configuration is read as it was written. Through a text the same holds but for
two things. A text is read by a reader that gives up on arrays and objects that nest too deeply, and
that rounds twice where a fractional number has many digits; so a number among the arguments may come
back as one beside it.
-/

namespace HttpGateway

variable {room : Nat}

theorem Json.hasText_natural {n : Nat} (h : n ≤ Decoder.max64) : (Json.int n).HasText := by
  have hword : (Json.largestWord : Int) = 18446744073709551615 := rfl
  have hmost : Decoder.max64 = 18446744073709551615 := rfl
  exact ⟨by omega, by omega⟩

namespace GatewayConfig

variable {c : GatewayConfig}

/-- The numbers of the settings fit a word, and texts hold the arguments of the definitions. -/
structure HasText (c : GatewayConfig) : Prop where
  listener : c.listener.IsWritable
  timeouts : c.timeouts.IsWritable
  limits : c.limits.IsWritable
  defaultFilters : ∀ f ∈ c.defaultFilters, f.HasText
  routes : ∀ r ∈ c.routes, r.HasText

/-- Texts hold the arguments of the definitions, with at most so many arrays and objects in one another.
A default filter stands two levels higher than a filter of a route. -/
structure ArgsFit (room : Nat) (c : GatewayConfig) : Prop where
  defaultFilters : ∀ f ∈ c.defaultFilters, (Json.obj f.args).Fits (room + 2)
  routes : ∀ r ∈ c.routes, r.ArgsFit room

/-- Every fractional number among the arguments is the number that its own text is read as. -/
structure IsKept (c : GatewayConfig) : Prop where
  defaultFilters : ∀ f ∈ c.defaultFilters, (Json.obj f.args).IsKept
  routes : ∀ r ∈ c.routes, r.IsKept

/-- What the text of a configuration is read as. -/
def reread (c : GatewayConfig) : GatewayConfig :=
  { c with
    defaultFilters := c.defaultFilters.map FilterDefinition.reread
    routes := c.routes.map RouteDefinition.reread }

theorem ArgsFit.toHasText (h : c.ArgsFit room) (hwritable : c.IsWritable) : c.HasText where
  listener := hwritable.listener
  timeouts := hwritable.timeouts
  limits := hwritable.limits
  defaultFilters f hf := .of_fits (h.defaultFilters f hf)
  routes r hr := (h.routes r hr).toHasText

theorem isWritable_reread (h : c.HasText) : c.reread.IsWritable where
  listener := h.listener
  timeouts := h.timeouts
  limits := h.limits
  defaultFilters := List.forall_mem_map.mpr fun f hf =>
    FilterDefinition.isWritable_reread (h.defaultFilters f hf)
  routes := List.forall_mem_map.mpr fun r hr => RouteDefinition.isWritable_reread (h.routes r hr)

theorem hasText_written (h : c.HasText) : c.written.HasText := by
  refine ⟨⟨trivial, Json.hasText_natural h.listener, trivial⟩,
    ⟨Json.hasText_natural h.timeouts.connect, Json.hasText_natural h.timeouts.upstream,
      Json.hasText_natural h.timeouts.request, trivial⟩, ⟨Json.hasText_natural h.limits, trivial⟩,
    ⟨trivial, trivial, trivial, trivial, trivial⟩,
    Json.hasText_arr fun f hf => ?_, Json.hasText_arr fun r hr => ?_, trivial⟩
  · exact FilterDefinition.hasText_written (h.defaultFilters f hf)
  · exact RouteDefinition.hasText_written (h.routes r hr)

theorem depth_written_le (h : c.ArgsFit room) : c.written.depth ≤ room + 5 := by
  refine Nat.succ_le_succ (Json.fieldsDepth_le_iff.mpr ?_)
  simp only [List.forall_mem_cons]
  refine ⟨Nat.le_add_left 1 _, Nat.le_add_left 1 _, Nat.le_add_left 1 _, Nat.le_add_left 1 _,
    Json.depth_arr_le fun f hf => ?_, Json.depth_arr_le fun r hr => ?_, List.forall_mem_nil _⟩
  · exact FilterDefinition.depth_written_le (h.defaultFilters f hf).depth_le
  · exact RouteDefinition.depth_written_le (h.routes r hr)

theorem reread_written (h : c.HasText) : c.written.reread = c.reread.toJson := by
  have hlistener : (c.listener.assemble .obj).reread = c.listener.assemble .object := rfl
  have htimeouts : (c.timeouts.assemble .obj).reread = c.timeouts.assemble .object := rfl
  have hlimits : (c.limits.assemble .obj).reread = c.limits.assemble .object := rfl
  have hobservability :
      (c.observability.assemble .obj).reread = c.observability.assemble .object := rfl
  have hfilters :
      Json.rereadItems (c.defaultFilters.map (FilterDefinition.assemble .obj)) =
        (c.defaultFilters.map FilterDefinition.reread).map FilterDefinition.toJson :=
    Json.rereadItems_map fun f hf => FilterDefinition.reread_written (h.defaultFilters f hf)
  have hroutes :
      Json.rereadItems (c.routes.map (RouteDefinition.assemble .obj)) =
        (c.routes.map RouteDefinition.reread).map RouteDefinition.toJson :=
    Json.rereadItems_map fun r hr => RouteDefinition.reread_written (h.routes r hr)
  simp only [written, assemble, Json.reread, Json.rereadFields, hfilters, hroutes, hlistener, htimeouts,
    hlimits, hobservability]
  rfl

/-- A configuration is read from its text as it was, up to the fractional numbers. -/
theorem ofJson_reread (origin : Origin) (h : c.HasText) :
    ofJson origin c.written.reread = .ok c.reread :=
  reread_written h ▸ ofJson_toJson origin (isWritable_reread h)

/-- The arguments are so much further down in what a configuration has been read from. -/
theorem argsFit_of_ofJson {origin : Origin} {j : Json} (hj : j.Fits (room + 6))
    (h : ofJson origin j = .ok c) : c.ArgsFit (room + 1) := by
  obtain ⟨found, hfound, h⟩ := bind_eq_ok_iff.mp h
  obtain ⟨listener, -, h⟩ := bind_eq_ok_iff.mp h
  obtain ⟨timeouts, -, h⟩ := bind_eq_ok_iff.mp h
  obtain ⟨limits, -, h⟩ := bind_eq_ok_iff.mp h
  obtain ⟨observability, -, h⟩ := bind_eq_ok_iff.mp h
  obtain ⟨filters, hfilters, h⟩ := bind_eq_ok_iff.mp h
  obtain ⟨routes, hroutes, h⟩ := bind_eq_ok_iff.mp h
  cases h
  have hfits := RecordRule.fits_of_entries hj hfound
  exact ⟨Field.of_take_list_fits hfits hfilters fun _ _ => FilterDefinition.fits_of_ofJson,
    Field.of_take_list_fits hfits hroutes fun _ _ => RouteDefinition.argsFit_of_ofJson⟩

/-- A configuration is read as it was just if each fractional number among the arguments is. -/
theorem reread_eq_self_iff (h : c.HasText) : c.reread = c ↔ c.IsKept := by
  have hfilters : c.defaultFilters.map FilterDefinition.reread = c.defaultFilters ↔
      ∀ f ∈ c.defaultFilters, (Json.obj f.args).IsKept := by
    rw [← forall₂_congr fun f hf => FilterDefinition.reread_eq_self_iff (h.defaultFilters f hf)]
    exact map_eq_self_iff
  have hroutes : c.routes.map RouteDefinition.reread = c.routes ↔ ∀ r ∈ c.routes, r.IsKept := by
    rw [← forall₂_congr fun r hr => RouteDefinition.reread_eq_self_iff (h.routes r hr)]
    exact map_eq_self_iff
  obtain ⟨listener, timeouts, limits, observability, filters, routes⟩ := c
  simp only [reread, GatewayConfig.mk.injEq, true_and, hfilters, hroutes]
  exact ⟨fun ⟨hf, hr⟩ => ⟨hf, hr⟩, fun hkept => ⟨hkept.defaultFilters, hkept.routes⟩⟩

theorem comesBack : ComesBack ofJson written HasText IsKept reread := by
  refine .of_fits (fun _ => hasText_written) (fun origin _ => ofJson_reread origin)
    (fun _ j c hj h => ?_) fun _ => reread_eq_self_iff
  have hargs : c.ArgsFit (121 + 1) := argsFit_of_ofJson hj h
  exact ⟨hargs.toHasText (isWritable_of_ofJson h), depth_written_le hargs⟩

end GatewayConfig

/-- Writing loses nothing, or next to nothing. As a structured value a route definition or a
configuration is read as it was written, wherever the value comes from then. The same holds of
everything that has been read before, be it from a text, a table or an array: it is written to a value
that is read as the same again. In particular a predicate or filter made by a shortcut keeps its
numbered arguments.

Through a text everything comes back, unless it nests arrays and objects too deeply, and nothing that
has been read from a text does. What comes back has in place of each fractional number among the
arguments the number that its text is read as, and so is the same just if each of these numbers is.
A number with few digits is. -/
theorem read_as_written (origin : Origin) :
    (∀ d : RouteDefinition, d.IsWritable → RouteDefinition.ofJson origin d.toJson = .ok d) ∧
    (∀ c : GatewayConfig, c.IsWritable → GatewayConfig.ofJson origin c.toJson = .ok c) ∧
    (∀ j d, PredicateDefinition.ofJson j = .ok d → PredicateDefinition.ofJson d.toJson = .ok d) ∧
    (∀ j d, FilterDefinition.ofJson j = .ok d → FilterDefinition.ofJson d.toJson = .ok d) ∧
    (∀ first j d, RouteDefinition.ofJson first j = .ok d →
      RouteDefinition.ofJson origin d.toJson = .ok d) ∧
    (∀ first j c, GatewayConfig.ofJson first j = .ok c →
      GatewayConfig.ofJson origin c.toJson = .ok c) ∧
    (∀ text d, PredicateDefinition.parse text = .ok d →
      PredicateDefinition.ofJson (.str text) = .ok d ∧
        PredicateDefinition.ofJson d.toJson = .ok d) ∧
    (∀ text d, FilterDefinition.parse text = .ok d →
      FilterDefinition.ofJson (.str text) = .ok d ∧ FilterDefinition.ofJson d.toJson = .ok d) ∧
    ComesBack (fun _ => PredicateDefinition.ofJson) PredicateDefinition.written
      PredicateDefinition.HasText (fun d => (Json.obj d.args).IsKept) PredicateDefinition.reread ∧
    ComesBack (fun _ => FilterDefinition.ofJson) FilterDefinition.written
      FilterDefinition.HasText (fun d => (Json.obj d.args).IsKept) FilterDefinition.reread ∧
    ComesBack RouteDefinition.ofJson RouteDefinition.written
      RouteDefinition.HasText RouteDefinition.IsKept RouteDefinition.reread ∧
    ComesBack GatewayConfig.ofJson GatewayConfig.written
      GatewayConfig.HasText GatewayConfig.IsKept GatewayConfig.reread ∧
    (∀ text d, PredicateDefinition.parse text = .ok d →
      (Json.parse? d.written.render).map PredicateDefinition.ofJson = some (.ok d)) ∧
    (∀ text d, FilterDefinition.parse text = .ok d →
      (Json.parse? d.written.render).map FilterDefinition.ofJson = some (.ok d)) ∧
    (∀ x : Float, x.isFinite = true → Json.IsShort x → Json.rereadFloat x = x) := by
  have hpredicate (j d) (h : PredicateDefinition.ofJson j = .ok d) :
      PredicateDefinition.ofJson d.toJson = .ok d :=
    PredicateDefinition.ofJson_toJson (PredicateDefinition.isWritable_of_ofJson h)
  have hfilter (j d) (h : FilterDefinition.ofJson j = .ok d) :
      FilterDefinition.ofJson d.toJson = .ok d :=
    FilterDefinition.ofJson_toJson (FilterDefinition.isWritable_of_ofJson h)
  refine ⟨fun d => RouteDefinition.ofJson_toJson origin, fun c => GatewayConfig.ofJson_toJson origin,
    hpredicate, hfilter, fun first j d h => ?_, fun first j c h => ?_, fun text d h => ?_,
    fun text d h => ?_, PredicateDefinition.comesBack, FilterDefinition.comesBack,
    RouteDefinition.comesBack, GatewayConfig.comesBack,
    fun text d h => PredicateDefinition.parse?_of_parse h,
    fun text d h => FilterDefinition.parse?_of_parse h, fun x => Json.rereadFloat_eq_self⟩
  · exact RouteDefinition.ofJson_toJson origin (RouteDefinition.isWritable_of_ofJson h)
  · exact GatewayConfig.ofJson_toJson origin (GatewayConfig.isWritable_of_ofJson h)
  · have htext := PredicateDefinition.ofJson_str h
    exact ⟨htext, hpredicate _ d htext⟩
  · have htext := FilterDefinition.ofJson_str h
    exact ⟨htext, hfilter _ d htext⟩

/-- A filter written as a shortcut, and the route and the configuration that hold it beside arguments
of every shape, as structured values and through their texts. -/
theorem read_as_written_of_shortcut :
    let shortcut : FilterDefinition := {
      name := "AddRequestHeader"
      args := [("_genkey_0", .str "X-Kind"), ("_genkey_1", .str "a=b")] }
    let nested : FilterDefinition := {
      name := "Own"
      args := [("deep", .obj [("empty", .arr []), ("n", .int (-1))]), ("on", .bool true),
        ("share", .float 0.1)]
      order := some 7 }
    let route : RouteDefinition := {
      id := "nested"
      predicates := [{ name := "Path", args := [("patterns", .arr [.str "/a", .null])] }]
      filters := [shortcut, nested]
      uri := "http://backend:9000"
      order := -3 }
    let config : GatewayConfig := { defaultFilters := [shortcut], routes := [route] }
    FilterDefinition.parse "AddRequestHeader = X-Kind , a=b" = .ok shortcut ∧
      FilterDefinition.ofJson shortcut.toJson = .ok shortcut ∧
      RouteDefinition.ofJson .held route.toJson = .ok route ∧
      GatewayConfig.ofJson .document config.toJson = .ok config ∧
      (Json.parse? shortcut.written.render).map FilterDefinition.ofJson = some (.ok shortcut) ∧
      (Json.parse? config.written.render).map (GatewayConfig.ofJson .direct) =
        some (.ok config) := by
  intro shortcut nested route config
  have hparse : FilterDefinition.parse "AddRequestHeader = X-Kind , a=b" = .ok shortcut := by rfl
  have hfraction : (0.1 : Float).isFinite = true := by decide +kernel
  have hshort : Json.IsShort 0.1 := by decide +kernel
  obtain ⟨-, -, -, -, -, -, -, hshortcutRead, -, -, -, hback, -, hshortcutText, hsame⟩ :=
    read_as_written .direct
  have hkept : Json.rereadFloat 0.1 = 0.1 := hsame 0.1 hfraction hshort
  have hshortcut : shortcut.HasText :=
    ⟨⟨trivial, trivial, trivial⟩, List.pairwise_pair.mpr (by decide), trivial, trivial, trivial⟩
  have hdeep : Dictionary.Ordered [("empty", Json.arr []), ("n", .int (-1))] :=
    List.pairwise_pair.mpr (by decide)
  have hnested : nested.HasText := by
    refine ⟨⟨⟨trivial, ⟨by decide, by decide⟩, trivial⟩, trivial, hfraction, trivial⟩, ?_,
      ⟨hdeep, trivial, trivial, trivial⟩, trivial, trivial, trivial⟩
    simp only [nested, Dictionary.Ordered, List.pairwise_cons, List.forall_mem_cons]
    decide
  have hroute : route.HasText := by
    refine ⟨List.forall_mem_singleton.mpr ?_, List.forall_mem_cons.mpr ⟨hshortcut,
      List.forall_mem_singleton.mpr hnested⟩⟩
    exact ⟨⟨⟨trivial, trivial, trivial⟩, trivial⟩, List.pairwise_singleton ..,
      ⟨trivial, trivial, trivial⟩, trivial⟩
  have hconfig : config.HasText := {
    listener := ListenerConfig.isWritable_usual
    timeouts := TimeoutConfig.isWritable_usual
    limits := LimitsConfig.isWritable_usual
    defaultFilters := List.forall_mem_singleton.mpr hshortcut
    routes := List.forall_mem_singleton.mpr hroute }
  have hrouteKept : route.IsKept := by
    refine ⟨List.forall_mem_singleton.mpr ⟨⟨trivial, trivial, trivial⟩, trivial⟩,
      List.forall_mem_cons.mpr ⟨⟨trivial, trivial, trivial⟩, List.forall_mem_singleton.mpr ?_⟩⟩
    exact ⟨⟨trivial, trivial, trivial⟩, trivial, hkept, trivial⟩
  have hconfigKept : config.IsKept :=
    ⟨List.forall_mem_singleton.mpr ⟨trivial, trivial, trivial⟩,
      List.forall_mem_singleton.mpr hrouteKept⟩
  have hrouteWritable : route.IsWritable :=
    ⟨fun p hp => Json.fieldsFinite_of_hasText (hroute.predicates p hp).hasText,
      fun f hf => Json.fieldsFinite_of_hasText (hroute.filters f hf).hasText⟩
  have hconfigWritable : config.IsWritable := {
    listener := hconfig.listener
    timeouts := hconfig.timeouts
    limits := hconfig.limits
    defaultFilters := fun f hf => Json.fieldsFinite_of_hasText (hconfig.defaultFilters f hf).hasText
    routes := List.forall_mem_singleton.mpr hrouteWritable }
  exact ⟨hparse, (hshortcutRead _ shortcut hparse).2,
    (read_as_written .held).1 route hrouteWritable,
    (read_as_written .document).2.1 config hconfigWritable, hshortcutText _ shortcut hparse,
    hback.parse?_of_isKept .direct hconfig hconfigKept (by decide)⟩

/-- An array in an array and so on has a text, whatever its depth. -/
theorem fits_nested (n : Nat) : Json.Fits n ((fun j => Json.arr [j])^[n] .null) := by
  induction n with
  | zero => exact ⟨trivial, trivial, le_rfl⟩
  | succ n ih =>
      rw [Function.iterate_succ_apply']
      exact Json.fits_arr.mpr (List.forall_mem_singleton.mpr ih)

/-- A number among the arguments whose shortest decimal has seventeen digits is read as the number
beside it, and arguments that nest too deeply are not read at all. -/
theorem read_as_written_of_long_fraction :
    let route (status : Json) : RouteDefinition := {
      id := "r"
      filters := [{ name := "SetStatus", args := [("status", status)] }]
      uri := "http://b" }
    let deep : Json := (fun j => Json.arr [j])^[128] .null
    (Json.parse? (route (.float 51.248178375505404)).written.render).map
        (RouteDefinition.ofJson .direct) = some (.ok (route (.float 51.24817837550541))) ∧
      route (.float 51.248178375505404) ≠ route (.float 51.24817837550541) ∧
      (Json.parse? (route deep).written.render).map (RouteDefinition.ofJson .direct) = none := by
  intro route deep
  have hroute {status : Json} (htext : status.HasText) (hordered : status.IsOrdered) :
      (route status).HasText :=
    ⟨List.forall_mem_nil _, List.forall_mem_singleton.mpr
      ⟨⟨htext, trivial⟩, List.pairwise_singleton .., hordered, trivial⟩⟩
  have hread : Json.rereadFloat 51.248178375505404 = 51.24817837550541 := by decide +kernel
  have hfloat : (51.248178375505404 : Float) ≠ 51.24817837550541 := by decide +kernel
  refine ⟨?_, fun h => hfloat ?_, ?_⟩
  · have hfinite : (51.248178375505404 : Float).isFinite = true := by decide +kernel
    have htext : (route (.float 51.248178375505404)).HasText := hroute hfinite trivial
    have hback := (RouteDefinition.comesBack.parse? .direct _ htext).trans (if_pos (by decide))
    rw [← hread]
    exact hback
  · simpa [route] using h
  · obtain ⟨htext, hordered, hdepth⟩ := fits_nested 128
    refine (RouteDefinition.comesBack.parse? .direct _ (hroute htext hordered)).trans (if_neg ?_)
    decide +kernel

end HttpGateway
