import HttpGateway.Proofs.Filter.Composition
import HttpGateway.Proofs.Route.Compilation
import HttpGateway.Proofs.Sorting
import Mathlib

/-!
# Places in a chain

Which filter of a chain comes first: each filter of the gateway and of the route stands in the chain
once, the filters stand by their order, and of those with one order the filters of the gateway come
first, each kind as it is listed. The filters of a route are numbered through, those for all routes
first, and an order that a definition gives is kept.
-/

namespace HttpGateway

namespace OrderedFilter

/-! ### What stands where -/

/-- A place in one of the two lists that a chain is made of. -/
inductive Place (globals route : List OrderedFilter) where
  | ofGateway (i : Fin globals.length)
  | ofRoute (i : Fin route.length)

namespace Place

variable {globals route : List OrderedFilter}

/-- The filter at a place. -/
def filter : Place globals route → OrderedFilter
  | .ofGateway i => globals[i]
  | .ofRoute i => route[i]

/-- Whether a place is listed before another: those of the gateway come before those of the route. -/
def Before : Place globals route → Place globals route → Prop
  | .ofGateway i, .ofGateway j => i < j
  | .ofGateway _, .ofRoute _ => True
  | .ofRoute _, .ofGateway _ => False
  | .ofRoute i, .ofRoute j => i < j

/-- Whether the filter at a place comes before another: that of the lower order, and of two with the
same order the one that is listed first. -/
def Precedes (p q : Place globals route) : Prop :=
  p.filter.order < q.filter.order ∨ p.filter.order = q.filter.order ∧ p.Before q

variable {p q : Place globals route}

theorem Before.asymm (h : p.Before q) : ¬q.Before p := by
  match p, q, h with
  | .ofGateway _, .ofGateway _, h => exact Fin.not_lt.mpr (Fin.le_of_lt h)
  | .ofGateway _, .ofRoute _, _ => exact id
  | .ofRoute _, .ofRoute _, h => exact Fin.not_lt.mpr (Fin.le_of_lt h)

theorem Precedes.asymm (h : p.Precedes q) : ¬q.Precedes p := by
  rintro (hlt | ⟨heq, hbefore⟩)
  · rcases h with hlt' | ⟨heq', -⟩
    · exact Int32.lt_asymm hlt hlt'
    · exact Int32.lt_irrefl (heq' ▸ hlt)
  · rcases h with hlt' | ⟨-, hbefore'⟩
    · exact Int32.lt_irrefl (heq ▸ hlt')
    · exact hbefore'.asymm hbefore

variable (globals route)

/-- All places, as they are listed. -/
def all : List (Place globals route) :=
  (List.finRange globals.length).map ofGateway ++ (List.finRange route.length).map ofRoute

/-- All places, as their filters stand in the chain. -/
def inChain : List (Place globals route) :=
  (all globals route).mergeSort fun p q => p.filter.order ≤ q.filter.order

theorem map_filter_all : (all globals route).map filter = globals ++ route := by
  simp [all, Function.comp_def, filter]

theorem pairwise_all : (all globals route).Pairwise Before := by
  refine List.pairwise_append.mpr ⟨?_, ?_, ?_⟩
  · exact (List.pairwise_lt_finRange _).map _ fun _ _ h => h
  · exact (List.pairwise_lt_finRange _).map _ fun _ _ h => h
  · intro p hp q hq
    obtain ⟨i, -, rfl⟩ := List.mem_map.mp hp
    obtain ⟨j, -, rfl⟩ := List.mem_map.mp hq
    trivial

theorem nodup_all : (all globals route).Nodup := by
  refine (pairwise_all globals route).imp ?_
  rintro p _ h rfl
  exact h.asymm h

theorem map_filter_inChain : (inChain globals route).map filter = merge globals route := by
  rw [inChain, merge, ← map_filter_all]
  exact List.map_mergeSort fun _ _ _ _ => rfl

theorem nodup_inChain : (inChain globals route).Nodup :=
  (List.mergeSort_perm _ _).nodup_iff.mpr (nodup_all globals route)

variable {globals route}

theorem mem_inChain (p : Place globals route) : p ∈ inChain globals route := by
  rw [inChain, List.mem_mergeSort]
  cases p <;> simp [all]

/-- Of two places in the chain the first is the one whose filter precedes. -/
theorem lt_iff_precedes {i j : Nat} (hi : i < (inChain globals route).length)
    (hj : j < (inChain globals route).length) :
    i < j ↔ (inChain globals route)[i].Precedes (inChain globals route)[j] := by
  have hpairwise := List.pairwise_iff_getElem.mp
    (pairwise_mergeSort_key (fun p => p.filter.order) (pairwise_all globals route))
  constructor
  · exact hpairwise i j hi hj
  · intro h
    rcases Nat.lt_trichotomy i j with hlt | rfl | hgt
    · exact hlt
    · exact absurd h h.asymm
    · exact absurd (hpairwise j i hj hi hgt) h.asymm

end Place

/-! ### Numbers of filters -/

/-- The order of the filter at a position of a list is its position, as long as there is such an
order. -/
theorem toInt_orderAt (position : Nat) :
    (orderAt position).toInt = (min position 2147483647 : Nat) := by
  have hlow : -2147483648 ≤ min (position : Int) 2147483647 := by omega
  have hhigh : min (position : Int) 2147483647 < 2147483648 := by omega
  rw [orderAt, Int32.toInt_ofInt_of_le hlow hhigh]
  omega

/-- The filters are made from the definitions, one from each, and have the orders that these give, or
else the numbers of their positions. -/
structure Numbered (bodyLimit position : Nat) (ds : List FilterDefinition)
    (filters : List OrderedFilter) : Prop where
  made : List.Forall₂ (fun d f => Filter.ofDefinition bodyLimit d = .ok f.filter) ds filters
  order : ∀ (i : Nat) (d : FilterDefinition) (f : OrderedFilter), ds[i]? = some d → filters[i]? = some f →
    f.order = d.order.getD (orderAt (position + i))

theorem numbered_of_ofDefinitionsFrom {bodyLimit position : Nat} {ds : List FilterDefinition}
    {filters : List OrderedFilter} (h : ofDefinitionsFrom bodyLimit position ds = .ok filters) :
    Numbered bodyLimit position ds filters := by
  induction ds generalizing position filters with
  | nil =>
      obtain rfl : [] = filters := Except.ok.inj h
      exact ⟨.nil, by simp⟩
  | cons d ds ih =>
      obtain ⟨f, others, hf, hothers, rfl⟩ := ofDefinitionsFrom_cons_eq_ok_iff.mp h
      obtain ⟨hmade, horder⟩ := ih hothers
      refine ⟨.cons hf hmade, fun i e g he hg => ?_⟩
      cases i with
      | zero =>
          cases he
          cases hg
          rfl
      | succ i =>
          rw [horder i e g he hg, Nat.add_right_comm, Nat.add_assoc]

variable {bodyLimit : Nat} {ds : List FilterDefinition} {filters : List OrderedFilter}

/-- A filter whose definition gives no order has its number. -/
theorem Numbered.toInt_order (h : Numbered bodyLimit 1 ds filters)
    (hnone : ∀ d ∈ ds, d.order = none) (hlength : ds.length < 10000) {i : Nat}
    (hi : i < filters.length) : filters[i].order.toInt = i + 1 := by
  have hds : i < ds.length := h.made.length_eq ▸ hi
  have horder := h.order i ds[i] filters[i] (List.getElem?_eq_getElem hds)
    (List.getElem?_eq_getElem hi)
  rw [horder, hnone _ (List.getElem_mem hds), Option.getD_none, toInt_orderAt]
  omega

/-- Filters that are numbered through stand in the chain as they are listed. -/
theorem Numbered.merge_globalFilters (h : Numbered bodyLimit 1 ds filters)
    (hnone : ∀ d ∈ ds, d.order = none) (hlength : ds.length < 10000) (limit : Nat) :
    merge (Gateway.globalFilters limit) filters =
      (⟨commitOrder, .commit⟩ :: filters) ++
        [⟨resolveOrder, .resolveUrl⟩, ⟨forwardOrder, .forward limit⟩] := by
  have hfilters : filters.length < 10000 := h.made.length_eq ▸ hlength
  refine HttpGateway.merge_globalFilters limit (fun f hf => ?_) ?_
  · obtain ⟨i, hi, rfl⟩ := List.getElem_of_mem hf
    have horder := h.toInt_order hnone hlength hi
    rw [Int32.le_iff_toInt_le, Int32.le_iff_toInt_le, horder]
    change 0 ≤ (i + 1 : Int) ∧ (i + 1 : Int) ≤ 9999
    omega
  · refine List.pairwise_iff_getElem.mpr fun i j hi hj hij => ?_
    rw [Int32.le_iff_toInt_le, h.toInt_order hnone hlength hi, h.toInt_order hnone hlength hj]
    omega

end OrderedFilter

namespace Gateway

open OrderedFilter

/-- The chain of a route. Its filters are numbered through, those for all routes first, unless their
definitions give an order; from position 2147483647 on all have this largest number. Each filter of
the gateway and of the route stands in the chain once, and one comes before another just if it has
the lower order, or the same order and is listed first, where those of the gateway are listed before
those of the route. With the filters of the gateway in their usual places, and fewer definitions
than lie between these, none of which gives an order, the filters of the route stand as they are
listed, right behind the one that commits responses. -/
theorem chain_ordered (g : Gateway) (d : RouteDefinition) (route : Route)
    (h : g.compiler.compile d = .ok route) :
    (∃ usual own, route.filters = usual ++ own ∧
      List.Forall₂ (fun d f => Filter.ofDefinition g.compiler.bodyLimit d = .ok f.filter)
        g.compiler.defaultFilters usual ∧
      List.Forall₂ (fun d f => Filter.ofDefinition g.compiler.bodyLimit d = .ok f.filter)
        d.filters own) ∧
    (∀ (i : Nat) (e : FilterDefinition) (f : OrderedFilter),
      (g.compiler.defaultFilters ++ d.filters)[i]? = some e → route.filters[i]? = some f →
        match e.order with
        | some order => f.order = order
        | none => f.order.toInt = (min (i + 1) 2147483647 : Nat)) ∧
    (∃ places : List (Place g.globals route.filters),
      g.chain route = places.map Place.filter ∧ places.Nodup ∧ (∀ p, p ∈ places) ∧
      ∀ i j (hi : i < places.length) (hj : j < places.length),
        i < j ↔ places[i].Precedes places[j]) ∧
    ∀ limit, g.globals = globalFilters limit →
      (g.compiler.defaultFilters ++ d.filters).length < 10000 →
      (∀ e ∈ g.compiler.defaultFilters ++ d.filters, e.order = none) →
      g.chain route = (⟨commitOrder, .commit⟩ :: route.filters) ++
        [⟨resolveOrder, .resolveUrl⟩, ⟨forwardOrder, .forward limit⟩] := by
  have hmakes := RouteCompiler.compile_eq_ok_iff.mp h
  have hnumbered := numbered_of_ofDefinitionsFrom hmakes.filters
  obtain ⟨usual, own, husual, hown, hfilters⟩ := hmakes.exists_filters
  refine ⟨⟨usual, own, hfilters, (numbered_of_ofDefinitionsFrom husual).made,
    (numbered_of_ofDefinitionsFrom hown).made⟩, fun i e f he hf => ?_,
    ⟨Place.inChain g.globals route.filters, (Place.map_filter_inChain ..).symm,
      Place.nodup_inChain .., Place.mem_inChain, fun i j => Place.lt_iff_precedes⟩,
    fun limit hglobals hlength hnone => ?_⟩
  · have horder := hnumbered.order i e f he hf
    cases hgiven : e.order with
    | some order => rwa [hgiven] at horder
    | none =>
        rw [hgiven, Option.getD_none] at horder
        dsimp only
        rw [horder, toInt_orderAt, Nat.add_comm]
  · rw [chain, hglobals]
    exact hnumbered.merge_globalFilters hnone hlength limit

/-- A gateway with a filter for all routes. -/
def tagging : Gateway :=
  make [] [{ name := "AddRequestHeader", args := [("name", .str "x-a"), ("value", .str "1")] }] 1024 []

/-- A route with a filter of its own. -/
def prefixing : RouteDefinition where
  id := "r"
  filters := [{ name := "PrefixPath", args := [("prefix", .str "/v1")] }]
  uri := "http://b"

/-- A route with two filters, of which the first is to stand where the filter for all routes does,
and the second where the address of the backend is found. -/
def placing : RouteDefinition where
  id := "r"
  filters := [{ name := "PrefixPath", args := [("prefix", .str "/v1")], order := some 1 },
    { name := "PrefixPath", args := [("prefix", .str "/v0")], order := some 10000 }]
  uri := "http://b"

/-- The filter for all routes. -/
def tag : Filter := .request (.addHeader ⟨"x-a"⟩ (HeaderValue.literal "1"))

/-- A route of the gateway, whose filters are the one for all routes and those given. -/
def taggedRoute (own : List OrderedFilter) : Route where
  id := "r"
  uri := ⟨some "http", some "b", ⟨"", none⟩⟩
  filters := ⟨1, tag⟩ :: own

/-- Filters with one order stand as they are listed, those of the gateway first, and without orders
in the definitions all stand behind the one that commits responses. -/
theorem chain_ordered_of_placing :
    (∃ route, tagging.compiler.compile placing = .ok route ∧
      tagging.chain route = [⟨-1, .commit⟩, ⟨1, tag⟩, ⟨1, .request (.prefixPath "/v1")⟩,
        ⟨10000, .resolveUrl⟩, ⟨10000, .request (.prefixPath "/v0")⟩, ⟨2147483647, .forward 1024⟩] ∧
      (∀ (i : Nat) (e : FilterDefinition) (f : OrderedFilter),
        (tagging.compiler.defaultFilters ++ placing.filters)[i]? = some e →
        route.filters[i]? = some f →
          match e.order with
          | some order => f.order = order
          | none => f.order.toInt = (min (i + 1) 2147483647 : Nat)) ∧
      ∃ places : List (Place tagging.globals route.filters),
        tagging.chain route = places.map Place.filter ∧ places.Nodup ∧ (∀ p, p ∈ places) ∧
        ∀ i j (hi : i < places.length) (hj : j < places.length),
          i < j ↔ places[i].Precedes places[j]) ∧
    ∃ route, tagging.compiler.compile prefixing = .ok route ∧
      tagging.chain route = (⟨commitOrder, .commit⟩ :: route.filters) ++
        [⟨resolveOrder, .resolveUrl⟩, ⟨forwardOrder, .forward 1024⟩] := by
  have hplacing : tagging.compiler.compile placing = .ok
      (taggedRoute [⟨1, .request (.prefixPath "/v1")⟩, ⟨10000, .request (.prefixPath "/v0")⟩]) :=
    RouteCompiler.compile_eq_ok_iff.mpr ⟨by decide, by cbv, rfl, by cbv, rfl, rfl⟩
  have hprefixing : tagging.compiler.compile prefixing = .ok
      (taggedRoute [⟨2, .request (.prefixPath "/v1")⟩]) :=
    RouteCompiler.compile_eq_ok_iff.mpr ⟨by decide, by cbv, rfl, by cbv, rfl, rfl⟩
  have hnone : ∀ e ∈ tagging.compiler.defaultFilters ++ prefixing.filters, e.order = none := by
    simp [tagging, prefixing, make]
  obtain ⟨-, horders, hplaces, -⟩ := chain_ordered tagging placing _ hplacing
  obtain ⟨-, -, -, hchain⟩ := chain_ordered tagging prefixing _ hprefixing
  exact ⟨⟨_, hplacing, by cbv, horders, hplaces⟩, _, hprefixing, hchain 1024 rfl (by decide) hnone⟩

end Gateway

end HttpGateway
