import HttpGateway.Proofs.Answer
import HttpGateway.Proofs.Sorting
import HttpGateway.Route.Source

/-!
# Merging before and after compilation

Several sources of definitions are read as one, or each is compiled for itself and the routes are
put together. Both ways lead to the same routes, and to the same error if a source fails; and it
does not matter how the sources are put into groups.
-/

namespace HttpGateway

variable {α β γ ε : Type}

/-! ### Answers put together -/

/-- Lists one after the other, up to the first that could not be had. -/
def gather : List (Except ε (List α)) → Except ε (List α)
  | [] => .ok []
  | answer :: rest => do
    let found ← answer
    .ok (found ++ (← gather rest))

theorem gather_cons (x : Except ε (List α)) (xs : List (Except ε (List α))) :
    gather (x :: xs) = gather [x, gather xs] := by
  cases hxs : gather xs <;> simp [gather, hxs, bind, Except.bind]

theorem gather_singleton (x : Except ε (List α)) : gather [x] = x := by
  cases x <;> simp [gather, bind, Except.bind]

theorem gather_append (xs ys : List (Except ε (List α))) :
    gather (xs ++ ys) = gather [gather xs, gather ys] := by
  induction xs with
  | nil => cases hys : gather ys <;> simp [gather, hys, bind, Except.bind]
  | cons x xs ih =>
      rw [List.cons_append, gather, ih]
      cases x with
      | error e => rfl
      | ok found =>
          cases hxs : gather xs <;> cases gather ys <;> simp [gather, hxs, bind, Except.bind]

theorem gather_map_ok (ls : List (List α)) : gather (ε := ε) (ls.map .ok) = .ok ls.flatten := by
  induction ls with
  | nil => rfl
  | cons l ls ih => rw [List.map_cons, gather, ih]; rfl

theorem gather_of_error (ls : List (List α)) (e : ε) (after : List (Except ε (List α))) :
    gather (ls.map .ok ++ .error e :: after) = .error e := by
  rw [gather_append, gather_map_ok]
  rfl

theorem answers_cases (answers : List (Except ε (List α))) :
    (∃ ls, answers = List.map .ok ls) ∨
      ∃ ls e after, answers = List.map .ok ls ++ .error e :: after := by
  induction answers with
  | nil => exact .inl ⟨[], rfl⟩
  | cons answer rest ih =>
      cases answer with
      | error e => exact .inr ⟨[], e, rest, rfl⟩
      | ok l =>
          rcases ih with ⟨ls, rfl⟩ | ⟨ls, e, after, rfl⟩
          · exact .inl ⟨l :: ls, rfl⟩
          · exact .inr ⟨l :: ls, e, after, rfl⟩

/-- The error is that of the first answer that is one. -/
theorem gather_eq_error_iff {answers : List (Except ε (List α))} {e : ε} :
    gather answers = .error e ↔ ∃ ls after, answers = List.map .ok ls ++ .error e :: after := by
  constructor
  · intro h
    rcases answers_cases answers with ⟨ls, rfl⟩ | ⟨ls, e', after, rfl⟩
    · rw [gather_map_ok] at h
      cases h
    · rw [gather_of_error] at h
      obtain rfl := Except.error.inj h
      exact ⟨ls, after, rfl⟩
  · rintro ⟨ls, after, rfl⟩
    exact gather_of_error ls e after

/-- If it makes no difference to `g` that `f` is applied to each of several lists, it makes none
when some of them could not be had. -/
theorem gather_map_map {f : List α → List β} {g : List β → γ} {g' : List α → γ}
    (h : ∀ ls : List (List α), g (ls.map f).flatten = g' ls.flatten)
    (answers : List (Except ε (List α))) :
    (gather (answers.map (Except.map f))).map g = (gather answers).map g' := by
  have hok (ls : List (List α)) :
      (ls.map (Except.ok (ε := ε))).map (Except.map f) = (ls.map f).map .ok := by
    rw [List.map_map, List.map_map]
    rfl
  rcases answers_cases answers with ⟨ls, rfl⟩ | ⟨ls, e, after, rfl⟩
  · rw [hok, gather_map_ok, gather_map_ok]
    exact congrArg Except.ok (h ls)
  · rw [List.map_append, List.map_cons, hok, gather_of_error]
    exact congrArg (Except.map g) (gather_of_error (ls.map f) e _)

theorem RouteSource.readAll_eq_gather (sources : List RouteSource) :
    readAll sources = gather (sources.map read) := by
  induction sources with
  | nil => rfl
  | cons s rest ih => rw [readAll, List.map_cons, gather, ih]

/-! ### Routes put together -/

namespace Route

variable {xs ys : List (Except GatewayError (List Route))}

theorem concat_eq_gather (answers : List (Except GatewayError (List Route))) :
    concat answers = gather answers := by
  induction answers with
  | nil => rfl
  | cons answer rest ih => rw [concat, gather, ih]

theorem combine_eq (answers : List (Except GatewayError (List Route))) :
    combine answers = (gather answers).map sort := by
  rw [combine, concat_eq_gather]

theorem sort_sort (routes : List Route) : sort (sort routes) = sort routes :=
  List.mergeSort_of_pairwise
    (List.pairwise_mergeSort (le_key_trans Route.order) (le_key_total Route.order) routes)

theorem sort_flatten_map_sort (ls : List (List Route)) :
    sort (ls.map sort).flatten = sort ls.flatten :=
  mergeSort_flatten_map_mergeSort Route.order ls

/-- It makes no difference whether lists have been sorted before they are put together. -/
theorem combine_map_sort (answers : List (Except GatewayError (List Route))) :
    combine (answers.map (Except.map sort)) = combine answers := by
  rw [combine_eq, combine_eq]
  exact gather_map_map sort_flatten_map_sort answers

theorem map_sort_combine (answers : List (Except GatewayError (List Route))) :
    (combine answers).map sort = combine answers := by
  rw [combine_eq]
  cases gather answers with
  | error e => rfl
  | ok routes => exact congrArg Except.ok (sort_sort routes)

theorem combine_cons (x : Except GatewayError (List Route)) :
    combine (x :: xs) = combine [x.map sort, combine xs] := by
  rw [combine_eq xs, combine_eq, gather_cons, ← combine_eq, ← combine_map_sort]
  rfl

theorem combine_append : combine (xs ++ ys) = combine [combine xs, combine ys] := by
  rw [combine_eq xs, combine_eq ys, combine_eq, gather_append, ← combine_eq, ← combine_map_sort]
  rfl

end Route

namespace RouteCompiler

/-- Definitions may be compiled list by list. -/
theorem sort_flatten_map_compileAll (κ : RouteCompiler) (ls : List (List RouteDefinition)) :
    Route.sort (ls.map κ.compileAll).flatten = κ.compileAll ls.flatten := by
  let compiles (ds : List RouteDefinition) : List Route :=
    ds.filterMap fun d => (κ.compile d).toOption
  calc Route.sort (ls.map κ.compileAll).flatten
      = Route.sort ((ls.map compiles).map Route.sort).flatten := by
        rw [List.map_map]
        rfl
    _ = Route.sort (ls.map compiles).flatten := Route.sort_flatten_map_sort _
    _ = κ.compileAll ls.flatten := by
        rw [compileAll, List.filterMap_flatten]

theorem combine_map_compileAll (κ : RouteCompiler)
    (answers : List (Except GatewayError (List RouteDefinition))) :
    Route.combine (answers.map (Except.map κ.compileAll)) = (gather answers).map κ.compileAll := by
  rw [Route.combine_eq]
  exact gather_map_map κ.sort_flatten_map_compileAll answers

end RouteCompiler

/-! ### Locators -/

/-- Where a list is to be had: a source with its answer, or several locators read as one. -/
inductive Locator (α : Type) where
  | source (answer : Except GatewayError (List α))
  | composite (parts : List (Locator α))

namespace Locator

mutual

/-- Reads a locator; `merge` puts together what the parts of a composite answer. -/
def read (merge : List (Except GatewayError (List α)) → Except GatewayError (List α)) :
    Locator α → Except GatewayError (List α)
  | .source answer => answer
  | .composite parts => merge (readParts merge parts)

def readParts (merge : List (Except GatewayError (List α)) → Except GatewayError (List α)) :
    List (Locator α) → List (Except GatewayError (List α))
  | [] => []
  | part :: rest => part.read merge :: readParts merge rest

end

mutual

/-- What the sources answer, in their order. -/
def answers : Locator α → List (Except GatewayError (List α))
  | .source answer => [answer]
  | .composite parts => answersOf parts

def answersOf : List (Locator α) → List (Except GatewayError (List α))
  | [] => []
  | part :: rest => part.answers ++ answersOf rest

end

mutual

/-- Every source compiled for itself. -/
def compiled (κ : RouteCompiler) : Locator RouteDefinition → Locator Route
  | .source answer => .source (answer.map κ.compileAll)
  | .composite parts => .composite (compiledParts κ parts)

def compiledParts (κ : RouteCompiler) : List (Locator RouteDefinition) → List (Locator Route)
  | [] => []
  | part :: rest => part.compiled κ :: compiledParts κ rest

end

/-- The sources of a locator, without its groups. -/
def flat (l : Locator α) : Locator α := .composite (l.answers.map .source)

/-- Definitions are put one after the other. -/
def definitions (l : Locator RouteDefinition) : Except GatewayError (List RouteDefinition) :=
  l.read gather

/-- Routes are put together by their order. -/
def routes (l : Locator Route) : Except GatewayError (List Route) := l.read Route.combine

/-! ### Groups -/

theorem answersOf_map_source (answers : List (Except GatewayError (List α))) :
    answersOf (answers.map source) = answers := by
  induction answers with
  | nil => rfl
  | cons answer rest ih => rw [List.map_cons, answersOf, Locator.answers, ih, List.singleton_append]

theorem answers_flat (l : Locator α) : l.flat.answers = l.answers := by
  rw [flat, answers, answersOf_map_source]

mutual

theorem definitions_eq (l : Locator RouteDefinition) : l.definitions = gather l.answers := by
  cases l with
  | source answer => exact (gather_singleton answer).symm
  | composite parts => exact gather_readParts parts

theorem gather_readParts (parts : List (Locator RouteDefinition)) :
    gather (readParts gather parts) = gather (answersOf parts) := by
  cases parts with
  | nil => rfl
  | cons part rest =>
      have hpart : part.read gather = gather part.answers := definitions_eq part
      rw [readParts, answersOf, gather_append, gather_cons, hpart, gather_readParts rest]

end

mutual

/-- A single source need not be sorted; a composite is. -/
theorem map_sort_routes (l : Locator Route) :
    l.routes.map Route.sort = Route.combine l.answers := by
  cases l with
  | source answer => rw [Route.combine_eq, answers, gather_singleton, routes, read]
  | composite parts =>
      have hparts : (composite parts).routes = Route.combine (answersOf parts) :=
        combine_readParts parts
      rw [hparts, Route.map_sort_combine, answers]

theorem combine_readParts (parts : List (Locator Route)) :
    Route.combine (readParts Route.combine parts) = Route.combine (answersOf parts) := by
  cases parts with
  | nil => rfl
  | cons part rest =>
      have hpart : (part.read Route.combine).map Route.sort = Route.combine part.answers :=
        map_sort_routes part
      rw [readParts, answersOf, Route.combine_append, Route.combine_cons, hpart,
        combine_readParts rest]

end

theorem routes_composite (parts : List (Locator Route)) :
    (composite parts).routes = Route.combine (answersOf parts) :=
  combine_readParts parts

/-! ### Compilation -/

mutual

theorem answers_compiled (κ : RouteCompiler) (l : Locator RouteDefinition) :
    (l.compiled κ).answers = l.answers.map (Except.map κ.compileAll) := by
  cases l with
  | source answer => rfl
  | composite parts => exact answersOf_compiledParts κ parts

theorem answersOf_compiledParts (κ : RouteCompiler) (parts : List (Locator RouteDefinition)) :
    answersOf (compiledParts κ parts) = (answersOf parts).map (Except.map κ.compileAll) := by
  cases parts with
  | nil => rfl
  | cons part rest =>
      rw [compiledParts, answersOf, answersOf, List.map_append, answers_compiled κ part,
        answersOf_compiledParts κ rest]

end

theorem routes_compiled (κ : RouteCompiler) (l : Locator RouteDefinition) :
    (l.compiled κ).routes = l.definitions.map κ.compileAll := by
  cases l with
  | source answer => rfl
  | composite parts =>
      calc ((composite parts).compiled κ).routes
          = Route.combine (answersOf (compiledParts κ parts)) := routes_composite _
        _ = (gather (answersOf parts)).map κ.compileAll := by
            rw [answersOf_compiledParts, κ.combine_map_compileAll]
        _ = (composite parts).definitions.map κ.compileAll := by
            rw [definitions_eq, answers]

/-- Merging before and after compilation. The routes of composites of any depth, each source of
which is compiled for itself, are those compiled from the definitions of all of them; the groups
make no difference to either; and what fails is the first source that does. What is compiled are the
definitions that can be, by their order and otherwise as they stand, as
`RouteCompiler.eq_compileAll_iff` says. -/
theorem merge_compiled (κ : RouteCompiler) :
    (∀ sources : List RouteSource,
        Route.combine (sources.map fun s => κ.locate [s]) = κ.locate sources ∧
        (composite (sources.map fun s => source s.read)).definitions =
          RouteSource.readAll sources) ∧
      (∀ l : Locator RouteDefinition,
        (l.compiled κ).routes = l.definitions.map κ.compileAll ∧
        l.definitions = l.flat.definitions) ∧
      (∀ parts : List (Locator Route), (composite parts).routes = (composite parts).flat.routes) ∧
      ∀ (l : Locator RouteDefinition) (e : GatewayError),
        (l.compiled κ).routes = .error e ↔
          ∃ read after, l.answers = List.map .ok read ++ .error e :: after := by
  refine ⟨fun sources => ⟨?_, ?_⟩, fun l => ⟨routes_compiled κ l, ?_⟩, fun parts => ?_,
    fun l e => ?_⟩
  · have hlocate (s : RouteSource) : κ.locate [s] = s.read.map κ.compileAll := by
      rw [RouteCompiler.locate, RouteSource.readAll_eq_gather, List.map_singleton,
        gather_singleton]
    rw [RouteCompiler.locate, RouteSource.readAll_eq_gather, ← κ.combine_map_compileAll,
      List.map_map]
    exact congrArg Route.combine (List.map_congr_left fun s _ => hlocate s)
  · have hanswers := answersOf_map_source (sources.map RouteSource.read)
    rw [List.map_map] at hanswers
    rw [definitions_eq, RouteSource.readAll_eq_gather, answers]
    exact congrArg gather hanswers
  · rw [definitions_eq, definitions_eq, answers_flat]
  · rw [routes_composite, flat, routes_composite, answersOf_map_source, answers]
  · rw [routes_compiled, definitions_eq, ← gather_eq_error_iff]
    cases gather l.answers <;> simp [Except.map]

end Locator

end HttpGateway
