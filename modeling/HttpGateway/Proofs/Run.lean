import Mathlib.Data.List.Induction

/-!
# Runs of a system

What happens at one moment is a relation between the state before, an event and the state after. A
run is any sequence of such moments, and its events stand in their order.
-/

namespace HttpGateway

variable {σ τ ε φ : Type} {step : σ → ε → σ → Prop}

/-- A run: the events, in their order, that lead from one state to another. -/
inductive Run (step : σ → ε → σ → Prop) (start : σ) : List ε → σ → Prop
  | nil : Run step start [] start
  | snoc {es e s s'} (run : Run step start es s) (h : step s e s') :
      Run step start (es ++ [e]) s'

namespace Run

theorem single {s s' : σ} {e : ε} (h : step s e s') : Run step s [e] s' :=
  Run.nil.snoc h

theorem trans {s t u : σ} {es fs : List ε} (h : Run step s es t) (h' : Run step t fs u) :
    Run step s (es ++ fs) u := by
  induction h' with
  | nil => simpa using h
  | snoc _ hstep ih =>
      rw [← List.append_assoc]
      exact ih.snoc hstep

/-- The last event of a run that is not empty. -/
theorem of_snoc {s u : σ} {es : List ε} {e : ε} (h : Run step s (es ++ [e]) u) :
    ∃ t, Run step s es t ∧ step t e u := by
  generalize hall : es ++ [e] = all at h
  cases h with
  | nil => simp at hall
  | snoc run hstep =>
      obtain ⟨rfl, he⟩ := List.append_inj' hall rfl
      obtain rfl := List.singleton_inj.mp he
      exact ⟨_, run, hstep⟩

theorem of_nil {s t : σ} (h : Run step s [] t) : s = t := by
  generalize hall : [] = all at h
  cases h with
  | nil => rfl
  | snoc _ _ => simp at hall

theorem of_single {s t : σ} {e : ε} (h : Run step s [e] t) : step s e t := by
  rw [← List.nil_append [e]] at h
  obtain ⟨u, hnil, hstep⟩ := h.of_snoc
  exact hnil.of_nil ▸ hstep

theorem invariant {P : σ → Prop} {s t : σ} {es : List ε} (run : Run step s es t) (hs : P s)
    (hstep : ∀ {u e v}, step u e v → P u → P v) : P t := by
  induction run with
  | nil => exact hs
  | snoc _ hlast ih => exact hstep hlast ih

/-- Every event of a run happens in a state to which the run has led. -/
theorem exists_step {P : σ → Prop} {s t : σ} {es : List ε} (run : Run step s es t) (hs : P s)
    (hstep : ∀ {u e v}, step u e v → P u → P v) : ∀ e ∈ es, ∃ u v, P u ∧ step u e v := by
  induction run with
  | nil => exact fun e he => absurd he List.not_mem_nil
  | snoc run hlast ih =>
      exact List.forall_mem_append.mpr
        ⟨ih, List.forall_mem_singleton.mpr ⟨_, _, run.invariant hs hstep, hlast⟩⟩

/-- A view of the system in which every step is a run of another one makes runs from runs. -/
theorem exists_map {step' : τ → φ → τ → Prop} {view : σ → τ} {s t : σ} {es : List ε}
    (run : Run step s es t)
    (sim : ∀ {u e v}, step u e v → ∃ fs, Run step' (view u) fs (view v)) :
    ∃ fs, Run step' (view s) fs (view t) := by
  induction run with
  | nil => exact ⟨[], .nil⟩
  | snoc _ hstep ih =>
      obtain ⟨fs, hfs⟩ := ih
      obtain ⟨gs, hgs⟩ := sim hstep
      exact ⟨fs ++ gs, hfs.trans hgs⟩

/-- A view in which every step of the run is one step of another system, or none, makes a run of it
from what the events look like there. -/
theorem filterMap {step' : τ → φ → τ → Prop} (view : σ → τ) {look : ε → Option φ} {s t : σ}
    {es : List ε} (run : Run step s es t)
    (sim : ∀ {u e v}, e ∈ es → step u e v → Run step' (view u) (look e).toList (view v)) :
    Run step' (view s) (es.filterMap look) (view t) := by
  induction run with
  | nil => exact .nil
  | @snoc es e u v _ hstep ih =>
      have hlast := sim (List.mem_append_right es List.mem_cons_self) hstep
      rw [List.filterMap_append]
      refine (ih fun he => sim (List.mem_append_left _ he)).trans ?_
      cases he : look e <;> simpa [he] using hlast

end Run

/-- At some moment of the run that these events make, the view of the system was this. -/
def Held {α : Type} (step : σ → ε → σ → Prop) (view : σ → α) (start : σ) (es : List ε) (x : α) :
    Prop :=
  ∃ fs gs s, es = fs ++ gs ∧ Run step start fs s ∧ view s = x

namespace Held

variable {α : Type} {view : σ → α} {s t : σ} {es : List ε} {x : α}

theorem last (run : Run step s es t) : Held step view s es (view t) :=
  ⟨es, [], t, by simp, run, rfl⟩

theorem snoc (h : Held step view s es x) (e : ε) : Held step view s (es ++ [e]) x := by
  obtain ⟨fs, gs, u, rfl, run, hx⟩ := h
  exact ⟨fs, gs ++ [e], u, by simp, run, hx⟩

end Held

end HttpGateway
