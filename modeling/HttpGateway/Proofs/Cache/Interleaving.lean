import HttpGateway.Proofs.Run
import HttpGateway.Route.Cache
import Mathlib.Logic.Function.Basic

/-!
# Interleaved use of the cache

Any number of calls read a cache at once, and it is invalidated at any moment. A call is cut into
the steps that happen at one moment: it glances at the cache, waits for the lock, looks again,
asks the source, takes its answer, and tries to put the list in the place of the state it started
from; if that state is gone, it keeps the list as the last good one. A call that waits, for the
lock or for the source, may be dropped. A run is any sequence of such steps and of invalidations.

The sequential `Cache.fetch` is one of these runs: `exists_run_fetch`.
-/

namespace HttpGateway.Cache

variable {ρ ε : Type}

/-- Where a call stands. `seen` is the number of the state it started from. -/
inductive Call (ρ ε : Type) where
  | absent
  | arrived
  | queued
  | locked
  | loaded (seen : Nat) (stale : Option ρ)
  | asking (seen : Nat) (stale : Option ρ)
  | answered (seen : Nat) (routes : ρ)
  | overtaken (routes : ρ)
  | returned (result : Except ε ρ)
  | dropped
  deriving Repr

inductive Action (ρ ε : Type) where
  | arrive
  | glance
  | lock
  | look
  | ask
  | answer (result : Except ε ρ)
  | swap
  | keep
  | drop
  deriving Repr

/-- What happens at one moment. Every call has a number of its own. -/
inductive Event (ρ ε : Type) where
  | invalidate
  | call (c : Nat) (a : Action ρ ε)
  deriving Repr

def Call.holdsLock : Call ρ ε → Bool
  | .locked | .loaded _ _ | .asking _ _ | .answered _ _ | .overtaken _ => true
  | _ => false

def Call.seen? : Call ρ ε → Option Nat
  | .loaded seen _ | .asking seen _ | .answered seen _ => some seen
  | _ => none

/-- The last good list the call found, while it may still need it. -/
def Call.stale? : Call ρ ε → Option (Option ρ)
  | .loaded _ stale | .asking _ stale => some stale
  | _ => none

/-- One step of a call: the cache and the call before it, the step, the cache and the call after. -/
inductive Call.Step : Cache ρ → Call ρ ε → Action ρ ε → Cache ρ → Call ρ ε → Prop
  | arrive {k} : Call.Step k .absent .arrive k .arrived
  | glanceValid {k r} (hk : k.state = .valid r) :
      Call.Step k .arrived .glance k (.returned (.ok r))
  | glanceInvalid {k stale} (hk : k.state = .invalidated stale) :
      Call.Step k .arrived .glance k .queued
  | lock {k} : Call.Step k .queued .lock k .locked
  | lookValid {k r} (hk : k.state = .valid r) :
      Call.Step k .locked .look k (.returned (.ok r))
  | lookInvalid {k stale} (hk : k.state = .invalidated stale) :
      Call.Step k .locked .look k (.loaded k.version stale)
  | ask {k seen stale} : Call.Step k (.loaded seen stale) .ask k (.asking seen stale)
  | answerOk {k seen stale r} :
      Call.Step k (.asking seen stale) (.answer (.ok r)) k (.answered seen r)
  | answerStale {k seen r e} :
      Call.Step k (.asking seen (some r)) (.answer (.error e)) k (.returned (.ok r))
  | answerError {k seen e} :
      Call.Step k (.asking seen none) (.answer (.error e)) k (.returned (.error e))
  | install {k k' seen r} (hk : k.install? seen r = some k') :
      Call.Step k (.answered seen r) .swap k' (.returned (.ok r))
  | overtake {k seen r} (hk : k.install? seen r = none) :
      Call.Step k (.answered seen r) .swap k (.overtaken r)
  | keep {k r} : Call.Step k (.overtaken r) .keep (k.keepStale r) (.returned (.ok r))
  | dropQueued {k} : Call.Step k .queued .drop k .dropped
  | dropAsking {k seen stale} : Call.Step k (.asking seen stale) .drop k .dropped

/-- A cache and the calls that use it. -/
structure Traffic (ρ ε : Type) where
  cache : Cache ρ := {}
  calls : Nat → Call ρ ε := fun _ => .absent

def Traffic.start : Traffic ρ ε := {}

/-- Whether no call holds the lock. -/
def Traffic.Free (t : Traffic ρ ε) : Prop := ∀ d, (t.calls d).holdsLock = false

/-- A call moves on, and leaves this cache behind. -/
def Traffic.move (t : Traffic ρ ε) (c : Nat) (k : Cache ρ) (x : Call ρ ε) : Traffic ρ ε :=
  ⟨k, Function.update t.calls c x⟩

@[simp] theorem Traffic.cache_move (t : Traffic ρ ε) (c : Nat) (k : Cache ρ) (x : Call ρ ε) :
    (t.move c k x).cache = k := rfl

@[simp] theorem Traffic.calls_move_self (t : Traffic ρ ε) (c : Nat) (k : Cache ρ) (x : Call ρ ε) :
    (t.move c k x).calls c = x := Function.update_self ..

theorem Traffic.calls_move_of_ne (t : Traffic ρ ε) {c d : Nat} (k : Cache ρ) (x : Call ρ ε)
    (hd : d ≠ c) : (t.move c k x).calls d = t.calls d := Function.update_of_ne hd ..

@[simp] theorem Traffic.move_move (t : Traffic ρ ε) (c : Nat) (k k' : Cache ρ) (x y : Call ρ ε) :
    (t.move c k x).move c k' y = t.move c k' y := by
  simp [move]

/-- One moment: an invalidation, or a step of one call. The lock is given to a call only while it is
free, and to any of those that wait for it. -/
inductive Step : Traffic ρ ε → Event ρ ε → Traffic ρ ε → Prop
  | invalidate {t} : Step t .invalidate { t with cache := t.cache.invalidate }
  | call {t c a k x} (h : Call.Step t.cache (t.calls c) a k x) (hlock : a = .lock → t.Free) :
      Step t (.call c a) (t.move c k x)

abbrev Run (start : Traffic ρ ε) : List (Event ρ ε) → Traffic ρ ε → Prop :=
  HttpGateway.Run Step start

/-! ### What a step does to the cache -/

theorem Call.Step.version_le {k k' : Cache ρ} {x y : Call ρ ε} {a : Action ρ ε}
    (h : Call.Step k x a k' y) : k.version ≤ k'.version := by
  cases h with
  | install hk =>
      obtain ⟨-, rfl⟩ := install?_eq_some_iff.mp hk
      rw [version_replace]
      omega
  | keep =>
      rw [version_keepStale]
      omega
  | _ => exact Nat.le_refl _

/-- A list is valid after a step if it was before, or if a call has put it there that started from
the very state that was in the cache. -/
theorem Call.Step.of_valid {k k' : Cache ρ} {x y : Call ρ ε} {a : Action ρ ε} {r : ρ}
    (h : Call.Step k x a k' y) (hr : k'.state = .valid r) :
    k.state = .valid r ∨ x = .answered k.version r := by
  cases h with
  | install hk =>
      obtain ⟨rfl, rfl⟩ := install?_eq_some_iff.mp hk
      obtain rfl : _ = r := by simpa using hr
      exact .inr rfl
  | keep => exact .inl (state_keepStale_eq_valid_iff.mp hr)
  | _ => exact .inl hr

theorem Call.Step.of_error {k k' : Cache ρ} {x : Call ρ ε} {a : Action ρ ε} {cause : ε}
    (h : Call.Step k x a k' (.returned (.error cause))) : a = .answer (.error cause) := by
  cases h
  rfl

/-- A call that has a number after a step had it before, or has just read it off the cache. -/
theorem Call.Step.of_seen {k k' : Cache ρ} {x y : Call ρ ε} {a : Action ρ ε} {n : Nat}
    (h : Call.Step k x a k' y) (hn : y.seen? = some n) :
    x.seen? = some n ∨ n = k.version ∧ k' = k := by
  cases h <;> simp_all [Call.seen?]

/-- A call that may fall back on a list after a step could do so before, or has just found it. -/
theorem Call.Step.of_stale {k k' : Cache ρ} {x y : Call ρ ε} {a : Action ρ ε} {s : Option ρ}
    (h : Call.Step k x a k' y) (hs : y.stale? = some s) :
    x.stale? = some s ∨ a = .look ∧ k.state = .invalidated s := by
  cases h <;> simp_all [Call.stale?]

/-- No call started from a state that is still to come. -/
theorem Run.seen_le {es : List (Event ρ ε)} {t : Traffic ρ ε} (run : Run .start es t) {c n : Nat}
    (hn : (t.calls c).seen? = some n) : n ≤ t.cache.version := by
  induction run with
  | nil => cases hn
  | snoc _ step ih =>
      cases step with
      | invalidate => exact Nat.le_succ_of_le (ih hn)
      | @call d _ _ _ h _ =>
          by_cases hc : c = d
          · subst hc
            rw [Traffic.calls_move_self] at hn
            -- A number is either an old one, or it is read off the cache as it is.
            rcases h.of_seen hn with hx | ⟨rfl, rfl⟩
            · exact Nat.le_trans (ih hx) h.version_le
            · exact Nat.le_refl _
          · rw [Traffic.calls_move_of_ne _ _ _ hc] at hn
            exact Nat.le_trans (ih hn) h.version_le

/-! ### The sequential reading is a run -/

theorem Run.arrive {t : Traffic ρ ε} {c : Nat} (hc : t.calls c = .absent) :
    Run t [.call c .arrive] (t.move c t.cache .arrived) :=
  .single (.call (by rw [hc]; exact .arrive) nofun)

/-- One more step of the call that a run has moved. -/
theorem Run.move {s t : Traffic ρ ε} {es : List (Event ρ ε)} {k k' : Cache ρ} {c : Nat}
    {x y : Call ρ ε} {a : Action ρ ε} (run : Run s es (t.move c k x)) (h : Call.Step k x a k' y)
    (hlock : a = .lock → (t.move c k x).Free) : Run s (es ++ [.call c a]) (t.move c k' y) := by
  have step := Step.call (t := t.move c k x) (c := c) (by simpa using h) hlock
  simpa using run.snoc step

theorem run_invalidateTimes (t : Traffic ρ ε) (n : Nat) :
    Run t (List.replicate n .invalidate) { t with cache := t.cache.invalidateTimes n } := by
  induction n generalizing t with
  | zero => exact .nil
  | succ n ih =>
      rw [List.replicate_succ, ← List.singleton_append]
      exact (Run.single .invalidate).trans (ih _)

theorem Traffic.Free.move {t : Traffic ρ ε} (h : t.Free) {c : Nat} {x : Call ρ ε} {k : Cache ρ}
    (hx : x.holdsLock = false) : (t.move c k x).Free := by
  intro d
  by_cases hd : d = c
  · subst hd
    simpa using hx
  · rw [t.calls_move_of_ne _ _ hd]
    exact h d

/-- Reading a cache as its only reader, with some invalidations while the source is being asked, is
a run of one call in which no other call moves. -/
theorem exists_run_fetch (t : Traffic ρ ε) (c : Nat) (hfree : t.Free) (hc : t.calls c = .absent)
    (answer : Except ε ρ) (n : Nat) :
    let f := t.cache.fetch fun k => (answer, k.invalidateTimes n)
    ∃ es, Run t es (t.move c f.cache (.returned f.result)) := by
  have arrived := Run.arrive hc
  cases hk : t.cache.state with
  | valid r =>
      simp only [fetch, hk]
      exact ⟨_, arrived.move (.glanceValid hk) nofun⟩
  | invalidated stale =>
      have queued := arrived.move (.glanceInvalid hk) nofun
      have locked := queued.move .lock fun _ => hfree.move rfl
      have asking := (locked.move (.lookInvalid hk) nofun).move .ask nofun
      have waited : Run t _ _ := asking.trans (run_invalidateTimes _ n)
      cases answer with
      | ok r =>
          have answered := waited.move (.answerOk (r := r)) nofun
          cases hi : (t.cache.invalidateTimes n).install? t.cache.version r with
          | some k' =>
              simp only [fetch, hk, hi]
              exact ⟨_, answered.move (.install hi) nofun⟩
          | none =>
              simp only [fetch, hk, hi]
              exact ⟨_, (answered.move (.overtake hi) nofun).move .keep nofun⟩
      | error e =>
          cases stale with
          | some r =>
              simp only [fetch, hk]
              exact ⟨_, waited.move (.answerStale (e := e)) nofun⟩
          | none =>
              simp only [fetch, hk]
              exact ⟨_, waited.move (.answerError (e := e)) nofun⟩

end HttpGateway.Cache
