/-!
# The route cache

The cache keeps the list of routes until it is invalidated, and the last good list even then. It is
read and changed by several parties at once, so its operations are cut into the steps that happen at
one moment. A party that is to put a new list into the cache says which state it started from; if
the state has been replaced in the meantime, the list does not become the valid one.
-/

namespace HttpGateway

variable {ρ ε : Type}

/-- What a cache holds: a valid list, or the last good one if there has been any. -/
inductive CacheState (ρ : Type) where
  | valid (routes : ρ)
  | invalidated (stale : Option ρ)
  deriving Repr, DecidableEq

/-- The list a state holds, valid or not. -/
def CacheState.snapshot : CacheState ρ → Option ρ
  | .valid routes => some routes
  | .invalidated stale => stale

/-- A cache. -/
structure Cache (ρ : Type) where
  state : CacheState ρ := .invalidated none
  /-- How often the state has been replaced. Two looks that find the same number have found the very
  same state. -/
  version : Nat := 0
  /-- How often the cache has been invalidated. -/
  generation : Nat := 0
  deriving Repr

namespace Cache

/-- Replaces the state. -/
def replace (c : Cache ρ) (s : CacheState ρ) : Cache ρ :=
  { c with state := s, version := c.version + 1 }

/-- Invalidates the cache; the list it holds becomes the last good one. -/
def invalidate (c : Cache ρ) : Cache ρ :=
  { c with generation := c.generation + 1 }.replace (.invalidated c.state.snapshot)

/-- Invalidates the cache several times. -/
def invalidateTimes (c : Cache ρ) : Nat → Cache ρ
  | 0 => c
  | n + 1 => c.invalidate.invalidateTimes n

/-- Makes a list the valid one, if the state is still the one with this number. -/
def install? (c : Cache ρ) (seen : Nat) (routes : ρ) : Option (Cache ρ) :=
  if c.version = seen then some (c.replace (.valid routes)) else none

/-- Makes a list the last good one, unless there is a valid one. -/
def keepStale (c : Cache ρ) (routes : ρ) : Cache ρ :=
  c.replace (match c.state with
    | .invalidated _ => .invalidated (some routes)
    | .valid current => .valid current)

@[simp] theorem version_replace (c : Cache ρ) (s : CacheState ρ) :
    (c.replace s).version = c.version + 1 := rfl

@[simp] theorem state_replace (c : Cache ρ) (s : CacheState ρ) : (c.replace s).state = s := rfl

@[simp] theorem version_invalidate (c : Cache ρ) : c.invalidate.version = c.version + 1 := rfl

@[simp] theorem state_invalidate (c : Cache ρ) :
    c.invalidate.state = .invalidated c.state.snapshot := rfl

@[simp] theorem version_keepStale (c : Cache ρ) (routes : ρ) :
    (c.keepStale routes).version = c.version + 1 := rfl

/-- Keeping a list as the last good one makes no list valid. -/
theorem state_keepStale_eq_valid_iff {c : Cache ρ} {routes current : ρ} :
    (c.keepStale routes).state = .valid current ↔ c.state = .valid current := by
  simp only [keepStale, state_replace]
  cases c.state <;> simp

theorem install?_eq_some_iff {c k : Cache ρ} {seen : Nat} {routes : ρ} :
    c.install? seen routes = some k ↔ c.version = seen ∧ k = c.replace (.valid routes) := by
  by_cases h : c.version = seen
  · simp [install?, h, eq_comm]
  · simp [install?, h]

/-- What a reader comes back with. -/
structure Fetched (ρ ε : Type) where
  result : Except ε ρ
  cache : Cache ρ
  /-- Whether the routes were asked for anew, and with what success. -/
  refreshed : Option Bool

/-- Reads the cache as its only reader: the valid list, or the one that `ask` gives, or, if that
fails, the last good one. What `ask` does to the cache are changes made meanwhile by others. -/
def fetch (c : Cache ρ) (ask : Cache ρ → Except ε ρ × Cache ρ) : Fetched ρ ε :=
  match c.state with
  | .valid routes => ⟨.ok routes, c, none⟩
  | .invalidated stale =>
    let seen := c.version
    let (answer, c) := ask c
    match answer, stale with
    | .ok routes, _ => ⟨.ok routes, (c.install? seen routes).getD (c.keepStale routes), some true⟩
    | .error _, some routes => ⟨.ok routes, c, some false⟩
    | .error e, none => ⟨.error e, c, some false⟩

end Cache

end HttpGateway
