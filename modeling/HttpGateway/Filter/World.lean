import HttpGateway.Exchange.Basic
import HttpGateway.Metrics
import HttpGateway.RateLimit.Bucket

/-!
# The surroundings of a filter chain

What filters reach besides the exchange they work on: the clock, the backend, the limiter, the
directory of services, a source of random numbers, and the records that are kept. A chain is a
function on exchange and surroundings together. Whatever comes from outside takes its time, and in
that time other exchanges ask the same limiter.
-/

namespace HttpGateway

/-- A request as it is sent to a backend. Its body may break off on the way. -/
structure Outbound where
  method : Method
  url : Uri
  headers : Headers
  body : Body
  deriving DecidableEq, Repr

/-- What comes from outside, and how long it takes to come. -/
structure Awaited (α : Type) where
  answer : α
  elapsed : Duration := Duration.zero

/-- A backend answers or fails, depending on all requests it was sent so far, the latest last. -/
abbrev Backend := List Outbound → Awaited (Except GatewayError Reply)

/-- A directory knows the address of a service or does not, depending on all services it was asked
for so far, the latest last. -/
abbrev Directory := List String → Awaited (Option Uri)

/-- The surroundings of a chain. -/
structure World (τ : Type) where
  /-- The time in nanoseconds. -/
  clock : Nat := 0
  backend : Backend := fun _ => { answer := .ok { status := Status.ok } }
  /-- The requests that the backend has been called with. -/
  sent : List Outbound := []
  directory : Directory := fun _ => { answer := none }
  /-- The services that the directory has been asked for. -/
  asked : List String := []
  limiter : RateLimiter τ
  /-- What other exchanges ask the limiter each time this one waits. No filter that has been made
  asks for a bucket without a capacity. -/
  others : Nat → List {c : RateLimiter.Check // c.burst ≠ 0} := fun _ => []
  /-- How often this exchange has waited. -/
  waits : Nat := 0
  /-- The random numbers, and how many have been drawn. -/
  random : Nat → Nat := fun _ => 0
  drawn : Nat := 0
  /-- The time spent in pauses between attempts. -/
  waited : Duration := Duration.zero
  metrics : List Metric := []

namespace World

variable {τ : Type}

/-- How often the backend has been called. -/
def calls (w : World τ) : Nat := w.sent.length

/-- Counts something. -/
def count (w : World τ) (m : Metric) : World τ := { w with metrics := w.metrics ++ [m] }

/-- Draws a random number. -/
def draw (w : World τ) : Nat × World τ := (w.random w.drawn, { w with drawn := w.drawn + 1 })

/-- What other exchanges ask the limiter when this one waits next. -/
def meanwhile (w : World τ) : List RateLimiter.Check := (w.others w.waits).map Subtype.val

variable [TokenArithmetic τ]

/-- Lets time pass, in which other exchanges go on. -/
def elapse (w : World τ) (d : Duration) : World τ :=
  { w with
    clock := w.clock + d.nanos
    limiter := w.limiter.afterAll w.meanwhile
    waits := w.waits + 1 }

/-- Pauses between two attempts. -/
def wait (w : World τ) (d : Duration) : World τ :=
  { w with waited := w.waited + d }.elapse d

/-- Calls the backend with a request. -/
def send (w : World τ) (o : Outbound) : Except GatewayError Reply × World τ :=
  let sent := w.sent ++ [o]
  let reply := w.backend sent
  (reply.answer, { w with sent }.elapse reply.elapsed)

/-- Asks the directory for a service. -/
def find (w : World τ) (service : String) : Option Uri × World τ :=
  let asked := w.asked ++ [service]
  let found := w.directory asked
  (found.answer, { w with asked }.elapse found.elapsed)

end World

/-- An exchange in its surroundings. -/
structure Scene (τ : Type) where
  exchange : Exchange
  world : World τ

/-- A part of the work on an exchange: it changes the scene and succeeds or fails. -/
abbrev Stage (τ : Type) := Scene τ → Outcome × Scene τ

namespace Scene

variable {τ : Type}

/-- Changes the exchange. -/
def mapExchange (s : Scene τ) (edit : Exchange → Exchange) : Scene τ :=
  { s with exchange := edit s.exchange }

/-- Changes the response. -/
def mapResponse (s : Scene τ) (edit : Response → Response) : Scene τ :=
  s.mapExchange fun x => x.mapResponse edit

/-- Changes the surroundings. -/
def mapWorld (s : Scene τ) (edit : World τ → World τ) : Scene τ := { s with world := edit s.world }

end Scene

end HttpGateway
