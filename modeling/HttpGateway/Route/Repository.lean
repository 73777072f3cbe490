import HttpGateway.Channel
import HttpGateway.Route.Source

/-!
# The route repository

Route definitions that can be changed while the gateway runs. There is one definition for each id,
and every change is announced to those who have subscribed.
-/

namespace HttpGateway

/-- A change to the repository. -/
inductive RouteEvent where
  | saved (id : String)
  | deleted (id : String)
  deriving DecidableEq, Repr

/-- A repository of route definitions. -/
structure RouteRepository where
  definitions : List RouteDefinition := []
  events : Channel RouteEvent := { capacity := 64 }
  deriving Repr

namespace RouteRepository

/-- Announces a change. -/
def announce (r : RouteRepository) (e : RouteEvent) : RouteRepository :=
  { r with events := (r.events.send e).2 }

/-- Puts a definition in the place of the first with its id, or at the end. -/
def place (d : RouteDefinition) : List RouteDefinition → List RouteDefinition
  | [] => [d]
  | e :: rest => if e.id = d.id then d :: rest else e :: place d rest

theorem mem_place (d : RouteDefinition) (ds : List RouteDefinition) : d ∈ place d ds := by
  induction ds with
  | nil => exact List.mem_singleton_self d
  | cons e rest ih =>
      rw [place]
      split
      · exact List.mem_cons_self
      · exact List.mem_cons_of_mem e ih

/-- Saves a definition under its id. -/
def save (r : RouteRepository) (d : RouteDefinition) : Outcome × RouteRepository :=
  if isBlankId d.id then (.error (.definition .missingId), r)
  else (.ok (), { r with definitions := place d r.definitions }.announce (.saved d.id))

/-- Deletes the definition of an id. -/
def delete (r : RouteRepository) (id : String) : Outcome × RouteRepository :=
  let left := r.definitions.filter fun d => d.id ≠ id
  if left.length = r.definitions.length then (.error (.routeNotFound id), r)
  else (.ok (), { r with definitions := left }.announce (.deleted id))

theorem save_of_named (r : RouteRepository) {d : RouteDefinition} (hd : isBlankId d.id = false) :
    r.save d =
      (.ok (), { r with definitions := place d r.definitions }.announce (.saved d.id)) := by
  simp [save, hd]

theorem save_of_blank (r : RouteRepository) {d : RouteDefinition} (hd : isBlankId d.id = true) :
    r.save d = (.error (.definition .missingId), r) := by
  simp [save, hd]

theorem delete_of_known (r : RouteRepository) {id : String}
    (hid : (r.definitions.filter fun d => d.id ≠ id).length ≠ r.definitions.length) :
    r.delete id = (.ok (),
      { r with definitions := r.definitions.filter fun d => d.id ≠ id }.announce (.deleted id)) := by
  simp only [delete, if_neg hid]

theorem delete_of_unknown (r : RouteRepository) {id : String}
    (hid : (r.definitions.filter fun d => d.id ≠ id).length = r.definitions.length) :
    r.delete id = (.error (.routeNotFound id), r) := by
  simp only [delete, if_pos hid]

/-- Subscribes to the changes. -/
def subscribe (r : RouteRepository) : Nat × RouteRepository :=
  let (receiver, events) := r.events.subscribe
  (receiver, { r with events })

/-- Looks for the next change. -/
def receive (r : RouteRepository) (receiver : Nat) : Received RouteEvent × RouteRepository :=
  let (found, events) := r.events.receive receiver
  (found, { r with events })

/-- The definitions as a source of routes. -/
def toSource (r : RouteRepository) : RouteSource := { definitions := r.definitions }

end RouteRepository

end HttpGateway
