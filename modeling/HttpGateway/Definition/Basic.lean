import HttpGateway.Definition.Error
import HttpGateway.Text.Pieces

/-!
# Definitions of routes

A route definition names the conditions under which a request takes the route, the filters it passes
on the way, and the address it goes to. Predicates and filters are named and take arguments. Both
may be written as a shortcut, a name with a list of values, in which case the arguments have
numbered keys until the kind of predicate or filter gives them names.
-/

namespace HttpGateway

/-- A predicate by name, with its arguments. -/
structure PredicateDefinition where
  name : String
  args : Fields := []
  deriving Repr

/-- A filter by name, with its arguments and possibly its place among the filters. -/
structure FilterDefinition where
  name : String
  args : Fields := []
  order : Option Int32 := none
  deriving Repr

/-- A route as a configuration describes it. -/
structure RouteDefinition where
  id : String
  predicates : List PredicateDefinition := []
  filters : List FilterDefinition := []
  uri : String
  order : Int32 := 0
  deriving Repr

/-- What the key of an argument without a name starts with. -/
def generatedKey : String := "_genkey_"

namespace Shortcut

/-- The name before the first equals sign, or the whole text, and what follows the sign. -/
def split (text : String) : String × Option String :=
  match cutText '=' text with
  | some (name, rest) => (trimText name, some rest)
  | none => (trimText text, none)

/-- The values of a list, numbered from `index`. -/
def numbered (index : Nat) : List String → List (String × Json)
  | [] => []
  | v :: rest =>
    (generatedKey ++ Text.decimal index, .str (trimText v)) :: numbered (index + 1) rest

/-- Reads a shortcut: a name, and after an equals sign values between commas. -/
def parse (text : String) : Except DefinitionError (String × Fields) :=
  let (name, rest) := split text
  if name = "" then .error (.missingName text)
  else match rest with
    | none => .ok (name, [])
    | some values => .ok (name, Dictionary.ofList (numbered 0 (piecesOf ',' values)))

end Shortcut

/-- Reads a predicate from a shortcut. -/
def PredicateDefinition.parse (text : String) : Except DefinitionError PredicateDefinition :=
  (Shortcut.parse text).map fun (name, args) => { name, args }

/-- Reads a filter from a shortcut. -/
def FilterDefinition.parse (text : String) : Except DefinitionError FilterDefinition :=
  (Shortcut.parse text).map fun (name, args) => { name, args }

/-- How the values of a shortcut become named arguments: each takes the next of some names, or all
together make up one list. -/
inductive ArgumentLayout where
  | fields (names : List String)
  | list (name : String)
  deriving DecidableEq, Repr

namespace ArgumentLayout

/-- The number in a generated key. Other keys have none. -/
def position? (key : String) : Option (Except ArgumentFault Nat) :=
  (Text.afterPrefix? generatedKey.toList key.toList).map fun rest =>
    match Text.natural Decoder.max64 rest with
    | .ok n => .ok n
    | .error _ => .error (.badKey key)

/-- Parts arguments into those with a number and those with a name. -/
def separate : Fields → Except ArgumentFault (List (Nat × Json) × Fields)
  | [] => .ok ([], [])
  | (key, value) :: rest =>
    match position? key with
    | some (.error e) => .error e
    | some (.ok n) => (separate rest).map fun (numbered, named) => ((n, value) :: numbered, named)
    | none => (separate rest).map fun (numbered, named) => (numbered, (key, value) :: named)

/-- Gives numbered arguments their names. They come in the order of their numbers, and take the
place of named arguments of the same name. -/
def nameArguments (layout : ArgumentLayout) (args : Fields) : Except ArgumentFault Fields := do
  let (numbered, named) ← separate args
  let values := (numbered.mergeSort fun a b => a.1 ≤ b.1).map Prod.snd
  if values.isEmpty then .ok named
  else match layout with
    | .fields names =>
      if names.length < values.length then .error (.tooMany names.length values.length)
      else .ok ((names.zip values).foldl (fun d (k, v) => Dictionary.insert d k v) named)
    | .list name => .ok (Dictionary.insert named name (.arr values))

end ArgumentLayout

end HttpGateway
