import HttpGateway.Definition.Basic

/-!
# Definitions as structured values

Writing definitions as objects, and reading them from objects or, for predicates and filters, from
shortcuts. A structured value keeps the fields of an object in the order of their keys; a text has
them as they are declared.
-/

namespace HttpGateway

/-- The fields of an argument list, none if there are no arguments. -/
def argsEntry (args : Fields) : List (String × Json) :=
  if args.isEmpty then [] else [("args", .obj args)]

section Writing

variable (object : List (String × Json) → Json)

/-- A predicate as an object, which is put together from the fields in their declared order. -/
def PredicateDefinition.assemble (d : PredicateDefinition) : Json :=
  object (("name", .str d.name) :: argsEntry d.args)

/-- A filter as an object. -/
def FilterDefinition.assemble (d : FilterDefinition) : Json :=
  let order := match d.order with
    | some n => [("order", .int n.toInt)]
    | none => []
  object (("name", .str d.name) :: argsEntry d.args ++ order)

/-- A route as an object. -/
def RouteDefinition.assemble (d : RouteDefinition) : Json :=
  object [("id", .str d.id),
    ("predicates", .arr (d.predicates.map (PredicateDefinition.assemble object))),
    ("filters", .arr (d.filters.map (FilterDefinition.assemble object))), ("uri", .str d.uri),
    ("order", .int d.order.toInt)]

end Writing

/-- A predicate as a structured value. -/
def PredicateDefinition.toJson (d : PredicateDefinition) : Json := d.assemble .object

/-- A filter as a structured value. -/
def FilterDefinition.toJson (d : FilterDefinition) : Json := d.assemble .object

/-- A route as a structured value. -/
def RouteDefinition.toJson (d : RouteDefinition) : Json := d.assemble .object

/-- A predicate as it is written to a text. -/
def PredicateDefinition.written (d : PredicateDefinition) : Json := d.assemble .obj

/-- A filter as it is written to a text. -/
def FilterDefinition.written (d : FilterDefinition) : Json := d.assemble .obj

/-- A route as it is written to a text. -/
def RouteDefinition.written (d : RouteDefinition) : Json := d.assemble .obj

namespace Definition

/-- Reads an order. -/
def order : Decoder Int32 := fun j => (Decoder.int32 j).map Int32.ofInt

/-- Reads arguments. They are kept as structured values, which have no infinite numbers. -/
def arguments : Decoder Fields
  | .obj fields => .ok (Json.finiteFields fields)
  | j => .error (.invalidType j.found "a map")

def nameField : Field String := { name := "name", read := Decoder.text }

def argsField : Field Fields := { name := "args", read := arguments, fallback := some [] }

def orderField : Field (Option Int32) :=
  { name := "order", read := Decoder.optional order, fallback := some none }

/-- The form of predicates and filters as objects. -/
def tableRule : RecordRule :=
  ⟨"struct variant RawDefinition::Full", [nameField.rule, argsField.rule, orderField.rule], false⟩

/-- Reads the name, the arguments and the order of a predicate or filter. -/
def readTable (j : Json) : Except DecodeError (String × Fields × Option Int32) :=
  match j with
  | .str text => match Shortcut.parse text with
    | .ok (name, args) => .ok (name, args, none)
    | .error e => .error (.refused e.message)
  | .obj _ =>
    let table : Except DecodeError (String × Fields × Option Int32) := do
      let entries ← tableRule.entries .held j
      .ok (← nameField.take entries, ← argsField.take entries, ← orderField.take entries)
    match table with
    | .ok t => .ok t
    | .error _ => .error (.noVariant "RawDefinition")
  | _ => .error (.noVariant "RawDefinition")

end Definition

/-- Reads a predicate. -/
def PredicateDefinition.ofJson : Decoder PredicateDefinition := fun j =>
  (Definition.readTable j).map fun (name, args, _) => { name, args }

/-- Reads a filter. -/
def FilterDefinition.ofJson : Decoder FilterDefinition := fun j =>
  (Definition.readTable j).map fun (name, args, order) => { name, args, order }

namespace RouteDefinition

def idField : Field String := { name := "id", read := Decoder.text }

def predicatesField : Field (List PredicateDefinition) :=
  { name := "predicates", read := Decoder.list PredicateDefinition.ofJson, fallback := some [] }

def filtersField : Field (List FilterDefinition) :=
  { name := "filters", read := Decoder.list FilterDefinition.ofJson, fallback := some [] }

def uriField : Field String := { name := "uri", read := Decoder.text }

def orderField : Field Int32 := { name := "order", read := Definition.order, fallback := some 0 }

/-- The form of a route definition. -/
def rule : RecordRule :=
  ⟨"struct RouteDefinition",
    [idField.rule, predicatesField.rule, filtersField.rule, uriField.rule, orderField.rule], false⟩

/-- Reads a route definition. -/
def ofJson (origin : Origin) : Decoder RouteDefinition := fun j => do
  let entries ← rule.entries origin j
  .ok {
    id := ← idField.take entries
    predicates := ← predicatesField.take entries
    filters := ← filtersField.take entries
    uri := ← uriField.take entries
    order := ← orderField.take entries }

end RouteDefinition

end HttpGateway
