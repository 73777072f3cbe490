import HttpGateway.Definition.Error
import HttpGateway.Json.Decode

/-!
# Key resolvers

What tells the clients of a rate limit apart: the address they come from, a header they send, or
nothing but the route.
-/

namespace HttpGateway

/-- How the key of a request is found. -/
inductive KeyResolver where
  | remoteAddress
  | header (name : HeaderName)
  | routeId
  deriving DecidableEq, Repr

/-- A key resolver as a configuration names it. -/
inductive KeyResolverSpec where
  | remoteAddress
  | header (name : String)
  | routeId
  deriving DecidableEq, Repr

/-- The tags of key resolvers. -/
inductive KeyResolverTag where
  | remoteAddress
  | header
  | routeId
  deriving DecidableEq, Repr

namespace KeyResolverSpec

/-- The tags by name. -/
def tags : List (String × KeyResolverTag) :=
  [("remote_addr", .remoteAddress), ("header", .header), ("route_id", .routeId)]

/-- Reads a tag. In a value that has been set aside a tag may also be given by its number. -/
def tag (origin : Origin) : Decoder KeyResolverTag
  | .str s => Decoder.variant tags s
  | j => match j, origin with
    | .int n, .held =>
      if n < 0 then .error (.invalidType j.found "variant identifier")
      else match tags[n.toNat]? with
        | some (_, t) => .ok t
        | none => .error (.invalidValue j.found "variant index 0 <= i < 3")
    | _, _ => .error (.invalidType j.found "variant identifier")

def nameField : Field String := { name := "name", read := Decoder.text }

/-- The form of a resolver that reads a header. -/
def headerRule : RecordRule := ⟨"struct variant KeyResolverSpec::Header", [nameField.rule], true⟩

/-- Reads what follows the tag. -/
def body (rest : Json) : KeyResolverTag → Except DecodeError KeyResolverSpec
  | .header => do
    let entries ← headerRule.entries .held rest
    .ok (.header (← nameField.take entries))
  | t =>
    let spec : KeyResolverSpec := if t = .routeId then .routeId else .remoteAddress
    match rest with
    | .arr (_ :: more) =>
      .error (.invalidLength (more.length + 1) (RecordRule.elements 0 ++ " in sequence"))
    | _ => .ok spec

/-- Reads a key resolver: an object with the tag under `type`, or an array that starts with it. -/
def ofJson (origin : Origin) : Decoder KeyResolverSpec
  | .obj fields => match Dictionary.get? fields "type" with
    | none => .error (.missingField "type")
    | some j => do body (.obj (fields.filter fun e => e.1 ≠ "type")) (← tag origin j)
  | .arr [] => .error (.missingField "type")
  | .arr (j :: rest) => do body (.arr rest) (← tag origin j)
  | j => .error (.invalidType j.found "internally tagged enum KeyResolverSpec")

/-- Makes a key resolver. -/
def build : KeyResolverSpec → Except ArgumentFault KeyResolver
  | .remoteAddress => .ok .remoteAddress
  | .routeId => .ok .routeId
  | .header name => match HeaderName.parse? name with
    | some n => .ok (.header n)
    | none => .error (.namedHeader name)

end KeyResolverSpec

end HttpGateway
