import HttpGateway.Definition.Json

/-!
# Configurations

All settings of a gateway. Every section and every setting may be left out, and has a usual value
then.
-/

namespace HttpGateway

/-- Where the gateway listens, and how many requests it works on at a time. -/
structure ListenerConfig where
  bindAddress : String := "0.0.0.0:8080"
  maxConnections : Nat := 10000
  deriving Repr, DecidableEq

/-- How long things may take, in seconds. -/
structure TimeoutConfig where
  connectSecs : Nat := 5
  upstreamSecs : Nat := 30
  requestSecs : Nat := 60
  deriving Repr, DecidableEq

/-- How large things may be. -/
structure LimitsConfig where
  maxBodyBytes : Nat := 1048576
  deriving Repr, DecidableEq

/-- How log lines are written. -/
inductive LogFormat where
  | json
  | pretty
  deriving Repr, DecidableEq

/-- What is logged and counted, and where it is shown. -/
structure ObservabilityConfig where
  logLevel : String := "info"
  logFormat : LogFormat := .pretty
  metricsEnabled : Bool := false
  metricsAddress : String := "0.0.0.0:9090"
  deriving Repr, DecidableEq

/-- A configuration. -/
structure GatewayConfig where
  listener : ListenerConfig := {}
  timeouts : TimeoutConfig := {}
  limits : LimitsConfig := {}
  observability : ObservabilityConfig := {}
  defaultFilters : List FilterDefinition := []
  routes : List RouteDefinition := []
  deriving Repr

namespace Config

/-- The formats of log lines by name. -/
def logFormats : List (String × LogFormat) := [("json", .json), ("pretty", .pretty)]

/-- A setting with its usual value. -/
def setting {α : Type} (name : String) (read : Decoder α) (usual : α) : Field α :=
  { name, read, fallback := some usual }

def wide : Decoder Nat := Decoder.natural "u64" Decoder.max64

def size : Decoder Nat := Decoder.natural "usize" Decoder.max64

end Config

open Config

namespace ListenerConfig

def bindField : Field String := setting "bind_address" Decoder.text ({} : ListenerConfig).bindAddress

def connectionsField : Field Nat :=
  setting "max_connections" size ({} : ListenerConfig).maxConnections

/-- Reads the section. -/
def ofJson (origin : Origin) : Decoder ListenerConfig := fun j => do
  let rule : RecordRule := ⟨"struct ListenerConfig", [bindField.rule, connectionsField.rule], false⟩
  let found ← rule.entries origin j
  .ok ⟨← bindField.take found, ← connectionsField.take found⟩

/-- The section as an object, which is put together from its settings in their declared order. -/
def assemble (object : List (String × Json) → Json) (c : ListenerConfig) : Json :=
  object [("bind_address", .str c.bindAddress), ("max_connections", .int c.maxConnections)]

end ListenerConfig

namespace TimeoutConfig

def connectField : Field Nat := setting "connect_secs" wide ({} : TimeoutConfig).connectSecs

def upstreamField : Field Nat := setting "upstream_secs" wide ({} : TimeoutConfig).upstreamSecs

def requestField : Field Nat := setting "request_secs" wide ({} : TimeoutConfig).requestSecs

/-- Reads the section. -/
def ofJson (origin : Origin) : Decoder TimeoutConfig := fun j => do
  let rule : RecordRule :=
    ⟨"struct TimeoutConfig", [connectField.rule, upstreamField.rule, requestField.rule], false⟩
  let found ← rule.entries origin j
  .ok ⟨← connectField.take found, ← upstreamField.take found, ← requestField.take found⟩

/-- The section as an object. -/
def assemble (object : List (String × Json) → Json) (c : TimeoutConfig) : Json :=
  object [("connect_secs", .int c.connectSecs), ("upstream_secs", .int c.upstreamSecs),
    ("request_secs", .int c.requestSecs)]

end TimeoutConfig

namespace LimitsConfig

def bodyField : Field Nat := setting "max_body_bytes" size ({} : LimitsConfig).maxBodyBytes

/-- Reads the section. -/
def ofJson (origin : Origin) : Decoder LimitsConfig := fun j => do
  let rule : RecordRule := ⟨"struct LimitsConfig", [bodyField.rule], false⟩
  let found ← rule.entries origin j
  .ok ⟨← bodyField.take found⟩

/-- The section as an object. -/
def assemble (object : List (String × Json) → Json) (c : LimitsConfig) : Json :=
  object [("max_body_bytes", .int c.maxBodyBytes)]

end LimitsConfig

namespace ObservabilityConfig

def levelField : Field String :=
  setting "log_level" Decoder.text ({} : ObservabilityConfig).logLevel

def formatField (origin : Origin) : Field LogFormat :=
  setting "log_format" (Decoder.oneOf origin logFormats) ({} : ObservabilityConfig).logFormat

def enabledField : Field Bool :=
  setting "metrics_enabled" Decoder.flag ({} : ObservabilityConfig).metricsEnabled

def addressField : Field String :=
  setting "metrics_address" Decoder.text ({} : ObservabilityConfig).metricsAddress

/-- Reads the section. -/
def ofJson (origin : Origin) : Decoder ObservabilityConfig := fun j => do
  let rule : RecordRule :=
    ⟨"struct ObservabilityConfig",
      [levelField.rule, (formatField origin).rule, enabledField.rule, addressField.rule], false⟩
  let found ← rule.entries origin j
  .ok ⟨← levelField.take found, ← (formatField origin).take found, ← enabledField.take found,
    ← addressField.take found⟩

/-- The name of a format. -/
def formatName : LogFormat → String
  | .json => "json"
  | .pretty => "pretty"

/-- The section as an object. -/
def assemble (object : List (String × Json) → Json) (c : ObservabilityConfig) : Json :=
  object [("log_level", .str c.logLevel), ("log_format", .str (formatName c.logFormat)),
    ("metrics_enabled", .bool c.metricsEnabled), ("metrics_address", .str c.metricsAddress)]

end ObservabilityConfig

namespace GatewayConfig

def listenerField (origin : Origin) : Field ListenerConfig :=
  setting "listener" (ListenerConfig.ofJson origin) {}

def timeoutsField (origin : Origin) : Field TimeoutConfig :=
  setting "timeouts" (TimeoutConfig.ofJson origin) {}

def limitsField (origin : Origin) : Field LimitsConfig :=
  setting "limits" (LimitsConfig.ofJson origin) {}

def observabilityField (origin : Origin) : Field ObservabilityConfig :=
  setting "observability" (ObservabilityConfig.ofJson origin) {}

def filtersField : Field (List FilterDefinition) :=
  setting "default_filters" (Decoder.list FilterDefinition.ofJson) []

def routesField (origin : Origin) : Field (List RouteDefinition) :=
  setting "routes" (Decoder.list (RouteDefinition.ofJson origin)) []

/-- The form of a configuration. -/
def rule (origin : Origin) : RecordRule :=
  ⟨"struct GatewayConfig",
    [(listenerField origin).rule, (timeoutsField origin).rule, (limitsField origin).rule,
      (observabilityField origin).rule, filtersField.rule, (routesField origin).rule], false⟩

/-- Reads a configuration. -/
def ofJson (origin : Origin) : Decoder GatewayConfig := fun j => do
  let found ← (rule origin).entries origin j
  .ok {
    listener := ← (listenerField origin).take found
    timeouts := ← (timeoutsField origin).take found
    limits := ← (limitsField origin).take found
    observability := ← (observabilityField origin).take found
    defaultFilters := ← filtersField.take found
    routes := ← (routesField origin).take found }

/-- A configuration as an object, with all its settings. -/
def assemble (object : List (String × Json) → Json) (c : GatewayConfig) : Json :=
  object [("listener", c.listener.assemble object), ("timeouts", c.timeouts.assemble object),
    ("limits", c.limits.assemble object), ("observability", c.observability.assemble object),
    ("default_filters", .arr (c.defaultFilters.map (FilterDefinition.assemble object))),
    ("routes", .arr (c.routes.map (RouteDefinition.assemble object)))]

/-- A configuration as a structured value. -/
def toJson (c : GatewayConfig) : Json := c.assemble .object

/-- A configuration as it is written to a text. -/
def written (c : GatewayConfig) : Json := c.assemble .obj

end GatewayConfig

end HttpGateway
