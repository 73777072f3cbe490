import HttpGateway.Config.Basic
import HttpGateway.Config.LogDirective
import HttpGateway.Net.Address
import HttpGateway.Route.Basic

/-!
# Checking configurations

What a configuration must satisfy before a gateway is run with it. All that is wrong is reported, in
the order of the settings.
-/

namespace HttpGateway

/-- What can be wrong with a configuration. -/
inductive ConfigFault where
  | invalidAddress (setting value : String)
  | zero (setting : String)
  | invalidLogLevel (value : String)
  | duplicateRouteId (id : String)
  | route (cause : DefinitionError)
  deriving Repr

/-- The wording of each cause. -/
def ConfigFault.message : ConfigFault → String
  | .invalidAddress setting value => "invalid " ++ setting ++ " " ++ ticked value
  | .zero setting => setting ++ " must be greater than zero"
  | .invalidLogLevel value => "invalid log level " ++ ticked value
  | .duplicateRouteId id => "duplicate route id " ++ ticked id
  | .route cause => cause.message

namespace GatewayConfig

/-- Complains about a text that is no address with a port. -/
def addressFaults (setting value : String) : List ConfigFault :=
  if (SocketAddress.parse? value).isNone then [.invalidAddress setting value] else []

/-- Complains about a zero. -/
def zeroFaults (setting : String) (n : Nat) : List ConfigFault :=
  if n = 0 then [.zero setting] else []

/-- The compiler of the routes of a configuration. -/
def compiler (c : GatewayConfig) : RouteCompiler := ⟨c.limits.maxBodyBytes, c.defaultFilters⟩

/-- Complains about routes that cannot be compiled and ids that have come before. -/
def routeFaults (compiler : RouteCompiler) :
    (seen : List String) → List RouteDefinition → List ConfigFault
  | _, [] => []
  | seen, d :: rest =>
    (if seen.contains d.id then [.duplicateRouteId d.id] else []) ++
      (match compiler.compile d with
        | .ok _ => []
        | .error cause => [.route cause]) ++
      routeFaults compiler (d.id :: seen) rest

/-- All that is wrong with a configuration. -/
def faults (c : GatewayConfig) : List ConfigFault :=
  addressFaults "listener.bind_address" c.listener.bindAddress ++
    zeroFaults "listener.max_connections" c.listener.maxConnections ++
    (if c.observability.metricsEnabled then
      addressFaults "observability.metrics_address" c.observability.metricsAddress else []) ++
    (if LogDirective.isSetting c.observability.logLevel then []
      else [.invalidLogLevel c.observability.logLevel]) ++
    zeroFaults "timeouts.connect_secs" c.timeouts.connectSecs ++
    zeroFaults "timeouts.upstream_secs" c.timeouts.upstreamSecs ++
    zeroFaults "timeouts.request_secs" c.timeouts.requestSecs ++
    zeroFaults "limits.max_body_bytes" c.limits.maxBodyBytes ++
    routeFaults c.compiler [] c.routes

/-- Accepts a configuration with which nothing is wrong. -/
def validate (c : GatewayConfig) : Except (List ConfigFault) Unit :=
  if c.faults.isEmpty then .ok () else .error c.faults

end GatewayConfig

end HttpGateway
