import HttpGateway.Text.Pieces
import HttpGateway.Text.Utf8
import HttpGateway.Text.Number
import HttpGateway.Text.Shortest
import HttpGateway.Text.Quoted
import HttpGateway.Text.Hex
import HttpGateway.Dictionary
import HttpGateway.Json.Basic
import HttpGateway.Json.Decode
import HttpGateway.Http.Status
import HttpGateway.Http.Header
import HttpGateway.Uri.Parser
import HttpGateway.Form
import HttpGateway.Net.Address
import HttpGateway.Time.Timestamp
import HttpGateway.Time.Duration
import HttpGateway.Unicode.Basic
import HttpGateway.Regex.Syntax
import HttpGateway.Regex.Parser
import HttpGateway.Regex.Basic
import HttpGateway.Pattern.Segment
import HttpGateway.Pattern.Template
import HttpGateway.Definition.Json
import HttpGateway.Retry.Policy
import HttpGateway.RateLimit.Bucket
import HttpGateway.RateLimit.KeyResolver
import HttpGateway.Exchange.Basic
import HttpGateway.Http.Forwarding
import HttpGateway.Predicate.Compile
import HttpGateway.Filter.Chain
import HttpGateway.Filter.Compile
import HttpGateway.Shutdown
import HttpGateway.Route.Repository
import HttpGateway.Gateway
import HttpGateway.Config.Validation
import HttpGateway.Text.Decimal
import HttpGateway.Toml.Document
import HttpGateway.Config.Document
import HttpGateway.Exchange.RequestId
import HttpGateway.Main
import HttpGateway.Json.Text
import HttpGateway.Proofs.Cache.Interleaving
import HttpGateway.Proofs.Cache.Freshness
import HttpGateway.Proofs.Channel.Delivery
import HttpGateway.Proofs.Gateway.Interleaving
import HttpGateway.Proofs.Gateway.Consistency
import HttpGateway.Proofs.Filter.Plain
import HttpGateway.Proofs.Filter.Forwarding
import HttpGateway.Proofs.Retry.Transparency
import HttpGateway.Proofs.Filter.Calls
import HttpGateway.Proofs.Gateway.Reachable
import HttpGateway.Proofs.Gateway.Calls
import HttpGateway.Proofs.Answer
import HttpGateway.Proofs.Pattern.Pieces
import HttpGateway.Proofs.Pattern.Search
import HttpGateway.Proofs.Pattern.Cuts
import HttpGateway.Proofs.Filter.Entry
import HttpGateway.Proofs.RateLimit.Checks
import HttpGateway.Proofs.RateLimit.Visits
import HttpGateway.Proofs.RateLimit.Tokens
import HttpGateway.Proofs.RateLimit.Scope
import HttpGateway.Proofs.Filter.Course
import HttpGateway.Proofs.Filter.Commitment
import HttpGateway.Proofs.Filter.Composition
import HttpGateway.Proofs.Gateway.Outcome
import HttpGateway.Proofs.Gateway.Destination
import HttpGateway.Proofs.Filter.Frozen
import HttpGateway.Proofs.Filter.Order
import HttpGateway.Proofs.Filter.Events
import HttpGateway.Proofs.Http.Hygiene
import HttpGateway.Proofs.Sorting
import HttpGateway.Proofs.Cache.Sharing
import HttpGateway.Proofs.Route.Compilation
import HttpGateway.Proofs.Route.Selection
import HttpGateway.Proofs.Gateway.Serving
import HttpGateway.Proofs.Config.Acceptance
import HttpGateway.Proofs.Cache.LastGood
import HttpGateway.Proofs.Definition.Serialisation
import HttpGateway.Proofs.Config.Serialisation
import HttpGateway.Proofs.Text.Number
import HttpGateway.Proofs.Dictionary
import HttpGateway.Proofs.Json.Records
import HttpGateway.Proofs.Definition.Shortcut
import HttpGateway.Proofs.Definition.Arguments
import HttpGateway.Proofs.Definition.Forms
import HttpGateway.Proofs.RateLimit.Continuity
import HttpGateway.Proofs.Gateway.Limits
import HttpGateway.Proofs.Pattern.Globs
import HttpGateway.Proofs.Route.Merging
import HttpGateway.Proofs.Retry.Attempts
import HttpGateway.Proofs.RateLimit.Interleaving
import HttpGateway.Proofs.RateLimit.Denials
import HttpGateway.Proofs.Net.Address
import HttpGateway.Proofs.Http.Readable
import HttpGateway.Proofs.Http.ClientChain
import HttpGateway.Proofs.Uri.Target
import HttpGateway.Proofs.Filter.Rewriting
import HttpGateway.Proofs.Pattern.Filling
import HttpGateway.Proofs.Gateway.Templates
import HttpGateway.Proofs.Pattern.Templates
import HttpGateway.Proofs.Pattern.Acceptance
import HttpGateway.Proofs.Filter.Entered
import HttpGateway.Proofs.Regex.Meaning
import HttpGateway.Proofs.Regex.Search
import HttpGateway.Proofs.Regex.Continuation
import HttpGateway.Proofs.Regex.ClassContinuation
import HttpGateway.Proofs.Regex.Wrapping
import HttpGateway.Proofs.Regex.Anchoring
import HttpGateway.Proofs.Predicate.WholeValue
import HttpGateway.Proofs.Exchange.RequestBody
import HttpGateway.Proofs.Route.Repository
import HttpGateway.Proofs.Text.Utf8
import HttpGateway.Proofs.Form
import HttpGateway.Proofs.Filter.FormBodies
import HttpGateway.Proofs.Filter.Parameters
import HttpGateway.Proofs.Retry.Pauses
import HttpGateway.Proofs.Predicate.Hosts
import HttpGateway.Proofs.Filter.Places
import HttpGateway.Proofs.Text.Doubles
import HttpGateway.Proofs.Text.Nearest
import HttpGateway.Proofs.Text.Scaling
import HttpGateway.Proofs.Text.Shortest
import HttpGateway.Proofs.Json.Numbers
import HttpGateway.Proofs.Json.RoundTrip
import HttpGateway.Proofs.Definition.Texts
import HttpGateway.Proofs.Config.Texts
