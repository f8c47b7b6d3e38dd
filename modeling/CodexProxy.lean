import CodexProxy.Library.Bytes
import CodexProxy.Library.Json
import CodexProxy.Library.Portable
import CodexProxy.Library.Decode
import CodexProxy.Transform.OpenAI
import CodexProxy.Transform.Upstream
import CodexProxy.Transform.Transformer
import CodexProxy.Transform.Actions
import CodexProxy.Transform.Wire
import CodexProxy.Transform.Segments
import CodexProxy.Transform.SegmentRuns
import CodexProxy.Library.Polling
import CodexProxy.Relay.Reader
import CodexProxy.Relay.Events
import CodexProxy.Relay.Framing
import CodexProxy.Library.EventStream
import CodexProxy.Relay.Downstream
import CodexProxy.Relay.Rewrite
import CodexProxy.Relay.Refinement
import CodexProxy.Library.Trim
import CodexProxy.Library.Replace
import CodexProxy.Library.JsonText
import CodexProxy.Library.JsonTextProofs
import CodexProxy.Library.ReferenceCodec
import CodexProxy.Relay.Termination
import CodexProxy.Relay.Determinism
import CodexProxy.Buffered.Chunk
import CodexProxy.Buffered.Aggregate
import CodexProxy.Buffered.Runs
import CodexProxy.Buffered.Completion
import CodexProxy.Buffered.Responses
import CodexProxy.Relay.Replies
import CodexProxy.Relay.Success
import CodexProxy.Buffered.Agreement
import CodexProxy.Buffered.FinishReasons
import CodexProxy.Buffered.Failures
import CodexProxy.Request.Model
import CodexProxy.Request.Resolve
import CodexProxy.Request.Chat
import CodexProxy.Request.Responses
import CodexProxy.Request.Efforts
import CodexProxy.Library.Transition
import CodexProxy.Credentials.AuthFile
import CodexProxy.Credentials.OAuth
import CodexProxy.Credentials.Fetcher
import CodexProxy.Credentials.System
import CodexProxy.Credentials.Chain
import CodexProxy.Credentials.Rotation
import CodexProxy.Transform.Isolation
import CodexProxy.Relay.Recovery
import CodexProxy.Request.Endpoints
import CodexProxy.Relay.RoundTrip
import CodexProxy.Transform.ClientView
import CodexProxy.Transform.Spoken
import CodexProxy.Transform.Fidelity
import CodexProxy.Relay.Fidelity
import CodexProxy.Credentials.SingleFlight
import CodexProxy.Credentials.Tokens
import CodexProxy.Credentials.Calls
import CodexProxy.Upstream.Retry
import CodexProxy.Upstream.Rejected
import CodexProxy.Upstream.ForcedRefresh
import CodexProxy.Router.Pool
import CodexProxy.Router.Conversation
import CodexProxy.Router.Attempt
import CodexProxy.Router.Proxy
import CodexProxy.Router.Outcomes
import CodexProxy.Router.Pins
import CodexProxy.Credentials.Handling
import CodexProxy.Credentials.Answers
import CodexProxy.Credentials.Admin
import CodexProxy.Router.Selection
import CodexProxy.Transform.Output
import CodexProxy.Buffered.Reconstruction
import CodexProxy.Transform.Reported
import CodexProxy.Buffered.Told
import CodexProxy.Relay.Ignorable
import CodexProxy.Request.Readings
import CodexProxy.Request.Input
import CodexProxy.Request.Coverage
import CodexProxy.Request.Names
import CodexProxy.Library.Slices
import CodexProxy.Router.Head
import CodexProxy.Request.Variants
import CodexProxy.Upstream.BareToken
import CodexProxy.Library.Checked
import CodexProxy.Credentials.Expiry
import CodexProxy.Transform.Usage
import CodexProxy.Buffered.ErrorSummary
import CodexProxy.Request.Rewritten
import CodexProxy.Library.Differ
import CodexProxy.Transform.Blobs
import CodexProxy.Library.Calls
import CodexProxy.Credentials.Storage
import CodexProxy.Credentials.Replacement
import CodexProxy.Credentials.Persistence
import CodexProxy.Server.AdminAuth
import CodexProxy.Router.Accounts
import CodexProxy.Credentials.Refinement
import CodexProxy.Router.Progress
import CodexProxy.Router.Interleavings
import CodexProxy.Router.Stickiness
import CodexProxy.Router.Affinity
import CodexProxy.Router.Replicas
import CodexProxy.Router.RedisBacked
import CodexProxy.Library.HeaderValue
import CodexProxy.Server.Deployment
import CodexProxy.Credentials.Progress
import CodexProxy.Upstream.Progress
import CodexProxy.Relay.Promptness
import CodexProxy.Request.Footprint
import CodexProxy.Request.Growth
import CodexProxy.Request.Chained
import CodexProxy.Buffered.Rounds
import CodexProxy.Server.Handlers
import CodexProxy.Server.Transparency
import CodexProxy.Relay.Vanished
import CodexProxy.Upstream.CodexRequest
import CodexProxy.Server.RateLimit
import CodexProxy.Server.Metrics
import CodexProxy.Server.ThroughRouter
