import GmMiner.AttestedPool.Forwards
import GmMiner.AttestedPool.Histories
import GmMiner.AttestedPool.Ownership
import GmMiner.AttestedPool.Pool
import GmMiner.AttestedPool.SingleUse
import GmMiner.Azure.Arm
import GmMiner.Azure.Audit
import GmMiner.Azure.BindingPoll
import GmMiner.Azure.Checks
import GmMiner.Azure.Endpoint
import GmMiner.Azure.Error
import GmMiner.Azure.Findings
import GmMiner.Azure.Freshness
import GmMiner.Azure.Periodic
import GmMiner.Azure.Streaming
import GmMiner.Bedrock.Bindings
import GmMiner.Bedrock.BindingsPayload
import GmMiner.Bedrock.ClientView
import GmMiner.Bedrock.Exchange
import GmMiner.Bedrock.MessageJson
import GmMiner.Bedrock.RefreshAttempts
import GmMiner.Bedrock.Refresher
import GmMiner.Bedrock.RequestBody
import GmMiner.Bedrock.StreamEvents
import GmMiner.Bedrock.StreamIdentity
import GmMiner.Bedrock.StreamSplits
import GmMiner.Bedrock.Streams
import GmMiner.Chutes.Admissions
import GmMiner.Chutes.ChuteState
import GmMiner.Chutes.Discoveries
import GmMiner.Chutes.Error
import GmMiner.Chutes.Crypto
import GmMiner.Chutes.ErrorResponse
import GmMiner.Chutes.Evidence
import GmMiner.Chutes.Exchange
import GmMiner.Chutes.Forward
import GmMiner.Chutes.Invocations
import GmMiner.Chutes.NonceReuse
import GmMiner.Chutes.Prepare
import GmMiner.Chutes.Rejections
import GmMiner.Chutes.Renewals
import GmMiner.Chutes.Scopes
import GmMiner.Chutes.SealedStreams
import GmMiner.Chutes.StreamDecryptor
import GmMiner.Chutes.StreamRelease
import GmMiner.Chutes.StreamSplits
import GmMiner.Chutes.TicketValidity
import GmMiner.Cli.ApiKeys
import GmMiner.Cli.BedrockBindings
import GmMiner.Cli.Boot
import GmMiner.Cli.CloudPolicy
import GmMiner.Cli.Compose
import GmMiner.Cli.Config
import GmMiner.Cli.ControlChars
import GmMiner.Cli.CvmList
import GmMiner.Cli.Deploy
import GmMiner.Cli.DeployGates
import GmMiner.Cli.DeviceLogin
import GmMiner.Cli.Discount
import GmMiner.Cli.EnvFile
import GmMiner.Cli.FirstWorker
import GmMiner.Cli.Images
import GmMiner.Cli.Notifications
import GmMiner.Cli.OfferPath
import GmMiner.Cli.Passthrough
import GmMiner.Cli.PolicyProbes
import GmMiner.Cli.Pricing
import GmMiner.Cli.Redact
import GmMiner.Cli.RefreshChain
import GmMiner.Cli.RegistryAuth
import GmMiner.Cli.SlotEnv
import GmMiner.Cli.SlotIds
import GmMiner.Cli.Slots
import GmMiner.Cli.SseOffsets
import GmMiner.Cli.SseParser
import GmMiner.Cli.StartScript
import GmMiner.Cli.StreamingCheck
import GmMiner.Cli.TokenRefresh
import GmMiner.Cli.Upstreams
import GmMiner.Cli.Workers
import GmMiner.Encodings
import GmMiner.Envoy.Bypass
import GmMiner.Envoy.Credentials
import GmMiner.Envoy.Filter
import GmMiner.Envoy.Replay
import GmMiner.Envoy.Routes
import GmMiner.Envoy.SlotAgreement
import GmMiner.Envoy.SlotConfigText
import GmMiner.Envoy.Substitute
import GmMiner.Envoy.Upstreams
import GmMiner.EventLog.Parse
import GmMiner.EventLog.Replay
import GmMiner.GatewayContract
import GmMiner.Json.Document
import GmMiner.Json.Escape
import GmMiner.Json.Ordinary
import GmMiner.Json.Value
import GmMiner.Kubetee.Attestation
import GmMiner.Kubetee.Binding
import GmMiner.Kubetee.Evidence
import GmMiner.Kubetee.Forward
import GmMiner.Lib.Base64
import GmMiner.Lib.ByteSlices
import GmMiner.Lib.Decimal
import GmMiner.Lib.Decode
import GmMiner.Lib.Digests
import GmMiner.Lib.EventStream
import GmMiner.Lib.Find
import GmMiner.Lib.Framing
import GmMiner.Lib.HashMap
import GmMiner.Lib.Headers
import GmMiner.Lib.History
import GmMiner.Lib.JsonGrammar
import GmMiner.Lib.KeyedLines
import GmMiner.Lib.LossyUtf8
import GmMiner.Lib.Lua
import GmMiner.Lib.Machine
import GmMiner.Lib.Patterns
import GmMiner.Lib.PrefixCode
import GmMiner.Lib.Records
import GmMiner.Lib.Result
import GmMiner.Lib.Rfc3339
import GmMiner.Lib.Shell
import GmMiner.Lib.SlidingWindow
import GmMiner.Lib.SortedMap
import GmMiner.Lib.Split
import GmMiner.Lib.Timeline
import GmMiner.Lib.Trace
import GmMiner.Lib.Url
import GmMiner.Near.Attestation
import GmMiner.Near.Forward
import GmMiner.TeeEvidence.Nras
import GmMiner.TeeEvidence.Quotes
import GmMiner.Text
import GmMiner.Time
import GmMiner.UpstreamProxy
