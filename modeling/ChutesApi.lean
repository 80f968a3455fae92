import ChutesApi.Common.Lts
import ChutesApi.Common.Row
import ChutesApi.Common.Session
import ChutesApi.Common.Handler
import ChutesApi.Common.Chain
import ChutesApi.Python.Exc
import ChutesApi.Python.Str
import ChutesApi.Python.Num
import ChutesApi.Python.Json
import ChutesApi.User.Model
import ChutesApi.Job.Model
import ChutesApi.Auth.Model.Keypair
import ChutesApi.Auth.Model.Credentials
import ChutesApi.Auth.Model.Service
import ChutesApi.Auth.Soundness
import ChutesApi.User.Fingerprint
import ChutesApi.Payment.Balance
import ChutesApi.Payment.MonitorLock
import ChutesApi.Payment.Model.Watcher
import ChutesApi.Payment.Watcher
import ChutesApi.Payment.Model.Usage
import ChutesApi.Payment.Tracker
import ChutesApi.Payment.Transfers
import ChutesApi.Chute.Model
import ChutesApi.Invoke.Model.Attempt
import ChutesApi.Invoke.Model.Pricing
import ChutesApi.Invoke.Model.Retry
import ChutesApi.Invoke.Charge
import ChutesApi.Invoke.Isolation
import ChutesApi.Job.Model.Launch
import ChutesApi.Job.Agreement
import ChutesApi.Payment.Deposits
import ChutesApi.Instance.Model
import ChutesApi.Instance.Billing
import ChutesApi.Job.Lifecycle
import ChutesApi.Job.Model.Requests
import ChutesApi.Job.Completion
import ChutesApi.Chute.RollingUpdate
import ChutesApi.Instance.Activation
import ChutesApi.Instance.Model.Launch
import ChutesApi.Job.Tokens
import ChutesApi.Instance.Broadcast
import ChutesApi.Instance.Model.Provision
import ChutesApi.Instance.Provision
import ChutesApi.Affine.Model.Ast
import ChutesApi.Affine.Model.Check
import ChutesApi.Affine.Flow
import ChutesApi.Affine.Chains
import ChutesApi.Affine.Soundness
import ChutesApi.Common.Dict
import ChutesApi.Metasync.Model
import ChutesApi.Metasync.Weights
import ChutesApi.Metasync.Sync
import ChutesApi.Socket.Sessions
import ChutesApi.Chute.Advertised
import ChutesApi.Instance.EffectiveBalance
import ChutesApi.Metasync.Model.Scoring
import ChutesApi.Metasync.Scoring
import ChutesApi.Instance.Model.Routing
import ChutesApi.Instance.Routing
import ChutesApi.Python.PathTemplate
import ChutesApi.Auth.Model.Middleware
import ChutesApi.Auth.Scopes
import ChutesApi.Bounty.Model
import ChutesApi.Common.Custody
import ChutesApi.Bounty.Conservation
import ChutesApi.Affine.Builder
import ChutesApi.Affine.WellBuilt
import ChutesApi.Common.Expiring
import ChutesApi.User.Model.Quota
import ChutesApi.User.QuotaCache
import ChutesApi.Chute.Model.NodeSelector
import ChutesApi.User.Tokens
import ChutesApi.Chute.GpuRestriction
import ChutesApi.Autoscaler.Model
import ChutesApi.Autoscaler.Monotone
import ChutesApi.Chute.LibUpdate
import ChutesApi.Payment.Autostake
import ChutesApi.Autoscaler.Removal
import ChutesApi.Common.Sums
import ChutesApi.Invoke.FreeQuota
import ChutesApi.Payment.QuotaRefresh
import ChutesApi.Common.Like
import ChutesApi.Common.Select
import ChutesApi.Chute.Lookup
import ChutesApi.Chute.Version
import ChutesApi.Metrics.Model
import ChutesApi.Metrics.AdaptiveEma
import ChutesApi.Metrics.Replies
import ChutesApi.Invoke.TokenCounts
import ChutesApi.Invoke.Model.Router
import ChutesApi.Invoke.SameBill
import ChutesApi.Chute.Suitable
import ChutesApi.Watchtower.Model.Pass
import ChutesApi.Watchtower.Outcome
import ChutesApi.Watchtower.Refresh
import ChutesApi.Python.Generator
import ChutesApi.Instance.Model.Target
import ChutesApi.Instance.Target
import ChutesApi.Payment.Model.Hours
import ChutesApi.Payment.Hours
import ChutesApi.Metasync.UniqueScores
import ChutesApi.Guesser.MinGpuConfig
import ChutesApi.Python.Double
import ChutesApi.Python.Path
import ChutesApi.Image.Extract
import ChutesApi.Invoke.Prefixes
import ChutesApi.Auth.Model.ApiKeys
import ChutesApi.Auth.KeyRoundTrip
import ChutesApi.Python.FloatText
import ChutesApi.Python.JsonText
import ChutesApi.Common.SharedCache
import ChutesApi.User.Model.PriceCache
import ChutesApi.User.PriceCache
import ChutesApi.Common.BlockCipher
import ChutesApi.Python.Bytes
import ChutesApi.Crypto.Model
import ChutesApi.Crypto.RoundTrip
import ChutesApi.Common.SortedSet
import ChutesApi.Instance.Model.Tracking
import ChutesApi.Instance.Tracking
import ChutesApi.Common.LogStream
import ChutesApi.Image.Model.BuildLog
import ChutesApi.Image.BuildLog
import ChutesApi.Python.Regex
import ChutesApi.Node.Model.Specs
import ChutesApi.Node.Model
import ChutesApi.Node.Operations
import ChutesApi.Node.Assignment
import ChutesApi.Node.Hopping
import ChutesApi.Node.Verified
import ChutesApi.Common.Span
import ChutesApi.Instance.Model.Audit
import ChutesApi.Instance.Audit
import ChutesApi.Common.IsoWeek
import ChutesApi.Invoke.Model.Partition
import ChutesApi.Invoke.Partition
import ChutesApi.Invoke.Model.Export
import ChutesApi.Invoke.Export
import ChutesApi.Chute.Model.Rollout
import ChutesApi.Chute.Rollout
import ChutesApi.Python.Substitute
import ChutesApi.Watchtower.Model.Command
import ChutesApi.Watchtower.Command
import ChutesApi.Payment.Model.Fmv
import ChutesApi.Payment.Fmv
