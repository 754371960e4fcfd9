import Gatehouse.Main
import Gatehouse.Telemetry.Exposition
import Gatehouse.Telemetry.Filter
import Gatehouse.Proofs.Timeline
import Gatehouse.Proofs.Breaker.History
import Gatehouse.Proofs.Breaker.Refusal
import Gatehouse.Proofs.Breaker.Coherence
import Gatehouse.Proofs.RateLimit.Buckets
import Gatehouse.Proofs.RateLimit.Headroom
import Gatehouse.Proofs.RateLimit.TokenLaw
import Gatehouse.Proofs.RateLimit.Room
import Gatehouse.Proofs.RateLimit.Window
import Gatehouse.Proofs.Breaker.Registry
import Gatehouse.Proofs.Gateway.DispatchLaw
import Gatehouse.Proofs.Gateway.OwnBreaker
import Gatehouse.Proofs.Gateway.VerifiedIdentity
import Gatehouse.Proofs.Config.Valid
import Gatehouse.Proofs.Unwinding
import Gatehouse.Proofs.Isolation.Breakers
import Gatehouse.Proofs.Gateway.SharedPlace
import Gatehouse.Proofs.Isolation.Calls
import Gatehouse.Proofs.Isolation.World
import Gatehouse.Proofs.Isolation.Seen
import Gatehouse.Proofs.Isolation.Requests
import Gatehouse.Proofs.Isolation.Arrivals
import Gatehouse.Proofs.Isolation.Sound
import Gatehouse.Proofs.Isolation.FailureIsolation
import Gatehouse.Proofs.Gateway.StopSignal
import Gatehouse.Proofs.Url.Delimiters
import Gatehouse.Proofs.Http.WholeTarget
import Gatehouse.Proofs.Gateway.OutboundTarget
import Gatehouse.Proofs.Breaker.Concurrency
import Gatehouse.Proofs.Breaker.LateSuccess
import Gatehouse.Proofs.Gateway.Expiry
import Gatehouse.Proofs.Gateway.Told
import Gatehouse.Proofs.RateLimit.Forgetting
import Gatehouse.Proofs.Gateway.Admission
import Gatehouse.Proofs.Gateway.Underway
import Gatehouse.Proofs.Gateway.Fate
import Gatehouse.Proofs.Gateway.Timeouts
import Gatehouse.Proofs.Routing.Compiled
import Gatehouse.Proofs.Gateway.Built
import Gatehouse.Proofs.Routing.BestRoute
import Gatehouse.Proofs.Gateway.AdminKey
import Gatehouse.Proofs.Gateway.Balance
import Gatehouse.Proofs.Telemetry.Totals
import Gatehouse.Proofs.Gateway.Reconciled
import Gatehouse.Proofs.Shutdown.Channel
import Gatehouse.Proofs.Shutdown.Waiters
import Gatehouse.Proofs.RateLimit.Sweeps
import Gatehouse.Proofs.RateLimit.Patrol
import Gatehouse.Proofs.RateLimit.ClientsApart
import Gatehouse.Proofs.Gateway.ChargedClient
import Gatehouse.Proofs.Url.Escapes
import Gatehouse.Proofs.Url.PastedPath
import Gatehouse.Proofs.Gateway.ResetPath
import Gatehouse.Proofs.Gateway.Tripped
import Gatehouse.Proofs.CommandLine.SentReset
import Gatehouse.Proofs.CommandLine.ResetByName
import Gatehouse.Proofs.Breaker.Decay
import Gatehouse.Proofs.Breaker.HostLabels
import Gatehouse.Proofs.Gateway.GuardedTargets
import Gatehouse.Proofs.Routing.Prefixes
import Gatehouse.Proofs.Routing.MethodLists
import Gatehouse.Proofs.Config.Sound
import Gatehouse.Proofs.Config.Problems
import Gatehouse.Proofs.Gateway.RequestName
import Gatehouse.Proofs.RateLimit.RacingReadings
import Gatehouse.Proofs.Telemetry.SeriesValues
import Gatehouse.Proofs.Breaker.Operations
import Gatehouse.Proofs.Breaker.Gauges
import Gatehouse.Proofs.Breaker.Handles
import Gatehouse.Proofs.Breaker.Views
import Gatehouse.Proofs.CommandLine.UsableKeys
import Gatehouse.Proofs.Config.Spellings
import Gatehouse.Proofs.Config.Rereading
