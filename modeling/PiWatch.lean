import PiWatch.Framework.Dict
import PiWatch.Framework.Ring
import PiWatch.Framework.Separator
import PiWatch.Framework.Run
import PiWatch.Framework.Noninterference
import PiWatch.Framework.Replica
import PiWatch.Framework.ListWatch
import PiWatch.Framework.Mailbox
import PiWatch.Framework.Newest
import PiWatch.Framework.TaskPool
import PiWatch.Framework.LastWrite
import PiWatch.Framework.Refresh
import PiWatch.Framework.GuardedLoop
import PiWatch.Framework.Handlers
import PiWatch.Framework.TextLayer
import PiWatch.Framework.Base64
import PiWatch.Framework.JsonGrammar
import PiWatch.Framework.Csv
import PiWatch.Framework.Scan
import PiWatch.Framework.FileTree
import PiWatch.Framework.HarmonicMean
import PiWatch.Framework.Windows
import PiWatch.Backend.Json
import PiWatch.Backend.ApiObjects
import PiWatch.Backend.PolledObjects
import PiWatch.Backend.Mappers
import PiWatch.Backend.InitContainers
import PiWatch.Backend.Terminations
import PiWatch.Backend.State
import PiWatch.Backend.Samples
import PiWatch.Backend.Numerals
import PiWatch.Backend.Floats
import PiWatch.Backend.Rounding
import PiWatch.Backend.Quantity
import PiWatch.Backend.QuantityGrammar
import PiWatch.Backend.QuantityTexts
import PiWatch.Backend.NumberText
import PiWatch.Backend.Dumps
import PiWatch.Backend.Uptime
import PiWatch.Backend.CheckHistory
import PiWatch.Backend.HealthReport
import PiWatch.Backend.WireForms
import PiWatch.Backend.FiniteState
import PiWatch.Backend.Auth
import PiWatch.Backend.AuthAnswers
import PiWatch.Backend.StaticFiles
import PiWatch.Frontend.Store
import PiWatch.Frontend.Rollout
import PiWatch.Frontend.Quantities
import PiWatch.Frontend.NodeChart
import PiWatch.Protocol.Deltas
import PiWatch.Protocol.Hardware
import PiWatch.Protocol.Ws
import PiWatch.Protocol.Subscribers
import PiWatch.Protocol.Tokens
import PiWatch.Protocol.Wire
import PiWatch.Protocol.Mirror
import PiWatch.Protocol.Access
import PiWatch.Protocol.Logs
import PiWatch.Protocol.Connection
import PiWatch.Protocol.Attempts
import PiWatch.Protocol.Retries
import PiWatch.Protocol.Failover
import PiWatch.Protocol.Session
import PiWatch.NodeAgent.IoRate
import PiWatch.NodeAgent.IoConserve
import PiWatch.NodeAgent.NetBytes
import PiWatch.NodeAgent.PyValues
import PiWatch.NodeAgent.JsonLoads
import PiWatch.NodeAgent.Readers
import PiWatch.NodeAgent.HostMetrics
import PiWatch.NodeAgent.ReaderOutcomes
import PiWatch.NodeAgent.RateOutcomes
import PiWatch.NodeAgent.CallOutcomes
import PiWatch.NodeAgent.PayloadParts
import PiWatch.NodeAgent.Sources
import PiWatch.NodeAgent.Degrade
import PiWatch.Collectors.K8sWatch
import PiWatch.Collectors.ApplyRuns
import PiWatch.Collectors.PodMetrics
import PiWatch.Collectors.Events
import PiWatch.Collectors.Polled
import PiWatch.Collectors.Flux
import PiWatch.Collectors.FluxDurations
import PiWatch.Collectors.Gateway
import PiWatch.Collectors.Pvc
import PiWatch.Collectors.PvcListing
import PiWatch.Collectors.PvcUsage
import PiWatch.Collectors.Metrics
import PiWatch.Collectors.MetricsIsolation
import PiWatch.Collectors.PollCycles
import PiWatch.Collectors.History
import PiWatch.Collectors.HistoryRun
import PiWatch.Protocol.Restart
import PiWatch.Collectors.Autochecks
import PiWatch.Collectors.RouteChecks
import PiWatch.Collectors.ServiceChecks
import PiWatch.Collectors.ListenerMatch
import PiWatch.Collectors.ConfiguredChecks
import PiWatch.Ml.Dataset
import PiWatch.Ml.Score
import PiWatch.Ml.Windows
import PiWatch.Ml.Export
import PiWatch.Ml.Split
import PiWatch.Ml.Injection
import PiWatch.Ml.Flag
import PiWatch.Ml.Evaluate
import PiWatch.Ml.Training
import PiWatch.Ml.Rolling
import PiWatch.Ml.Collected
import PiWatch.Ml.Baselines
import PiWatch.Collectors.Reconnect
import PiWatch.Collectors.Healthcheck
import PiWatch.Collectors.HardwarePoll
