import InveniOps.Lib.Lts
import InveniOps.Lib.ListFacts
import InveniOps.Lib.SortedSet
import InveniOps.Lib.Fifo
import InveniOps.Lib.Reservoir
import InveniOps.Lib.Regex
import InveniOps.Lib.Numerals
import InveniOps.Lib.ExactNumbers
import InveniOps.Domain.Types
import InveniOps.Domain.Dates
import InveniOps.Domain.Calendar
import InveniOps.Domain.LocalTime
import InveniOps.Domain.State
import InveniOps.Domain.Rca
import InveniOps.Domain.Alerting
import InveniOps.Ingestion.RingBuffer
import InveniOps.Ingestion.SignalBuffer
import InveniOps.Ingestion.BufferRuns
import InveniOps.Ingestion.BufferQueues
import InveniOps.Ingestion.DrainOrder
import InveniOps.Ingestion.Watermarks
import InveniOps.Ingestion.Shutdown
import InveniOps.Ingestion.DrainAll
import InveniOps.RateLimit.TokenBucket
import InveniOps.RateLimit.SignalLimits
import InveniOps.RateLimit.RetryAfter
import InveniOps.RateLimit.Admission
import InveniOps.RateLimit.SkewedClocks
import InveniOps.Ingestion.SignalRoutes
import InveniOps.Ingestion.IngestCounters
import InveniOps.Stores.Prisma
import InveniOps.Stores.Postgres
import InveniOps.Stores.Origins
import InveniOps.Stores.Retry
import InveniOps.Stores.Redis
import InveniOps.Stores.EscalationKeys
import InveniOps.Stores.Mongo
import InveniOps.Stores.SignalRepository
import InveniOps.Stores.MetricsRepository
import InveniOps.Stores.DashboardCache
import InveniOps.Stores.CacheCommands
import InveniOps.Ingestion.Debouncer
import InveniOps.Ingestion.DebounceAnswers
import InveniOps.Ingestion.DebounceRuns
import InveniOps.Ingestion.DebounceAgreement
import InveniOps.Ingestion.DebounceClosing
import InveniOps.Ingestion.DebounceWindow
import InveniOps.Ingestion.DebounceExpiry
import InveniOps.Workers.ProcessBatch
import InveniOps.Workers.InsertionReports
import InveniOps.Workers.SignalWorker
import InveniOps.Workers.DeadLetters
import InveniOps.Workers.WorkItemRefs
import InveniOps.Workers.SignalCounts
import InveniOps.Workers.PhantomItems
import InveniOps.Workers.Announcements
import InveniOps.Workers.PoisonSignals
import InveniOps.Metrics.Exposition
import InveniOps.Metrics.PrometheusText
import InveniOps.Metrics.LinePatterns
import InveniOps.Metrics.RoundTrip
import InveniOps.Metrics.Recorders
import InveniOps.Metrics.Reporter
import InveniOps.Metrics.HistogramDiff
import InveniOps.WorkItems.WorkflowService
import InveniOps.WorkItems.RcaForm
import InveniOps.WorkItems.RcaDefaults
import InveniOps.Dashboard.DashboardProjection
import InveniOps.Incidents.IncidentRuns
import InveniOps.Incidents.Lifecycle
import InveniOps.Incidents.Outcomes
import InveniOps.Incidents.RcaDecisions
import InveniOps.Incidents.TimeInState
import InveniOps.Incidents.CacheWrites
import InveniOps.Incidents.GhostIncidents
import InveniOps.Incidents.CachedRows
import InveniOps.Incidents.CachedAnswers
import InveniOps.Alerting.Dispatcher
import InveniOps.Alerting.AlertSeverity
import InveniOps.Dashboard.ActivePages
import InveniOps.Dashboard.PageOrder
import InveniOps.Incidents.DashboardWalk
import InveniOps.Alerting.EscalationScheduler
import InveniOps.Alerting.EscalationRuns
import InveniOps.Alerting.SingleEscalation
import InveniOps.Alerting.EscalationAudit
import InveniOps.Alerting.LateEscalations
import InveniOps.Alerting.EscalationSelection
import InveniOps.Alerting.AlertDelivery
import InveniOps.Frontend.FeedPages
import InveniOps.Analytics.QueryRanges
import InveniOps.Analytics.SignalVolume
import InveniOps.Auth.AuthRuns
import InveniOps.Realtime.StreamDelivery
import InveniOps.Health.ProbeFreshness
import InveniOps.Workers.JobData
import InveniOps.Incidents.ClosedHistory
import InveniOps.Api.Accountability
