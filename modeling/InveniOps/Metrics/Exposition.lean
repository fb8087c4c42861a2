import InveniOps.Domain.Types
import InveniOps.Ingestion.SignalBuffer
import InveniOps.Lib.Numerals
import InveniOps.Lib.Regex
import Mathlib.Data.List.Sort

/-!
# The metrics page

`api/routes/metrics.ts`: how `GET /metrics` prints a snapshot of the counters, gauges and
histograms, as the text of a Prometheus page.
-/

namespace InveniOps.Metrics

open Lib Ingestion

/-- A string, by its characters.  The page is sent as UTF-8, which has no lone surrogates. -/
abbrev Text := List Char

variable {F : NumberFormat}

/-- The severities, in the order of their lines. -/
def SEVERITIES : List Severity := [.P0, .P1, .P2, .P3]

/-- The drop reasons, in the order of their lines. -/
def DROP_REASONS : List DropReason := [.shed_ceiling, .hard_capacity, .sink_failure]

/-- The states, in the order of their lines. -/
def WORK_ITEM_STATES : List WorkItemStatus := [.OPEN, .INVESTIGATING, .RESOLVED, .CLOSED]

/-- The label value of a drop reason. -/
def dropReasonName : DropReason → String
  | .shed_ceiling => "shed_ceiling"
  | .hard_capacity => "hard_capacity"
  | .sink_failure => "sink_failure"

/-- Two texts as `sort` compares them, by UTF-16 code units. -/
def codeUnits (text : Text) : List ℕ :=
  text.flatMap fun c =>
    if c.toNat < 0x10000 then [c.toNat]
    else [0xD800 + (c.toNat - 0x10000) / 0x400, 0xDC00 + (c.toNat - 0x10000) % 0x400]

/-! ### The snapshot -/

/-- The signals received and accepted, by severity. -/
structure SeverityCountersSnapshot (F : NumberFormat) where
  received : Severity → Amount F
  accepted : Severity → Amount F

/-- The sizes of the queue at the moment. -/
structure QueueDepthSnapshot (F : NumberFormat) where
  waitingCount : Amount F
  activeCount : Amount F
  dlqSize : Amount F

/-- The queue's jobs since the start. -/
structure QueueJobsCumulative (F : NumberFormat) where
  jobsProcessedTotal : Amount F
  jobsFailedTotal : Amount F

/-- The dispatches of one channel. -/
structure AlertCounts (F : NumberFormat) where
  delivered : Amount F
  failed : Amount F

/-- A record from channels: its keys, and the values under them. -/
structure AlertsByChannel (F : NumberFormat) where
  keys : List Text
  nodup : keys.Nodup
  get : Text → AlertCounts F

/-- The histogram's cumulative counts, with the boundaries they belong to. -/
structure HistogramSnapshot (F : NumberFormat) where
  boundariesMs : List (JsNumber F)
  cumulativeCounts : List (Amount F)
  sum : Amount F
  count : Amount F

/-- What the endpoint collects for one page. -/
structure MetricsSnapshotInput (F : NumberFormat) where
  signalCounters : SeverityCountersSnapshot F
  droppedBySeverityAndReason : Severity → DropReason → Amount F
  bufferDepthBySeverity : Severity → Amount F
  bufferFillFraction : Amount F
  queueDepth : QueueDepthSnapshot F
  queueJobsCumulative : QueueJobsCumulative F
  workItemsByState : WorkItemStatus → Option (Amount F)
  alertsByChannel : AlertsByChannel F
  escalationsTriggered : Amount F
  latencyHistogram : HistogramSnapshot F

/-! ### The page -/

/-- Escapes backslashes first, then quotes and line feeds. -/
def escapeLabelValue (value : Text) : Text :=
  replaceAll ['\n'] ['\\', 'n']
    (replaceAll ['"'] ['\\', '"'] (replaceAll ['\\'] ['\\', '\\'] value))

/-- One label as `name="value"`. -/
def formatLabel (label : Text × Text) : Text :=
  label.1 ++ '=' :: '"' :: (escapeLabelValue label.2 ++ ['"'])

/-- All labels in braces, nothing where there are none. -/
def formatLabels (labels : List (Text × Text)) : Text :=
  if labels = [] then [] else '{' :: ([','].intercalate (labels.map formatLabel) ++ ['}'])

/-- One line: the name, the labels and the value. -/
def sample (name : Text) (labels : List (Text × Text)) (value : Amount F) : Text :=
  name ++ (formatLabels labels ++ ' ' :: value.toChars)

/-- The types of the metrics that are no histogram. -/
inductive MetricType
  | counter | gauge

/-- The type as its `# TYPE` line writes it. -/
def MetricType.text : MetricType → Text
  | counter => "counter".toList
  | gauge => "gauge".toList

/-- The `# HELP` line. -/
def helpLine (name help : Text) : Text := "# HELP ".toList ++ (name ++ ' ' :: help)

/-- The `# TYPE` line. -/
def typeLine (name type : Text) : Text := "# TYPE ".toList ++ (name ++ ' ' :: type)

/-- A metric's two comment lines and its samples. -/
def metricBlock (name help : Text) (type : MetricType) (lines : List Text) : Text :=
  ['\n'].intercalate (helpLine name help :: typeLine name type.text :: lines)

/-- A histogram's block: its buckets, the one without a bound last, the sum and the count. -/
def renderHistogram (name help : Text) (histogram : HistogramSnapshot F) : Text :=
  let bucketLines := (histogram.boundariesMs.zipIdx.map fun (boundary, i) =>
      sample (name ++ "_bucket".toList) [("le".toList, boundary.toChars)]
        (histogram.cumulativeCounts[i]?.getD (.ofRat 0)))
    ++ [sample (name ++ "_bucket".toList) [("le".toList, "+Inf".toList)] histogram.count]
  ['\n'].intercalate (helpLine name help :: typeLine name "histogram".toList :: (bucketLines
    ++ [name ++ ("_sum".toList ++ ' ' :: histogram.sum.toChars),
      name ++ ("_count".toList ++ ' ' :: histogram.count.toChars)]))

/-- The blocks of the page, in its order. -/
def renderBlocks (input : MetricsSnapshotInput F) : List Text := [
  metricBlock "ims_signals_received_total".toList
    "Signals received at the ingestion endpoint, by severity".toList .counter
    (SEVERITIES.map fun s => sample "ims_signals_received_total".toList
      [("severity".toList, s.name.toList)] (input.signalCounters.received s)),
  metricBlock "ims_signals_accepted_total".toList
    "Signals accepted into the ingestion buffer, by severity".toList .counter
    (SEVERITIES.map fun s => sample "ims_signals_accepted_total".toList
      [("severity".toList, s.name.toList)] (input.signalCounters.accepted s)),
  metricBlock "ims_signals_dropped_total".toList
    ("Signals dropped by the ingestion buffer, by severity and reason " ++
      "(reason=\"shed_ceiling\" is graceful shedding; " ++
      "hard_capacity/sink_failure are hard drops)").toList .counter
    (SEVERITIES.flatMap fun s => DROP_REASONS.map fun r =>
      sample "ims_signals_dropped_total".toList
        [("severity".toList, s.name.toList), ("reason".toList, (dropReasonName r).toList)]
        (input.droppedBySeverityAndReason s r)),
  metricBlock "ims_buffer_depth".toList
    "Current ingestion buffer depth, by severity".toList .gauge
    (SEVERITIES.map fun s => sample "ims_buffer_depth".toList
      [("severity".toList, s.name.toList)] (input.bufferDepthBySeverity s)),
  metricBlock "ims_buffer_fill_ratio".toList
    "Current ingestion buffer fill fraction (0-1)".toList .gauge
    [sample "ims_buffer_fill_ratio".toList [] input.bufferFillFraction],
  metricBlock "ims_queue_depth".toList "Current BullMQ queue depth, by job state".toList .gauge
    [sample "ims_queue_depth".toList [("state".toList, "waiting".toList)]
        input.queueDepth.waitingCount,
      sample "ims_queue_depth".toList [("state".toList, "active".toList)]
        input.queueDepth.activeCount],
  metricBlock "ims_queue_dlq_size".toList "Current dead-letter queue size".toList .gauge
    [sample "ims_queue_dlq_size".toList [] input.queueDepth.dlqSize],
  metricBlock "ims_queue_jobs_total".toList
    "Cumulative BullMQ batch jobs, by outcome".toList .counter
    [sample "ims_queue_jobs_total".toList [("outcome".toList, "processed".toList)]
        input.queueJobsCumulative.jobsProcessedTotal,
      sample "ims_queue_jobs_total".toList [("outcome".toList, "failed".toList)]
        input.queueJobsCumulative.jobsFailedTotal],
  metricBlock "ims_work_items".toList "Current work item count, by state".toList .gauge
    (WORK_ITEM_STATES.map fun s => sample "ims_work_items".toList
      [("state".toList, s.name.toList)] ((input.workItemsByState s).getD (.ofRat 0))),
  metricBlock "ims_alerts_total".toList
    "Cumulative alert dispatch attempts, by channel and outcome".toList .counter
    ((input.alertsByChannel.keys.insertionSort fun a b => codeUnits a ≤ codeUnits b).flatMap
      fun channel =>
        let counts := input.alertsByChannel.get channel
        [sample "ims_alerts_total".toList
            [("channel".toList, channel), ("outcome".toList, "delivered".toList)]
            counts.delivered,
          sample "ims_alerts_total".toList
            [("channel".toList, channel), ("outcome".toList, "failed".toList)] counts.failed]),
  metricBlock "ims_escalations_triggered_total".toList
    "Cumulative escalations triggered".toList .counter
    [sample "ims_escalations_triggered_total".toList [] input.escalationsTriggered],
  renderHistogram "ims_signal_e2e_latency_ms".toList
    "End-to-end latency from signal receipt to persistence, milliseconds".toList
    input.latencyHistogram]

/-- The page, its blocks apart by an empty line. -/
def renderPrometheusMetrics (input : MetricsSnapshotInput F) : Text :=
  ['\n', '\n'].intercalate (renderBlocks input) ++ ['\n']

end InveniOps.Metrics
