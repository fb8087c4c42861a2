import Mathlib.Algebra.Order.Floor.Ring
import Mathlib.Data.Rat.Floor
import InveniOps.Domain.Dates
import InveniOps.Ingestion.SignalBuffer

/-!
# The recorders of the process

`utils/metrics.ts`: the counter of accepted signals, the latency histogram, the recorder of
the queue's jobs and the line that the reporter prints.  Latencies and rates are exact.
-/

namespace InveniOps.Metrics

open Domain Ingestion

/-- `createThroughputCounter`. -/
structure ThroughputCounter where
  count : ℕ

namespace ThroughputCounter

/-- Counts `amount` more. -/
def increment (counter : ThroughputCounter) (amount : ℕ) : ThroughputCounter :=
  ⟨counter.count + amount⟩

/-- Reads the counter and starts it again from zero. -/
def reset (counter : ThroughputCounter) : ℕ × ThroughputCounter := (counter.count, ⟨0⟩)

end ThroughputCounter

/-! ### The histogram -/

/-- Cumulative counts: a value is counted at each boundary that it does not exceed. -/
structure Histogram where
  boundariesMs : List ℚ
  counts : List ℕ
  total : ℕ
  sumMs : ℚ
  length_counts : counts.length = boundariesMs.length

namespace Histogram

/-- The histogram before its first observation. -/
def new (boundariesMs : List ℚ) : Histogram :=
  ⟨boundariesMs, List.replicate boundariesMs.length 0, 0, 0, List.length_replicate⟩

/-- Counts one value. -/
def observe (histogram : Histogram) (valueMs : ℚ) : Histogram where
  boundariesMs := histogram.boundariesMs
  counts := histogram.boundariesMs.zipWith
    (fun boundary count => if valueMs ≤ boundary then count + 1 else count) histogram.counts
  total := histogram.total + 1
  sumMs := histogram.sumMs + valueMs
  length_counts := by simp [histogram.length_counts]

end Histogram

/-- The boundaries of the latency histogram. -/
def E2E_LATENCY_BUCKETS_MS : List ℚ := [10, 25, 50, 100, 250, 500, 1000, 2500, 5000, 10000]

/-! ### The jobs of the queue -/

/-- The jobs of one window; without any there is no latency. -/
structure QueueMetricsSnapshot where
  jobsProcessed : ℕ
  jobsFailed : ℕ
  averageLatencyMs : Option ℚ
  p50LatencyMs : Option ℚ
  p99LatencyMs : Option ℚ

/-- The nearest rank of a sorted sample, none of an empty one. -/
def percentile (sortedAscending : List ℚ) (p : ℚ) : Option ℚ :=
  sortedAscending[min (sortedAscending.length - 1) ⌊p * sortedAscending.length⌋.toNat]?

/-- `createQueueMetricsRecorder`. -/
structure QueueMetricsRecorder where
  jobsProcessed : ℕ
  jobsFailed : ℕ
  totalLatencyMs : ℚ
  jobsProcessedTotal : ℕ
  jobsFailedTotal : ℕ
  samples : List ℚ
  histogram : Histogram

namespace QueueMetricsRecorder

/-- The recorder before its first job. -/
def new : QueueMetricsRecorder := ⟨0, 0, 0, 0, 0, [], .new E2E_LATENCY_BUCKETS_MS⟩

variable (recorder : QueueMetricsRecorder)

/-- Records a finished job. -/
def recordJobProcessed (latencyMs : ℚ) : QueueMetricsRecorder where
  jobsProcessed := recorder.jobsProcessed + 1
  jobsFailed := recorder.jobsFailed
  totalLatencyMs := recorder.totalLatencyMs + latencyMs
  jobsProcessedTotal := recorder.jobsProcessedTotal + 1
  jobsFailedTotal := recorder.jobsFailedTotal
  samples := recorder.samples ++ [latencyMs]
  histogram := recorder.histogram.observe latencyMs

/-- Records a failed job, which has no latency. -/
def recordJobFailed : QueueMetricsRecorder :=
  { recorder with
    jobsFailed := recorder.jobsFailed + 1
    jobsFailedTotal := recorder.jobsFailedTotal + 1 }

/-- The figures since the last call; they start again from zero. -/
def reset : QueueMetricsSnapshot × QueueMetricsRecorder :=
  let sorted := recorder.samples.mergeSort (· ≤ ·)
  ({ jobsProcessed := recorder.jobsProcessed
     jobsFailed := recorder.jobsFailed
     averageLatencyMs :=
       if 0 < recorder.jobsProcessed then some (recorder.totalLatencyMs / recorder.jobsProcessed)
       else none
     p50LatencyMs := percentile sorted (1 / 2)
     p99LatencyMs := percentile sorted (99 / 100) },
   { recorder with jobsProcessed := 0, jobsFailed := 0, totalLatencyMs := 0, samples := [] })

end QueueMetricsRecorder

/-- What `getQueueStats` resolves to. -/
structure QueueReportSnapshot where
  waitingCount : ℕ
  activeCount : ℕ
  dlqSize : ℕ
  jobsProcessed : ℕ
  jobsFailed : ℕ
  averageEndToEndLatencyMs : Option ℚ
  p50LatencyMs : Option ℚ
  p99LatencyMs : Option ℚ

/-! ### The line -/

/-- The drops of the window, over all reasons. -/
def sumDroppedThisPeriod (byReason : DropReason → ℕ) : ℕ :=
  byReason .shed_ceiling + byReason .hard_capacity + byReason .sink_failure

/-- What a console line shows. -/
structure ConsoleLineInput where
  time : Instant
  signalsPerSecond : ℚ
  bufferFillFraction : ℚ
  queueDepth : ℕ
  activeWorkItems : Option ℕ
  dropsThisTick : ℕ
  p50LatencyMs : Option ℚ
  p99LatencyMs : Option ℚ

/-- The tenths that `toFixed(1)` shows of a number that is not negative. -/
def tenths (x : ℚ) : ℕ := ⌊x * 10 + 1 / 2⌋.toNat

/-- `toFixed(1)` of a number that is not negative and below `10 ^ 21`. -/
def toFixed1 (x : ℚ) : String := toString (tenths x / 10) ++ "." ++ toString (tenths x % 10)

/-- A latency in whole milliseconds. -/
def latencyText : Option ℚ → String
  | none => "n/a"
  | some latencyMs => toString ⌊latencyMs + 1 / 2⌋ ++ "ms"

/-- The line that a tick prints. -/
def formatConsoleLine (input : ConsoleLineInput) : String :=
  let time := String.ofList (((toISOString input.time).toList.drop 11).take 8)
  let activeItems := (input.activeWorkItems.map toString).getD "n/a"
  "[metrics] " ++ time ++ "Z | " ++ toFixed1 input.signalsPerSecond ++ "/s | buffer "
    ++ toFixed1 (input.bufferFillFraction * 100) ++ "% | queue depth " ++ toString input.queueDepth
    ++ " | active items " ++ activeItems ++ " | drops " ++ toString input.dropsThisTick
    ++ " | p50 " ++ latencyText input.p50LatencyMs ++ " p99 " ++ latencyText input.p99LatencyMs

example : formatConsoleLine ⟨1767277925000, 4212 / 5, 123 / 1000, 3, some 47, 0, some 38, none⟩
    = "[metrics] 14:32:05Z | 842.4/s | buffer 12.3% | queue depth 3 | active items 47"
      ++ " | drops 0 | p50 38ms p99 n/a" := by
  decide +kernel

end InveniOps.Metrics
