import Mathlib.Data.Prod.Lex
import Mathlib.Data.String.Basic
import InveniOps.Lib.GroupBy
import InveniOps.Analytics.Buckets
import InveniOps.Domain.Dates

/-!
# The queries of the metrics store

The aggregation pipelines of `repositories/metrics/metricsRepository.ts` over the
points of a collection, and the answers that `services/aggregation/analyticsService.ts`
shapes from them.  `$avg` computes with doubles; it is a parameter.
-/

namespace InveniOps.Analytics

open Lib Domain

/-- A document of `signal_volume`. -/
structure SignalVolumePoint where
  ts : Instant
  componentId : String
  severity : String
  count : ℕ
deriving DecidableEq

/-- A point of `workitem_created_metrics`, whose `count` is always one. -/
structure WorkItemCreatedPoint where
  ts : Instant
  componentType : String
  severity : String
deriving DecidableEq

/-- A document of `incident_mttr`. -/
structure MttrPoint (ν : Type) where
  ts : Instant
  componentType : String
  severity : String
  componentId : String
  mttrMs : ν

/-- What incidents can be grouped by. -/
inductive IncidentGroupBy
  | componentType | severity
deriving DecidableEq

/-- A row of `queryThroughput`. -/
structure ThroughputBucket where
  bucket : Instant
  componentId : String
  severity : String
  count : ℕ
deriving DecidableEq

/-- A row of `queryIncidentCounts`. -/
structure GroupedCountBucket where
  bucket : Instant
  value : String
  count : ℕ
deriving DecidableEq

/-- A row of `queryMttrTrend`. -/
structure MttrTrendBucket (ν : Type) where
  bucket : Instant
  value : String
  avgMttrMs : ν
  rollingAvgMttrMs : ν
  sampleCount : ℕ

/-- What `queryComponentHealth` returns. -/
structure ComponentHealthAggregate (ν : Type) where
  recentSignalCount : ℕ
  avgMttrMs : Option ν

/-- The field that a group is made by. -/
def WorkItemCreatedPoint.dim (p : WorkItemCreatedPoint) : IncidentGroupBy → String
  | .componentType => p.componentType
  | .severity => p.severity

/-- The field that a group is made by. -/
def MttrPoint.dim {ν : Type} (p : MttrPoint ν) : IncidentGroupBy → String
  | .componentType => p.componentType
  | .severity => p.severity

/-- The buckets of the rolling average. -/
def ROLLING_WINDOW_BUCKETS : ℕ := 4

/-- `$match` of a range of instants. -/
def inRange (since until' : Instant) (ts : Instant) : Bool := since ≤ ts && ts < until'

/-- The `_id` of `$group`, in the order in which `$sort` looks at it. -/
abbrev BucketKey (δ : Type) := Lex (Instant × δ)

/-- Groups are sorted by their bucket, then by their dimensions. -/
def bucketKey {δ : Type} (bucket : Instant) (dims : δ) : BucketKey δ := toLex (bucket, dims)

section BucketCounts

variable {α δ : Type} [LinearOrder δ]

/-- `$match`, `$group` by bucket and dimensions with `$sum`, and `$sort` by both. -/
def bucketCounts (ts : α → Instant) (dims : α → δ) (count : α → ℕ) (points : List α)
    (since until' : Instant) (interval : BucketSpec) : List (BucketKey δ × ℕ) :=
  groupSum (fun p => bucketKey (dateTrunc interval (ts p)) (dims p)) count
    (points.filter fun p => inRange since until' (ts p))

end BucketCounts

/-- The signals of each bucket, component and severity. -/
def queryThroughput (points : List SignalVolumePoint) (since until' : Instant)
    (interval : BucketSpec) : List ThroughputBucket :=
  (bucketCounts (·.ts) (fun p => toLex (p.componentId, p.severity)) (·.count) points since until'
    interval).map fun row =>
      ⟨(ofLex row.1).1, (ofLex (ofLex row.1).2).1, (ofLex (ofLex row.1).2).2, row.2⟩

/-- The incidents of each bucket and group. -/
def queryIncidentCounts (points : List WorkItemCreatedPoint) (since until' : Instant)
    (interval : BucketSpec) (groupBy : IncidentGroupBy) : List GroupedCountBucket :=
  (bucketCounts (·.ts) (·.dim groupBy) (fun _ => 1) points since until' interval).map fun row =>
    ⟨(ofLex row.1).1, (ofLex row.1).2, row.2⟩

section Mttr

variable {ν : Type} (avg : List ν → ν)

/-- `$group` of the trend, in the order of its first `$sort`. -/
def mttrGroups (points : List (MttrPoint ν)) (since until' : Instant) (interval : BucketSpec)
    (groupBy : IncidentGroupBy) : List (Lex (String × Instant) × ν × ℕ) :=
  Lib.groupBy (fun p : MttrPoint ν => toLex (p.dim groupBy, dateTrunc interval p.ts))
    (fun rows => (avg (rows.map (·.mttrMs)), rows.length))
    (points.filter fun p => inRange since until' p.ts)

/-- `$setWindowFields`, one partition behind the other. -/
def rollingAverages (groups : List (Lex (String × Instant) × ν × ℕ)) :
    List ((Lex (String × Instant) × ν × ℕ) × ν) :=
  (keys (fun row => (ofLex row.1).1) groups).flatMap fun value =>
    windowed ROLLING_WINDOW_BUCKETS (fun window => avg (window.map (·.2.1)))
      (members (fun row => (ofLex row.1).1) groups value)

/-- The averages of each bucket and group, sorted by group. -/
def queryMttrTrend (points : List (MttrPoint ν)) (since until' : Instant) (interval : BucketSpec)
    (groupBy : IncidentGroupBy) : List (MttrTrendBucket ν) :=
  (rollingAverages avg (mttrGroups avg points since until' interval groupBy)).map fun row =>
    { bucket := (ofLex row.1.1).2
      value := (ofLex row.1.1).1
      avgMttrMs := row.1.2.1
      rollingAvgMttrMs := row.2
      sampleCount := row.1.2.2 }

/-- The recent signals of a component, and its average over all incidents. -/
def queryComponentHealth (volume : List SignalVolumePoint) (mttr : List (MttrPoint ν))
    (componentId : String) (recentSince : Instant) : ComponentHealthAggregate ν where
  recentSignalCount := ((volume.filter fun p =>
    p.componentId = componentId && recentSince ≤ p.ts).map (·.count)).sum
  avgMttrMs :=
    match mttr.filter (·.componentId = componentId) with
    | [] => none
    | rows => some (avg (rows.map (·.mttrMs)))

end Mttr

/-! ### The answers of the service -/

/-- A point of the response of `getThroughput`. -/
structure ThroughputPointDto where
  bucket : String
  componentId : String
  severity : String
  count : ℕ
deriving DecidableEq

/-- A point of the response of `getIncidentCounts`. -/
structure GroupedCountPointDto where
  bucket : String
  value : String
  count : ℕ
deriving DecidableEq

/-- A point of the response of `getMttrTrend`. -/
structure MttrTrendPointDto (ν : Type) where
  bucket : String
  value : String
  avgMttrMs : ν
  rollingAvgMttrMs : ν
  sampleCount : ℕ

/-- The answer to a query of a range; the throughput has no `groupBy`. -/
structure RangeResponseDto (π : Type) where
  since : String
  until' : String
  intervalSeconds : ℤ
  groupBy : Option IncidentGroupBy
  points : List π
deriving DecidableEq

/-- What the methods of `AnalyticsQueryService` that take a range have in common. -/
def rangeResponse {β π : Type} (query : BucketSpec → List β) (toDto : β → π)
    (since until' : Instant) (intervalSeconds : ℤ) (groupBy : Option IncidentGroupBy) :
    Except String (RangeResponseDto π) :=
  match toBucketSpec intervalSeconds with
  | .error e => .error e
  | .ok interval => .ok
      { since := toISOString since
        until' := toISOString until'
        intervalSeconds := intervalSeconds
        groupBy := groupBy
        points := (query interval).map toDto }

/-- The signals of a range by component and severity. -/
def getThroughput (points : List SignalVolumePoint) (since until' : Instant)
    (intervalSeconds : ℤ) : Except String (RangeResponseDto ThroughputPointDto) :=
  rangeResponse (queryThroughput points since until')
    (fun row => ⟨toISOString row.bucket, row.componentId, row.severity, row.count⟩)
    since until' intervalSeconds none

/-- The incidents of a range by component type or severity. -/
def getIncidentCounts (points : List WorkItemCreatedPoint) (since until' : Instant)
    (intervalSeconds : ℤ) (groupBy : IncidentGroupBy) :
    Except String (RangeResponseDto GroupedCountPointDto) :=
  rangeResponse (fun interval => queryIncidentCounts points since until' interval groupBy)
    (fun row => ⟨toISOString row.bucket, row.value, row.count⟩)
    since until' intervalSeconds (some groupBy)

/-- The times to resolution of a range by component type or severity. -/
def getMttrTrend {ν : Type} (avg : List ν → ν) (points : List (MttrPoint ν))
    (since until' : Instant) (intervalSeconds : ℤ) (groupBy : IncidentGroupBy) :
    Except String (RangeResponseDto (MttrTrendPointDto ν)) :=
  rangeResponse (fun interval => queryMttrTrend avg points since until' interval groupBy)
    (fun row => ⟨toISOString row.bucket, row.value, row.avgMttrMs, row.rollingAvgMttrMs,
      row.sampleCount⟩)
    since until' intervalSeconds (some groupBy)

lemma rangeResponse_of_ok {β π : Type} {query : BucketSpec → List β} {toDto : β → π}
    {since until' : Instant} {n : ℤ} {groupBy : Option IncidentGroupBy} {interval : BucketSpec}
    (h : toBucketSpec n = .ok interval) :
    ∃ response, rangeResponse query toDto since until' n groupBy = .ok response := by
  unfold rangeResponse
  rw [h]
  exact ⟨_, rfl⟩

lemma rangeResponse_ok {β π : Type} {query : BucketSpec → List β} {toDto : β → π}
    {since until' : Instant} {n : ℤ} {groupBy : Option IncidentGroupBy}
    {response : RangeResponseDto π}
    (h : rangeResponse query toDto since until' n groupBy = .ok response) :
    ∃ interval, toBucketSpec n = .ok interval ∧
      response.points = (query interval).map toDto := by
  unfold rangeResponse at h
  cases hinterval : toBucketSpec n with
  | error e => simp [hinterval] at h
  | ok interval =>
    rw [hinterval] at h
    exact ⟨interval, rfl, by rw [← Except.ok.inj h]⟩

/-! ### Counts -/

section BucketCounts

variable {α δ : Type} [LinearOrder δ] {ts : α → Instant} {dims : α → δ} {count : α → ℕ}
  {points : List α} {since until' : Instant} {interval : BucketSpec}

/-- The counts of a range add up to those of its points. -/
lemma sum_bucketCounts (ts : α → Instant) (dims : α → δ) (count : α → ℕ) (points : List α)
    (since until' : Instant) (interval : BucketSpec) :
    ((bucketCounts ts dims count points since until' interval).map Prod.snd).sum =
      ((points.filter fun p => inRange since until' (ts p)).map count).sum :=
  sum_groupSum _ _ _

/-- The counts of coarser buckets are the finer ones, grouped again. -/
lemma bucketCounts_coarse {coarse : BucketSpec} {m : ℤ} (hwidth : 0 < interval.width)
    (hcoarse : coarse.width = interval.width * m) :
    groupSum (fun row : BucketKey δ × ℕ =>
        bucketKey (dateTrunc coarse (ofLex row.1).1) (ofLex row.1).2) Prod.snd
      (bucketCounts ts dims count points since until' interval) =
      bucketCounts ts dims count points since until' coarse := by
  rw [bucketCounts, groupSum_groupSum _ _ _ (fun k : BucketKey δ =>
    bucketKey (dateTrunc coarse (ofLex k).1) (ofLex k).2)]
  simp only [bucketKey, ofLex_toLex, dateTrunc_dateTrunc hwidth hcoarse]
  rfl

end BucketCounts

end InveniOps.Analytics
