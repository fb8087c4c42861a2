import Mathlib.Logic.Function.Basic
import InveniOps.Ingestion.SignalBuffer
import InveniOps.Lib.Lts

/-!
# The health probe

`utils/healthProbe.ts` as `services/observability/healthProbeInstance.ts` uses it for
`GET /health`: a background loop of ticks, each of which checks four dependencies at once.
A tick races a timeout, and so does each of its four checks; all these timeouts have the same
duration, and a JavaScript host fires timers of one duration in the order in which they were
armed.  What follows from a settled promise happens before the next timer or reply.
-/

namespace InveniOps.Health

open Lib Ingestion

/-- The dependencies that are probed. -/
inductive Dependency
  | postgres | mongo | redis | queue
deriving DecidableEq

/-- The dependencies, in the order in which `fetchHealthSnapshot` checks them. -/
def Dependency.all : List Dependency := [.postgres, .mongo, .redis, .queue]

lemma Dependency.mem_all (d : Dependency) : d ∈ all := by
  cases d <;> simp [all]

/-- What a probe says of a dependency. -/
inductive DependencyStatus
  | up | down
deriving DecidableEq

/-- The result of a check. -/
structure ProbeResult where
  status : DependencyStatus
  latencyMs : ℕ
deriving DecidableEq

/-- `HealthSnapshot`, by the names of its fields. -/
abbrev HealthSnapshot := Dependency → ProbeResult

/-- The result before the first check. -/
def NEVER_PROBED : ProbeResult := ⟨.down, 0⟩

/-- The snapshot before the first tick. -/
def HEALTH_FALLBACK : HealthSnapshot := fun _ => NEVER_PROBED

/-- `config.health`. -/
structure HealthConfig where
  probeIntervalMs : ℕ
  probeTimeoutMs : ℕ

/-- The default configuration. -/
def HealthConfig.standard : HealthConfig := ⟨5000, 2000⟩

/-! ### Ticks -/

/-- A tick, and the call of `fetchHealthSnapshot` that it makes. -/
structure Tick where
  startedAt : ℕ
  /-- What the calls of `probeDependency` have returned. -/
  results : Dependency → Option ProbeResult
  /-- The race of the tick is decided. -/
  settled : Bool
  /-- `start` awaits the tick. -/
  awaited : Bool

namespace Tick

/-- What `fetchHealthSnapshot` returns. -/
def fetched (x : Tick) : Option HealthSnapshot :=
  if ∀ d ∈ Dependency.all, (x.results d).isSome then some fun d => (x.results d).getD NEVER_PROBED
  else none

/-- A race of `probeDependency` is decided. -/
def record (x : Tick) (d : Dependency) (status : DependencyStatus) (now : ℕ) : Tick :=
  { x with results := Function.update x.results d (some ⟨status, now - x.startedAt⟩) }

lemma fetched_eq_none_iff {x : Tick} : x.fetched = none ↔ ∃ d, x.results d = none := by
  simp [fetched, Dependency.mem_all]

lemma fetched_eq_some_iff {x : Tick} {snapshot : HealthSnapshot} :
    x.fetched = some snapshot ↔ ∀ d, x.results d = some (snapshot d) := by
  constructor
  · intro h d
    unfold fetched at h
    split_ifs at h with hall
    obtain ⟨r, hr⟩ := Option.isSome_iff_exists.1 (hall d d.mem_all)
    simp [← Option.some.inj h, hr]
  · intro h
    simp [fetched, h]

end Tick

/-- What a call of `timeoutRejection` races. -/
inductive Raced
  | check (tick : ℕ) (d : Dependency)
  | tick (tick : ℕ)
deriving DecidableEq

/-- `dependencyHealthProbe`. -/
structure HealthProbe where
  now : ℕ
  ticks : List Tick
  /-- The timers of `timeoutRejection`, by when they are due. -/
  timeouts : List (ℕ × Raced)
  /-- When the intervals are due; those that are cleared are not. -/
  intervals : List (Option ℕ)
  timer : Option ℕ
  snapshot : HealthSnapshot
  /-- How many ticks are logged as failed. -/
  failures : ℕ

/-- What happens to the probe. -/
inductive ProbeEvent
  | start
  | stop
  | pass (ms : ℕ)
  /-- An interval fires. -/
  | interval (k : ℕ)
  /-- A check resolves or rejects. -/
  | answered (i : ℕ) (d : Dependency) (ok : Bool)
  /-- The first of the timeouts fires. -/
  | timeout
deriving DecidableEq

namespace HealthProbe

variable (cfg : HealthConfig) (s : HealthProbe)

/-- A probe that has not been started. -/
def new : HealthProbe := ⟨0, [], [], [], none, HEALTH_FALLBACK, 0⟩

/-- `tick`, up to its race: the checks arm their timeouts before the tick arms its own. -/
def tick (awaited : Bool) : HealthProbe :=
  let i := s.ticks.length
  let due := s.now + cfg.probeTimeoutMs
  { s with
    ticks := s.ticks ++ [⟨s.now, fun _ => none, false, awaited⟩]
    timeouts := s.timeouts ++ (Dependency.all.map fun d => (due, .check i d)) ++ [(due, .tick i)] }

/-- The rest of `tick` and, where `start` awaits it, of `start`. -/
def conclude (i : ℕ) (x : Tick) (outcome : Option HealthSnapshot) : HealthProbe where
  now := s.now
  ticks := s.ticks.set i { x with settled := true }
  timeouts := s.timeouts
  intervals :=
    if x.awaited then s.intervals ++ [some (s.now + cfg.probeIntervalMs)] else s.intervals
  timer := if x.awaited then some s.intervals.length else s.timer
  snapshot := outcome.getD s.snapshot
  failures := if outcome.isNone then s.failures + 1 else s.failures

/-- A check of a tick has an outcome; the first one counts. -/
def record (i : ℕ) (d : Dependency) (status : DependencyStatus) : HealthProbe :=
  match s.ticks[i]? with
  | none => s
  | some x =>
    if (x.results d).isSome then s
    else
      let x' := x.record d status s.now
      let s' := { s with ticks := s.ticks.set i x' }
      match x'.fetched with
      | none => s'
      | some snapshot => if x.settled then s' else s'.conclude cfg i x' (some snapshot)

/-- A started probe ticks at once, and then at every interval. -/
def start : HealthProbe := if s.timer.isSome then s else s.tick cfg true

/-- Clear the interval; checks under way go on. -/
def stop : HealthProbe :=
  match s.timer with
  | none => s
  | some k => { s with intervals := s.intervals.set k none, timer := none }

/-- The timeout of a check or a tick fires. -/
def expire : Raced → HealthProbe
  | .check i d => s.record cfg i d .down
  | .tick i =>
    match s.ticks[i]? with
    | none => s
    | some x => if x.settled then s else s.conclude cfg i x none

/-- The probe behind an event, if the event can happen. -/
def step : ProbeEvent → Option HealthProbe
  | .start => some (s.start cfg)
  | .stop => some s.stop
  | .pass ms => some { s with now := s.now + ms }
  | .interval k =>
    match s.intervals[k]? with
    | some (some due) =>
      -- Of the timers that are due, those that were due earlier fire first.
      if due ≤ s.now ∧ ∀ x ∈ s.timeouts, due ≤ x.1 then
        some ({ s with
          intervals := s.intervals.set k (some (s.now + cfg.probeIntervalMs)) }.tick cfg false)
      else none
    | _ => none
  | .answered i d ok =>
    if i < s.ticks.length then some (s.record cfg i d (if ok then .up else .down)) else none
  | .timeout =>
    match s.timeouts with
    | (due, raced) :: rest =>
      if due ≤ s.now then some ({ s with timeouts := rest }.expire cfg raced) else none
    | [] => none

/-- The probe as a transition system. -/
def lts : Lts HealthProbe ProbeEvent := ⟨fun s e => s.step cfg e⟩

/-- The probe when `startHealthProbes` has called `start`. -/
def init : HealthProbe := new.start cfg

end HealthProbe

/-! ### Answers -/

/-- The status that is reported. -/
inductive HealthStatus
  | healthy | degraded | unhealthy
deriving DecidableEq

/-- What the other probe of `healthProbeInstance.ts` serves. -/
structure QueueDepthSnapshot where
  waitingCount : ℕ
  activeCount : ℕ
  dlqSize : ℕ

/-- The body of the response. -/
structure HealthResponseBody where
  status : HealthStatus
  uptimeSeconds : ℚ
  version : String
  dependencies : HealthSnapshot
  depth : ℕ
  capacity : ℕ
  fillFraction : ℚ
  shedding : Bool
  queue : QueueDepthSnapshot
  signalsPerSecond : ℚ

/-- What `buildHealthResponse` is given. -/
structure BuildHealthResponseInput where
  dependencies : HealthSnapshot
  queueDepth : QueueDepthSnapshot
  bufferStats : SignalBuffer.Stats
  uptimeSeconds : ℚ
  version : String
  signalsPerSecond : ℚ

/-- The response with its status code. -/
structure HealthResponse where
  httpStatus : ℕ
  body : HealthResponseBody

/-- The response of the health route. -/
def buildHealthResponse (input : BuildHealthResponseInput) : HealthResponse :=
  let allUp :=
    (input.dependencies .postgres).status = .up ∧ (input.dependencies .mongo).status = .up ∧
      (input.dependencies .redis).status = .up ∧ (input.dependencies .queue).status = .up
  { httpStatus := if allUp then 200 else 503
    body :=
      { status :=
          if ¬ allUp then .unhealthy
          else if input.bufferStats.state = .shedding then .degraded
          else .healthy
        uptimeSeconds := input.uptimeSeconds
        version := input.version
        dependencies := input.dependencies
        depth := input.bufferStats.totalSize
        capacity := input.bufferStats.capacity
        fillFraction := input.bufferStats.fillFraction
        shedding := decide (input.bufferStats.state = .shedding)
        queue := input.queueDepth
        signalsPerSecond := input.signalsPerSecond } }

/-- The answer of `handleHealthCheck`. -/
def handleHealthCheck (s : HealthProbe) (queueDepth : QueueDepthSnapshot)
    (bufferStats : SignalBuffer.Stats) (uptimeSeconds : ℚ) (version : String)
    (signalsPerSecond : ℚ) : HealthResponse :=
  buildHealthResponse
    ⟨s.snapshot, queueDepth, bufferStats, uptimeSeconds, version, signalsPerSecond⟩

lemma status_ne_up {r : ProbeResult} : r.status ≠ .up ↔ r.status = .down := by
  cases r.status <;> simp

/-- 200 means that all dependencies are up, and 503 that one is down. -/
lemma httpStatus_cases (input : BuildHealthResponseInput) :
    ((buildHealthResponse input).httpStatus = 200 ∧ ∀ d, (input.dependencies d).status = .up) ∨
      (buildHealthResponse input).httpStatus = 503 ∧
        ∃ d, (input.dependencies d).status = .down := by
  by_cases hall : ∀ d, (input.dependencies d).status = .up
  · left
    constructor
    · simp [buildHealthResponse, hall]
    · exact hall
  · right
    have hdown := hall
    push Not at hdown
    obtain ⟨d, hd⟩ := hdown
    refine ⟨?_, d, status_ne_up.1 hd⟩
    simp only [buildHealthResponse]
    rw [if_neg]
    rintro ⟨hpostgres, hmongo, hredis, hqueue⟩
    exact hd (by cases d <;> assumption)

end InveniOps.Health
