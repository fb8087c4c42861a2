import Mathlib.Algebra.BigOperators.Group.List.Basic
import InveniOps.Lib.Lts
import InveniOps.Lib.ListFacts
import InveniOps.Ingestion.BufferQueues
import InveniOps.Metrics.Recorders

/-!
# The metrics reporter

`startMetricsReporter` of `utils/metrics.ts`, as `index.ts` starts it, with `getQueueStats` of
`workers/index.ts`.  A tick takes the window of the accepted counter and the drops since the
last tick, then awaits the queue's figures and the number of active work items, and prints
its line behind both.  The routes, the buffer and the workers go on between any two steps,
and a tick may start while an earlier one still waits.
-/

namespace InveniOps.Metrics

open Lib Ingestion
open scoped List

/-- `options.intervalMs ?? 5000`; `index.ts` gives none. -/
def intervalMs : ℕ := 5000

/-- The length of a window in seconds. -/
def seconds : ℚ := intervalMs / 1000

/-- The answers of BullMQ that `getQueueStats` awaits. -/
structure QueueCounts where
  waitingCount : ℕ
  activeCount : ℕ
  dlqJobCounts : List ℕ

/-- Where a tick is suspended, or how it ended. -/
inductive TickPc
  /-- At `await options.getQueueStats()`. -/
  | readingQueue (stats : SignalBuffer.Stats) (dropsThisTick : ℕ)
  /-- At `await options.getActiveWorkItemCount()`. -/
  | readingItems (stats : SignalBuffer.Stats) (dropsThisTick : ℕ) (queue : QueueReportSnapshot)
  | printed (line : ConsoleLineInput)
  /-- The tick threw; the failure is logged. -/
  | failed

/-- A tick of the reporter, with the window that it has taken. -/
structure ReporterTick where
  totalAccepted : ℕ
  pc : TickPc

namespace ReporterTick

/-- The rate over the tick's window. -/
def signalsPerSecond (tick : ReporterTick) : ℚ := tick.totalAccepted / seconds

/-- The line of a tick. -/
def lineAt (tick : ReporterTick) (stats : SignalBuffer.Stats) (dropsThisTick : ℕ)
    (queue : QueueReportSnapshot) (activeWorkItems : Option ℕ) (time : Instant) :
    ConsoleLineInput where
  time := time
  signalsPerSecond := tick.signalsPerSecond
  bufferFillFraction := stats.fillFraction
  queueDepth := queue.waitingCount + queue.activeCount
  activeWorkItems := activeWorkItems
  dropsThisTick := dropsThisTick
  p50LatencyMs := queue.p50LatencyMs
  p99LatencyMs := queue.p99LatencyMs

end ReporterTick

/-- The process, as far as the reporter reads it. -/
structure MetricsReporter (options : SignalBufferOptions) where
  counter : ThroughputCounter
  buffers : BufferSystem options
  queueMetrics : QueueMetricsRecorder
  previousTotalDropped : ℕ
  lastSignalsPerSecond : ℚ
  timer : Bool
  ticks : List ReporterTick
  /-- What `formatConsoleLine` has printed on stdout, line by line. -/
  stdout : List ConsoleLineInput

/-- What can happen to the process that reports. -/
inductive ReporterEvent
  /-- A route counts accepted signals. -/
  | accepted (amount : ℕ)
  | buffer (event : BufferEvent)
  | jobProcessed (latencyMs : ℚ)
  | jobFailed
  /-- The interval fires; the read of the buffer returns or throws. -/
  | tick (bufferReads : Bool)
  /-- BullMQ answers the `k`-th tick, or one of its reads rejects. -/
  | queueStats (k : ℕ) (reply : Option QueueCounts)
  /-- Postgres answers the `k`-th tick or rejects. -/
  | activeWorkItems (k : ℕ) (reply : Option ℕ) (time : Instant)
  /-- The function that `startMetricsReporter` returned is called. -/
  | stop

namespace MetricsReporter

variable {options : SignalBufferOptions}

/-- The reporter as `start` leaves it, nothing counted. -/
def start (options : SignalBufferOptions) : MetricsReporter options :=
  ⟨⟨0⟩, .init options, .new, 0, 0, true, [], []⟩

variable (s : MetricsReporter options)

/-- All drops that the buffer has counted. -/
def totalDropped : ℕ := sumDroppedThisPeriod s.buffers.buffer.getStats.droppedByReason

/-- A tick up to its first `await`. -/
def onTick (bufferReads : Bool) : MetricsReporter options :=
  let totalAccepted := s.counter.reset.1
  if bufferReads then
    -- the counter is read and reset before anything that may throw
    { s with
      counter := s.counter.reset.2
      lastSignalsPerSecond := totalAccepted / seconds
      previousTotalDropped := s.totalDropped
      ticks := s.ticks ++ [⟨totalAccepted, .readingQueue s.buffers.buffer.getStats
        (s.totalDropped - s.previousTotalDropped)⟩] }
  else
    { s with
      counter := s.counter.reset.2
      lastSignalsPerSecond := totalAccepted / seconds
      ticks := s.ticks ++ [⟨totalAccepted, .failed⟩] }

/-- `getQueueStats` behind its `Promise.all`. -/
def getQueueStats (counts : QueueCounts) : QueueReportSnapshot × MetricsReporter options :=
  let metrics := s.queueMetrics.reset
  ({ waitingCount := counts.waitingCount
     activeCount := counts.activeCount
     dlqSize := counts.dlqJobCounts.foldl (· + ·) 0
     jobsProcessed := metrics.1.jobsProcessed
     jobsFailed := metrics.1.jobsFailed
     averageEndToEndLatencyMs := metrics.1.averageLatencyMs
     p50LatencyMs := metrics.1.p50LatencyMs
     p99LatencyMs := metrics.1.p99LatencyMs },
   { s with queueMetrics := metrics.2 })

/-- One event; a tick goes on only from where it is suspended. -/
def step : MetricsReporter options → ReporterEvent → Option (MetricsReporter options)
  | s, .accepted amount => some { s with counter := s.counter.increment amount }
  | s, .buffer event => (s.buffers.step event).map fun buffers => { s with buffers := buffers }
  | s, .jobProcessed latencyMs =>
    some { s with queueMetrics := s.queueMetrics.recordJobProcessed latencyMs }
  | s, .jobFailed => some { s with queueMetrics := s.queueMetrics.recordJobFailed }
  | s, .tick bufferReads => if s.timer then some (s.onTick bufferReads) else none
  | s, .queueStats k reply =>
    match s.ticks[k]? with
    | some ⟨totalAccepted, .readingQueue stats dropsThisTick⟩ =>
      match reply with
      | some counts =>
        let (queue, s) := s.getQueueStats counts
        some { s with
          ticks := s.ticks.set k ⟨totalAccepted, .readingItems stats dropsThisTick queue⟩ }
      | none => some { s with ticks := s.ticks.set k ⟨totalAccepted, .failed⟩ }
    | _ => none
  | s, .activeWorkItems k reply time =>
    match s.ticks[k]? with
    | some ⟨totalAccepted, .readingItems stats dropsThisTick queue⟩ =>
      -- a rejection is caught and shown as `n/a`
      let line := ReporterTick.lineAt ⟨totalAccepted, .readingItems stats dropsThisTick queue⟩
        stats dropsThisTick queue reply time
      some { s with
        ticks := s.ticks.set k ⟨totalAccepted, .printed line⟩
        stdout := s.stdout ++ [line] }
    | _ => none
  | s, .stop => some { s with timer := false }

/-- The reporter of a process as a transition system. -/
def lts (options : SignalBufferOptions) : Lts (MetricsReporter options) ReporterEvent := ⟨step⟩

/-! ### The books of the reporter -/

end MetricsReporter

/-- What an event adds to the accepted signals. -/
def ReporterEvent.counted : ReporterEvent → ℕ
  | accepted amount => amount
  | _ => 0

/-- Whether the interval fires. -/
def ReporterEvent.isTick : ReporterEvent → Bool
  | tick _ => true
  | _ => false

/-- The accepted signals that the printed rate of a line stands for. -/
def ConsoleLineInput.acceptedShown (line : ConsoleLineInput) : ℚ :=
  tenths line.signalsPerSecond / 10 * seconds

namespace ReporterTick

variable (tick : ReporterTick)

/-- What the tick has printed. -/
def lines : List ConsoleLineInput :=
  match tick.pc with
  | .printed line => [line]
  | _ => []

/-- The drops that the tick has taken and not given up. -/
def drops : ℕ :=
  match tick.pc with
  | .readingQueue _ dropsThisTick | .readingItems _ dropsThisTick _ => dropsThisTick
  | .printed line => line.dropsThisTick
  | .failed => 0

/-- The tick has ended. -/
def isSettled : Bool :=
  match tick.pc with
  | .printed _ | .failed => true
  | _ => false

/-- A printed line shows the window of its tick. -/
def Shows : Prop := ∀ line, tick.pc = .printed line → line.signalsPerSecond = tick.signalsPerSecond

variable {tick}

/-- A tick that has ended without throwing has printed. -/
lemma printed_of_isSettled (h : tick.isSettled = true) (hnot : tick.pc ≠ .failed) :
    ∃ line, tick.pc = .printed line := by
  cases hpc : tick.pc with
  | printed line => exact ⟨line, rfl⟩
  | failed => exact absurd hpc hnot
  | _ => simp [isSettled, hpc] at h

lemma tenths_signalsPerSecond : tenths tick.signalsPerSecond = 2 * tick.totalAccepted := by
  have hrate : tick.signalsPerSecond * 10 + 1 / 2 = (2 * tick.totalAccepted : ℕ) + 1 / 2 := by
    simp only [signalsPerSecond, seconds, intervalMs]
    push_cast
    ring
  have hfloor : ⌊((2 * tick.totalAccepted : ℕ) : ℚ) + 1 / 2⌋ = (2 * tick.totalAccepted : ℕ) := by
    rw [Int.floor_natCast_add]
    norm_num
  rw [tenths, hrate, hfloor, Int.toNat_natCast]

/-- The printed rate is exact. -/
lemma acceptedShown_eq {line : ConsoleLineInput}
    (h : line.signalsPerSecond = tick.signalsPerSecond) :
    line.acceptedShown = tick.totalAccepted := by
  rw [ConsoleLineInput.acceptedShown, h, tenths_signalsPerSecond]
  simp only [seconds, intervalMs]
  push_cast
  ring

end ReporterTick

namespace MetricsReporter

variable {options : SignalBufferOptions} {s s' : MetricsReporter options} {e : ReporterEvent}

/-- Every tick has printed one line, and the lines show the accepted and dropped signals. -/
structure Complete (s : MetricsReporter options) (accepted dropped : ℕ) : Prop where
  printed : ∀ tick ∈ s.ticks, ∃ line, tick.lines = [line]
  stdout : s.stdout ~ s.ticks.flatMap (·.lines)
  accepted : (s.stdout.map (·.acceptedShown)).sum = accepted
  dropped : (s.stdout.map (·.dropsThisTick)).sum = dropped

/-- The reads that a tick does not guard answer: those of the buffer and of the queue. -/
def ReadsAnswer (_ : MetricsReporter options) : ReporterEvent → Prop
  | .tick bufferReads => bufferReads = true
  | .queueStats _ reply => reply.isSome = true
  | _ => True

instance (s : MetricsReporter options) (e : ReporterEvent) : Decidable (s.ReadsAnswer e) :=
  match e with
  | .tick bufferReads => inferInstanceAs (Decidable (bufferReads = true))
  | .queueStats _ reply => inferInstanceAs (Decidable (reply.isSome = true))
  | .accepted _ | .buffer _ | .jobProcessed _ | .jobFailed | .activeWorkItems _ _ _ | .stop =>
    isTrue trivial

/-- No tick has thrown. -/
def NoneFailed (s : MetricsReporter options) : Prop := ∀ tick ∈ s.ticks, tick.pc ≠ .failed

/-- The invariant of the runs in which `accepted` signals have been counted. -/
structure Books (accepted : ℕ) (s : MetricsReporter options) : Prop where
  buffers : s.buffers.Inv
  window : (s.ticks.map (·.totalAccepted)).sum + s.counter.count = accepted
  stdout : s.stdout ~ s.ticks.flatMap (·.lines)
  shows : ∀ tick ∈ s.ticks, tick.Shows
  remembered : s.previousTotalDropped ≤ s.totalDropped
  drops : s.NoneFailed → (s.ticks.map (·.drops)).sum = s.previousTotalDropped

lemma totalDropped_eq (h : s.buffers.Inv) :
    s.totalDropped = (BufferSystem.History.drops s.buffers.history).length := by
  have hcount : ∀ l : List (Severity × DropReason), l.countP (·.2 = .shed_ceiling)
      + l.countP (·.2 = .hard_capacity) + l.countP (·.2 = .sink_failure) = l.length := by
    intro l
    induction l with
    | nil => rfl
    | cons drop l ih =>
      obtain ⟨severity, reason⟩ := drop
      cases reason <;> simp <;> omega
  simp only [totalDropped, sumDroppedThisPeriod, SignalBuffer.getStats, h.ledger.byReason]
  exact hcount _

lemma books_start : (start options).Books 0 where
  buffers := BufferSystem.inv_init
  window := rfl
  stdout := .refl _
  shows _ h := by cases h
  remembered := Nat.zero_le _
  drops _ := rfl

/-- A tick whose step changes neither its window nor its drops. -/
lemma Books.set {accepted : ℕ} (h : s.Books accepted) {k : ℕ} {tick : ReporterTick}
    (tick' : ReporterTick) (hk : s.ticks[k]? = some tick)
    (htotal : tick'.totalAccepted = tick.totalAccepted)
    (hlines : tick.lines = []) (hshows : tick'.Shows)
    (hdrops : tick'.pc ≠ .failed → tick.pc ≠ .failed ∧ tick'.drops = tick.drops) :
    Books accepted { s with
      ticks := s.ticks.set k tick'
      stdout := s.stdout ++ tick'.lines } where
  buffers := h.buffers
  window := by
    have hsame := map_set_of_eq (f := ReporterTick.totalAccepted) hk htotal
    exact hsame ▸ h.window
  stdout := by
    have hbefore := flatMap_eraseIdx_perm hk (·.lines)
    rw [hlines, List.nil_append] at hbefore
    calc s.stdout ++ tick'.lines
        ~ (s.ticks.eraseIdx k).flatMap (·.lines) ++ tick'.lines :=
          (h.stdout.trans hbefore).append_right _
      _ ~ tick'.lines ++ (s.ticks.eraseIdx k).flatMap (·.lines) := List.perm_append_comm
      _ ~ (s.ticks.set k tick').flatMap (·.lines) := (flatMap_set_perm hk tick' _).symm
  shows tick'' hmem := by
    rcases List.mem_or_eq_of_mem_set hmem with hold | rfl
    · exact h.shows tick'' hold
    · exact hshows
  remembered := h.remembered
  drops hnone := by
    obtain ⟨hnot, hsame⟩ := hdrops (hnone tick' (mem_set_self_of hk tick'))
    rw [← h.drops ?_]
    · exact congrArg List.sum (map_set_of_eq hk hsame)
    · intro tick'' hmem
      rcases eq_or_mem_set_of_mem hk hmem tick' with rfl | hset
      · exact hnot
      · exact hnone tick'' hset

/-- A tick that starts takes the window of the counter. -/
lemma Books.tick {accepted : ℕ} (h : s.Books accepted) (bufferReads : Bool) :
    (s.onTick bufferReads).Books accepted := by
  have hshows : ∀ pc, (∀ line, pc ≠ .printed line) → ∀ tick ∈ s.ticks ++
      [⟨s.counter.count, pc⟩], tick.Shows := by
    intro pc hpc tick hmem
    rcases List.mem_append.1 hmem with hold | hnew
    · exact h.shows tick hold
    · obtain rfl := List.mem_singleton.1 hnew
      intro line hline
      exact absurd hline (hpc line)
  have hwindow := h.window
  cases bufferReads with
  | true =>
    refine ⟨h.buffers, ?_, ?_, hshows _ (by simp), Nat.le_refl _, fun hnone => ?_⟩
    · simpa [onTick, ThroughputCounter.reset] using hwindow
    · simpa [onTick, ReporterTick.lines] using h.stdout
    · have hold := h.drops fun tick hmem => hnone tick (List.mem_append_left _ hmem)
      have hle := h.remembered
      have hnew : ∀ stats, ReporterTick.drops ⟨s.counter.count, .readingQueue stats
          (s.totalDropped - s.previousTotalDropped)⟩ = s.totalDropped - s.previousTotalDropped :=
        fun _ => rfl
      simp only [onTick, if_true, List.map_append, List.sum_append, hold, List.map_cons,
        List.map_nil, List.sum_cons, List.sum_nil, hnew, ThroughputCounter.reset]
      omega
  | false =>
    refine ⟨h.buffers, ?_, ?_, hshows _ (by simp), h.remembered, fun hnone => ?_⟩
    · simpa [onTick, ThroughputCounter.reset] using hwindow
    · simpa [onTick, ReporterTick.lines] using h.stdout
    · exact absurd rfl (hnone ⟨s.counter.count, .failed⟩
        (List.mem_append_right _ (List.mem_singleton.2 rfl)))

lemma step_queueStats_inv {k : ℕ} {reply : Option QueueCounts}
    (hstep : s.step (.queueStats k reply) = some s') : ∃ totalAccepted stats dropsThisTick,
      s.ticks[k]? = some ⟨totalAccepted, .readingQueue stats dropsThisTick⟩ ∧
      ((reply = none ∧ s' = { s with ticks := s.ticks.set k ⟨totalAccepted, .failed⟩ }) ∨
        ∃ counts, reply = some counts ∧ s' = { (s.getQueueStats counts).2 with
          ticks := s.ticks.set k ⟨totalAccepted, .readingItems stats dropsThisTick
            (s.getQueueStats counts).1⟩ }) := by
  simp only [step] at hstep
  split at hstep
  · rename_i totalAccepted stats dropsThisTick hk
    refine ⟨totalAccepted, stats, dropsThisTick, hk, ?_⟩
    cases reply with
    | none => exact .inl ⟨rfl, (Option.some.inj hstep).symm⟩
    | some counts => exact .inr ⟨counts, rfl, (Option.some.inj hstep).symm⟩
  · cases hstep

lemma step_activeWorkItems_inv {k : ℕ} {reply : Option ℕ} {time : Instant}
    (hstep : s.step (.activeWorkItems k reply time) = some s') :
    ∃ (tick : ReporterTick) (stats : SignalBuffer.Stats) (dropsThisTick : ℕ)
      (queue : QueueReportSnapshot) (line : ConsoleLineInput), s.ticks[k]? = some tick ∧
      tick.pc = .readingItems stats dropsThisTick queue ∧
      line = tick.lineAt stats dropsThisTick queue reply time ∧
      s' = { s with
        ticks := s.ticks.set k ⟨tick.totalAccepted, .printed line⟩
        stdout := s.stdout ++ [line] } := by
  simp only [step] at hstep
  split at hstep
  · rename_i totalAccepted stats dropsThisTick queue hk
    exact ⟨_, stats, dropsThisTick, queue, _, hk, rfl, rfl, (Option.some.inj hstep).symm⟩
  · cases hstep

lemma books_step {accepted : ℕ} (h : s.Books accepted) (hstep : s.step e = some s') :
    s'.Books (accepted + e.counted) := by
  cases e with
  | accepted amount =>
    obtain rfl := Option.some.inj hstep
    refine ⟨h.buffers, ?_, h.stdout, h.shows, h.remembered, h.drops⟩
    have hwindow := h.window
    simp only [ThroughputCounter.increment, ReporterEvent.counted]
    omega
  | buffer event =>
    obtain ⟨buffers, hbuffers, rfl⟩ := Option.map_eq_some_iff.1 hstep
    have hkept := h.buffers.step hbuffers
    refine ⟨hkept, h.window, h.stdout, h.shows, h.remembered.trans ?_, h.drops⟩
    rw [totalDropped_eq h.buffers, totalDropped_eq (s := { s with buffers := buffers }) hkept]
    exact BufferSystem.length_drops_le hbuffers
  | jobProcessed | jobFailed | stop =>
    obtain rfl := Option.some.inj hstep
    exact ⟨h.buffers, h.window, h.stdout, h.shows, h.remembered, h.drops⟩
  | tick bufferReads =>
    simp only [step, Option.ite_none_right_eq_some, Option.some.injEq] at hstep
    obtain ⟨-, rfl⟩ := hstep
    exact h.tick bufferReads
  | queueStats k reply =>
    obtain ⟨totalAccepted, stats, dropsThisTick, hk, ⟨-, rfl⟩ | ⟨counts, -, rfl⟩⟩ :=
      step_queueStats_inv hstep
    · have hset := h.set ⟨totalAccepted, .failed⟩ hk rfl rfl
        (by rintro line hline; cases hline) (by simp)
      simpa [ReporterTick.lines, ReporterEvent.counted] using hset
    · have hset := h.set ⟨totalAccepted, .readingItems stats dropsThisTick
        (s.getQueueStats counts).1⟩ hk rfl rfl (by rintro line hline; cases hline)
        (fun _ => ⟨by simp, rfl⟩)
      rw [ReporterTick.lines, List.append_nil] at hset
      exact ⟨hset.buffers, hset.window, hset.stdout, hset.shows, hset.remembered, hset.drops⟩
  | activeWorkItems k reply time =>
    obtain ⟨⟨_, _⟩, _, _, _, _, hk, rfl, rfl, rfl⟩ := step_activeWorkItems_inv hstep
    refine h.set _ hk rfl rfl ?_ (fun _ => ⟨by simp, rfl⟩)
    rintro line hline
    cases hline
    rfl

/-- The books of a run count what its events have counted. -/
lemma books_of_run {es : List ReporterEvent}
    (hrun : (lts options).run (start options) es = some s) : s.Books (es.map (·.counted)).sum :=
  Lts.run_invariant_history (I := fun es s => s.Books (es.map (·.counted)).sum) books_start
    (fun es s e s' _ hbooks hstep => by simpa using books_step hbooks hstep) hrun

/-- Between two ticks no window and no remembered total changes. -/
lemma frame_step (htick : e.isTick = false) (hstep : s.step e = some s') :
    s'.ticks.map (·.totalAccepted) = s.ticks.map (·.totalAccepted) ∧
      s'.previousTotalDropped = s.previousTotalDropped := by
  cases e with
  | accepted | jobProcessed | jobFailed | stop =>
    obtain rfl := Option.some.inj hstep
    exact ⟨rfl, rfl⟩
  | buffer event =>
    obtain ⟨buffers, -, rfl⟩ := Option.map_eq_some_iff.1 hstep
    exact ⟨rfl, rfl⟩
  | tick => cases htick
  | queueStats k reply =>
    obtain ⟨_, _, _, hk, ⟨-, rfl⟩ | ⟨counts, -, rfl⟩⟩ := step_queueStats_inv hstep
    · exact ⟨map_set_of_eq hk rfl, rfl⟩
    · exact ⟨map_set_of_eq hk rfl, rfl⟩
  | activeWorkItems k reply time =>
    obtain ⟨tick, _, _, _, _, hk, -, -, rfl⟩ := step_activeWorkItems_inv hstep
    exact ⟨map_set_of_eq hk rfl, rfl⟩

lemma noneFailed_set_iff {k : ℕ} {tick tick' : ReporterTick} {P : Prop}
    (hk : s.ticks[k]? = some tick) (hnot : tick.pc ≠ .failed) (hP : tick'.pc ≠ .failed ↔ P) :
    (∀ tick ∈ s.ticks.set k tick', tick.pc ≠ .failed) ↔ s.NoneFailed ∧ P :=
  forall_mem_set_iff hk (by simp [hnot, hP])

/-- A tick throws exactly where a read does not answer. -/
lemma noneFailed_step (hstep : s.step e = some s') :
    s'.NoneFailed ↔ s.NoneFailed ∧ s.ReadsAnswer e := by
  cases e with
  | accepted | jobProcessed | jobFailed | stop =>
    obtain rfl := Option.some.inj hstep
    exact (iff_of_eq (and_true _)).symm
  | buffer event =>
    obtain ⟨buffers, -, rfl⟩ := Option.map_eq_some_iff.1 hstep
    exact (iff_of_eq (and_true _)).symm
  | tick bufferReads =>
    simp only [step, Option.ite_none_right_eq_some, Option.some.injEq] at hstep
    obtain ⟨-, rfl⟩ := hstep
    cases bufferReads <;> simp [NoneFailed, onTick, ReadsAnswer, or_imp, forall_and]
  | queueStats k reply =>
    obtain ⟨_, _, _, hk, ⟨rfl, rfl⟩ | ⟨counts, rfl, rfl⟩⟩ := step_queueStats_inv hstep
    · exact noneFailed_set_iff hk (by simp) (by simp [ReadsAnswer])
    · exact noneFailed_set_iff hk (by simp) (by simp [ReadsAnswer])
  | activeWorkItems k reply time =>
    obtain ⟨tick, _, _, _, _, hk, hpc, -, rfl⟩ := step_activeWorkItems_inv hstep
    exact noneFailed_set_iff hk (by simp [hpc]) (by simp [ReadsAnswer])

lemma length_ticks_of_run {es : List ReporterEvent}
    (hrun : (lts options).run (start options) es = some s) :
    s.ticks.length = es.countP ReporterEvent.isTick := by
  refine Lts.run_invariant_history (I := fun es (s : MetricsReporter options) =>
    s.ticks.length = es.countP ReporterEvent.isTick) rfl ?_ hrun
  intro es s e s' _ hlength hstep
  rw [List.countP_append, List.countP_singleton]
  cases htick : e.isTick with
  | false =>
    have hframe := congrArg List.length (frame_step htick hstep).1
    rw [List.length_map, List.length_map] at hframe
    simpa [hframe] using hlength
  | true =>
    cases e with
    | tick bufferReads =>
      simp only [lts, step, Option.ite_none_right_eq_some, Option.some.injEq] at hstep
      obtain ⟨-, rfl⟩ := hstep
      cases bufferReads <;> simp [onTick, hlength]
    | _ => cases htick

/-- What the lines of printed ticks show is what the ticks have taken. -/
lemma sums_of_printed {ticks : List ReporterTick}
    (hprinted : ∀ tick ∈ ticks, tick.Shows ∧ ∃ line, tick.pc = .printed line) :
    ((ticks.flatMap (·.lines)).map (·.acceptedShown)).sum =
        ((ticks.map (·.totalAccepted)).sum : ℕ) ∧
      ((ticks.flatMap (·.lines)).map (·.dropsThisTick)).sum = (ticks.map (·.drops)).sum := by
  induction ticks with
  | nil => exact ⟨rfl, rfl⟩
  | cons tick ticks ih =>
    obtain ⟨hshows, line, hline⟩ := hprinted tick List.mem_cons_self
    obtain ⟨haccepted, hdropped⟩ := ih fun tick hmem => hprinted tick (List.mem_cons_of_mem _ hmem)
    have hlines : tick.lines = [line] := by rw [ReporterTick.lines, hline]
    have hdrops : tick.drops = line.dropsThisTick := by rw [ReporterTick.drops, hline]
    have hshown := ReporterTick.acceptedShown_eq (hshows line hline)
    simp only [List.flatMap_cons, hlines, List.map_append, List.map_cons, List.map_nil,
      List.sum_append, List.sum_cons, List.sum_nil, haccepted, hdropped, hdrops, hshown]
    constructor
    · push_cast
      ring
    · omega

/-- Behind the last tick, the ticks' windows are all that was counted before it, and the
remembered total is the one it has read. -/
lemma taken_of_last_tick {es fs : List ReporterEvent} {bufferReads : Bool}
    {s₁ : MetricsReporter options} (hrun₁ : (lts options).run (start options) es = some s₁)
    (hrun₂ : (lts options).run s₁ (.tick bufferReads :: fs) = some s)
    (hlast : ∀ e ∈ fs, e.isTick = false) :
    (s.ticks.map (·.totalAccepted)).sum = (es.map (·.counted)).sum ∧
      (bufferReads = true → s.previousTotalDropped = s₁.totalDropped) := by
  obtain ⟨s₂, htick, hfs⟩ := Lts.run_cons_inv hrun₂
  have hstep : s₁.step (.tick bufferReads) = some s₂ := htick
  have hbooks := books_step (books_of_run hrun₁) hstep
  simp only [step, Option.ite_none_right_eq_some, Option.some.injEq] at hstep
  obtain ⟨-, rfl⟩ := hstep
  have hframe := Lts.run_invariant_of_events
    (I := fun s : MetricsReporter options =>
      s.ticks.map (·.totalAccepted) = (s₁.onTick bufferReads).ticks.map (·.totalAccepted) ∧
      s.previousTotalDropped = (s₁.onTick bufferReads).previousTotalDropped)
    (fun s e s' hs htick hstep => by
      obtain ⟨htotal, hdropped⟩ := frame_step htick hstep
      exact ⟨htotal.trans hs.1, hdropped.trans hs.2⟩)
    hfs hlast ⟨rfl, rfl⟩
  constructor
  · have hwindow := hbooks.window
    have hcounter : (s₁.onTick bufferReads).counter.count = 0 := by cases bufferReads <;> rfl
    rw [hcounter] at hwindow
    simpa [hframe.1, ReporterEvent.counted] using hwindow
  · rintro rfl
    exact hframe.2

/-- Whatever the process counts and however its reads answer: once all ticks have ended, the
lines account for every tick and for all accepted and dropped signals up to the last tick if
and only if no read of the buffer has thrown and no read of the queue has rejected. -/
theorem complete_iff_reads_answer {es fs : List ReporterEvent} {bufferReads : Bool}
    {s₁ : MetricsReporter options} (hrun₁ : (lts options).run (start options) es = some s₁)
    (hrun₂ : (lts options).run s₁ (.tick bufferReads :: fs) = some s)
    (hlast : ∀ e ∈ fs, e.isTick = false) (hsettled : ∀ tick ∈ s.ticks, tick.isSettled = true) :
    s.ticks.length = (es ++ .tick bufferReads :: fs).countP ReporterEvent.isTick ∧
      (s.Complete (es.map (·.counted)).sum s₁.totalDropped ↔
        (lts options).Meets ReadsAnswer (start options) (es ++ .tick bufferReads :: fs)) := by
  have hrun : (lts options).run (start options) (es ++ .tick bufferReads :: fs) = some s := by
    rw [Lts.run_append, hrun₁, Option.bind_some, hrun₂]
  have hbooks := books_of_run hrun
  refine ⟨length_ticks_of_run hrun, ?_⟩
  have hnone := Lts.last_iff_meets (I := NoneFailed) (J := fun _ => True) (P := ReadsAnswer)
    (fun _ _ _ _ _ => trivial) (fun _ _ _ _ hstep => noneFailed_step hstep) hrun trivial
  have hnone₂ := Lts.last_iff_meets (I := NoneFailed) (J := fun _ => True) (P := ReadsAnswer)
    (fun _ _ _ _ _ => trivial) (fun _ _ _ _ hstep => noneFailed_step hstep) hrun₂ trivial
  have hstart : (start options).NoneFailed := by
    intro tick hmem
    cases hmem
  constructor
  · intro hcomplete
    refine (hnone.1 fun tick hmem hfailed => ?_).2
    obtain ⟨line, hline⟩ := hcomplete.printed tick hmem
    rw [ReporterTick.lines, hfailed] at hline
    cases hline
  · intro hmeets
    have hall := hnone.2 ⟨hstart, hmeets⟩
    have hprinted : ∀ tick ∈ s.ticks, tick.Shows ∧ ∃ line, tick.pc = .printed line :=
      fun tick hmem => ⟨hbooks.shows tick hmem,
        ReporterTick.printed_of_isSettled (hsettled tick hmem) (hall tick hmem)⟩
    obtain ⟨haccepted, hdropped⟩ := sums_of_printed hprinted
    obtain ⟨hwindow, hremembered⟩ := taken_of_last_tick hrun₁ hrun₂ hlast
    refine ⟨fun tick hmem => ?_, hbooks.stdout, ?_, ?_⟩
    · obtain ⟨line, hline⟩ := (hprinted tick hmem).2
      exact ⟨line, by rw [ReporterTick.lines, hline]⟩
    · rw [(hbooks.stdout.map _).sum_eq, haccepted, hwindow]
    · have hreads : bufferReads = true := (hnone₂.1 hall).2.1
      rw [(hbooks.stdout.map _).sum_eq, hdropped, hbooks.drops hall, hremembered hreads]

/-- Two ticks that overlap; a signal is dropped between them. -/
def overlappingTicks : List ReporterEvent :=
  [.accepted 3, .tick true, .accepted 4, .buffer (.submit (cacheSignal "a" "c" .P3)),
    .buffer (.submit (cacheSignal "b" "c" .P3))]

/-- The later tick prints first; its count of work items rejects. -/
def overlappingReads : List ReporterEvent :=
  [.queueStats 1 (some ⟨2, 1, [0]⟩), .queueStats 0 (some ⟨2, 1, [0]⟩), .accepted 9,
    .activeWorkItems 1 none 5000, .activeWorkItems 0 (some 7) 5001]

theorem complete_iff_reads_answer_of_overlap : ∃ s : MetricsReporter BufferSystem.tinyOptions,
    (lts _).run (start _) (overlappingTicks ++ .tick true :: overlappingReads) = some s ∧
      s.Complete 7 1 := by
  have hobserved : ((lts BufferSystem.tinyOptions).run (start _) overlappingTicks).bind (fun s₁ =>
      ((lts _).run s₁ (.tick true :: overlappingReads)).map fun s =>
        (s₁.totalDropped, s.ticks.all (·.isSettled))) = some (1, true) := by
    decide +kernel
  obtain ⟨s₁, hrun₁, h₁⟩ := Option.bind_eq_some_iff.1 hobserved
  obtain ⟨s, hrun₂, h₂⟩ := Option.map_eq_some_iff.1 h₁
  obtain ⟨htotal, hsettled⟩ := Prod.mk.inj h₂
  have hcomplete := (complete_iff_reads_answer hrun₁ hrun₂ (by decide)
    (List.all_eq_true.1 hsettled)).2.2 (by decide +kernel)
  rw [htotal] at hcomplete
  exact ⟨s, by rw [Lts.run_append, hrun₁, Option.bind_some, hrun₂], hcomplete⟩

/-- BullMQ rejects once: the tick prints nothing, and its five accepted signals are in no
line. -/
theorem window_lost : ∃ s : MetricsReporter BufferSystem.tinyOptions,
    (lts _).run (start _) [.accepted 5, .tick true, .queueStats 0 none, .tick true,
      .queueStats 1 (some ⟨0, 0, []⟩), .activeWorkItems 1 (some 0) 10000] = some s ∧
    s.ticks.all (·.isSettled) = true ∧ s.ticks.map (·.lines.length) = [0, 1] ∧
    s.stdout.map (·.acceptedShown) = [0] ∧ ∀ dropped, ¬ s.Complete 5 dropped := by
  have hobserved : ((lts BufferSystem.tinyOptions).run (start _) [.accepted 5, .tick true,
      .queueStats 0 none, .tick true, .queueStats 1 (some ⟨0, 0, []⟩),
      .activeWorkItems 1 (some 0) 10000]).map (fun s => (s.ticks.all (·.isSettled),
        s.ticks.map (·.lines.length), s.stdout.map (·.acceptedShown)))
      = some (true, [0, 1], [0]) := by
    decide +kernel
  obtain ⟨s, hrun, hs⟩ := Option.map_eq_some_iff.1 hobserved
  simp only [Prod.mk.injEq] at hs
  obtain ⟨hsettled, hlines, hshown⟩ := hs
  refine ⟨s, hrun, hsettled, hlines, hshown, fun dropped hcomplete => ?_⟩
  have haccepted := hcomplete.accepted
  rw [hshown] at haccepted
  norm_num at haccepted

end MetricsReporter

end InveniOps.Metrics
