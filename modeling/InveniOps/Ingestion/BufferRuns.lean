import Mathlib.Algebra.Order.Group.Multiset
import InveniOps.Lib.Lts
import InveniOps.Lib.ListFacts
import InveniOps.Ingestion.SignalBuffer

/-!
# The drain loop and the runs of the buffer

`drainToSink`, `start`, `stop` and `drainAll` of `SignalBuffer` suspend at the
sink.  A suspended `drainToSink` is kept with its batch and with the caller that
awaits it; the sink settles it, and its caller then resumes.  Submissions may
come between any two of these steps.  The history records where the signals
went; nothing reads it.
-/

namespace InveniOps.Ingestion

open Lib
open scoped List

/-- The caller that awaits a `drainToSink`: a tick of the interval, or a
`drainAll` with its deadline and its counters so far. -/
inductive DrainCaller
  | tick
  | drainAll (deadline : Instant) (succeeded failed : ℕ)
deriving DecidableEq

/-- Where a drain that popped its batch is suspended. -/
inductive DrainPhase
  /-- At `await this.sink.drain(batch)`. -/
  | sink
  /-- Returned `{ drained, failed }`, the caller not yet resumed. -/
  | settled (drained failed : ℕ)
deriving DecidableEq

/-- A call of `drainToSink` in progress. -/
structure Drain where
  caller : DrainCaller
  batch : List IngestionSignal
  phase : DrainPhase

/-- What `drainAll` returns. -/
structure DrainAllResult where
  processed : ℕ
  succeeded : ℕ
  failed : ℕ
  remaining : ℕ
deriving DecidableEq

/-- Where the submitted signals went, apart from those still queued or pending. -/
structure History where
  submitted : List IngestionSignal
  rejected : List (IngestionSignal × {reason : DropReason // reason ≠ .sink_failure})
  evicted : List IngestionSignal
  drained : List IngestionSignal
  lost : List IngestionSignal

/-- The history before the first submission. -/
def History.empty : History := ⟨[], [], [], [], []⟩

/-- Record the outcome of a submission. -/
def History.record (h : History) (signal : IngestionSignal) :
    SubmitResult × Option IngestionSignal → History
  | (.accepted, evicted) =>
    { h with submitted := h.submitted ++ [signal], evicted := h.evicted ++ evicted.toList }
  | (.rejected reason, _) =>
    { h with submitted := h.submitted ++ [signal], rejected := h.rejected ++ [(signal, reason)] }

/-- The buffer of a process with its drains in progress. -/
structure BufferSystem (options : SignalBufferOptions) where
  buffer : SignalBuffer options
  drains : List Drain
  results : List DrainAllResult
  history : History

/-- What the process that owns the buffer can do next. -/
inductive BufferEvent
  | submit (signal : IngestionSignal)
  | start
  | stop
  /-- The interval fires. -/
  | tick
  /-- `drainAll` is called: the clock for the deadline and for the first test. -/
  | drainAll (timeoutMs : ℤ) (now now' : Instant)
  /-- The `k`-th drain's sink call resolves or rejects. -/
  | settle (k : ℕ) (ok : Bool)
  /-- The caller of the `k`-th drain resumes. -/
  | resume (k : ℕ) (now : Instant)

namespace BufferSystem

variable {options : SignalBufferOptions}

/-- A new buffer with no drain under way. -/
def init (options : SignalBufferOptions) : BufferSystem options :=
  ⟨SignalBuffer.new options, [], [], History.empty⟩

variable (s : BufferSystem options)

/-- `drainToSink(this.options.drainBatchSize)` up to its first suspension. -/
def drainToSink (caller : DrainCaller) : BufferSystem options :=
  let popped := s.buffer.popPriorityBatch options.drainBatchSize
  if popped.1.length = 0 then
    { s with buffer := popped.2, drains := s.drains ++ [⟨caller, popped.1, .settled 0 0⟩] }
  else
    { s with
      buffer := popped.2.recomputeState
      -- the signals leave the queues before the sink has them
      drains := s.drains ++ [⟨caller, popped.1, .sink⟩] }

/-- The `while` of `drainAll` and its return. -/
def drainAllLoop (deadline : Instant) (succeeded failed : ℕ) (now : Instant) :
    BufferSystem options :=
  if 0 < s.buffer.totalSize ∧ now < deadline then
    s.drainToSink (.drainAll deadline succeeded failed)
  else
    { s with
      results := s.results ++ [⟨succeeded + failed, succeeded, failed, s.buffer.totalSize⟩] }

/-- The callback of the interval. -/
def onTick : BufferSystem options :=
  -- the flag keeps ticks from overlapping, but not a tick from overlapping `drainAll`
  if s.buffer.draining then s
  else { s with buffer := { s.buffer with draining := true } }.drainToSink .tick

/-- The continuation of `drainToSink` behind the sink call. -/
def onSettle (k : ℕ) (drain : Drain) : Bool → BufferSystem options
  | true =>
    { s with
      drains := s.drains.set k { drain with phase := .settled drain.batch.length 0 }
      history := { s.history with drained := s.history.drained ++ drain.batch } }
  | false =>
    { s with
      buffer := s.buffer.recordSinkFailure drain.batch
      drains := s.drains.set k { drain with phase := .settled 0 drain.batch.length }
      history := { s.history with lost := s.history.lost ++ drain.batch } }

/-- The continuation of the caller: the `finally` of the tick, or the next round
of `drainAll`. -/
def onResume (drained failed : ℕ) (now : Instant) : DrainCaller → BufferSystem options
  | .tick => { s with buffer := { s.buffer with draining := false } }
  | .drainAll deadline succeeded failed' =>
    s.drainAllLoop deadline (succeeded + drained) (failed' + failed) now

/-- One event of the buffer's life, where it is possible. -/
def step : BufferSystem options → BufferEvent → Option (BufferSystem options)
  | s, .submit signal =>
    let outcome := s.buffer.submit signal
    some { s with
      buffer := outcome.2.2
      history := s.history.record signal (outcome.1, outcome.2.1) }
  | s, .start => some { s with buffer := { s.buffer with timer := true } }
  | s, .stop => some { s with buffer := { s.buffer with timer := false } }
  | s, .tick => if s.buffer.timer then some s.onTick else none
  | s, .drainAll timeoutMs now now' => some (s.drainAllLoop (now + timeoutMs) 0 0 now')
  | s, .settle k ok =>
    match s.drains[k]? with
    | some ⟨caller, batch, .sink⟩ => some (s.onSettle k ⟨caller, batch, .sink⟩ ok)
    | _ => none
  | s, .resume k now =>
    match s.drains[k]? with
    | some ⟨caller, _, .settled drained failed⟩ =>
      some ({ s with drains := s.drains.eraseIdx k }.onResume drained failed now caller)
    | _ => none

/-- The buffer of one process as a transition system. -/
def lts (options : SignalBufferOptions) : Lts (BufferSystem options) BufferEvent := ⟨step⟩

/-! ### Conservation -/

/-- The batch a drain has in the sink. -/
def pendingOf (drain : Drain) : List IngestionSignal :=
  match drain.phase with
  | .sink => drain.batch
  | .settled _ _ => []

/-- The signals popped and pending in the sink. -/
def pending : List IngestionSignal := s.drains.flatMap pendingOf

/-- How many signals of one severity a list holds. -/
def countOf (severity : Severity) (signals : List IngestionSignal) : ℕ :=
  signals.countP (·.severity = severity)

/-- Every submission is in exactly one place, the four figures of each severity
add up, and the drop ledgers agree. -/
structure Conserved : Prop where
  places : s.history.submitted ~ s.buffer.queued ++ s.pending ++ s.history.drained
    ++ s.history.lost ++ s.history.rejected.map Prod.fst ++ s.history.evicted
  figures : ∀ severity, countOf severity s.history.submitted
    = s.buffer.getStats.depthBySeverity severity + countOf severity s.pending
      + countOf severity s.history.drained + s.buffer.getStats.droppedBySeverity severity
  rows : ∀ severity, s.buffer.getStats.droppedBySeverity severity
    = s.buffer.getStats.droppedBySeverityAndReason severity .shed_ceiling
      + s.buffer.getStats.droppedBySeverityAndReason severity .hard_capacity
      + s.buffer.getStats.droppedBySeverityAndReason severity .sink_failure
  columns : ∀ reason, s.buffer.getStats.droppedByReason reason
    = s.buffer.getStats.droppedBySeverityAndReason .P0 reason
      + s.buffer.getStats.droppedBySeverityAndReason .P1 reason
      + s.buffer.getStats.droppedBySeverityAndReason .P2 reason
      + s.buffer.getStats.droppedBySeverityAndReason .P3 reason

/-- The drops of a history, with their severities and reasons. -/
def History.drops (h : History) : List (Severity × DropReason) :=
  h.rejected.map (fun r => (r.1.severity, r.2.1))
    ++ h.evicted.map (fun signal => (signal.severity, .hard_capacity))
    ++ h.lost.map (fun signal => (signal.severity, .sink_failure))

/-- The invariant of the runs. -/
structure Inv : Prop where
  valid : s.buffer.Valid
  ledger : s.buffer.Ledger (History.drops s.history)
  places : (s.history.submitted : Multiset IngestionSignal)
    = s.buffer.queued + s.pending + s.history.drained + s.history.lost
      + (s.history.rejected.map Prod.fst : List IngestionSignal) + s.history.evicted

variable {s}

lemma inv_init : (init options).Inv where
  valid := SignalBuffer.valid_new
  ledger := SignalBuffer.ledger_new
  places := by simp [init, History.empty, pending]

/-- The invariant depends on queues, ledgers, drains and history alone. -/
lemma Inv.setTimer (h : s.Inv) (timer draining : Bool) :
    { s with buffer := { s.buffer with timer := timer, draining := draining } }.Inv :=
  ⟨h.valid.congr rfl, ⟨h.ledger.bySeverity, h.ledger.byReason, h.ledger.bySeverityAndReason⟩,
    h.places⟩

lemma drops_record_accepted (h : History) (signal : IngestionSignal)
    (evicted : Option IngestionSignal) :
    (SignalBuffer.submitDrops signal (.accepted, evicted) ++ History.drops h).Perm
      (History.drops (h.record signal (.accepted, evicted))) := by
  rw [← Multiset.coe_eq_coe]
  simp only [SignalBuffer.submitDrops, History.drops, History.record, List.map_append,
    ← Multiset.coe_add]
  ac_rfl

lemma drops_record_rejected (h : History) (signal : IngestionSignal)
    (reason : {reason : DropReason // reason ≠ .sink_failure}) (evicted : Option IngestionSignal) :
    (SignalBuffer.submitDrops signal (.rejected reason, evicted) ++ History.drops h).Perm
      (History.drops (h.record signal (.rejected reason, evicted))) := by
  rw [← Multiset.coe_eq_coe]
  simp only [SignalBuffer.submitDrops, History.drops, History.record, List.map_append,
    List.map_cons, List.map_nil, ← Multiset.coe_add]
  ac_rfl

/-- A submission keeps the invariant. -/
lemma Inv.submit (h : s.Inv) (signal : IngestionSignal) :
    { s with
      buffer := (s.buffer.submit signal).2.2
      history := s.history.record signal
        ((s.buffer.submit signal).1, (s.buffer.submit signal).2.1) }.Inv := by
  obtain ⟨hvalid, haccepted, hrejected, hledger⟩ := SignalBuffer.submit_spec h.valid signal
  have hplaces := h.places
  cases hresult : (s.buffer.submit signal).1 with
  | accepted =>
    rw [hresult] at hledger
    refine ⟨hvalid, (hledger _ h.ledger).perm (drops_record_accepted ..), ?_⟩
    have hqueued := Multiset.coe_eq_coe.2 (haccepted hresult)
    simp only [← Multiset.coe_add] at hqueued
    simp only [History.record, pending, ← Multiset.coe_add] at hplaces ⊢
    rw [hplaces]
    calc _ = ((s.buffer.queued : Multiset IngestionSignal) + ([signal] : List IngestionSignal))
            + (s.drains.flatMap pendingOf) + s.history.drained + s.history.lost
            + (s.history.rejected.map Prod.fst : List IngestionSignal) + s.history.evicted := by
          ac_rfl
      _ = _ := by
          rw [← hqueued]
          ac_rfl
  | rejected reason =>
    rw [hresult] at hledger
    obtain ⟨hqueues, -⟩ := hrejected (by simp [hresult])
    refine ⟨hvalid, (hledger _ h.ledger).perm (drops_record_rejected ..), ?_⟩
    simp only [History.record, pending, List.map_append, List.map_cons, List.map_nil,
      ← Multiset.coe_add, SignalBuffer.queued_congr hqueues] at hplaces ⊢
    rw [hplaces]
    ac_rfl

/-- A batch that goes to the sink moves from the queues to the pending signals. -/
lemma Inv.drainToSink (h : s.Inv) (caller : DrainCaller) : (s.drainToSink caller).Inv := by
  obtain ⟨hbatch, hrest, hvalid⟩ :=
    s.buffer.popPriorityBatch_spec options.drainBatchSize
  have hledger := h.ledger.popPriorityBatch options.drainBatchSize
  have hqueued : s.buffer.queued = (s.buffer.popPriorityBatch options.drainBatchSize).1
      ++ (s.buffer.popPriorityBatch options.drainBatchSize).2.queued := by
    rw [hbatch, hrest, List.take_append_drop]
  have hplaces := h.places
  dsimp only [BufferSystem.drainToSink]
  split_ifs with hempty
  · refine ⟨hvalid h.valid, hledger, ?_⟩
    rw [List.length_eq_zero_iff.1 hempty, List.nil_append] at hqueued
    simpa [pending, pendingOf, hqueued] using hplaces
  · refine ⟨(hvalid h.valid).congr SignalBuffer.queues_recomputeState, hledger.recomputeState, ?_⟩
    rw [hqueued] at hplaces
    simp only [pending, List.flatMap_append, List.flatMap_cons, List.flatMap_nil, pendingOf,
      List.append_nil, SignalBuffer.queued_congr SignalBuffer.queues_recomputeState,
      ← Multiset.coe_add] at hplaces ⊢
    rw [hplaces]
    ac_rfl

lemma Inv.drainAllLoop (h : s.Inv) (deadline : Instant) (succeeded failed : ℕ) (now : Instant) :
    (s.drainAllLoop deadline succeeded failed now).Inv := by
  unfold BufferSystem.drainAllLoop
  split_ifs
  · exact h.drainToSink _
  · exact ⟨h.valid, h.ledger, h.places⟩

lemma Inv.onTick (h : s.Inv) : s.onTick.Inv := by
  unfold BufferSystem.onTick
  split_ifs
  · exact h
  · exact (h.setTimer s.buffer.timer true).drainToSink .tick

/-- A settled sink call turns its pending batch into drained or lost signals. -/
lemma Inv.onSettle (h : s.Inv) {k : ℕ} {caller : DrainCaller} {batch : List IngestionSignal}
    (hk : s.drains[k]? = some ⟨caller, batch, .sink⟩) (ok : Bool) :
    (s.onSettle k ⟨caller, batch, .sink⟩ ok).Inv := by
  have hbefore := Multiset.coe_eq_coe.2 (flatMap_eraseIdx_perm hk pendingOf)
  have hafter := fun phase => Multiset.coe_eq_coe.2
    (flatMap_set_perm hk ⟨caller, batch, phase⟩ pendingOf)
  have hplaces := h.places
  simp only [pending] at hplaces
  rw [hbefore] at hplaces
  cases ok with
  | true =>
    refine ⟨h.valid, h.ledger, ?_⟩
    simp only [BufferSystem.onSettle, pending, hafter, pendingOf, List.nil_append,
      ← Multiset.coe_add] at hplaces ⊢
    rw [hplaces]
    ac_rfl
  | false =>
    refine ⟨h.valid.congr (SignalBuffer.queues_recordSinkFailure batch), ?_, ?_⟩
    · refine (h.ledger.recordSinkFailure batch).perm ?_
      simp [BufferSystem.onSettle, History.drops]
    · simp only [BufferSystem.onSettle, pending, hafter, pendingOf, List.nil_append,
        SignalBuffer.queued_congr (SignalBuffer.queues_recordSinkFailure batch),
        ← Multiset.coe_add] at hplaces ⊢
      rw [hplaces]
      ac_rfl

/-- A drain whose caller resumes has nothing in the sink. -/
lemma Inv.erase (h : s.Inv) {k : ℕ} {drain : Drain} (hk : s.drains[k]? = some drain)
    (hnone : pendingOf drain = []) : { s with drains := s.drains.eraseIdx k }.Inv := by
  have hbefore := Multiset.coe_eq_coe.2 (flatMap_eraseIdx_perm hk pendingOf)
  have hplaces := h.places
  simp only [pending] at hplaces
  rw [hbefore, hnone] at hplaces
  exact ⟨h.valid, h.ledger, hplaces⟩

lemma Inv.onResume (h : s.Inv) (drained failed : ℕ) (now : Instant) (caller : DrainCaller) :
    (s.onResume drained failed now caller).Inv := by
  cases caller with
  | tick => exact h.setTimer s.buffer.timer false
  | drainAll deadline succeeded failed' => exact h.drainAllLoop _ _ _ _

/-- Every event keeps the invariant. -/
lemma Inv.step {e : BufferEvent} {s' : BufferSystem options} (h : s.Inv)
    (hstep : s.step e = some s') : s'.Inv := by
  cases e with
  | submit signal =>
    obtain rfl := Option.some.inj hstep
    exact h.submit signal
  | start =>
    obtain rfl := Option.some.inj hstep
    exact h.setTimer true s.buffer.draining
  | stop =>
    obtain rfl := Option.some.inj hstep
    exact h.setTimer false s.buffer.draining
  | tick =>
    simp only [BufferSystem.step, Option.ite_none_right_eq_some, Option.some.injEq] at hstep
    obtain ⟨-, rfl⟩ := hstep
    exact h.onTick
  | drainAll timeoutMs now now' =>
    obtain rfl := Option.some.inj hstep
    exact h.drainAllLoop _ _ _ _
  | settle k ok =>
    simp only [BufferSystem.step] at hstep
    split at hstep
    · rename_i caller batch hk
      obtain rfl := Option.some.inj hstep
      exact h.onSettle hk ok
    · simp at hstep
  | resume k now =>
    simp only [BufferSystem.step] at hstep
    split at hstep
    · rename_i caller batch drained failed hk
      obtain rfl := Option.some.inj hstep
      exact (h.erase hk rfl).onResume _ _ _ _
    · simp at hstep

/-- A queue holds as many signals as the queued ones have of its severity. -/
lemma countOf_queued {b : SignalBuffer options} (hb : b.Sorted) (severity : Severity) :
    countOf severity b.queued = (b.queues severity).size := by
  have hqueue : ∀ severity',
      countOf severity (b.queues severity').contents
        = if severity' = severity then (b.queues severity').size else 0 := by
    intro severity'
    split_ifs with heq
    · subst heq
      rw [countOf, List.countP_eq_length.2 (by simpa using hb severity'),
        RingBuffer.length_contents]
    · refine List.countP_eq_zero.2 ?_
      intro signal hmem
      simpa [hb severity' signal hmem] using heq
  rw [SignalBuffer.queued_eq]
  simp only [countOf, List.countP_append] at hqueue ⊢
  cases severity <;> simp [hqueue]

lemma countOf_drops (h : History) (severity : Severity) :
    (History.drops h).countP (·.1 = severity) = countOf severity (h.rejected.map Prod.fst)
      + countOf severity h.evicted + countOf severity h.lost := by
  simp only [History.drops, countOf, List.countP_append, List.countP_map]
  rfl

lemma Inv.conserved (h : s.Inv) : s.Conserved where
  places := by
    rw [← Multiset.coe_eq_coe, h.places]
    simp only [← Multiset.coe_add]
  figures severity := by
    have hcount := congrArg (Multiset.countP (·.severity = severity)) h.places
    simp only [Multiset.countP_add, Multiset.coe_countP] at hcount
    have hdrops := (h.ledger.bySeverity severity).trans (countOf_drops _ severity)
    have hqueued := countOf_queued h.valid.sorted severity
    simp only [SignalBuffer.getStats, hdrops, ← hqueued]
    unfold countOf
    omega
  rows severity := h.ledger.row_sum severity
  columns reason := h.ledger.column_sum reason

/-- Whatever the order of submissions, ticks, `drainAll` calls and sink
outcomes, no signal is lost from the account or counted twice. -/
theorem conserved_of_run {es : List BufferEvent}
    (hrun : (lts options).run (init options) es = some s) :
    s.Conserved := by
  have hstep : ∀ (s : BufferSystem options) e s', s.Inv → (lts options).step s e = some s' →
      s'.Inv := fun _ _ _ h hstep => h.step hstep
  exact (Lts.run_invariant hstep hrun inv_init).conserved

/-- A buffer with room for one signal. -/
def tinyOptions : SignalBufferOptions where
  capacity := 1
  highWaterMarkFraction := 1
  lowWaterMarkFraction := 1 / 2
  shedCeilingFractions := fun _ => 1 / 2
  drainBatchSize := 1
  capacity_pos := Nat.one_pos
  drainBatchSize_pos := Nat.one_pos

/-- A P0 evicts a queued P3, goes to the sink and is lost there. -/
def tinyEvents : List BufferEvent :=
  [.submit (cacheSignal "a" "c" .P3), .submit (cacheSignal "b" "c" .P0), .start, .tick,
    .settle 0 false, .resume 0 0]

theorem conserved_of_tinyEvents : ∃ s,
    (lts tinyOptions).run (init tinyOptions) tinyEvents = some s ∧ s.Conserved ∧
      (s.history.evicted.length, s.history.lost.length) = (1, 1) := by
  have hobserved : ((lts tinyOptions).run (init tinyOptions) tinyEvents).map
      (fun s => (s.history.evicted.length, s.history.lost.length)) = some (1, 1) := by
    decide +kernel
  obtain ⟨s, hrun, hs⟩ := Option.map_eq_some_iff.1 hobserved
  exact ⟨s, hrun, conserved_of_run hrun, hs⟩

end BufferSystem

end InveniOps.Ingestion
