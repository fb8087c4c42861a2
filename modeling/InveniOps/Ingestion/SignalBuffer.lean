import Mathlib.Data.Rat.Floor
import InveniOps.Domain.Types
import InveniOps.Ingestion.RingBuffer

/-!
# The ingestion buffer

The synchronous methods of `SignalBuffer` (`services/ingestion/buffer.ts`): four
severity-partitioned ring buffers that share one capacity, the watermark state
and the three drop ledgers.  Fractions are exact rationals.  The drain loop,
which is asynchronous, is in `InveniOps.Ingestion.BufferRuns`.
-/

namespace InveniOps.Ingestion

/-- Whether the buffer accepts all severities or sheds the lower ones. -/
inductive BufferState
  | normal | shedding
deriving DecidableEq, Repr

/-- Why a signal was dropped, as the drop counters label it. -/
inductive DropReason
  | shed_ceiling | hard_capacity | sink_failure
deriving DecidableEq, Repr

/-- `SubmitResult`: a rejected submission is never a sink failure. -/
inductive SubmitResult
  | accepted
  | rejected (reason : {reason : DropReason // reason ≠ .sink_failure})
deriving DecidableEq

/-- `SignalBufferOptions`, without sink, logger and drain interval, which no
modelled decision reads.  The config loader admits positive capacities and
batch sizes only. -/
structure SignalBufferOptions where
  capacity : ℕ
  highWaterMarkFraction : ℚ
  lowWaterMarkFraction : ℚ
  /-- P0 has no ceiling: it is never ceiling-shed. -/
  shedCeilingFractions : {severity : Severity // severity ≠ .P0} → ℚ
  drainBatchSize : ℕ
  capacity_pos : 0 < capacity
  drainBatchSize_pos : 0 < drainBatchSize

/-- `PRIORITY_ORDER`. -/
def priorityOrder : List Severity := [.P0, .P1, .P2, .P3]

lemma mem_priorityOrder (severity : Severity) : severity ∈ priorityOrder := by
  cases severity <;> decide

/-- The fields of the class.  `timer` tells whether the interval is set. -/
structure SignalBuffer (options : SignalBufferOptions) where
  queues : Severity → RingBuffer IngestionSignal options.capacity
  droppedBySeverity : Severity → ℕ
  droppedByReason : DropReason → ℕ
  droppedBySeverityAndReason : Severity → DropReason → ℕ
  state : BufferState
  timer : Bool
  draining : Bool

namespace SignalBuffer

open scoped List

variable {options : SignalBufferOptions}

/-- The constructor. -/
def new (options : SignalBufferOptions) : SignalBuffer options where
  queues := fun _ => RingBuffer.new options.capacity_pos
  droppedBySeverity := fun _ => 0
  droppedByReason := fun _ => 0
  droppedBySeverityAndReason := fun _ _ => 0
  state := .normal
  timer := false
  draining := false

variable (b : SignalBuffer options)

/-- `get totalSize()`. -/
def totalSize : ℕ := (priorityOrder.map fun severity => (b.queues severity).size).sum

/-- Replaces the queue of one severity. -/
def setQueue (severity : Severity) (queue : RingBuffer IngestionSignal options.capacity) :
    SignalBuffer options :=
  { b with queues := Function.update b.queues severity queue }

/-- Counts one dropped signal by severity, by reason and by both. -/
def recordDrop (severity : Severity) (reason : DropReason) : SignalBuffer options :=
  { b with
    droppedBySeverity :=
      Function.update b.droppedBySeverity severity (b.droppedBySeverity severity + 1)
    droppedByReason := Function.update b.droppedByReason reason (b.droppedByReason reason + 1)
    droppedBySeverityAndReason :=
      Function.update b.droppedBySeverityAndReason severity
        (Function.update (b.droppedBySeverityAndReason severity) reason
          (b.droppedBySeverityAndReason severity reason + 1)) }

/-- The fill fraction, with the guard the source has for an empty capacity. -/
def fillFraction : ℚ :=
  if options.capacity = 0 then 0 else (b.totalSize : ℚ) / options.capacity

/-- The hysteresis between the two water marks: inside the band the state is kept. -/
def recomputeState : SignalBuffer options :=
  if b.state = .normal ∧ options.highWaterMarkFraction ≤ b.fillFraction then
    { b with state := .shedding }
  else if b.state = .shedding ∧ b.fillFraction ≤ options.lowWaterMarkFraction then
    { b with state := .normal }
  else b

/-- `evictToMakeRoomForP0`, returning the evicted signal with the new buffer. -/
def evictToMakeRoomForP0 : Option IngestionSignal × SignalBuffer options :=
  match priorityOrder.reverse.find? fun severity => 0 < (b.queues severity).size with
  | none => (none, b)
  | some victimSeverity =>
    match (b.queues victimSeverity).popOldest with
    | (none, queue) => (none, b.setQueue victimSeverity queue)
    | (some evicted, queue) =>
      (some evicted, (b.setQueue victimSeverity queue).recordDrop victimSeverity .hard_capacity)

/-- The test in front of the ceiling rejection of `submit`. -/
def ceilingReached (severity : Severity) : Bool :=
  if h : severity ≠ .P0 then
    b.state = .shedding ∧
      ⌊(options.capacity : ℚ) * options.shedCeilingFractions ⟨severity, h⟩⌋
        ≤ ((b.queues severity).size : ℤ)
  else false

/-- The end of `submit`: the push, whose result the source ignores, and the
recomputation of the state. -/
def enqueue (signal : IngestionSignal) : SignalBuffer options :=
  (b.setQueue signal.severity ((b.queues signal.severity).push signal).2).recomputeState

/-- `submit`, with the signal that was evicted on the way, if any. -/
def submit (signal : IngestionSignal) :
    SubmitResult × Option IngestionSignal × SignalBuffer options :=
  if b.ceilingReached signal.severity then
    -- a rejection returns before the state is recomputed
    (.rejected ⟨.shed_ceiling, by decide⟩, none, b.recordDrop signal.severity .shed_ceiling)
  else if options.capacity ≤ b.totalSize then
    if signal.severity = .P0 then
      -- in a buffer full of P0 the evicted signal is a P0 too
      (.accepted, b.evictToMakeRoomForP0.1, b.evictToMakeRoomForP0.2.enqueue signal)
    else
      (.rejected ⟨.hard_capacity, by decide⟩, none, b.recordDrop signal.severity .hard_capacity)
  else
    (.accepted, none, b.enqueue signal)

/-- The loop of `popPriorityBatch` over the severities that are left. -/
def popLoop (maxItems : ℕ) : List Severity → List IngestionSignal → SignalBuffer options →
    List IngestionSignal × SignalBuffer options
  | [], result, b => (result, b)
  | severity :: rest, result, b =>
    if maxItems ≤ result.length then (result, b)
    else
      let (batch, queue) := (b.queues severity).popBatch (maxItems - result.length)
      -- a queue that is too short leaves room for the next, less urgent one
      popLoop maxItems rest (result ++ batch) (b.setQueue severity queue)

/-- Up to `maxItems` signals, the most urgent queue first. -/
def popPriorityBatch (maxItems : ℕ) : List IngestionSignal × SignalBuffer options :=
  popLoop maxItems priorityOrder [] b

/-- The loop over a failed batch in `drainToSink`. -/
def recordSinkFailure (batch : List IngestionSignal) : SignalBuffer options :=
  batch.foldl (fun b signal => b.recordDrop signal.severity .sink_failure) b

/-- `BufferStats`, as `getStats` reports them. -/
structure Stats where
  capacity : ℕ
  totalSize : ℕ
  fillFraction : ℚ
  state : BufferState
  depthBySeverity : Severity → ℕ
  droppedBySeverity : Severity → ℕ
  droppedByReason : DropReason → ℕ
  droppedBySeverityAndReason : Severity → DropReason → ℕ

/-- The snapshot that the metrics endpoint and the health check read. -/
def getStats : Stats where
  capacity := options.capacity
  totalSize := b.totalSize
  fillFraction := b.fillFraction
  state := b.state
  depthBySeverity := fun severity => (b.queues severity).size
  droppedBySeverity := b.droppedBySeverity
  droppedByReason := b.droppedByReason
  droppedBySeverityAndReason := b.droppedBySeverityAndReason

/-! ### The queued signals -/

/-- The queued signals in the order in which they would be drained. -/
def queued : List IngestionSignal :=
  priorityOrder.flatMap fun severity => (b.queues severity).contents

/-- Every queue holds signals of its own severity. -/
def Sorted : Prop := ∀ severity, ∀ signal ∈ (b.queues severity).contents, signal.severity = severity

variable {b}

lemma queued_eq : b.queued = (b.queues .P0).contents ++ ((b.queues .P1).contents ++
    ((b.queues .P2).contents ++ (b.queues .P3).contents)) := by
  simp [queued, priorityOrder]

lemma length_queued : b.queued.length = b.totalSize := by
  simp [queued, totalSize, List.length_flatMap]

@[simp] lemma queued_new : (new options).queued = [] := by
  simp [queued, new, priorityOrder]

lemma sorted_new : (new options).Sorted := by
  intro severity signal h
  simp [new] at h

@[simp] lemma queues_recordDrop (severity : Severity) (reason : DropReason) :
    (b.recordDrop severity reason).queues = b.queues := rfl

@[simp] lemma queues_recomputeState : b.recomputeState.queues = b.queues := by
  unfold recomputeState
  split_ifs <;> rfl

@[simp] lemma droppedBySeverity_recomputeState :
    b.recomputeState.droppedBySeverity = b.droppedBySeverity := by
  unfold recomputeState
  split_ifs <;> rfl

@[simp] lemma droppedByReason_recomputeState :
    b.recomputeState.droppedByReason = b.droppedByReason := by
  unfold recomputeState
  split_ifs <;> rfl

@[simp] lemma droppedBySeverityAndReason_recomputeState :
    b.recomputeState.droppedBySeverityAndReason = b.droppedBySeverityAndReason := by
  unfold recomputeState
  split_ifs <;> rfl

/-- The queued signals depend on the queues alone. -/
lemma queued_congr {b' : SignalBuffer options} (h : b'.queues = b.queues) :
    b'.queued = b.queued := by
  simp [queued, h]

lemma Sorted.congr {b' : SignalBuffer options} (hb : b.Sorted) (h : b'.queues = b.queues) :
    b'.Sorted := by
  intro severity signal hmem
  rw [h] at hmem
  exact hb severity signal hmem

lemma Sorted.setQueue (hb : b.Sorted) {severity : Severity}
    {queue : RingBuffer IngestionSignal options.capacity}
    (h : ∀ signal ∈ queue.contents, signal.severity = severity) :
    (b.setQueue severity queue).Sorted := by
  intro severity' signal hmem
  rcases eq_or_ne severity' severity with rfl | hne
  · exact h signal (by simpa [SignalBuffer.setQueue] using hmem)
  · exact hb severity' signal (by simpa [SignalBuffer.setQueue, hne] using hmem)

/-- The queued signals, up to order, are one queue and the three others. -/
lemma exists_queued_perm (b : SignalBuffer options) (severity : Severity) :
    ∃ others : List IngestionSignal, ∀ queue,
      ((b.setQueue severity queue).queued).Perm (queue.contents ++ others) := by
  cases severity
  · refine ⟨(b.queues .P1).contents ++ ((b.queues .P2).contents ++ (b.queues .P3).contents),
      ?_⟩
    intro queue
    rw [queued_eq]
    simp [setQueue]
  · refine ⟨(b.queues .P0).contents ++ ((b.queues .P2).contents ++ (b.queues .P3).contents),
      ?_⟩
    intro queue
    rw [queued_eq]
    simpa [setQueue] using (List.perm_append_comm_assoc ..)
  · refine ⟨(b.queues .P0).contents ++ ((b.queues .P1).contents ++ (b.queues .P3).contents),
      ?_⟩
    intro queue
    rw [queued_eq]
    simp only [setQueue, Function.update_self, ne_eq, reduceCtorEq, not_false_eq_true,
      Function.update_of_ne]
    exact ((List.perm_append_comm_assoc ..).append_left _).trans (List.perm_append_comm_assoc ..)
  · refine ⟨(b.queues .P0).contents ++ ((b.queues .P1).contents ++ (b.queues .P2).contents),
      ?_⟩
    intro queue
    rw [queued_eq]
    simp only [setQueue, Function.update_self, ne_eq, reduceCtorEq, not_false_eq_true,
      Function.update_of_ne]
    rw [← List.append_assoc, ← List.append_assoc]
    exact List.perm_append_comm.trans (by simp)

@[simp] lemma setQueue_self (b : SignalBuffer options) (severity : Severity) :
    b.setQueue severity (b.queues severity) = b := by
  simp [setQueue]

/-- What one queue gains or loses, the queued signals gain or lose. -/
lemma queued_setQueue_perm {severity : Severity}
    {queue : RingBuffer IngestionSignal options.capacity} {out into : List IngestionSignal}
    (h : (queue.contents ++ out).Perm ((b.queues severity).contents ++ into)) :
    ((b.setQueue severity queue).queued ++ out).Perm (b.queued ++ into) := by
  obtain ⟨others, hothers⟩ := exists_queued_perm b severity
  have hb : b.queued.Perm ((b.queues severity).contents ++ others) := by
    simpa using hothers (b.queues severity)
  calc (b.setQueue severity queue).queued ++ out
      _ ~ (queue.contents ++ others) ++ out := (hothers queue).append_right out
      _ ~ (queue.contents ++ out) ++ others := by
        simpa using List.perm_append_comm.append_left queue.contents
      _ ~ ((b.queues severity).contents ++ into) ++ others := h.append_right others
      _ ~ ((b.queues severity).contents ++ others) ++ into := by
        simpa using List.perm_append_comm.append_left (b.queues severity).contents
      _ ~ b.queued ++ into := (hb.append_right into).symm

lemma size_le_totalSize (b : SignalBuffer options) (severity : Severity) :
    (b.queues severity).size ≤ b.totalSize := by
  cases severity <;> simp only [totalSize, priorityOrder, List.map_cons, List.sum_cons] <;> omega

/-! ### The drop ledgers -/

/-- The three ledgers count the list `drops` of dropped severities and reasons. -/
structure Ledger (b : SignalBuffer options) (drops : List (Severity × DropReason)) : Prop where
  bySeverity : ∀ severity, b.droppedBySeverity severity = drops.countP (·.1 = severity)
  byReason : ∀ reason, b.droppedByReason reason = drops.countP (·.2 = reason)
  bySeverityAndReason : ∀ severity reason,
    b.droppedBySeverityAndReason severity reason = drops.count (severity, reason)

lemma ledger_new : (new options).Ledger [] :=
  ⟨fun _ => rfl, fun _ => rfl, fun _ _ => rfl⟩

lemma Ledger.perm {drops drops' : List (Severity × DropReason)} (h : b.Ledger drops)
    (hperm : drops.Perm drops') : b.Ledger drops' where
  bySeverity severity := (h.bySeverity severity).trans (hperm.countP_eq _)
  byReason reason := (h.byReason reason).trans (hperm.countP_eq _)
  bySeverityAndReason severity reason :=
    (h.bySeverityAndReason severity reason).trans (hperm.count_eq _)

lemma Ledger.recomputeState {drops : List (Severity × DropReason)} (h : b.Ledger drops) :
    b.recomputeState.Ledger drops where
  bySeverity severity := by simpa using h.bySeverity severity
  byReason reason := by simpa using h.byReason reason
  bySeverityAndReason severity reason := by simpa using h.bySeverityAndReason severity reason

lemma Ledger.setQueue {drops : List (Severity × DropReason)} (h : b.Ledger drops)
    (severity : Severity) (queue : RingBuffer IngestionSignal options.capacity) :
    (b.setQueue severity queue).Ledger drops :=
  ⟨h.bySeverity, h.byReason, h.bySeverityAndReason⟩

lemma Ledger.recordDrop {drops : List (Severity × DropReason)} (h : b.Ledger drops)
    (severity : Severity) (reason : DropReason) :
    (b.recordDrop severity reason).Ledger ((severity, reason) :: drops) where
  bySeverity severity' := by
    rcases eq_or_ne severity severity' with rfl | hne
    · simp [SignalBuffer.recordDrop, h.bySeverity]
    · simp [SignalBuffer.recordDrop, Function.update_of_ne hne.symm, h.bySeverity, hne]
  byReason reason' := by
    rcases eq_or_ne reason reason' with rfl | hne
    · simp [SignalBuffer.recordDrop, h.byReason]
    · simp [SignalBuffer.recordDrop, Function.update_of_ne hne.symm, h.byReason, hne]
  bySeverityAndReason severity' reason' := by
    rcases eq_or_ne severity severity' with rfl | hne
    · rcases eq_or_ne reason reason' with rfl | hne
      · simp [SignalBuffer.recordDrop, h.bySeverityAndReason]
      · simp [SignalBuffer.recordDrop, Function.update_of_ne hne.symm, h.bySeverityAndReason,
          hne]
    · simp [SignalBuffer.recordDrop, Function.update_of_ne hne.symm, h.bySeverityAndReason,
        hne]

lemma Ledger.recordSinkFailure {drops : List (Severity × DropReason)} (h : b.Ledger drops)
    (batch : List IngestionSignal) :
    (b.recordSinkFailure batch).Ledger
      (drops ++ batch.map fun signal => (signal.severity, .sink_failure)) := by
  induction batch generalizing b drops with
  | nil => simpa [SignalBuffer.recordSinkFailure] using h
  | cons signal batch ih =>
    refine (ih (h.recordDrop signal.severity .sink_failure)).perm ?_
    simpa using List.perm_middle.symm

lemma Ledger.row_sum {drops : List (Severity × DropReason)} (h : b.Ledger drops)
    (severity : Severity) :
    b.droppedBySeverity severity = b.droppedBySeverityAndReason severity .shed_ceiling
      + b.droppedBySeverityAndReason severity .hard_capacity
      + b.droppedBySeverityAndReason severity .sink_failure := by
  simp only [h.bySeverity, h.bySeverityAndReason]
  clear h
  induction drops with
  | nil => rfl
  | cons drop drops ih =>
    obtain ⟨severity', reason⟩ := drop
    rw [List.countP_cons, ih]
    cases reason <;> by_cases hs : severity' = severity <;> simp [hs] <;> omega

lemma Ledger.column_sum {drops : List (Severity × DropReason)} (h : b.Ledger drops)
    (reason : DropReason) :
    b.droppedByReason reason = b.droppedBySeverityAndReason .P0 reason
      + b.droppedBySeverityAndReason .P1 reason + b.droppedBySeverityAndReason .P2 reason
      + b.droppedBySeverityAndReason .P3 reason := by
  simp only [h.byReason, h.bySeverityAndReason]
  clear h
  induction drops with
  | nil => rfl
  | cons drop drops ih =>
    obtain ⟨severity, reason'⟩ := drop
    rw [List.countP_cons, ih]
    cases severity <;> by_cases hr : reason' = reason <;> simp [hr] <;> omega

@[simp] lemma queues_recordSinkFailure (batch : List IngestionSignal) :
    (b.recordSinkFailure batch).queues = b.queues := by
  induction batch generalizing b with
  | nil => rfl
  | cons signal batch ih => exact ih.trans rfl

/-! ### What the operations do -/

/-- The queues are sorted and share the capacity. -/
structure Valid (b : SignalBuffer options) : Prop where
  sorted : b.Sorted
  bounded : b.totalSize ≤ options.capacity

lemma valid_new : (new options).Valid :=
  ⟨sorted_new, by simp [totalSize, new, priorityOrder, RingBuffer.size, RingBuffer.new]⟩

lemma totalSize_congr {b' : SignalBuffer options} (h : b'.queues = b.queues) :
    b'.totalSize = b.totalSize := by
  simp [totalSize, h]

lemma Valid.congr {b' : SignalBuffer options} (hb : b.Valid) (h : b'.queues = b.queues) :
    b'.Valid :=
  ⟨hb.sorted.congr h, (totalSize_congr h).trans_le hb.bounded⟩

/-- The victim of an eviction is the oldest signal of the least urgent queue that is
not empty. -/
lemma evict_eq (hpos : 0 < b.totalSize) : ∃ severity victim rest,
    (b.queues severity).contents = victim :: rest ∧
      (∀ lower : Severity, severity.rank < lower.rank → (b.queues lower).contents = []) ∧
      (b.queues severity).popOldest.2.contents = rest ∧
      b.evictToMakeRoomForP0 = (some victim,
        (b.setQueue severity (b.queues severity).popOldest.2).recordDrop severity
          .hard_capacity) := by
  obtain ⟨severity, hfind⟩ : ∃ severity, (priorityOrder.reverse.find? fun severity =>
      0 < (b.queues severity).size) = some severity := by
    rw [← Option.isSome_iff_exists, List.find?_isSome]
    by_contra hnone
    push Not at hnone
    have hzero : b.totalSize = 0 := by
      refine List.sum_eq_zero ?_
      intro n hn
      obtain ⟨severity, hmem, rfl⟩ := List.mem_map.1 hn
      simpa using hnone severity (List.mem_reverse.2 hmem)
    omega
  have hsize : 0 < (b.queues severity).size := by simpa using List.find?_some hfind
  have hlower : ∀ lower : Severity, severity.rank < lower.rank →
      (b.queues lower).contents = [] := by
    intro lower hrank
    obtain ⟨-, before, after, hsplit, hbefore⟩ := List.find?_eq_some_iff_append.1 hfind
    -- the search runs from P3 upwards, so it has passed the less urgent queues
    have hdescending : priorityOrder.reverse.Pairwise fun a b => b.rank < a.rank := by decide
    have hmem : lower ∈ before ++ severity :: after :=
      hsplit ▸ List.mem_reverse.2 (mem_priorityOrder lower)
    rw [hsplit, List.pairwise_append, List.pairwise_cons] at hdescending
    rcases List.mem_append.1 hmem with hpassed | hmem
    · have hempty := hbefore lower hpassed
      simp only [Bool.not_eq_true', decide_eq_false_iff_not, not_lt, Nat.le_zero] at hempty
      exact RingBuffer.contents_eq_nil_iff.2 hempty
    · rcases List.mem_cons.1 hmem with rfl | hafter
      · exact absurd hrank (lt_irrefl _)
      · exact absurd (hdescending.2.1.1 lower hafter) (not_lt.2 hrank.le)
  obtain ⟨victim, rest, hcontents⟩ : ∃ victim rest,
      (b.queues severity).contents = victim :: rest := by
    refine List.exists_cons_of_ne_nil ?_
    intro hnil
    exact absurd (RingBuffer.contents_eq_nil_iff.1 hnil) (Nat.ne_of_gt hsize)
  obtain ⟨hitem, hrest⟩ := (b.queues severity).popOldest_spec
  rw [hcontents, List.head?_cons] at hitem
  rw [hcontents, List.tail_cons] at hrest
  refine ⟨severity, victim, rest, hcontents, hlower, hrest, ?_⟩
  have hpop : (b.queues severity).popOldest = (some victim, (b.queues severity).popOldest.2) :=
    Prod.ext hitem rfl
  rw [evictToMakeRoomForP0, hfind]
  dsimp only
  rw [hpop]

/-- What `evictToMakeRoomForP0` does to a buffer that is not empty. -/
lemma evict_spec (hb : b.Sorted) (hpos : 0 < b.totalSize) :
    ∃ victim : IngestionSignal, (b.evictToMakeRoomForP0).1 = some victim ∧
      ((b.evictToMakeRoomForP0).2.queued ++ [victim]).Perm b.queued ∧
      (b.evictToMakeRoomForP0).2.Sorted ∧
      ∀ drops, b.Ledger drops →
        (b.evictToMakeRoomForP0).2.Ledger ((victim.severity, .hard_capacity) :: drops) := by
  obtain ⟨severity, victim, rest, hcontents, -, hrest, hevict⟩ := evict_eq hpos
  have hvictim : victim.severity = severity := hb severity victim (by simp [hcontents])
  rw [hevict]
  refine ⟨victim, rfl, ?_, ?_, ?_⟩
  · rw [queued_congr (queues_recordDrop _ _)]
    have hpop : ((b.queues severity).popOldest.2.contents ++ [victim]).Perm
        ((b.queues severity).contents ++ []) := by
      rw [hrest, hcontents]
      simp
    simpa using queued_setQueue_perm hpop
  · refine (hb.setQueue ?_).congr (queues_recordDrop _ _)
    intro signal hmem
    rw [hrest] at hmem
    exact hb severity signal (by simp [hcontents, hmem])
  · intro drops h
    rw [hvictim]
    exact (h.setQueue _ _).recordDrop _ _

/-- The push of `submit` finds room in a buffer below its capacity. -/
lemma enqueue_spec (hb : b.Sorted) (hroom : b.totalSize < options.capacity)
    (signal : IngestionSignal) :
    (b.enqueue signal).queued.Perm (b.queued ++ [signal]) ∧ (b.enqueue signal).Valid ∧
      ∀ drops, b.Ledger drops → (b.enqueue signal).Ledger drops := by
  have hlt : (b.queues signal.severity).size < options.capacity :=
    (b.size_le_totalSize signal.severity).trans_lt hroom
  have hpush := (RingBuffer.push_of_lt signal hlt).2
  have hperm : (b.enqueue signal).queued.Perm (b.queued ++ [signal]) := by
    rw [enqueue, queued_congr queues_recomputeState]
    have hpushed : (((b.queues signal.severity).push signal).2.contents ++ []).Perm
        ((b.queues signal.severity).contents ++ [signal]) := by
      rw [hpush, List.append_nil]
    simpa using queued_setQueue_perm hpushed
  refine ⟨hperm, ⟨?_, ?_⟩, fun drops h => (h.setQueue _ _).recomputeState⟩
  · refine (hb.setQueue ?_).congr queues_recomputeState
    intro signal' hmem
    rw [hpush, List.mem_append, List.mem_singleton] at hmem
    rcases hmem with hmem | rfl
    · exact hb _ _ hmem
    · rfl
  · have hlen := hperm.length_eq
    rw [length_queued, List.length_append, length_queued] at hlen
    simp only [List.length_singleton] at hlen
    omega

/-- The drops a submission records. -/
def submitDrops (signal : IngestionSignal) :
    SubmitResult × Option IngestionSignal → List (Severity × DropReason)
  | (.accepted, evicted) => evicted.toList.map fun victim => (victim.severity, .hard_capacity)
  | (.rejected reason, _) => [(signal.severity, reason.1)]

/-- Where a submission leaves the signal: an accepted one is queued, and what
it evicts leaves the queues; a rejected one leaves the queues as they were. -/
theorem submit_spec (hb : b.Valid) (signal : IngestionSignal) :
    (b.submit signal).2.2.Valid ∧
      ((b.submit signal).1 = .accepted →
        ((b.submit signal).2.2.queued ++ (b.submit signal).2.1.toList).Perm
          (b.queued ++ [signal])) ∧
      ((b.submit signal).1 ≠ .accepted →
        (b.submit signal).2.2.queues = b.queues ∧ (b.submit signal).2.1 = none) ∧
      ∀ drops, b.Ledger drops → (b.submit signal).2.2.Ledger
        (submitDrops signal ((b.submit signal).1, (b.submit signal).2.1) ++ drops) := by
  unfold submit
  split_ifs with hceiling hfull hP0
  · exact ⟨hb.congr rfl, by simp, fun _ => ⟨rfl, rfl⟩, fun drops h => h.recordDrop _ _⟩
  · have hpos : 0 < b.totalSize := options.capacity_pos.trans_le hfull
    obtain ⟨victim, hsome, hperm, hsorted, hledger⟩ := evict_spec hb.sorted hpos
    have hroom : b.evictToMakeRoomForP0.2.totalSize < options.capacity := by
      have hlen := hperm.length_eq
      rw [List.length_append, length_queued, length_queued, List.length_singleton] at hlen
      have := hb.bounded
      omega
    obtain ⟨hqueued, hvalid, hdrops⟩ := enqueue_spec hsorted hroom signal
    refine ⟨hvalid, ?_, fun h => absurd rfl h, ?_⟩
    · intro _
      simp only [hsome, Option.toList_some]
      calc (b.evictToMakeRoomForP0.2.enqueue signal).queued ++ [victim]
          _ ~ (b.evictToMakeRoomForP0.2.queued ++ [signal]) ++ [victim] :=
            hqueued.append_right [victim]
          _ ~ (b.evictToMakeRoomForP0.2.queued ++ [victim]) ++ [signal] := by
            simpa using (List.Perm.swap victim signal []).append_left
              b.evictToMakeRoomForP0.2.queued
          _ ~ b.queued ++ [signal] := hperm.append_right [signal]
    · intro drops h
      simpa [submitDrops, hsome] using hdrops _ (hledger drops h)
  · exact ⟨hb.congr rfl, by simp, fun _ => ⟨rfl, rfl⟩, fun drops h => h.recordDrop _ _⟩
  · obtain ⟨hqueued, hvalid, hdrops⟩ := enqueue_spec hb.sorted (Nat.lt_of_not_le hfull) signal
    refine ⟨hvalid, fun _ => by simpa using hqueued, fun h => absurd rfl h, ?_⟩
    intro drops h
    simpa [submitDrops] using hdrops drops h

/-! ### Batches -/

/-- The signals in the queues of some severities, in their order. -/
private def queuedIn (severities : List Severity) (b : SignalBuffer options) :
    List IngestionSignal :=
  severities.flatMap fun severity => (b.queues severity).contents

private lemma queuedIn_setQueue {severities : List Severity} {severity : Severity}
    (h : severity ∉ severities) (queue : RingBuffer IngestionSignal options.capacity) :
    queuedIn severities (b.setQueue severity queue) = queuedIn severities b := by
  refine List.flatMap_congr ?_
  intro severity' hmem
  have hne : severity' ≠ severity := fun heq => h (heq ▸ hmem)
  simp [setQueue, hne]

lemma popLoop_spec (maxItems : ℕ) {severities : List Severity} (hnodup : severities.Nodup)
    (result : List IngestionSignal) (b : SignalBuffer options) :
    let left := maxItems - result.length
    (popLoop maxItems severities result b).1 = result ++ (queuedIn severities b).take left ∧
      queuedIn severities (popLoop maxItems severities result b).2
        = (queuedIn severities b).drop left ∧
      (∀ severity ∉ severities,
        (popLoop maxItems severities result b).2.queues severity = b.queues severity) ∧
      ∀ severity, ((popLoop maxItems severities result b).2.queues severity).contents
        <:+ (b.queues severity).contents := by
  induction severities generalizing result b with
  | nil => simp [popLoop, queuedIn]
  | cons severity rest ih =>
    obtain ⟨hnotin, hrest⟩ := List.nodup_cons.1 hnodup
    by_cases hdone : maxItems ≤ result.length
    · simp [popLoop, hdone, Nat.sub_eq_zero_of_le hdone]
    · set left := maxItems - result.length with hleft
      obtain ⟨hbatch, hqueue⟩ := (b.queues severity).popBatch_spec left
      set contents := (b.queues severity).contents with hcontents
      set b' := b.setQueue severity ((b.queues severity).popBatch left).2 with hb'
      obtain ⟨ih₁, ih₂, ih₃, ih₄⟩ := ih hrest (result ++ contents.take left) b'
      have hleft' : maxItems - (result ++ contents.take left).length = left - contents.length := by
        rw [List.length_append, List.length_take]
        omega
      have hsame : queuedIn rest b' = queuedIn rest b := queuedIn_setQueue hnotin _
      rw [hleft', hsame] at ih₁ ih₂
      have hcons : ∀ b'' : SignalBuffer options,
          queuedIn (severity :: rest) b'' = (b''.queues severity).contents ++ queuedIn rest b'' :=
        fun _ => rfl
      have hloop : popLoop maxItems (severity :: rest) result b
          = popLoop maxItems rest (result ++ contents.take left) b' := by
        simp only [popLoop, hdone, if_false, ← hleft, hbatch]
        rfl
      have hhead : ((popLoop maxItems rest (result ++ contents.take left) b').2.queues
          severity).contents = contents.drop left := by
        rw [ih₃ severity hnotin, hb']
        simp [setQueue, hqueue]
      rw [hloop, hcons, hcons]
      refine ⟨?_, ?_, ?_, ?_⟩
      · rw [ih₁, List.take_append, List.append_assoc]
      · rw [hhead, ih₂, List.drop_append]
      · intro severity' hmem
        obtain ⟨hne, hmem⟩ := not_or.1 (List.mem_cons.not.1 hmem)
        rw [ih₃ severity' hmem, hb']
        simp [setQueue, hne]
      · intro severity'
        rcases eq_or_ne severity' severity with rfl | hne
        · rw [hhead]
          exact List.drop_suffix _ _
        · refine (ih₄ severity').trans ?_
          simp [hb', setQueue, hne]

/-- A batch is the front of the queued signals: P0 first, each severity oldest
first. -/
theorem popPriorityBatch_spec (b : SignalBuffer options) (maxItems : ℕ) :
    (b.popPriorityBatch maxItems).1 = b.queued.take maxItems ∧
      (b.popPriorityBatch maxItems).2.queued = b.queued.drop maxItems ∧
      (b.Valid → (b.popPriorityBatch maxItems).2.Valid) := by
  obtain ⟨h₁, h₂, -, h₄⟩ := popLoop_spec maxItems (by decide : priorityOrder.Nodup) [] b
  have hqueued : (b.popPriorityBatch maxItems).2.queued = b.queued.drop maxItems := h₂
  refine ⟨h₁, hqueued, fun hb => ⟨?_, ?_⟩⟩
  · intro severity signal hmem
    exact hb.sorted severity signal ((h₄ severity).subset hmem)
  · have hlen := congrArg List.length hqueued
    rw [length_queued, List.length_drop, length_queued] at hlen
    have := hb.bounded
    omega

lemma Ledger.popPriorityBatch {drops : List (Severity × DropReason)} (h : b.Ledger drops)
    (maxItems : ℕ) : (b.popPriorityBatch maxItems).2.Ledger drops := by
  suffices ∀ severities result, ∀ b : SignalBuffer options, b.Ledger drops →
      (popLoop maxItems severities result b).2.Ledger drops from this _ _ b h
  intro severities
  induction severities with
  | nil => exact fun _ _ h => h
  | cons severity rest ih =>
    intro result b h
    unfold popLoop
    split_ifs
    · exact h
    · exact ih _ _ (h.setQueue _ _)

end SignalBuffer

end InveniOps.Ingestion
