import InveniOps.Ingestion.BufferRuns

/-!
# The queues of the buffer over its runs

Each of the four ring buffers stands for a list of signals.  An accepted signal
comes in at the end of the list of its severity; an eviction and a batch take
signals off its front, and nothing else does.  The capacity that the rings share
leaves room in each of them, so that no push is refused.
-/

namespace InveniOps.Ingestion

open Lib

namespace SignalBuffer

variable {options : SignalBufferOptions} {b : SignalBuffer options}

variable (b) in
/-- What the push of `submit` returns, which the source does not look at; `none` if
the signal is rejected in front of it. -/
def pushResult (signal : IngestionSignal) : Option Bool :=
  if b.ceilingReached signal.severity then none
  else if options.capacity ≤ b.totalSize then
    if signal.severity = .P0 then
      some ((b.evictToMakeRoomForP0.2.queues signal.severity).push signal).1
    else none
  else some ((b.queues signal.severity).push signal).1

/-- What comes into the queues with the answer to a submission. -/
def taken (signal : IngestionSignal) : SubmitResult → List IngestionSignal
  | .accepted => [signal]
  | .rejected _ => []

/-- The signals of one severity, in their order. -/
def ofSeverity (severity : Severity) (signals : List IngestionSignal) : List IngestionSignal :=
  signals.filter (·.severity = severity)

@[simp] lemma ofSeverity_nil (severity : Severity) : ofSeverity severity [] = [] := rfl

lemma ofSeverity_append (severity : Severity) (signals signals' : List IngestionSignal) :
    ofSeverity severity (signals ++ signals')
      = ofSeverity severity signals ++ ofSeverity severity signals' :=
  List.filter_append ..

lemma ofSeverity_singleton (severity : Severity) (signal : IngestionSignal) :
    ofSeverity severity [signal] = if signal.severity = severity then [signal] else [] := by
  rw [ofSeverity, List.filter_singleton]
  split_ifs with h <;> simp [h]

/-- The signals of one severity among the queued ones are its queue. -/
lemma ofSeverity_queued (hb : b.Sorted) (severity : Severity) :
    ofSeverity severity b.queued = (b.queues severity).contents := by
  have hqueue : ∀ severity', ofSeverity severity (b.queues severity').contents
      = if severity' = severity then (b.queues severity').contents else [] := by
    intro severity'
    split_ifs with heq
    · subst heq
      exact List.filter_eq_self.2 (by simpa using hb severity')
    · refine List.filter_eq_nil_iff.2 ?_
      intro signal hmem
      simpa [hb severity' signal hmem] using heq
  rw [queued_eq, ofSeverity_append, ofSeverity_append, ofSeverity_append, hqueue, hqueue, hqueue,
    hqueue]
  cases severity <;> simp

/-! ### Submissions -/

/-- The push appends the signal to its queue and touches no other one. -/
lemma contents_enqueue (hroom : b.totalSize < options.capacity) (signal : IngestionSignal)
    (severity : Severity) : ((b.enqueue signal).queues severity).contents
      = (b.queues severity).contents ++ ofSeverity severity [signal] := by
  have hlt : (b.queues signal.severity).size < options.capacity :=
    (b.size_le_totalSize signal.severity).trans_lt hroom
  rw [enqueue, queues_recomputeState, ofSeverity_singleton]
  split_ifs with heq
  · subst heq
    simp [setQueue, (RingBuffer.push_of_lt signal hlt).2]
  · simp [setQueue, Function.update_of_ne (Ne.symm heq)]

/-- An eviction takes the victim off the front of its queue, and makes room. -/
lemma contents_evict (hb : b.Valid) (hpos : 0 < b.totalSize) :
    b.evictToMakeRoomForP0.2.totalSize < options.capacity ∧
      ∀ severity, (b.queues severity).contents
        = ofSeverity severity b.evictToMakeRoomForP0.1.toList
          ++ (b.evictToMakeRoomForP0.2.queues severity).contents := by
  obtain ⟨victim, hvictim, hperm, -⟩ := evict_spec hb.sorted hpos
  constructor
  · have hlen := hperm.length_eq
    rw [List.length_append, length_queued, length_queued, List.length_singleton] at hlen
    have := hb.bounded
    omega
  · intro severity
    obtain ⟨severity', victim', rest, hcontents, -, hrest, hevict⟩ := evict_eq hpos
    have hown : victim'.severity = severity' := hb.sorted severity' victim' (by simp [hcontents])
    rw [hevict, Option.toList_some, ofSeverity_singleton, queues_recordDrop]
    split_ifs with heq
    · obtain rfl : severity' = severity := hown.symm.trans heq
      simp [setQueue, hcontents, hrest]
    · have hne : severity ≠ severity' := fun h => heq (hown.trans h.symm)
      simp [setQueue, Function.update_of_ne hne]

/-- What a submission does to each queue. -/
lemma contents_submit (hb : b.Valid) (signal : IngestionSignal) (severity : Severity) :
    (b.queues severity).contents ++ ofSeverity severity (taken signal (b.submit signal).1)
      = ofSeverity severity (b.submit signal).2.1.toList
        ++ ((b.submit signal).2.2.queues severity).contents := by
  unfold submit
  split_ifs with hceiling hfull hP0
  · simp [taken]
  · obtain ⟨hroom, hqueues⟩ := contents_evict hb (options.capacity_pos.trans_le hfull)
    rw [contents_enqueue hroom, hqueues severity, List.append_assoc]
    rfl
  · simp [taken]
  · rw [contents_enqueue (Nat.lt_of_not_le hfull)]
    simp [taken]

/-- An accepted signal is pushed onto a buffer below its capacity. -/
lemma enqueue_of_accepted (hb : b.Valid) {signal : IngestionSignal}
    (h : (b.submit signal).1 = .accepted) : ∃ b' : SignalBuffer options,
      b'.totalSize < options.capacity ∧ (b.submit signal).2.2 = b'.enqueue signal ∧
        b.pushResult signal = some ((b'.queues signal.severity).push signal).1 := by
  unfold submit at h ⊢
  unfold pushResult
  split_ifs at h ⊢ with hceiling hfull hP0
  · have hroom := (contents_evict hb (options.capacity_pos.trans_le hfull)).1
    exact ⟨b.evictToMakeRoomForP0.2, hroom, rfl, rfl⟩
  · exact ⟨b, Nat.lt_of_not_le hfull, rfl, rfl⟩

lemma pushResult_of_rejected {signal : IngestionSignal} (h : (b.submit signal).1 ≠ .accepted) :
    b.pushResult signal = none := by
  unfold submit at h
  unfold pushResult
  split_ifs at h ⊢
  · rfl
  · exact absurd rfl h
  · rfl
  · exact absurd rfl h

/-- The push of an accepted signal succeeds, and the signal is the last of its queue. -/
lemma stored_of_accepted (hb : b.Valid) {signal : IngestionSignal}
    (h : (b.submit signal).1 = .accepted) : b.pushResult signal = some true ∧
      ∃ older, ((b.submit signal).2.2.queues signal.severity).contents = older ++ [signal] := by
  obtain ⟨b', hroom, hsubmit, hpush⟩ := enqueue_of_accepted hb h
  have hlt := (b'.size_le_totalSize signal.severity).trans_lt hroom
  refine ⟨by rw [hpush, (RingBuffer.push_of_lt signal hlt).1],
    (b'.queues signal.severity).contents, ?_⟩
  rw [hsubmit, contents_enqueue hroom, ofSeverity_singleton, if_pos rfl]

/-- A batch takes signals off the fronts of the queues. -/
lemma contents_popPriorityBatch (hb : b.Valid) (maxItems : ℕ) (severity : Severity) :
    (b.queues severity).contents
      = ofSeverity severity (b.popPriorityBatch maxItems).1
        ++ ((b.popPriorityBatch maxItems).2.queues severity).contents := by
  obtain ⟨hbatch, hrest, hvalid⟩ := b.popPriorityBatch_spec maxItems
  rw [← ofSeverity_queued hb.sorted, ← ofSeverity_queued (hvalid hb).sorted, hbatch, hrest,
    ← ofSeverity_append, List.take_append_drop]

end SignalBuffer

/-! ### Runs -/

namespace BufferSystem

open SignalBuffer

variable {options : SignalBufferOptions}

section

variable (s : BufferSystem options)

/-- The signal that an event brings into the queues. -/
def accepted : BufferEvent → List IngestionSignal
  | .submit signal => taken signal (s.buffer.submit signal).1
  | _ => []

/-- The signal that an event drops from the queues. -/
def evicted : BufferEvent → List IngestionSignal
  | .submit signal => (s.buffer.submit signal).2.1.toList
  | _ => []

/-- The batch that the next `drainToSink` takes off the queues. -/
def nextBatch : List IngestionSignal :=
  (s.buffer.popPriorityBatch options.drainBatchSize).1

/-- The batch of the next round of `drainAll`, if there is one. -/
def roundBatch (deadline now : Instant) : List IngestionSignal :=
  if 0 < s.buffer.totalSize ∧ now < deadline then s.nextBatch else []

/-- The batch that an event takes off the queues for the sink. -/
def popped : BufferEvent → List IngestionSignal
  | .tick =>
    if s.buffer.draining then []
    else { s with buffer := { s.buffer with draining := true } }.nextBatch
  | .drainAll timeoutMs now now' => s.roundBatch (now + timeoutMs) now'
  | .resume k now =>
    match s.drains[k]? with
    | some ⟨.drainAll deadline _ _, _, .settled _ _⟩ => s.roundBatch deadline now
    | _ => []
  | _ => []

/-- The list that the queue of a severity stands for. -/
def queue (severity : Severity) : List IngestionSignal := (s.buffer.queues severity).contents

end

variable {s s' : BufferSystem options} {severity : Severity}

lemma queue_drainToSink (hs : s.Inv) (caller : DrainCaller) (severity : Severity) :
    s.queue severity
      = ofSeverity severity s.nextBatch ++ (s.drainToSink caller).queue severity := by
  rw [queue, contents_popPriorityBatch hs.valid options.drainBatchSize severity]
  dsimp only [drainToSink, queue, nextBatch]
  split_ifs
  · rfl
  · rw [queues_recomputeState]

lemma queue_drainAllLoop (hs : s.Inv) (deadline : Instant) (succeeded failed : ℕ)
    (now : Instant) (severity : Severity) :
    s.queue severity = ofSeverity severity (s.roundBatch deadline now)
      ++ (s.drainAllLoop deadline succeeded failed now).queue severity := by
  unfold drainAllLoop roundBatch
  split_ifs
  · exact queue_drainToSink hs _ severity
  · rfl

/-- What an event does to each queue: accepted signals come in at the end, evicted ones
and batches leave at the front. -/
lemma queue_of_step (hs : s.Inv) {e : BufferEvent} (hstep : s.step e = some s')
    (severity : Severity) : s.queue severity ++ ofSeverity severity (s.accepted e)
      = ofSeverity severity (s.evicted e ++ s.popped e) ++ s'.queue severity := by
  cases e with
  | submit signal =>
    obtain rfl := Option.some.inj hstep
    simp only [accepted, evicted, popped, List.append_nil]
    exact contents_submit hs.valid signal severity
  | start | stop =>
    obtain rfl := Option.some.inj hstep
    exact List.append_nil _
  | tick =>
    simp only [step, Option.ite_none_right_eq_some, Option.some.injEq] at hstep
    obtain ⟨-, rfl⟩ := hstep
    simp only [accepted, evicted, popped, onTick, List.nil_append]
    split_ifs
    · exact List.append_nil _
    · rw [ofSeverity_nil, List.append_nil]
      exact queue_drainToSink (hs.setTimer s.buffer.timer true) .tick severity
  | drainAll timeoutMs now now' =>
    obtain rfl := Option.some.inj hstep
    simp only [accepted, evicted, popped, List.nil_append, ofSeverity_nil, List.append_nil]
    exact queue_drainAllLoop hs _ _ _ _ severity
  | settle k ok =>
    simp only [step] at hstep
    split at hstep
    · obtain rfl := Option.some.inj hstep
      cases ok with
      | true => exact List.append_nil _
      | false => simp [queue, onSettle, accepted, evicted, popped]
    · cases hstep
  | resume k now =>
    simp only [step] at hstep
    split at hstep
    · rename_i caller batch drained failed hk
      obtain rfl := Option.some.inj hstep
      simp only [accepted, evicted, popped, hk, List.nil_append, ofSeverity_nil, List.append_nil]
      cases caller with
      | tick => rfl
      | drainAll deadline succeeded failed' =>
        exact queue_drainAllLoop (hs.erase hk rfl) _ _ _ _ severity
    · cases hstep

/-- Each ring buffer refines a bounded list, the shared capacity makes every push
succeed, and what was accepted is what has left a queue and what it holds. -/
structure RefinesLists (es : List BufferEvent) (s : BufferSystem options) : Prop where
  layout : ∀ severity, (s.buffer.queues severity).Represents (s.queue severity)
  answers : ∀ severity (ops : List (FifoOp IngestionSignal)),
    (FifoOp.run RingBuffer.apply ops (s.buffer.queues severity)).1
        = (FifoOp.run (FifoOp.onList options.capacity) ops (s.queue severity)).1 ∧
      (FifoOp.run RingBuffer.apply ops (s.buffer.queues severity)).2.Represents
        (FifoOp.run (FifoOp.onList options.capacity) ops (s.queue severity)).2
  shared : (priorityOrder.map fun severity => (s.queue severity).length).sum ≤ options.capacity
  pushed : ∀ signal, (s.buffer.submit signal).1 = .accepted →
    s.buffer.pushResult signal = some true ∧
      ∃ older, ((s.buffer.submit signal).2.2.queues signal.severity).contents = older ++ [signal]
  pushes : ∀ signal, (s.buffer.submit signal).1 ≠ .accepted → s.buffer.pushResult signal = none
  account : ∀ severity,
    ofSeverity severity ((lts options).emitted accepted (init options) es)
      = ofSeverity severity
          ((lts options).emitted (fun s e => s.evicted e ++ s.popped e) (init options) es)
        ++ s.queue severity

/-- In every run the ring buffers are the lists of the accepted signals that have not
left them. -/
theorem refinesLists_of_run {es : List BufferEvent}
    (hrun : (lts options).run (init options) es = some s) : s.RefinesLists es := by
  have hinv : ∀ s e s', s.Inv → (lts options).step s e = some s' → s'.Inv :=
    fun _ _ _ h hstep => h.step hstep
  have hs : s.Inv := Lts.run_invariant hinv hrun inv_init
  have hstep : ∀ severity s e s', s.Inv → (lts options).step s e = some s' →
      s.queue severity ++ ofSeverity severity (s.accepted e)
        = ofSeverity severity (s.evicted e ++ s.popped e) ++ s'.queue severity :=
    fun severity _ _ _ h hstep => queue_of_step h hstep severity
  refine ⟨fun severity => RingBuffer.represents_contents _, fun severity ops =>
    RingBuffer.run_refines _ ops, ?_, fun signal => stored_of_accepted hs.valid, fun signal =>
    pushResult_of_rejected, ?_⟩
  · simp only [queue, RingBuffer.length_contents]
    exact hs.valid.bounded
  · intro severity
    have hbalance := Lts.run_balance hinv (hstep severity) hrun inv_init
    rw [ofSeverity, ofSeverity, Lts.filter_emitted, Lts.filter_emitted]
    exact hbalance

theorem refinesLists_of_tinyEvents : ∃ s,
    (lts tinyOptions).run (init tinyOptions) tinyEvents = some s ∧ s.RefinesLists tinyEvents := by
  have hran : ((lts tinyOptions).run (init tinyOptions) tinyEvents).isSome = true := by
    decide +kernel
  obtain ⟨s, hrun⟩ := Option.isSome_iff_exists.1 hran
  exact ⟨s, hrun, refinesLists_of_run hrun⟩

/-! ### P0 signals -/

/-- P0 signals are accepted and never shed; what is evicted for one is the oldest signal
of the least urgent queue, and a P0 only if the buffer is full of P0s. -/
structure ProtectsP0 (s : BufferSystem options) : Prop where
  accepted : ∀ signal : IngestionSignal, signal.severity = .P0 →
    (s.buffer.submit signal).1 = .accepted
  shed : s.buffer.getStats.droppedBySeverityAndReason .P0 .shed_ceiling = 0
  leaves : ∀ e s', s.step e = some s' →
    s.queue .P0 ++ ofSeverity .P0 (s.accepted e)
      = ofSeverity .P0 (s.evicted e ++ s.popped e) ++ s'.queue .P0
  evictor : ∀ e, s.evicted e ≠ [] → ∃ signal, e = .submit signal ∧ signal.severity = .P0
  victim : ∀ e, ∀ victim ∈ s.evicted e, (∃ rest, s.queue victim.severity = victim :: rest) ∧
    ∀ lower : Severity, victim.severity.rank < lower.rank → s.queue lower = []
  victimP0 : ∀ e, ∀ victim ∈ s.evicted e, victim.severity = .P0 →
    (s.queue .P0).length = options.capacity ∧ ∀ other, other ≠ .P0 → s.queue other = []

lemma submit_P0 (b : SignalBuffer options) {signal : IngestionSignal}
    (h : signal.severity = .P0) : (b.submit signal).1 = .accepted := by
  have hceiling : b.ceilingReached signal.severity = false := by
    rw [h]
    rfl
  unfold submit
  rw [if_neg (by simp [hceiling]), if_pos h]
  split_ifs <;> rfl

/-- Only a P0 submitted to a full buffer evicts, and it evicts the oldest signal of the
least urgent queue. -/
lemma evicted_inv (hs : s.Inv) {e : BufferEvent} {victim : IngestionSignal}
    (h : victim ∈ s.evicted e) : (∃ signal, e = .submit signal ∧ signal.severity = .P0) ∧
      s.buffer.totalSize = options.capacity ∧
      (∃ rest, s.queue victim.severity = victim :: rest) ∧
      ∀ lower : Severity, victim.severity.rank < lower.rank → s.queue lower = [] := by
  cases e with
  | submit signal =>
    simp only [evicted, submit] at h
    split_ifs at h with hceiling hfull hP0
    · cases h
    · obtain ⟨severity, victim', rest, hcontents, hlower, -, hevict⟩ :=
        evict_eq (options.capacity_pos.trans_le hfull)
      rw [hevict] at h
      obtain rfl : victim = victim' := by simpa using h
      have hown : victim.severity = severity :=
        hs.valid.sorted severity victim (by simp [hcontents])
      subst hown
      exact ⟨⟨signal, rfl, hP0⟩, le_antisymm hs.valid.bounded hfull, ⟨rest, hcontents⟩, hlower⟩
    · cases h
    · cases h
  | _ => cases h

/-- A buffer whose other queues are empty is full of P0s when it is full. -/
lemma length_queue_P0 (hfull : s.buffer.totalSize = options.capacity)
    (hothers : ∀ lower : Severity, Severity.P0.rank < lower.rank → s.queue lower = []) :
    (s.queue .P0).length = options.capacity := by
  have hempty : ∀ lower : Severity, Severity.P0.rank < lower.rank →
      (s.buffer.queues lower).size = 0 := fun lower h =>
    RingBuffer.contents_eq_nil_iff.1 (hothers lower h)
  rw [queue, RingBuffer.length_contents]
  refine Eq.trans ?_ hfull
  simp [totalSize, priorityOrder, hempty .P1 (by decide), hempty .P2 (by decide),
    hempty .P3 (by decide)]

/-- No P0 has been rejected. -/
def NoRejectedP0 (s : BufferSystem options) : Prop :=
  ∀ r ∈ s.history.rejected, r.1.severity ≠ .P0

lemma history_drainToSink (s : BufferSystem options) (caller : DrainCaller) :
    (s.drainToSink caller).history = s.history := by
  dsimp only [drainToSink]
  split_ifs <;> rfl

lemma history_drainAllLoop (s : BufferSystem options) (deadline : Instant)
    (succeeded failed : ℕ) (now : Instant) :
    (s.drainAllLoop deadline succeeded failed now).history = s.history := by
  unfold drainAllLoop
  split_ifs
  · exact history_drainToSink s _
  · rfl

/-- The history changes with a submission and with a settled sink call alone. -/
lemma history_step {e : BufferEvent} (hstep : s.step e = some s') :
    s'.history = s.history ∨
      (∃ signal, s'.history = s.history.record signal
        ((s.buffer.submit signal).1, (s.buffer.submit signal).2.1)) ∨
      (∃ batch, s'.history = { s.history with drained := s.history.drained ++ batch }) ∨
      ∃ batch, s'.history = { s.history with lost := s.history.lost ++ batch } := by
  cases e with
  | submit signal =>
    obtain rfl := Option.some.inj hstep
    exact .inr (.inl ⟨signal, rfl⟩)
  | start | stop =>
    obtain rfl := Option.some.inj hstep
    exact .inl rfl
  | tick =>
    simp only [BufferSystem.step, Option.ite_none_right_eq_some, Option.some.injEq] at hstep
    obtain ⟨-, rfl⟩ := hstep
    left
    unfold onTick
    split_ifs
    · rfl
    · exact history_drainToSink _ _
  | drainAll timeoutMs now now' =>
    obtain rfl := Option.some.inj hstep
    exact .inl (history_drainAllLoop s _ _ _ _)
  | settle k ok =>
    simp only [BufferSystem.step] at hstep
    split at hstep
    · obtain rfl := Option.some.inj hstep
      cases ok with
      | true => exact .inr (.inr (.inl ⟨_, rfl⟩))
      | false => exact .inr (.inr (.inr ⟨_, rfl⟩))
    · cases hstep
  | resume k now =>
    simp only [BufferSystem.step] at hstep
    split at hstep
    · rename_i caller batch drained failed hk
      obtain rfl := Option.some.inj hstep
      left
      cases caller with
      | tick => rfl
      | drainAll deadline succeeded failed' => exact history_drainAllLoop _ _ _ _ _
    · cases hstep

lemma NoRejectedP0.step (h : s.NoRejectedP0) {e : BufferEvent} (hstep : s.step e = some s') :
    s'.NoRejectedP0 := by
  rcases history_step hstep with heq | ⟨signal, heq⟩ | ⟨batch, heq⟩ | ⟨batch, heq⟩
  · rwa [NoRejectedP0, heq]
  · intro r hr
    rw [heq] at hr
    cases hresult : (s.buffer.submit signal).1 with
    | accepted =>
      simp only [hresult, History.record] at hr
      exact h r hr
    | rejected reason =>
      simp only [hresult, History.record] at hr
      rcases List.mem_append.1 hr with hold | hnew
      · exact h r hold
      · obtain rfl := List.mem_singleton.1 hnew
        intro hP0
        rw [submit_P0 s.buffer hP0] at hresult
        cases hresult
  · rw [NoRejectedP0, heq]
    exact h
  · rw [NoRejectedP0, heq]
    exact h

/-- Drops are not forgotten. -/
lemma length_drops_le {e : BufferEvent} (hstep : s.step e = some s') :
    (History.drops s.history).length ≤ (History.drops s'.history).length := by
  rcases history_step hstep with heq | ⟨signal, heq⟩ | ⟨batch, heq⟩ | ⟨batch, heq⟩
  · rw [heq]
  · rw [heq]
    cases (s.buffer.submit signal).1 <;>
      simp only [History.record, History.drops, List.length_append, List.length_map] <;> omega
  · rw [heq]
    exact Nat.le_refl _
  · rw [heq]
    simp only [History.drops, List.length_append, List.length_map]
    omega

/-- The ceiling ledger of P0 counts the rejected P0s. -/
lemma shed_P0 (hs : s.Inv) (h : s.NoRejectedP0) :
    s.buffer.getStats.droppedBySeverityAndReason .P0 .shed_ceiling = 0 := by
  have hnone : ((.P0, .shed_ceiling) : Severity × DropReason) ∉ History.drops s.history := by
    intro hmem
    simp only [History.drops, List.mem_append, List.mem_map, Prod.mk.injEq, reduceCtorEq,
      and_false, exists_false, or_false] at hmem
    obtain ⟨r, hr, hP0, -⟩ := hmem
    exact h r hr hP0
  exact (hs.ledger.bySeverityAndReason .P0 .shed_ceiling).trans (List.count_eq_zero.2 hnone)

/-- In every reachable state P0 signals are protected. -/
theorem protectsP0_of_run {es : List BufferEvent}
    (hrun : (lts options).run (init options) es = some s) : s.ProtectsP0 := by
  have hs : s.Inv := Lts.run_invariant (fun _ _ _ h hstep => h.step hstep) hrun inv_init
  have hrejected : s.NoRejectedP0 := by
    refine Lts.run_invariant (fun _ _ _ h hstep => h.step hstep) hrun ?_
    intro r hr
    cases hr
  refine ⟨fun signal => submit_P0 s.buffer, shed_P0 hs hrejected,
    fun e s' hstep => queue_of_step hs hstep .P0, ?_, ?_,
    ?_⟩
  · intro e hne
    obtain ⟨victim, hmem⟩ := List.exists_mem_of_ne_nil _ hne
    exact (evicted_inv hs hmem).1
  · intro e victim hmem
    exact (evicted_inv hs hmem).2.2
  · intro e victim hmem hP0
    obtain ⟨-, hfull, -, hlower⟩ := evicted_inv hs hmem
    rw [hP0] at hlower
    refine ⟨length_queue_P0 hfull hlower, fun other hother => hlower other ?_⟩
    cases other <;> first | decide | exact absurd rfl hother

theorem protectsP0_of_tinyEvents : ∃ s,
    (lts tinyOptions).run (init tinyOptions) tinyEvents = some s ∧ s.ProtectsP0 := by
  have hran : ((lts tinyOptions).run (init tinyOptions) tinyEvents).isSome = true := by
    decide +kernel
  obtain ⟨s, hrun⟩ := Option.isSome_iff_exists.1 hran
  exact ⟨s, hrun, protectsP0_of_run hrun⟩

end BufferSystem

end InveniOps.Ingestion
