import InveniOps.Ingestion.BufferQueues

/-!
# Graceful shutdown

The shutdown hook of `index.ts` within `registerShutdownHooks`: the process goes on to
serve requests, to tick and to settle its sink calls between the awaited steps of the
hook, of which `drainAll` is one and the closing of the queue behind the sink another.
-/

namespace InveniOps.Ingestion

open Lib

/-- What the hook awaits; it has called the step that it awaits. -/
inductive ShutdownPhase
  | running
  /-- `incidentEventSubscriber.stop()`. -/
  | stoppingSubscriber
  /-- `signalBuffer.drainAll(…)`, behind `signalBuffer.stop()`. -/
  | drainingBuffer
  /-- `system.worker.close()`, or its timeout. -/
  | closingWorker
  | closingQueue
  | closingDeadLetterQueue
  /-- `server.close(…)`, which waits for the requests in flight. -/
  | closingServer
  | disconnecting
  | exited (code : ℕ)
deriving DecidableEq

/-- Requests are handled. -/
def ShutdownPhase.serves : ShutdownPhase → Bool
  | .disconnecting | .exited _ => false
  | _ => true

/-- The queue behind the sink has been told to close. -/
def ShutdownPhase.queueClosed : ShutdownPhase → Bool
  | .running | .stoppingSubscriber | .drainingBuffer | .closingWorker => false
  | _ => true

/-- `drainAll` has returned, on the way to an orderly exit. -/
def ShutdownPhase.drained : ShutdownPhase → Bool
  | .running | .stoppingSubscriber | .drainingBuffer => false
  | .exited code => code = 0
  | _ => true

/-- The process with its buffer.  `answered` holds the signals of the requests that were
answered 202. -/
structure Process (options : SignalBufferOptions) where
  system : BufferSystem options
  phase : ShutdownPhase
  answered : List IngestionSignal

/-- What the process can do next, its shutdown included. -/
inductive ProcessEvent
  /-- `handleIngest` from its first submission to its response. -/
  | ingest (signals : List IngestionSignal)
  | tick
  | settle (k : ℕ) (ok : Bool)
  | resume (k : ℕ) (now : Instant)
  | sigterm
  /-- The clock for the deadline of `drainAll` and for its first test. -/
  | drainAll (now now' : Instant)
  | stopWorkerSystem
  | closeQueue
  | closeDeadLetterQueue
  | closeServer
  | disconnectClients
  | exit
  /-- An awaited step of the hook rejects. -/
  | fail

namespace BufferSystem

variable {options : SignalBufferOptions}

/-- The buffer behind one submission. -/
def submitted (s : BufferSystem options) (signal : IngestionSignal) : BufferSystem options :=
  { s with
    buffer := (s.buffer.submit signal).2.2
    history := s.history.record signal
      ((s.buffer.submit signal).1, (s.buffer.submit signal).2.1) }

/-- The loop of `submitOrReject`: the accepted signals and the number of dropped ones. -/
def submitOrReject : BufferSystem options → List IngestionSignal →
    List IngestionSignal × ℕ × BufferSystem options
  | s, [] => ([], 0, s)
  | s, signal :: rest =>
    let outcome := (s.submitted signal).submitOrReject rest
    match (s.buffer.submit signal).1 with
    | .accepted => (signal :: outcome.1, outcome.2)
    | .rejected _ => (outcome.1, outcome.2.1 + 1, outcome.2.2)

end BufferSystem

namespace Process

variable {options : SignalBufferOptions} (timeoutMs : ℤ)

/-- The process behind the `signalBuffer.start()` of `main`. -/
def init (options : SignalBufferOptions) : Process options :=
  let system := BufferSystem.init options
  ⟨{ system with buffer := { system.buffer with timer := true } }, .running, []⟩

/-- An event of the buffer in a process that has not exited. -/
def onBuffer (s : Process options) (e : BufferEvent) : Option (Process options) :=
  match s.phase with
  | .exited _ => none
  | _ => (s.system.step e).map fun system => { s with system := system }

/-- The hook gets from one phase to the next. -/
def advance (s : Process options) (before after : ShutdownPhase) : Option (Process options) :=
  if s.phase = before then some { s with phase := after } else none

/-- One event of the process, where its phase allows it. -/
def step : Process options → ProcessEvent → Option (Process options)
  | s, .ingest signals =>
    if s.phase.serves then
      -- one dropped signal turns the answer of the whole request into a 503
      let (_, dropped, system) := s.system.submitOrReject signals
      some { s with
        system := system
        answered := if dropped > 0 then s.answered else s.answered ++ signals }
    else none
  | s, .tick => s.onBuffer .tick
  | s, .settle k ok => s.onBuffer (.settle k ok)
  | s, .resume k now => s.onBuffer (.resume k now)
  | s, .sigterm => s.advance .running .stoppingSubscriber
  | s, .drainAll now now' =>
    if s.phase = .stoppingSubscriber then
      -- `stop` is synchronous, and `drainAll` runs to its first suspension
      ((s.system.step .stop).bind (·.step (.drainAll timeoutMs now now'))).map fun system =>
        { s with system := system, phase := .drainingBuffer }
    else none
  | s, .stopWorkerSystem =>
    -- the promise of `drainAll` has resolved
    if s.system.results.length = 0 then none else s.advance .drainingBuffer .closingWorker
  | s, .closeQueue => s.advance .closingWorker .closingQueue
  | s, .closeDeadLetterQueue => s.advance .closingQueue .closingDeadLetterQueue
  | s, .closeServer => s.advance .closingDeadLetterQueue .closingServer
  | s, .disconnectClients => s.advance .closingServer .disconnecting
  | s, .exit => s.advance .disconnecting (.exited 0)
  | s, .fail =>
    match s.phase with
    | .running | .disconnecting | .exited _ => none
    -- the `catch` of the hook exits with an error
    | _ => some { s with phase := .exited 1 }

/-- The process as a transition system. -/
def lts (options : SignalBufferOptions) : Lts (Process options) ProcessEvent := ⟨step timeoutMs⟩

/-- The sink does not reject while its queue is open, and no deadline is reached. -/
def InTime (s : Process options) : ProcessEvent → Prop
  | .settle _ ok => ok = true ∨ s.phase.queueClosed
  | .drainAll now now' => now' < now + timeoutMs
  | .resume k now =>
    match s.system.drains[k]? with
    | some ⟨.drainAll deadline _ _, _, _⟩ => now < deadline
    | _ => True
  | _ => True

/-- No signal is accepted behind the last look of `drainAll`, and no sink call is pending
when the queue is closed. -/
def Calm (s : Process options) : ProcessEvent → Prop
  | .ingest signals => s.system.results = [] ∨ (s.system.submitOrReject signals).1 = []
  | .closeQueue => s.system.pending = []
  | _ => True

instance decidableInTime (s : Process options) (e : ProcessEvent) :
    Decidable (s.InTime timeoutMs e) :=
  match e with
  | .resume k now =>
    match h : s.system.drains[k]? with
    | some ⟨.drainAll deadline _ _, _, _⟩ => decidable_of_iff (now < deadline) (by simp [InTime, h])
    | some ⟨.tick, _, _⟩ => isTrue (by simp [InTime, h])
    | none => isTrue (by simp [InTime, h])
  | .settle _ _ | .drainAll _ _ | .ingest _ | .tick | .sigterm | .stopWorkerSystem | .closeQueue
  | .closeDeadLetterQueue | .closeServer | .disconnectClients | .exit | .fail => by
    delta InTime
    infer_instance

instance decidableCalm (s : Process options) (e : ProcessEvent) : Decidable (s.Calm e) :=
  match e with
  | .ingest _ | .settle _ _ | .resume _ _ | .drainAll _ _ | .tick | .sigterm
  | .stopWorkerSystem | .closeQueue | .closeDeadLetterQueue | .closeServer | .disconnectClients
  | .exit | .fail => by
    delta Calm
    infer_instance

/-- At the exit the buffer is empty, no sink call is pending, and the answered signals are
among those that the sink has taken and those that were evicted for a P0. -/
structure NothingLost (s : Process options) : Prop where
  empty : s.system.buffer.queued = []
  settled : s.system.pending = []
  answered : (s.answered : Multiset IngestionSignal)
    ≤ s.system.history.drained + s.system.history.evicted

end Process

/-! ### The buffer between the steps of the hook -/

namespace BufferSystem

variable {options : SignalBufferOptions} {s s' : BufferSystem options}

/-- Once `drainAll` has returned, the queues are empty. -/
def Emptied (s : BufferSystem options) : Prop := s.results ≠ [] → s.buffer.totalSize = 0

/-- Neither a queue nor the sink holds a signal. -/
def Idle (s : BufferSystem options) : Prop := s.buffer.totalSize = 0 ∧ s.pending = []

lemma results_drainToSink (caller : DrainCaller) : (s.drainToSink caller).results = s.results := by
  dsimp only [drainToSink]
  split_ifs <;> rfl

lemma totalSize_drainToSink_le (caller : DrainCaller) :
    (s.drainToSink caller).buffer.totalSize ≤ s.buffer.totalSize := by
  obtain ⟨-, hrest, -⟩ := s.buffer.popPriorityBatch_spec options.drainBatchSize
  have hle : (s.buffer.popPriorityBatch options.drainBatchSize).2.totalSize
      ≤ s.buffer.totalSize := by
    rw [← SignalBuffer.length_queued, ← SignalBuffer.length_queued, hrest, List.length_drop]
    exact Nat.sub_le _ _
  dsimp only [drainToSink]
  split_ifs
  · exact hle
  · exact (SignalBuffer.totalSize_congr SignalBuffer.queues_recomputeState).trans_le hle

/-- There is nothing to take from empty queues. -/
lemma Idle.drainToSink (h : s.Idle) (caller : DrainCaller) : (s.drainToSink caller).Idle := by
  obtain ⟨hempty, hpending⟩ := h
  refine ⟨Nat.le_zero.1 ((totalSize_drainToSink_le caller).trans hempty.le), ?_⟩
  have hbatch : (s.buffer.popPriorityBatch options.drainBatchSize).1 = [] := by
    rw [(s.buffer.popPriorityBatch_spec options.drainBatchSize).1, List.length_eq_zero_iff.1
      (SignalBuffer.length_queued.trans hempty), List.take_nil]
  dsimp only [BufferSystem.drainToSink]
  rw [hbatch, List.length_nil, if_pos rfl]
  simpa [pending, pendingOf] using hpending

lemma Idle.drainAllLoop (h : s.Idle) (deadline : Instant) (succeeded failed : ℕ)
    (now : Instant) : (s.drainAllLoop deadline succeeded failed now).Idle := by
  unfold BufferSystem.drainAllLoop
  split_ifs
  · exact h.drainToSink _
  · exact h

lemma Emptied.drainToSink (h : s.Emptied) (caller : DrainCaller) :
    (s.drainToSink caller).Emptied := by
  intro hresults
  rw [results_drainToSink] at hresults
  exact Nat.le_zero.1 ((totalSize_drainToSink_le caller).trans (h hresults).le)

/-- In time, `drainAll` returns with empty queues only. -/
lemma Emptied.drainAllLoop (h : s.Emptied) {deadline now : Instant} (hnow : now < deadline)
    (succeeded failed : ℕ) : (s.drainAllLoop deadline succeeded failed now).Emptied := by
  unfold BufferSystem.drainAllLoop
  split_ifs with hloop
  · exact h.drainToSink _
  · exact fun _ => Nat.eq_zero_of_not_pos fun hpos => hloop ⟨hpos, hnow⟩

lemma pending_eq_nil_iff : s.pending = [] ↔ ∀ drain ∈ s.drains, pendingOf drain = [] :=
  List.flatMap_eq_nil_iff

/-- A settled sink call leaves the pending signals, and no other does. -/
lemma pending_onSettle {k : ℕ} (caller : DrainCaller) (batch : List IngestionSignal) (ok : Bool)
    (h : s.pending = []) : (s.onSettle k ⟨caller, batch, .sink⟩ ok).pending = [] := by
  rw [pending_eq_nil_iff] at h ⊢
  intro drain hmem
  cases ok
  all_goals
    rcases List.mem_or_eq_of_mem_set hmem with hold | rfl
    · exact h drain hold
    · rfl

/-- What the events of the drain loop keep. -/
structure Drains (s s' : BufferSystem options) : Prop where
  submitted : s'.history.submitted = s.history.submitted
  rejected : s'.history.rejected = s.history.rejected
  results : s.results ≠ [] → s'.results ≠ []
  emptied : s.Emptied → s'.Emptied
  idle : s.Idle → s'.Idle

lemma drains_drainToSink (s : BufferSystem options) (caller : DrainCaller) :
    s.Drains (s.drainToSink caller) where
  submitted := by rw [history_drainToSink]
  rejected := by rw [history_drainToSink]
  results h := by rwa [results_drainToSink]
  emptied h := h.drainToSink caller
  idle h := h.drainToSink caller

lemma drains_drainAllLoop (s : BufferSystem options) {deadline now : Instant}
    (hnow : now < deadline) (succeeded failed : ℕ) :
    s.Drains (s.drainAllLoop deadline succeeded failed now) where
  submitted := by rw [history_drainAllLoop]
  rejected := by rw [history_drainAllLoop]
  results h := by
    unfold BufferSystem.drainAllLoop
    split_ifs
    · rwa [results_drainToSink]
    · simp
  emptied h := h.drainAllLoop hnow succeeded failed
  idle h := h.drainAllLoop deadline succeeded failed now

lemma drains_of_tick (hstep : s.step .tick = some s') : s.Drains s' := by
  simp only [step, Option.ite_none_right_eq_some, Option.some.injEq] at hstep
  obtain ⟨-, rfl⟩ := hstep
  unfold onTick
  split_ifs
  · exact ⟨rfl, rfl, id, id, id⟩
  · obtain ⟨hsubmitted, hrejected, hresults, hemptied, hidle⟩ := drains_drainToSink
      { s with buffer := { s.buffer with draining := true } } .tick
    exact ⟨hsubmitted, hrejected, hresults, hemptied, hidle⟩

lemma drains_of_settle {k : ℕ} {ok : Bool} (hstep : s.step (.settle k ok) = some s') :
    s.Drains s' := by
  simp only [step] at hstep
  split at hstep
  · rename_i caller batch hk
    obtain rfl := Option.some.inj hstep
    cases ok with
    | true => exact ⟨rfl, rfl, id, id, fun h => ⟨h.1, pending_onSettle caller batch true h.2⟩⟩
    | false =>
      have htotal := SignalBuffer.totalSize_congr
        (SignalBuffer.queues_recordSinkFailure (b := s.buffer) batch)
      exact ⟨rfl, rfl, id, fun h hresults => htotal.trans (h hresults),
        fun h => ⟨htotal.trans h.1, pending_onSettle caller batch false h.2⟩⟩
  · cases hstep

lemma drains_of_resume {k : ℕ} {now : Instant} (hstep : s.step (.resume k now) = some s')
    (hnow : ∀ deadline succeeded failed batch phase,
      s.drains[k]? = some ⟨.drainAll deadline succeeded failed, batch, phase⟩ → now < deadline) :
    s.Drains s' := by
  simp only [step] at hstep
  split at hstep
  · rename_i caller batch drained failed hk
    obtain rfl := Option.some.inj hstep
    have herase : s.Idle → { s with drains := s.drains.eraseIdx k }.Idle := by
      rintro ⟨hempty, hpending⟩
      refine ⟨hempty, pending_eq_nil_iff.2 ?_⟩
      intro drain hmem
      exact pending_eq_nil_iff.1 hpending drain (List.mem_of_mem_eraseIdx hmem)
    cases caller with
    | tick => exact ⟨rfl, rfl, id, id, herase⟩
    | drainAll deadline succeeded failed' =>
      obtain ⟨hsubmitted, hrejected, hresults, hemptied, hidle⟩ := drains_drainAllLoop
        { s with drains := s.drains.eraseIdx k } (hnow _ _ _ _ _ hk) (succeeded + drained)
        (failed' + failed)
      exact ⟨hsubmitted, hrejected, hresults, hemptied, fun h => hidle (herase h)⟩
  · cases hstep

/-- A sink call without pending signals loses none. -/
lemma batch_eq_nil {k : ℕ} {caller : DrainCaller} {batch : List IngestionSignal}
    (h : s.pending = []) (hk : s.drains[k]? = some ⟨caller, batch, .sink⟩) : batch = [] :=
  pending_eq_nil_iff.1 h _ (List.mem_of_getElem? hk)

/-- Only a sink call that rejects loses signals. -/
lemma lost_of_step {e : BufferEvent} (hstep : s.step e = some s')
    (he : ∀ signal, e ≠ .submit signal) (hok : ∀ k, e = .settle k false → s.pending = []) :
    s'.history.lost = s.history.lost := by
  cases e with
  | submit signal => exact absurd rfl (he signal)
  | start | stop =>
    obtain rfl := Option.some.inj hstep
    rfl
  | tick =>
    simp only [step, Option.ite_none_right_eq_some, Option.some.injEq] at hstep
    obtain ⟨-, rfl⟩ := hstep
    unfold onTick
    split_ifs
    · rfl
    · rw [history_drainToSink]
  | drainAll timeoutMs now now' =>
    obtain rfl := Option.some.inj hstep
    rw [history_drainAllLoop]
  | settle k ok =>
    simp only [step] at hstep
    split at hstep
    · rename_i caller batch hk
      obtain rfl := Option.some.inj hstep
      cases ok with
      | true => rfl
      | false =>
        obtain rfl := batch_eq_nil (hok k rfl) hk
        exact List.append_nil _
    · cases hstep
  | resume k now =>
    simp only [step] at hstep
    split at hstep
    · rename_i caller batch drained failed hk
      obtain rfl := Option.some.inj hstep
      cases caller with
      | tick => rfl
      | drainAll deadline succeeded failed' => rw [onResume, history_drainAllLoop]
    · cases hstep

/-! ### Submissions -/

lemma submitted_of_rejected {signal : IngestionSignal} (hs : s.Inv)
    (h : (s.buffer.submit signal).1 ≠ .accepted) :
    (s.submitted signal).buffer.queues = s.buffer.queues :=
  ((SignalBuffer.submit_spec hs.valid signal).2.2.1 h).1

/-- What the loop over the signals of a request does. -/
structure Submits (s : BufferSystem options) (signals accepted : List IngestionSignal)
    (dropped : ℕ) (s' : BufferSystem options) : Prop where
  inv : s'.Inv
  drains : s'.drains = s.drains
  results : s'.results = s.results
  lost : s'.history.lost = s.history.lost
  submitted : s'.history.submitted = s.history.submitted ++ signals
  rejected : (s'.history.rejected.map Prod.fst ++ accepted).Perm
    (s.history.rejected.map Prod.fst ++ signals)
  answered : dropped = 0 → accepted = signals
  idle : accepted = [] → s'.buffer.totalSize = s.buffer.totalSize

lemma history_submitted_accepted {signal : IngestionSignal}
    (h : (s.buffer.submit signal).1 = .accepted) :
    (s.submitted signal).history.submitted = s.history.submitted ++ [signal] ∧
      (s.submitted signal).history.rejected = s.history.rejected ∧
      (s.submitted signal).history.lost = s.history.lost := by
  simp only [submitted, h, History.record, and_self]

lemma history_submitted_rejected {signal : IngestionSignal}
    {reason : {reason : DropReason // reason ≠ .sink_failure}}
    (h : (s.buffer.submit signal).1 = .rejected reason) :
    (s.submitted signal).history.submitted = s.history.submitted ++ [signal] ∧
      (s.submitted signal).history.rejected = s.history.rejected ++ [(signal, reason)] ∧
      (s.submitted signal).history.lost = s.history.lost := by
  simp only [submitted, h, History.record, and_self]

lemma submits_submitOrReject (hs : s.Inv) (signals : List IngestionSignal) :
    s.Submits signals (s.submitOrReject signals).1 (s.submitOrReject signals).2.1
      (s.submitOrReject signals).2.2 := by
  induction signals generalizing s with
  | nil =>
    exact ⟨hs, rfl, rfl, rfl, by simp [submitOrReject], by simp [submitOrReject],
      fun _ => rfl, fun _ => rfl⟩
  | cons signal rest ih =>
    have hs' : (s.submitted signal).Inv := hs.submit signal
    have hrest := ih hs'
    cases hresult : (s.buffer.submit signal).1 with
    | accepted =>
      obtain ⟨hsubmitted, hrejected, hlost⟩ := history_submitted_accepted hresult
      simp only [submitOrReject, hresult]
      refine ⟨hrest.inv, hrest.drains, hrest.results, hrest.lost.trans hlost, ?_, ?_, ?_, ?_⟩
      · rw [hrest.submitted, hsubmitted, List.append_assoc, List.singleton_append]
      · have hperm := hrest.rejected
        rw [hrejected] at hperm
        exact List.perm_middle.trans ((hperm.cons signal).trans List.perm_middle.symm)
      · exact fun h => congrArg (signal :: ·) (hrest.answered h)
      · exact fun h => nomatch h
    | rejected reason =>
      obtain ⟨hsubmitted, hrejected, hlost⟩ := history_submitted_rejected hresult
      simp only [submitOrReject, hresult]
      refine ⟨hrest.inv, hrest.drains, hrest.results, hrest.lost.trans hlost, ?_, ?_, ?_, ?_⟩
      · rw [hrest.submitted, hsubmitted, List.append_assoc, List.singleton_append]
      · have hperm := hrest.rejected
        rw [hrejected, List.map_append, List.append_assoc] at hperm
        exact hperm
      · exact fun h => nomatch h
      · have hqueues := submitted_of_rejected hs (by simp [hresult] :
          (s.buffer.submit signal).1 ≠ .accepted)
        exact fun h => (hrest.idle h).trans (SignalBuffer.totalSize_congr hqueues)

end BufferSystem

/-! ### Runs -/

namespace Process

open BufferSystem

variable {options : SignalBufferOptions} {timeoutMs : ℤ} {s s' : Process options}

/-- The invariant of the shutdown. -/
structure ShutdownInv (s : Process options) : Prop where
  system : s.system.Inv
  answered : (s.answered : Multiset IngestionSignal)
    + (s.system.history.rejected.map Prod.fst : List IngestionSignal) ≤ s.system.history.submitted
  emptied : s.system.Emptied
  lost : s.system.history.lost = []
  returned : s.phase.drained → s.system.results ≠ []
  idle : s.phase.drained → s.phase ≠ .closingWorker → s.system.Idle

lemma shutdownInv_init : (init options).ShutdownInv where
  system := inv_init.setTimer true false
  answered := by simp [init, BufferSystem.init, History.empty]
  emptied h := absurd rfl h
  lost := rfl
  returned h := nomatch h
  idle h := nomatch h

lemma advance_inv {before after : ShutdownPhase} (h : s.advance before after = some s') :
    s.phase = before ∧ s' = { s with phase := after } := by
  simp only [advance, Option.ite_none_right_eq_some, Option.some.injEq] at h
  exact ⟨h.1, h.2.symm⟩

lemma onBuffer_inv {e : BufferEvent} (h : s.onBuffer e = some s') :
    (∀ code, s.phase ≠ .exited code) ∧
      ∃ system, s.system.step e = some system ∧ s' = { s with system := system } := by
  unfold onBuffer at h
  split at h
  · cases h
  · rename_i hphase
    obtain ⟨system, hstep, rfl⟩ := Option.map_eq_some_iff.1 h
    exact ⟨hphase, system, hstep, rfl⟩

/-- An event of the drain loop keeps the invariant. -/
lemma ShutdownInv.onBuffer (h : s.ShutdownInv) {e : BufferEvent} (hstep : s.onBuffer e = some s')
    (hdrains : ∀ system, s.system.step e = some system → s.system.Drains system)
    (he : ∀ signal, e ≠ .submit signal)
    (hok : ∀ k, e = .settle k false → s.phase.queueClosed = true) : s'.ShutdownInv := by
  obtain ⟨hphase, system, hsystem, rfl⟩ := onBuffer_inv hstep
  have hd := hdrains system hsystem
  have hidle : s.phase.queueClosed = true → s.system.Idle := by
    intro hclosed
    -- a closed queue stands behind a drained buffer
    refine h.idle ?_ ?_
    · cases hs : s.phase <;> first
        | rfl
        | exact absurd hs (hphase _)
        | simp [hs, ShutdownPhase.queueClosed] at hclosed
    · intro hs
      simp [hs, ShutdownPhase.queueClosed] at hclosed
  refine ⟨h.system.step hsystem, ?_, hd.emptied h.emptied, ?_, fun hp => hd.results (h.returned hp),
    fun hp hne => hd.idle (h.idle hp hne)⟩
  · rw [hd.submitted, hd.rejected]
    exact h.answered
  · exact (lost_of_step hsystem he fun k hk => (hidle (hok k hk)).2).trans h.lost

/-- A step of the hook that leaves the buffer alone. -/
lemma ShutdownInv.setPhase (h : s.ShutdownInv) {phase : ShutdownPhase}
    (hreturned : phase.drained → s.system.results ≠ [])
    (hidle : phase.drained → phase ≠ .closingWorker → s.system.Idle) :
    { s with phase := phase }.ShutdownInv :=
  ⟨h.system, h.answered, h.emptied, h.lost, hreturned, hidle⟩

/-- A step of the hook behind the closing of the queue. -/
lemma ShutdownInv.advance (h : s.ShutdownInv) {before after : ShutdownPhase}
    (hstep : s.advance before after = some s') (hbefore : before.drained)
    (hne : before ≠ .closingWorker) : s'.ShutdownInv := by
  obtain ⟨rfl, rfl⟩ := advance_inv hstep
  exact h.setPhase (fun _ => h.returned hbefore) fun _ _ => h.idle hbefore hne

/-- A request that accepts nothing behind the last look of `drainAll` keeps the invariant. -/
lemma ShutdownInv.ingest (h : s.ShutdownInv) {signals : List IngestionSignal}
    (hcalm : s.system.results = [] ∨ (s.system.submitOrReject signals).1 = []) :
    { s with
      system := (s.system.submitOrReject signals).2.2
      answered := if (s.system.submitOrReject signals).2.1 > 0 then s.answered
        else s.answered ++ signals }.ShutdownInv := by
  have hsubmits := submits_submitOrReject h.system signals
  set outcome := s.system.submitOrReject signals
  have htotal : s.system.results ≠ [] →
      outcome.2.2.buffer.totalSize = s.system.buffer.totalSize := fun hne =>
    hsubmits.idle (hcalm.resolve_left hne)
  refine ⟨hsubmits.inv, ?_, ?_, hsubmits.lost.trans h.lost, ?_, ?_⟩
  · have hrejected := Multiset.coe_eq_coe.2 hsubmits.rejected
    rw [← Multiset.coe_add, ← Multiset.coe_add] at hrejected
    dsimp only
    rw [hsubmits.submitted, ← Multiset.coe_add]
    split_ifs with hdropped
    · -- the request is answered 503: no signal of it is among the answered
      have hle : ((outcome.2.2.history.rejected.map Prod.fst : List IngestionSignal) :
          Multiset IngestionSignal)
          ≤ (s.system.history.rejected.map Prod.fst : List IngestionSignal) + signals :=
        (Multiset.le_add_right _ _).trans hrejected.le
      calc _ ≤ (s.answered : Multiset IngestionSignal)
              + ((s.system.history.rejected.map Prod.fst : List IngestionSignal) + signals) :=
            add_le_add_right hle _
        _ = s.answered + (s.system.history.rejected.map Prod.fst : List IngestionSignal)
              + signals := (add_assoc _ _ _).symm
        _ ≤ _ := add_le_add_left h.answered _
    · -- nothing was dropped: all signals are answered, and none was rejected
      rw [hsubmits.answered (by omega)] at hrejected
      rw [add_right_cancel hrejected, ← Multiset.coe_add, add_right_comm]
      exact add_le_add_left h.answered _
  · intro hresults
    rw [hsubmits.results] at hresults
    exact (htotal hresults).trans (h.emptied hresults)
  · intro hp
    rw [hsubmits.results]
    exact h.returned hp
  · intro hp hne
    have hidle := h.idle hp hne
    refine ⟨(htotal (h.returned hp)).trans hidle.1, ?_⟩
    rw [pending, hsubmits.drains]
    exact hidle.2

/-- `drainAll` starts behind `stop`, which leaves queues and drains alone. -/
lemma ShutdownInv.drainAll (h : s.ShutdownInv) {now now' : Instant}
    (hstep : s.step timeoutMs (.drainAll now now') = some s') (hnow : now' < now + timeoutMs) :
    s'.ShutdownInv := by
  simp only [step, Option.ite_none_right_eq_some, Option.map_eq_some_iff] at hstep
  obtain ⟨-, system, hsystem, rfl⟩ := hstep
  obtain ⟨stopped, hstop, hdrain⟩ := Option.bind_eq_some_iff.1 hsystem
  obtain rfl := Option.some.inj hdrain
  have hdrains := drains_drainAllLoop stopped hnow 0 0
  have hlost := lost_of_step hdrain (fun _ h => nomatch h) fun _ h => nomatch h
  have hinv := (h.system.step hstop).step hdrain
  obtain rfl := Option.some.inj hstop
  refine ⟨hinv, ?_, hdrains.emptied h.emptied, hlost.trans h.lost, (fun hp => nomatch hp),
    fun hp => nomatch hp⟩
  dsimp only
  rw [hdrains.submitted, hdrains.rejected]
  exact h.answered

lemma ShutdownInv.step {e : ProcessEvent} (h : s.ShutdownInv)
    (hstep : s.step timeoutMs e = some s') (htime : s.InTime timeoutMs e) (hcalm : s.Calm e) :
    s'.ShutdownInv := by
  cases e with
  | ingest signals =>
    simp only [Process.step, Option.ite_none_right_eq_some, Option.some.injEq] at hstep
    obtain ⟨-, rfl⟩ := hstep
    exact h.ingest hcalm
  | tick =>
    exact h.onBuffer hstep (fun _ => drains_of_tick) (fun _ h => nomatch h) fun _ h => nomatch h
  | settle k ok =>
    refine h.onBuffer hstep (fun _ => drains_of_settle) (fun _ h => nomatch h) ?_
    intro k' hk
    obtain ⟨-, rfl⟩ := BufferEvent.settle.inj hk
    exact htime.resolve_left Bool.false_ne_true
  | resume k now =>
    refine h.onBuffer hstep (fun _ hs => drains_of_resume hs ?_) (fun _ h => nomatch h)
      fun _ h => nomatch h
    intro deadline succeeded failed batch phase hk
    simpa only [InTime, hk] using htime
  | drainAll now now' => exact h.drainAll hstep htime
  | sigterm =>
    obtain ⟨-, rfl⟩ := advance_inv hstep
    exact h.setPhase (fun hp => nomatch hp) fun hp => nomatch hp
  | stopWorkerSystem =>
    simp only [Process.step, Option.ite_none_left_eq_some] at hstep
    obtain ⟨hreturned, hstep⟩ := hstep
    obtain ⟨-, rfl⟩ := advance_inv hstep
    exact h.setPhase (fun _ hnil => hreturned (by simp [hnil])) fun _ hne => absurd rfl hne
  | closeQueue =>
    obtain ⟨hphase, rfl⟩ := advance_inv hstep
    have hreturned : s.system.results ≠ [] := h.returned (by rw [hphase]; rfl)
    -- no sink call is pending, and `drainAll` has left the queues empty
    exact h.setPhase (fun _ => hreturned) fun _ _ => ⟨h.emptied hreturned, hcalm⟩
  | closeDeadLetterQueue | closeServer | disconnectClients | exit =>
    exact h.advance hstep rfl (by decide)
  | fail =>
    simp only [Process.step] at hstep
    split at hstep
    · cases hstep
    · cases hstep
    · cases hstep
    · obtain rfl := Option.some.inj hstep
      exact h.setPhase (fun hp => nomatch hp) fun hp => nomatch hp

lemma ShutdownInv.nothingLost (h : s.ShutdownInv) (hexit : s.phase = .exited 0) :
    s.NothingLost := by
  obtain ⟨hempty, hpending⟩ := h.idle (by rw [hexit]; rfl) (by rw [hexit]; decide)
  have hqueued : s.system.buffer.queued = [] :=
    List.length_eq_zero_iff.1 (SignalBuffer.length_queued.trans hempty)
  refine ⟨hqueued, hpending, ?_⟩
  -- submitted signals are rejected, evicted, drained, lost, queued or pending; the last three are
  -- empty
  have hanswered := h.answered
  rw [h.system.places, hqueued, hpending, h.lost, Multiset.coe_nil, zero_add, zero_add, add_zero,
    add_right_comm] at hanswered
  exact le_of_add_le_add_right hanswered

/-- An orderly shutdown loses no answered signal but those that were evicted for a P0, if no
signal comes in behind the last look of `drainAll` and the sink is idle when its queue is
closed. -/
theorem nothingLost_of_run {es : List ProcessEvent}
    (hrun : (lts timeoutMs options).run (init options) es = some s)
    (hmeets : (lts timeoutMs options).Meets (fun s e => s.InTime timeoutMs e ∧ s.Calm e)
      (init options) es)
    (hexit : s.phase = .exited 0) : s.NothingLost := by
  have hinv : s.ShutdownInv := by
    refine Lts.run_invariant_of_meets ?_ hrun hmeets shutdownInv_init
    intro s e s' h hP hstep
    exact h.step hstep hP.1 hP.2
  exact hinv.nothingLost hexit

/-- The steps of the hook behind `drainAll`. -/
def hookEvents : List ProcessEvent :=
  [.stopWorkerSystem, .closeQueue, .closeDeadLetterQueue, .closeServer, .disconnectClients, .exit]

/-- A P0 evicts an answered signal and is drained on shutdown. -/
def evictingEvents : List ProcessEvent :=
  [.ingest [cacheSignal "a" "c" .P3], .ingest [cacheSignal "b" "c" .P0], .sigterm,
    .drainAll 0 0, .settle 0 true, .resume 0 0] ++ hookEvents

theorem nothingLost_of_evictingEvents : ∃ s,
    (lts 10 tinyOptions).run (init tinyOptions) evictingEvents = some s ∧ s.NothingLost := by
  have hobserved : ((lts 10 tinyOptions).run (init tinyOptions) evictingEvents).map
      (fun s => decide (s.phase = .exited 0)) = some true := by
    decide +kernel
  have hmeets : (lts 10 tinyOptions).Meets (fun s e => s.InTime 10 e ∧ s.Calm e)
      (init tinyOptions) evictingEvents := by
    decide +kernel
  obtain ⟨s, hrun, hs⟩ := Option.map_eq_some_iff.1 hobserved
  exact ⟨s, hrun, nothingLost_of_run hrun hmeets (of_decide_eq_true hs)⟩

/-- A request comes in behind the last look of `drainAll`. -/
def lateEvents : List ProcessEvent :=
  [.sigterm, .drainAll 0 0, .ingest [cacheSignal "a" "c" .P3]] ++ hookEvents

/-- A tick has its batch in the sink when the process is told to stop. -/
def pendingEvents : List ProcessEvent :=
  [.ingest [cacheSignal "a" "c" .P3], .tick, .sigterm, .drainAll 0 0] ++ hookEvents

/-- An answered signal is evicted for a P0; and apart from that a late request stays in the
buffer, and the batch of a tick is left in the sink. -/
theorem loses_answered :
    ¬ (∀ (timeoutMs : ℤ) (options : SignalBufferOptions) (es : List ProcessEvent)
      (s : Process options), (lts timeoutMs options).run (init options) es = some s →
      (lts timeoutMs options).Meets (fun s e => s.InTime timeoutMs e) (init options) es →
      s.phase = .exited 0 → s.system.buffer.queued = [] ∧
        ∀ signal ∈ s.answered, signal ∈ s.system.history.drained) ∧
    ((lts 10 tinyOptions).run (init tinyOptions) lateEvents).map
      (fun s => (s.phase, s.answered.map (·.signalId), s.system.buffer.totalSize))
      = some (.exited 0, ["a"], 1) ∧
    ((lts 10 tinyOptions).run (init tinyOptions) pendingEvents).map
      (fun s => (s.phase, s.answered.map (·.signalId), s.system.pending.map (·.signalId)))
      = some (.exited 0, ["a"], ["a"]) := by
  refine ⟨?_, by decide +kernel, by decide +kernel⟩
  intro h
  have hobserved : ((lts 10 tinyOptions).run (init tinyOptions) evictingEvents).map
      (fun s => (s.phase, s.answered.map (·.signalId),
        s.system.history.drained.map (·.signalId))) = some (.exited 0, ["a", "b"], ["b"]) := by
    decide +kernel
  have hmeets : (lts 10 tinyOptions).Meets (fun s e => s.InTime 10 e)
      (init tinyOptions) evictingEvents := by
    decide +kernel
  obtain ⟨s, hrun, hs⟩ := Option.map_eq_some_iff.1 hobserved
  simp only [Prod.mk.injEq] at hs
  obtain ⟨hexit, hanswered, hdrained⟩ := hs
  obtain ⟨-, hall⟩ := h 10 tinyOptions evictingEvents s hrun hmeets hexit
  have hsub : ∀ id ∈ s.answered.map (·.signalId),
      id ∈ s.system.history.drained.map (·.signalId) := by
    intro id hid
    obtain ⟨signal, hmem, rfl⟩ := List.mem_map.1 hid
    exact List.mem_map_of_mem (hall signal hmem)
  rw [hanswered, hdrained] at hsub
  exact absurd (hsub "a" (by decide)) (by decide)

end Process

end InveniOps.Ingestion
