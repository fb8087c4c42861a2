import InveniOps.Lib.Lts
import InveniOps.Lib.ListFacts
import InveniOps.Workers.ProcessBatch

/-!
# The signal worker and its queue

`workers/queue.ts` and `workers/signalWorker.ts` over BullMQ's documented
behaviour: a job completes when an attempt returns; an attempt that throws is
counted and the job is retried while fewer attempts were made than configured; a
job whose attempt stalls is handed to another worker until it has stalled more
often than the limit and is failed for good.  Every failure emits the worker's
`failed` event.  An attempt that lost its job to a stall may still be running.
-/

namespace InveniOps.Workers

open Lib Stores Ingestion

/-- Where a job stands in its queue. -/
inductive JobStatus
  | waiting
  | active (attempt : ℕ)
  | completed
  | failed
deriving DecidableEq

/-- A job of the signal batch queue. -/
structure Job where
  signals : List IngestionSignal
  /-- `opts.attempts`. -/
  attempts : Option ℕ
  attemptsMade : ℕ
  stalledCount : ℕ
  status : JobStatus

/-- An attempt at a job. -/
structure Attempt where
  job : ℕ
  signals : List IngestionSignal
  pc : BatchPc
  increments : List Increment

/-- What `forwardToDeadLetterQueue` adds, without the texts of the failure. -/
structure DeadLetter where
  originalJobId : ℕ
  attemptsMade : ℕ
  signals : List IngestionSignal

/-- The worker's debouncer, `config.queue.maxAttempts` and BullMQ's stall limit. -/
structure SignalWorker where
  debouncer : SignalDebouncer
  maxAttempts : ℕ
  maxStalledCount : ℕ

/-- The default configuration, and BullMQ's default stall limit. -/
def SignalWorker.standard : SignalWorker := ⟨.standard, 5, 1⟩

/-- The stores, the queues and the attempts.  `insertions` (row and attempt) and
`dispatched` are the history of what was inserted and announced. -/
structure Pipeline where
  stores : BatchStores
  jobs : List Job
  attempts : List Attempt
  deadLetters : List DeadLetter
  insertions : List (WorkItemId × ℕ)
  dispatched : List WorkItemId

/-- What can happen to the queue, to the attempts and to the stores. -/
inductive PipelineEvent
  /-- `enqueueSignalBatch`. -/
  | enqueue (signals : List IngestionSignal)
  /-- A worker takes the `j`-th job. -/
  | take (j : ℕ)
  /-- The `a`-th attempt takes a step, or the queue takes note of its end. -/
  | step (a : ℕ) (io : Io)
  /-- The `k`-th increment of the `a`-th attempt takes a step. -/
  | increment (a k : ℕ) (io : Io)
  /-- The process of the `a`-th attempt dies, and with it what the attempt left running. -/
  | crash (a : ℕ)
  /-- The `j`-th job is found stalled. -/
  | stall (j : ℕ)
  /-- Another service commits a write. -/
  | write (write : PostgresWrite) (clock : Instant)
  | sessionLost (componentId : ComponentId)
  | lockLost (componentId : ComponentId)

/-- The handler of the worker's `failed` event. -/
def onFailed (j : ℕ) (job : Job) : List DeadLetter :=
  if job.attemptsMade < job.attempts.getD 1 then []
  else [⟨j, job.attemptsMade, job.signals⟩]

namespace Job

/-- The job when its attempt has thrown. -/
def onThrow (job : Job) : Job :=
  { job with
    attemptsMade := job.attemptsMade + 1
    status := if job.attemptsMade + 1 < job.attempts.getD 1 then .waiting else .failed }

/-- The job when it is found stalled. -/
def onStall (maxStalledCount : ℕ) (job : Job) : Job :=
  { job with
    stalledCount := job.stalledCount + 1
    status := if maxStalledCount < job.stalledCount + 1 then .failed else .waiting }

end Job

/-- The ids of the rows that a command appended. -/
def newRows (before after : Postgres) : List WorkItemId :=
  (after.workItems.drop before.workItems.length).map (·.id)

/-- The attempt is over: the queue has taken note of its end, or its process died. -/
def BatchPc.isOver : BatchPc → Bool
  | .settled | .crashed => true
  | _ => false

namespace Pipeline

/-- No job, and empty stores. -/
def empty : Pipeline := ⟨⟨⟨.empty, .empty⟩, .empty⟩, [], [], [], [], []⟩

variable (worker : SignalWorker) (s : Pipeline)

/-- Replaces the `a`-th attempt. -/
def setAttempt (a : ℕ) (attempt : Attempt) : Pipeline :=
  { s with attempts := s.attempts.set a attempt }

/-- The attempt returned. -/
def onReturn (a : ℕ) (attempt : Attempt) : Pipeline :=
  match s.jobs[attempt.job]? with
  | some job =>
    if job.status = .active a then
      { s.setAttempt a { attempt with pc := .settled } with
        -- the queue listens to the attempt that holds the job, not to one that it has taken for
        -- stalled
        jobs := s.jobs.set attempt.job { job with status := .completed } }
    else s.setAttempt a { attempt with pc := .settled }
  | none => s.setAttempt a { attempt with pc := .settled }

/-- The attempt threw. -/
def onThrow (a : ℕ) (attempt : Attempt) : Pipeline :=
  match s.jobs[attempt.job]? with
  | some job =>
    if job.status = .active a then
      { s.setAttempt a { attempt with pc := .settled } with
        jobs := s.jobs.set attempt.job job.onThrow
        deadLetters := s.deadLetters ++ onFailed attempt.job job.onThrow }
    else s.setAttempt a { attempt with pc := .settled }
  | none => s.setAttempt a { attempt with pc := .settled }

/-- The attempt takes a step of `processBatch`. -/
def onStep (a : ℕ) (attempt : Attempt) (step : BatchStep) : Pipeline :=
  { s.setAttempt a { attempt with pc := step.pc, increments := step.increments } with
    stores := step.stores
    insertions := s.insertions ++
      (newRows s.stores.world.postgres step.stores.world.postgres).map (·, a)
    dispatched := s.dispatched ++ step.dispatched }

/-- An increment of the attempt takes a step. -/
def onIncrement (a k : ℕ) (attempt : Attempt) (result : BatchStores × Increment) : Pipeline :=
  { s.setAttempt a { attempt with increments := attempt.increments.set k result.2 } with
    stores := result.1 }

/-- One event, where it is possible. -/
def step : Pipeline → PipelineEvent → Option Pipeline
  | s, .enqueue signals =>
    if signals.length = 0 then none
    else some { s with jobs := s.jobs ++ [⟨signals, some worker.maxAttempts, 0, 0, .waiting⟩] }
  | s, .take j =>
    match s.jobs[j]? with
    | some job =>
      -- a job that is taken again starts from its signals, with nothing remembered
      if job.status = .waiting then
        some
          { s with
            jobs := s.jobs.set j { job with status := .active s.attempts.length }
            attempts := s.attempts ++ [⟨j, job.signals, .start job.signals, []⟩] }
      else none
    | none => none
  | s, .step a io =>
    match s.attempts[a]? with
    | none => none
    | some attempt =>
      match attempt.pc with
      | .settled | .crashed => none
      | .returned => some (s.onReturn a attempt)
      | .threw _ => some (s.onThrow a attempt)
      | pc =>
        -- a generated id is no row's id yet
        if s.stores.world.postgres.row io.uuid = none then
          (batchStep worker.debouncer attempt.signals attempt.increments io s.stores pc).map
            (s.onStep a attempt)
        else none
  | s, .increment a k io =>
    match s.attempts[a]? with
    | none => none
    | some attempt =>
      match attempt.increments[k]? with
      | some ⟨w, amount, n, .pending⟩ =>
        some (s.onIncrement a k attempt
          (incrementStep worker.debouncer io s.stores ⟨w, amount, n, .pending⟩))
      | _ => none
  | s, .crash a =>
    match s.attempts[a]? with
    | none => none
    | some attempt =>
      match attempt.pc with
      | .crashed => none
      | _ => some (s.setAttempt a { attempt with pc := .crashed, increments := [] })
  | s, .stall j =>
    match s.jobs[j]? with
    | some job =>
      match job.status with
      | .active _ =>
        some
          { s with
            jobs := s.jobs.set j (job.onStall worker.maxStalledCount)
            deadLetters := s.deadLetters ++
              -- a stall does not count as an attempt, so `onFailed` may see attempts left
              if (job.onStall worker.maxStalledCount).status = .failed then
                onFailed j (job.onStall worker.maxStalledCount)
              else [] }
      | _ => none
    | none => none
  | s, .write write clock =>
    -- counts and reopenings come from nowhere else
    if write.counts = false ∧ write.reopens = false then
      match write.command worker.debouncer.workItemStore clock s.stores.world.postgres with
      | .ok (_, postgres) =>
        some { s with stores := { s.stores with world := { s.stores.world with
          postgres := postgres } } }
      | .error _ => none
    else none
  | s, .sessionLost c =>
    some { s with stores := { s.stores with world := { s.stores.world with
      redis := s.stores.world.redis.setSession c none } } }
  | s, .lockLost c =>
    some { s with stores := { s.stores with world := { s.stores.world with
      redis := s.stores.world.redis.setLock c false } } }

/-- All jobs have finished and no attempt is running on. -/
def Finished : Prop :=
  (∀ job ∈ s.jobs, job.status = .completed ∨ job.status = .failed) ∧
    ∀ attempt ∈ s.attempts, attempt.pc.isOver = true

instance : Decidable s.Finished := by
  delta Finished
  infer_instance

/-- The worker with its queue and stores as a transition system. -/
def lts : Lts Pipeline PipelineEvent := ⟨step worker⟩

/-! ### What an event can do -/

variable {worker s} {s' : Pipeline} {a : ℕ}

variable (s a) in
/-- The queue's view of an attempt that has ended: nothing if the attempt has
lost its job, else the job behind the end. -/
lemma onReturn_cases (attempt : Attempt) :
    (s.onReturn a attempt = s.setAttempt a { attempt with pc := .settled } ∧
        ∀ job, s.jobs[attempt.job]? = some job → job.status ≠ .active a) ∨
      ∃ job, s.jobs[attempt.job]? = some job ∧ job.status = .active a ∧
        s.onReturn a attempt = { s.setAttempt a { attempt with pc := .settled } with
          jobs := s.jobs.set attempt.job { job with status := .completed } } := by
  unfold onReturn
  split
  · rename_i job hjob
    split_ifs with hactive
    · exact .inr ⟨job, hjob, hactive, rfl⟩
    · refine .inl ⟨rfl, ?_⟩
      intro job' hjob'
      rw [hjob] at hjob'
      cases hjob'
      exact hactive
  · rename_i hnone
    refine .inl ⟨rfl, ?_⟩
    intro job hjob
    rw [hnone] at hjob
    cases hjob

variable (s a) in
lemma onThrow_cases (attempt : Attempt) :
    (s.onThrow a attempt = s.setAttempt a { attempt with pc := .settled } ∧
        ∀ job, s.jobs[attempt.job]? = some job → job.status ≠ .active a) ∨
      ∃ job, s.jobs[attempt.job]? = some job ∧ job.status = .active a ∧
        s.onThrow a attempt = { s.setAttempt a { attempt with pc := .settled } with
          jobs := s.jobs.set attempt.job job.onThrow
          deadLetters := s.deadLetters ++ onFailed attempt.job job.onThrow } := by
  unfold onThrow
  split
  · rename_i job hjob
    split_ifs with hactive
    · exact .inr ⟨job, hjob, hactive, rfl⟩
    · refine .inl ⟨rfl, ?_⟩
      intro job' hjob'
      rw [hjob] at hjob'
      cases hjob'
      exact hactive
  · rename_i hnone
    refine .inl ⟨rfl, ?_⟩
    intro job hjob
    rw [hnone] at hjob
    cases hjob

variable (s a) in
@[simp] lemma onReturn_attempts (attempt : Attempt) : (s.onReturn a attempt).attempts
    = s.attempts.set a { attempt with pc := .settled } := by
  rcases s.onReturn_cases a attempt with ⟨heq, -⟩ | ⟨_, -, -, heq⟩ <;> rw [heq] <;> rfl

variable (s a) in
@[simp] lemma onThrow_attempts (attempt : Attempt) : (s.onThrow a attempt).attempts
    = s.attempts.set a { attempt with pc := .settled } := by
  rcases s.onThrow_cases a attempt with ⟨heq, -⟩ | ⟨_, -, -, heq⟩ <;> rw [heq] <;> rfl

variable (s a) in
@[simp] lemma onReturn_stores (attempt : Attempt) :
    (s.onReturn a attempt).stores = s.stores := by
  rcases s.onReturn_cases a attempt with ⟨heq, -⟩ | ⟨_, -, -, heq⟩ <;> rw [heq] <;> rfl

variable (s a) in
@[simp] lemma onThrow_stores (attempt : Attempt) : (s.onThrow a attempt).stores = s.stores := by
  rcases s.onThrow_cases a attempt with ⟨heq, -⟩ | ⟨_, -, -, heq⟩ <;> rw [heq] <;> rfl

lemma step_enqueue_inv {signals : List IngestionSignal}
    (h : s.step worker (.enqueue signals) = some s') :
    s' = { s with jobs := s.jobs ++ [⟨signals, some worker.maxAttempts, 0, 0, .waiting⟩] } := by
  simp only [step] at h
  split_ifs at h
  exact (Option.some.inj h).symm

lemma step_take_inv {j : ℕ} (h : s.step worker (.take j) = some s') :
    ∃ job, s.jobs[j]? = some job ∧ job.status = .waiting ∧
      s' = { s with
        jobs := s.jobs.set j { job with status := .active s.attempts.length }
        attempts := s.attempts ++ [⟨j, job.signals, .start job.signals, []⟩] } := by
  simp only [step] at h
  split at h
  · rename_i job hjob
    split_ifs at h with hwaiting
    exact ⟨job, hjob, hwaiting, (Option.some.inj h).symm⟩
  · cases h

/-- The three kinds of steps of an attempt. -/
lemma step_step_inv {io : Io} (h : s.step worker (.step a io) = some s') :
    ∃ attempt, s.attempts[a]? = some attempt ∧
      ((attempt.pc = .returned ∧ s' = s.onReturn a attempt) ∨
        (∃ e, attempt.pc = .threw e ∧ s' = s.onThrow a attempt) ∨
        ∃ step, BatchRuns worker.debouncer attempt.signals attempt.increments io s.stores
          attempt.pc step ∧ s.stores.world.postgres.row io.uuid = none ∧
            s' = s.onStep a attempt step) := by
  simp only [step] at h
  split at h
  · cases h
  · rename_i attempt hattempt
    refine ⟨attempt, hattempt, ?_⟩
    split at h
    · cases h
    · cases h
    · rename_i hpc
      exact .inl ⟨hpc, (Option.some.inj h).symm⟩
    · rename_i e hpc
      exact .inr (.inl ⟨e, hpc, (Option.some.inj h).symm⟩)
    · split_ifs at h with hfresh
      obtain ⟨step, hstep, hs'⟩ := Option.map_eq_some_iff.1 h
      exact .inr (.inr ⟨step, batchRuns_of_batchStep hstep, hfresh, hs'.symm⟩)

lemma step_increment_inv {k : ℕ} {io : Io} (h : s.step worker (.increment a k io) = some s') :
    ∃ attempt increment, s.attempts[a]? = some attempt ∧
      attempt.increments[k]? = some increment ∧ increment.state = .pending ∧
      s' = s.onIncrement a k attempt (incrementStep worker.debouncer io s.stores increment) := by
  simp only [step] at h
  split at h
  · cases h
  · rename_i attempt hattempt
    split at h
    · rename_i w amount n hk
      exact ⟨attempt, ⟨w, amount, n, .pending⟩, hattempt, hk, rfl, (Option.some.inj h).symm⟩
    · cases h

lemma step_crash_inv (h : s.step worker (.crash a) = some s') :
    ∃ attempt, s.attempts[a]? = some attempt ∧ attempt.pc ≠ .crashed ∧
      s' = s.setAttempt a { attempt with pc := .crashed, increments := [] } := by
  simp only [step] at h
  split at h
  · cases h
  · rename_i attempt hattempt
    split at h
    · cases h
    · rename_i hpc
      exact ⟨attempt, hattempt, hpc, (Option.some.inj h).symm⟩

lemma step_stall_inv {j : ℕ} (h : s.step worker (.stall j) = some s') :
    ∃ job b, s.jobs[j]? = some job ∧ job.status = .active b ∧
      s' = { s with
        jobs := s.jobs.set j (job.onStall worker.maxStalledCount)
        deadLetters := s.deadLetters ++
          if (job.onStall worker.maxStalledCount).status = .failed then
            onFailed j (job.onStall worker.maxStalledCount)
          else [] } := by
  simp only [step] at h
  split at h
  · rename_i job hjob
    split at h
    · rename_i b hactive
      exact ⟨job, b, hjob, hactive, (Option.some.inj h).symm⟩
    · cases h
  · cases h

lemma step_write_inv {write : PostgresWrite} {clock : Instant}
    (h : s.step worker (.write write clock) = some s') :
    write.counts = false ∧ write.reopens = false ∧
      ∃ postgres, write.command worker.debouncer.workItemStore clock s.stores.world.postgres
        = .ok ((), postgres) ∧
        s' = { s with stores := { s.stores with world := { s.stores.world with
          postgres := postgres } } } := by
  simp only [step] at h
  split_ifs at h with hcond
  split at h
  · rename_i postgres hcommand
    exact ⟨hcond.1, hcond.2, postgres, hcommand, (Option.some.inj h).symm⟩
  · cases h

/-- An event puts a job on the queue, changes one or leaves them all as they are; the
signals of a job never change. -/
lemma jobs_of_step {e : PipelineEvent} (h : s.step worker e = some s') :
    s'.jobs = s.jobs ∨
      (∃ job : Job, job.signals ≠ [] ∧ s'.jobs = s.jobs ++ [job]) ∨
      ∃ i old new, s.jobs[i]? = some old ∧ s'.jobs = s.jobs.set i new ∧
        new.signals = old.signals := by
  cases e with
  | enqueue signals =>
    simp only [step] at h
    split_ifs at h with hnil
    obtain rfl := Option.some.inj h
    exact .inr (.inl ⟨_, fun heq => hnil (List.length_eq_zero_iff.2 heq), rfl⟩)
  | take i =>
    obtain ⟨old, hold, -, rfl⟩ := step_take_inv h
    exact .inr (.inr ⟨i, old, _, hold, rfl, rfl⟩)
  | step a io =>
    obtain ⟨attempt, -, ⟨-, rfl⟩ | ⟨e, -, rfl⟩ | ⟨step, -, -, rfl⟩⟩ := step_step_inv h
    · rcases s.onReturn_cases a attempt with ⟨heq, -⟩ | ⟨old, hold, -, heq⟩ <;> rw [heq]
      · exact .inl rfl
      · exact .inr (.inr ⟨_, old, _, hold, rfl, rfl⟩)
    · rcases s.onThrow_cases a attempt with ⟨heq, -⟩ | ⟨old, hold, -, heq⟩ <;> rw [heq]
      · exact .inl rfl
      · exact .inr (.inr ⟨_, old, _, hold, rfl, rfl⟩)
    · exact .inl rfl
  | increment a k io =>
    obtain ⟨_, _, -, -, -, rfl⟩ := step_increment_inv h
    exact .inl rfl
  | crash a =>
    obtain ⟨_, -, -, rfl⟩ := step_crash_inv h
    exact .inl rfl
  | stall i =>
    obtain ⟨old, b, hold, -, rfl⟩ := step_stall_inv h
    exact .inr (.inr ⟨i, old, _, hold, rfl, rfl⟩)
  | write write clock =>
    obtain ⟨-, -, _, -, rfl⟩ := step_write_inv h
    exact .inl rfl
  | sessionLost c =>
    obtain rfl := Option.some.inj h
    exact .inl rfl
  | lockLost c =>
    obtain rfl := Option.some.inj h
    exact .inl rfl

lemma signals_of_step {e : PipelineEvent} (h : s.step worker e = some s') {j : ℕ} {job : Job}
    (hjob : s.jobs[j]? = some job) : ∃ job', s'.jobs[j]? = some job' ∧
      job'.signals = job.signals := by
  rcases jobs_of_step h with heq | ⟨_, -, heq⟩ | ⟨i, old, new, hold, heq, hsignals⟩ <;> rw [heq]
  · exact ⟨job, hjob, rfl⟩
  · exact ⟨job, getElem?_concat_of hjob _, rfl⟩
  · by_cases hij : i = j
    · subst hij
      obtain rfl := Option.some.inj (hold.symm.trans hjob)
      exact ⟨new, getElem?_set_self_of hold new, hsignals⟩
    · exact ⟨job, by rw [List.getElem?_set_ne hij, hjob], rfl⟩

/-- How an event changes the stores: a step of a batch, an increment, a write of the
rest of the server, or a loss in Redis. -/
lemma stores_of_step {e : PipelineEvent} (h : s.step worker e = some s') :
    s'.stores = s.stores ∨
      (∃ attempt io step, attempt ∈ s.attempts ∧
        BatchRuns worker.debouncer attempt.signals attempt.increments io s.stores
          attempt.pc step ∧ s'.stores = step.stores) ∨
      (∃ io increment, s'.stores = (incrementStep worker.debouncer io s.stores increment).1) ∨
      (∃ (write : PostgresWrite) (clock : Instant) (postgres : Postgres),
        write.command worker.debouncer.workItemStore clock s.stores.world.postgres
          = .ok ((), postgres) ∧
        s'.stores = { s.stores with world := { s.stores.world with postgres := postgres } }) ∨
      ∃ redis, s'.stores = { s.stores with world := { s.stores.world with redis := redis } } := by
  cases e with
  | enqueue signals =>
    obtain rfl := step_enqueue_inv h
    exact .inl rfl
  | take i =>
    obtain ⟨_, -, -, rfl⟩ := step_take_inv h
    exact .inl rfl
  | step a io =>
    obtain ⟨attempt, hattempt, ⟨-, rfl⟩ | ⟨e, -, rfl⟩ | ⟨step, hruns, -, rfl⟩⟩ := step_step_inv h
    · exact .inl (s.onReturn_stores a attempt)
    · exact .inl (s.onThrow_stores a attempt)
    · exact .inr (.inl ⟨attempt, io, step, List.mem_of_getElem? hattempt, hruns, rfl⟩)
  | increment a k io =>
    obtain ⟨_, increment, -, -, -, rfl⟩ := step_increment_inv h
    exact .inr (.inr (.inl ⟨io, increment, rfl⟩))
  | crash a =>
    obtain ⟨_, -, -, rfl⟩ := step_crash_inv h
    exact .inl rfl
  | stall i =>
    obtain ⟨_, _, -, -, rfl⟩ := step_stall_inv h
    exact .inl rfl
  | write write clock =>
    obtain ⟨-, -, postgres, hcommand, rfl⟩ := step_write_inv h
    exact .inr (.inr (.inr (.inl ⟨write, clock, postgres, hcommand, rfl⟩)))
  | sessionLost c =>
    obtain rfl := Option.some.inj h
    exact .inr (.inr (.inr (.inr ⟨_, rfl⟩)))
  | lockLost c =>
    obtain rfl := Option.some.inj h
    exact .inr (.inr (.inr (.inr ⟨_, rfl⟩)))

/-- No event removes a document. -/
lemma documents_of_step {e : PipelineEvent} (h : s.step worker e = some s') :
    s.stores.mongo.documents ⊆ s'.stores.mongo.documents := by
  rcases stores_of_step h with heq | ⟨_, _, step, -, hruns, heq⟩ | ⟨_, _, heq⟩ |
    ⟨_, _, _, -, heq⟩ | ⟨_, heq⟩ <;> rw [heq]
  -- only a batch inserts documents
  · exact List.Subset.refl _
  · exact hruns.documents_subset
  all_goals exact List.Subset.refl _

lemma has_of_step {e : PipelineEvent} (h : s.step worker e = some s') {signalId : SignalId}
    (hhas : s.stores.mongo.Has signalId) : s'.stores.mongo.Has signalId :=
  List.map_subset _ (documents_of_step h) hhas

lemma hasDocumentOf_of_step {e : PipelineEvent} (h : s.step worker e = some s') {w : WorkItemId}
    (hdoc : s.stores.mongo.HasDocumentOf w) : s'.stores.mongo.HasDocumentOf w := by
  obtain ⟨doc, hmem, hw⟩ := hdoc
  exact ⟨doc, documents_of_step h hmem, hw⟩

/-- An event starts an attempt, changes one or leaves them all as they are; the job
and the signals of an attempt never change. -/
lemma attempts_of_step {e : PipelineEvent} (h : s.step worker e = some s') :
    s'.attempts = s.attempts ∨
      (∃ j job, s.jobs[j]? = some job ∧
        s'.attempts = s.attempts ++ [⟨j, job.signals, .start job.signals, []⟩]) ∨
      ∃ b old new, s.attempts[b]? = some old ∧ s'.attempts = s.attempts.set b new ∧
        new.job = old.job ∧ new.signals = old.signals := by
  cases e with
  | enqueue signals =>
    obtain rfl := step_enqueue_inv h
    exact .inl rfl
  | take i =>
    obtain ⟨job, hjob, -, rfl⟩ := step_take_inv h
    exact .inr (.inl ⟨i, job, hjob, rfl⟩)
  | step a io =>
    obtain ⟨old, hold, ⟨-, rfl⟩ | ⟨e, -, rfl⟩ | ⟨step, -, -, rfl⟩⟩ := step_step_inv h
    · exact .inr (.inr ⟨a, old, _, hold, s.onReturn_attempts a old, rfl, rfl⟩)
    · exact .inr (.inr ⟨a, old, _, hold, s.onThrow_attempts a old, rfl, rfl⟩)
    · exact .inr (.inr ⟨a, old, _, hold, rfl, rfl, rfl⟩)
  | increment a k io =>
    obtain ⟨old, _, hold, -, -, rfl⟩ := step_increment_inv h
    exact .inr (.inr ⟨a, old, _, hold, rfl, rfl, rfl⟩)
  | crash a =>
    obtain ⟨old, hold, -, rfl⟩ := step_crash_inv h
    exact .inr (.inr ⟨a, old, _, hold, rfl, rfl, rfl⟩)
  | stall i =>
    obtain ⟨_, _, -, -, rfl⟩ := step_stall_inv h
    exact .inl rfl
  | write write clock =>
    obtain ⟨-, -, _, -, rfl⟩ := step_write_inv h
    exact .inl rfl
  | sessionLost c =>
    obtain rfl := Option.some.inj h
    exact .inl rfl
  | lockLost c =>
    obtain rfl := Option.some.inj h
    exact .inl rfl

/-- The job of an attempt. -/
def jobOf (s : Pipeline) (a : ℕ) : Option ℕ := s.attempts[a]?.map (·.job)

lemma jobOf_of_step {e : PipelineEvent} (h : s.step worker e = some s') {j : ℕ}
    (hj : s.jobOf a = some j) : s'.jobOf a = some j := by
  obtain ⟨attempt, hattempt, rfl⟩ := Option.map_eq_some_iff.1 hj
  rcases attempts_of_step h with heq | ⟨_, _, -, heq⟩ | ⟨b, old, new, hold, heq, hjob, -⟩ <;>
    rw [jobOf, heq]
  · exact hj
  · rw [getElem?_concat_of hattempt]
    rfl
  · by_cases hba : b = a
    · subst hba
      obtain rfl := Option.some.inj (hold.symm.trans hattempt)
      rw [getElem?_set_self_of hold, Option.map_some, hjob]
    · rw [List.getElem?_set_ne hba, hattempt]
      rfl

/-- Every attempt works on the signals of its job. -/
def Linked (s : Pipeline) : Prop :=
  ∀ (a : ℕ) (attempt : Attempt), s.attempts[a]? = some attempt →
    ∃ job, s.jobs[attempt.job]? = some job ∧ job.signals = attempt.signals

lemma Linked.step (hlinked : s.Linked) {e : PipelineEvent} (h : s.step worker e = some s') :
    s'.Linked := by
  have hold : ∀ (b : ℕ) (attempt : Attempt), s.attempts[b]? = some attempt →
      ∃ job, s'.jobs[attempt.job]? = some job ∧ job.signals = attempt.signals := by
    intro b attempt hb
    obtain ⟨job, hjob, hsignals⟩ := hlinked b attempt hb
    obtain ⟨job', hjob', hsignals'⟩ := signals_of_step h hjob
    exact ⟨job', hjob', hsignals'.trans hsignals⟩
  intro b attempt hb
  rcases attempts_of_step h with heq | ⟨j, job, hjob, heq⟩ | ⟨c, old, new, hc, heq, hj, hsig⟩ <;>
    rw [heq] at hb
  · exact hold b attempt hb
  · rcases getElem?_concat_cases hb with ⟨-, rfl⟩ | hb
    · exact signals_of_step h hjob
    · exact hold b attempt hb
  · rcases getElem?_set_cases hb with ⟨-, rfl⟩ | ⟨-, hb⟩
    · rw [hj, hsig]
      exact hold c old hc
    · exact hold b attempt hb

end Pipeline

end InveniOps.Workers
