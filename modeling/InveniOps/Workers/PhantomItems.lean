import InveniOps.Workers.WorkItemRefs

/-!
# Work items without a document

A work item is created by the first step of a batch and gets its first document
by a later one.  In between somebody is in charge of it: the queue that will hand
out its job again, an attempt of the job that has not turned to its inserts, or an
attempt that has a document of it left to insert.  A look-up that finds the signal
stored leaves nobody in charge.
-/

namespace InveniOps.Workers

open Lib Stores Ingestion

/-- One of the documents belongs to `w`. -/
def SomeOf (w : WorkItemId) (documents : List SignalDocument) : Prop :=
  ∃ doc ∈ documents, doc.workItemId = some w

instance (w : WorkItemId) (documents : List SignalDocument) : Decidable (SomeOf w documents) :=
  inferInstanceAs (Decidable (∃ doc ∈ documents, doc.workItemId = some w))

/-- The run has not turned to its inserts, or its job may be tried again. -/
def BatchPc.isBeforeInserts : BatchPc → Bool
  | .resolving _ _ | .lookUp _ | .threw _ => true
  | _ => false

/-- The run has a document of `w` left to insert. -/
def BatchPc.WillServe (w : WorkItemId) : BatchPc → Prop
  | .inserting _ _ rest => SomeOf w rest
  | _ => False

instance (w : WorkItemId) (pc : BatchPc) : Decidable (pc.WillServe w) :=
  match pc with
  | .inserting _ _ _ | .resolving _ _ | .lookUp _ | .incrementing _ | .upserting _ _
  | .announcing _ _ | .recording | .returned | .threw _ | .settled | .crashed => by
    delta BatchPc.WillServe
    infer_instance

/-- Whether the attempt's process died. -/
def BatchPc.isCrashed : BatchPc → Bool
  | .crashed => true
  | _ => false

/-- The attempt is in charge of `w`, a work item created for the `j`-th job. -/
def Attempt.InChargeOf (j : ℕ) (w : WorkItemId) (attempt : Attempt) : Prop :=
  (attempt.job = j ∧ attempt.pc.isBeforeInserts = true) ∨ attempt.pc.WillServe w

instance (j : ℕ) (w : WorkItemId) (attempt : Attempt) : Decidable (attempt.InChargeOf j w) := by
  delta Attempt.InChargeOf
  infer_instance

/-! ### One step of a batch -/

section

variable {d : SignalDebouncer} {signals : List IngestionSignal} {increments : List Increment}
  {io : Io} {st : BatchStores}

/-- Without store faults a step keeps the charge of the run, except at the look-up
and at the inserts: there it passes to the documents that are left to insert. -/
lemma BatchRuns.keepsCharge {pc : BatchPc} {step : BatchStep}
    (h : BatchRuns d signals increments io st pc step) (houtcome : io.outcome = .ok) :
    ((pc.isBeforeInserts = true → step.pc.isBeforeInserts = true) ∧ ∀ w, ¬ pc.WillServe w) ∨
      (∃ resolutions, pc = .lookUp resolutions ∧
        ∀ w, SomeOf w (newDocuments signals st.mongo resolutions) → step.pc.WillServe w) ∨
      ∃ resolutions attempted doc rest, pc = .inserting resolutions attempted (doc :: rest) ∧
        ∀ w, (doc.workItemId = some w ∧ ¬ st.mongo.Has doc.signalId) ∨ SomeOf w rest →
          step.stores.mongo.HasDocumentOf w ∨ step.pc.WillServe w := by
  cases h with
  | resolve => exact .inl ⟨fun _ => rfl, fun _ h => h⟩
  | resolved =>
    refine .inl ⟨?_, fun _ h => h⟩
    intro _
    dsimp only [BatchPc.next]
    split_ifs <;> rfl
  | resolveThrew => exact .inl ⟨fun _ => rfl, fun _ h => h⟩
  | lookUpThrew hfault => simp [houtcome] at hfault
  | lookUpNone _ hnew =>
    refine .inr (.inl ⟨_, rfl, ?_⟩)
    rintro w ⟨doc, hdoc, _⟩
    simp [hnew] at hdoc
  | lookUp => exact .inr (.inl ⟨_, rfl, fun w hw => hw⟩)
  | insertThrew hfault => simp [houtcome] at hfault
  | insert =>
    refine .inr (.inr ⟨_, _, _, _, rfl, fun w hw => hw.imp ?_ id⟩)
    rintro ⟨hdoc, hnew⟩
    exact (Mongo.hasDocumentOf_insert w).2 (.inr ⟨Mongo.insert_snd.2 hnew, hdoc⟩)
  | insertLast =>
    refine .inr (.inr ⟨_, _, _, _, rfl, fun w hw => .inl ?_⟩)
    rcases hw with ⟨hdoc, hnew⟩ | ⟨doc, hdoc, -⟩
    · exact (Mongo.hasDocumentOf_insert w).2 (.inr ⟨Mongo.insert_snd.2 hnew, hdoc⟩)
    · simp at hdoc
  | _ => exact .inl ⟨fun hbefore => (nomatch hbefore), fun _ h => h⟩

end

/-! ### Runs -/

namespace Pipeline

variable (worker : SignalWorker) (s : Pipeline)

/-- The queue will hand out the job again: it waits, or its attempt is dead. -/
def willBeTaken (j : ℕ) : Bool :=
  match s.jobs[j]? with
  | none => false
  | some job =>
    match job.status with
    | .waiting => true
    | .active b => (s.attempts[b]?.map (·.pc.isCrashed)).getD false
    | .completed | .failed => false

/-- The attempt is the one that the queue waits for. -/
def isCurrent (b j : ℕ) : Bool :=
  (s.jobs[j]?.map fun job => decide (job.status = .active b)).getD false

/-- The job is tried again when its current attempt throws. -/
def isRetried (b j : ℕ) : Bool :=
  (s.jobs[j]?.map fun job =>
    decide (job.status = .active b ∧ job.attemptsMade + 1 < job.attempts.getD 1)).getD false

/-- `w`, created for the `j`-th job, has a document, or the queue or one of the
attempts is in charge of it. -/
def Cared (attempts : List Attempt) (j : ℕ) (w : WorkItemId) : Prop :=
  s.stores.mongo.HasDocumentOf w ∨ s.willBeTaken j = true ∨
    ∃ attempt ∈ attempts, attempt.InChargeOf j w

/-- Every created row is cared for without the `b`-th attempt, or by `own`. -/
def CaredWithout (b : ℕ) (own : ℕ → WorkItemId → Prop) : Prop :=
  ∀ p ∈ s.insertions, ∀ j ∈ s.jobOf p.2, own j p.1 ∨ s.Cared (s.attempts.eraseIdx b) j p.1

/-- No store reports an error in the step. -/
def FaultFree : PipelineEvent → Prop
  | .step _ io | .increment _ _ io => io.outcome = .ok
  | _ => True

/-- Where a step of the `b`-th attempt can lose its charge, it does not: the look-up
finds a signal of the row new, the document is inserted or another one of the row
is left, and an attempt that throws is retried; or others are in charge. -/
def StepStaysCared (b : ℕ) (attempt : Attempt) : Prop :=
  match attempt.pc with
  | .lookUp resolutions => s.CaredWithout b fun _ w =>
    SomeOf w (newDocuments attempt.signals s.stores.mongo resolutions)
  | .inserting _ _ (doc :: rest) => s.CaredWithout b fun _ w =>
    (doc.workItemId = some w ∧ ¬ s.stores.mongo.Has doc.signalId) ∨ SomeOf w rest
  | .threw _ => s.CaredWithout b fun j _ => j = attempt.job ∧ s.isRetried b j = true
  | _ => True

/-- No event leaves a row without a document and without anybody in charge: neither
a step of an attempt, nor the death of an attempt that the queue does not wait
for, nor the failing of a job that stalled too often. -/
def StaysCared : PipelineEvent → Prop
  | .step b _ => ∀ attempt ∈ s.attempts[b]?, s.StepStaysCared b attempt
  | .crash b => ∀ attempt ∈ s.attempts[b]?, s.CaredWithout b fun j _ =>
      j = attempt.job ∧ s.isCurrent b j = true
  | .stall j => ∀ job ∈ s.jobs[j]?, worker.maxStalledCount < job.stalledCount + 1 →
    ∀ p ∈ s.insertions, s.jobOf p.2 = some j → s.stores.mongo.HasDocumentOf p.1 ∨
      ∃ attempt ∈ s.attempts, attempt.InChargeOf j p.1
  | _ => True

instance (attempts : List Attempt) (j : ℕ) (w : WorkItemId) :
    Decidable (s.Cared attempts j w) := by
  delta Cared
  infer_instance

instance (b : ℕ) (own : ℕ → WorkItemId → Prop) [∀ j w, Decidable (own j w)] :
    Decidable (s.CaredWithout b own) := by
  delta CaredWithout
  infer_instance

instance (e : PipelineEvent) : Decidable (FaultFree e) :=
  match e with
  | .enqueue _ | .take _ | .step _ _ | .increment _ _ _ | .crash _ | .stall _ | .write _ _
  | .sessionLost _ | .lockLost _ => by
    delta FaultFree
    infer_instance

instance (b : ℕ) (attempt : Attempt) : Decidable (s.StepStaysCared b attempt) :=
  match attempt with
  | ⟨_, _, .lookUp _, _⟩ | ⟨_, _, .inserting _ _ [], _⟩ | ⟨_, _, .inserting _ _ (_ :: _), _⟩
  | ⟨_, _, .threw _, _⟩ | ⟨_, _, .resolving _ _, _⟩ | ⟨_, _, .incrementing _, _⟩
  | ⟨_, _, .upserting _ _, _⟩ | ⟨_, _, .announcing _ _, _⟩ | ⟨_, _, .recording, _⟩
  | ⟨_, _, .returned, _⟩ | ⟨_, _, .settled, _⟩ | ⟨_, _, .crashed, _⟩ => by
    delta StepStaysCared
    infer_instance

instance (e : PipelineEvent) : Decidable (s.StaysCared worker e) :=
  match e with
  | .enqueue _ | .take _ | .step _ _ | .increment _ _ _ | .crash _ | .stall _ | .write _ _
  | .sessionLost _ | .lockLost _ => by
    delta StaysCared
    infer_instance

/-- Every work item has a document once all jobs have finished. -/
def NoPhantoms : Prop :=
  s.Finished → ∀ w, HasRow s.stores.world.postgres w → s.stores.mongo.HasDocumentOf w

/-- What every step keeps: a row has a document, or an attempt that looks after it. -/
structure CareInv : Prop where
  nonempty : ∀ job ∈ s.jobs, job.signals ≠ []
  created : ∀ p ∈ s.insertions, ∃ j, s.jobOf p.2 = some j
  cared : ∀ p ∈ s.insertions, ∀ j, s.jobOf p.2 = some j →
    s.Cared s.attempts j p.1
  rows : ∀ w, HasRow s.stores.world.postgres w →
    s.stores.mongo.HasDocumentOf w ∨ ∃ a, (w, a) ∈ s.insertions

variable {worker s} {s₀ s' : Pipeline} {b j : ℕ} {old new : Attempt} {w : WorkItemId}

lemma willBeTaken_iff : s.willBeTaken j = true ↔ ∃ job, s.jobs[j]? = some job ∧
    (job.status = .waiting ∨ ∃ b attempt, job.status = .active b ∧
      s.attempts[b]? = some attempt ∧ attempt.pc.isCrashed = true) := by
  unfold willBeTaken
  cases hjob : s.jobs[j]? with
  | none => simp
  | some job =>
    cases hstatus : job.status with
    | active b => cases hb : s.attempts[b]? <;> simp [hstatus, hb]
    | _ => simp [hstatus]

/-- The queue goes on waiting for a job that an event leaves alone, as dead attempts
stay dead. -/
lemma willBeTaken_mono (hjob : ∀ job, s.jobs[j]? = some job → s'.jobs[j]? = some job)
    (hdead : ∀ (c : ℕ) (attempt : Attempt), s.attempts[c]? = some attempt →
      attempt.pc.isCrashed = true →
        ∃ attempt' : Attempt, s'.attempts[c]? = some attempt' ∧ attempt'.pc.isCrashed = true)
    (h : s.willBeTaken j = true) : s'.willBeTaken j = true := by
  obtain ⟨job, hj, hstatus⟩ := willBeTaken_iff.1 h
  refine willBeTaken_iff.2 ⟨job, hjob job hj, hstatus.imp_right ?_⟩
  rintro ⟨c, attempt, hactive, hc, hcrashed⟩
  obtain ⟨attempt', hc', hcrashed'⟩ := hdead c attempt hc hcrashed
  exact ⟨c, attempt', hactive, hc', hcrashed'⟩

/-- A living attempt that moves is not what the queue waits to redeliver. -/
lemma willBeTaken_of_set (hold : s.attempts[b]? = some old) (hliving : old.pc.isCrashed = false)
    (hattempts : s'.attempts = s.attempts.set b new) (hjobs : s'.jobs[j]? = s.jobs[j]?)
    (h : s.willBeTaken j = true) : s'.willBeTaken j = true := by
  refine willBeTaken_mono (fun job hjob => hjobs.trans hjob) ?_ h
  intro c attempt hc hcrashed
  -- the dead attempt is another one than that which moves
  have hne : b ≠ c := by
    rintro rfl
    obtain rfl := Option.some.inj (hold.symm.trans hc)
    simp [hliving] at hcrashed
  exact ⟨attempt, by rw [hattempts, List.getElem?_set_ne hne, hc], hcrashed⟩

/-- An attempt that keeps its charge keeps the rows cared for. -/
lemma Cared.set (h : s.Cared s.attempts j w)
    (hdocs : s.stores.mongo.HasDocumentOf w → s'.stores.mongo.HasDocumentOf w)
    (hold : s.attempts[b]? = some old) (hattempts : s'.attempts = s.attempts.set b new)
    (htaken : s.willBeTaken j = true → s'.willBeTaken j = true)
    (hcharge : old.InChargeOf j w → s'.Cared s'.attempts j w) : s'.Cared s'.attempts j w := by
  rcases h with hdoc | htake | ⟨attempt, hmem, hin⟩
  · exact .inl (hdocs hdoc)
  · exact .inr (.inl (htaken htake))
  · rcases List.mem_cons.1 ((perm_cons_eraseIdx hold).mem_iff.1 hmem) with rfl | hother
    · exact hcharge hin
    · refine .inr (.inr ⟨attempt, ?_, hin⟩)
      rw [hattempts]
      exact (set_perm_of_getElem? hold new).mem_iff.2 (List.mem_cons_of_mem _ hother)

/-- The queue touches no attempt and leaves the job alone. -/
lemma Cared.of_jobs (h : s.Cared s.attempts j w)
    (hdocs : s.stores.mongo.HasDocumentOf w → s'.stores.mongo.HasDocumentOf w)
    (hattempts : s'.attempts = s.attempts)
    (hjobs : ∀ job, s.jobs[j]? = some job → s'.jobs[j]? = some job) :
    s'.Cared s'.attempts j w := by
  rcases h with hdoc | htaken | hin
  · exact .inl (hdocs hdoc)
  · refine .inr (.inl (willBeTaken_mono hjobs ?_ htaken))
    intro c attempt hc hdead
    exact ⟨attempt, by rw [hattempts, hc], hdead⟩
  · exact .inr (.inr (by rwa [hattempts]))

/-- Rows that others are in charge of stay cared for. -/
lemma Cared.of_others (h : s.Cared (s.attempts.eraseIdx b) j w)
    (hdocs : s.stores.mongo.HasDocumentOf w → s'.stores.mongo.HasDocumentOf w)
    (hold : s.attempts[b]? = some old) (hattempts : s'.attempts = s.attempts.set b new)
    (htaken : s.willBeTaken j = true → s'.willBeTaken j = true) : s'.Cared s'.attempts j w := by
  rcases h with hdoc | htake | ⟨attempt, hmem, hin⟩
  · exact .inl (hdocs hdoc)
  · exact .inr (.inl (htaken htake))
  · refine .inr (.inr ⟨attempt, ?_, hin⟩)
    rw [hattempts]
    exact (set_perm_of_getElem? hold new).mem_iff.2 (List.mem_cons_of_mem _ hmem)

/-- The queue takes note of the end of its current attempt: it did not wait to
redeliver that job before. -/
lemma willBeTaken_of_ended {job job' : Job} (hold : s.attempts[b]? = some old)
    (hliving : old.pc.isCrashed = false) (hattempts : s'.attempts = s.attempts.set b new)
    (hjob : s.jobs[old.job]? = some job) (hactive : job.status = .active b)
    (hjobs : s'.jobs = s.jobs.set old.job job') (h : s.willBeTaken j = true) :
    s'.willBeTaken j = true := by
  -- the job that ends was active under a living attempt, so the queue did not wait to redeliver it
  by_cases hj : old.job = j
  · subst hj
    obtain ⟨job₀, hjob₀, hstatus⟩ := willBeTaken_iff.1 h
    obtain rfl := Option.some.inj (hjob.symm.trans hjob₀)
    rcases hstatus with hwaiting | ⟨c, attempt, hc, hattempt, hcrashed⟩
    · simp [hactive] at hwaiting
    · obtain rfl := JobStatus.active.inj (hactive.symm.trans hc)
      obtain rfl := Option.some.inj (hold.symm.trans hattempt)
      simp [hliving] at hcrashed
  · exact willBeTaken_of_set hold hliving hattempts (by rw [hjobs, List.getElem?_set_ne hj]) h

lemma willBeTaken_onReturn (hold : s.attempts[b]? = some old) (hpc : old.pc = .returned)
    (h : s.willBeTaken j = true) : (s.onReturn b old).willBeTaken j = true := by
  have hliving : old.pc.isCrashed = false := by rw [hpc]; rfl
  have hattempts := s.onReturn_attempts b old
  rcases s.onReturn_cases b old with ⟨heq, -⟩ | ⟨job, hjob, hactive, heq⟩
  · exact willBeTaken_of_set hold hliving hattempts (by rw [heq]; rfl) h
  · exact willBeTaken_of_ended hold hliving hattempts hjob hactive (by rw [heq]) h

lemma willBeTaken_onThrow {e : Thrown} (hold : s.attempts[b]? = some old)
    (hpc : old.pc = .threw e) (h : s.willBeTaken j = true) :
    (s.onThrow b old).willBeTaken j = true := by
  have hliving : old.pc.isCrashed = false := by rw [hpc]; rfl
  have hattempts := s.onThrow_attempts b old
  rcases s.onThrow_cases b old with ⟨heq, -⟩ | ⟨job, hjob, hactive, heq⟩
  · exact willBeTaken_of_set hold hliving hattempts (by rw [heq]; rfl) h
  · exact willBeTaken_of_ended hold hliving hattempts hjob hactive (by rw [heq]) h

/-- The queue takes the job of an attempt that throws and is retried back. -/
lemma willBeTaken_of_isRetried (hretried : s.isRetried b old.job = true) :
    (s.onThrow b old).willBeTaken old.job = true := by
  simp only [isRetried, Option.getD_eq_iff, Option.map_eq_some_iff, decide_eq_true_eq,
    reduceCtorEq, and_false, or_false] at hretried
  obtain ⟨job, hjob, hactive, hleft⟩ := hretried
  rcases s.onThrow_cases b old with ⟨-, hnot⟩ | ⟨job', hjob', -, heq⟩
  · exact absurd hactive (hnot job hjob)
  · obtain rfl := Option.some.inj (hjob.symm.trans hjob')
    have hwaiting : job.onThrow.status = .waiting := by simp [Job.onThrow, hleft]
    rw [heq]
    exact willBeTaken_iff.2 ⟨_, getElem?_set_self_of hjob _, .inl hwaiting⟩

/-- The queue finds the attempt dead that it waits for. -/
lemma willBeTaken_of_isCurrent (hold : s.attempts[b]? = some old)
    (hcurrent : s.isCurrent b j = true) (hcrashed : new.pc.isCrashed = true) :
    (s.setAttempt b new).willBeTaken j = true := by
  simp only [isCurrent, Option.getD_eq_iff, Option.map_eq_some_iff, decide_eq_true_eq,
    reduceCtorEq, and_false, or_false] at hcurrent
  obtain ⟨job, hjob, hactive⟩ := hcurrent
  exact willBeTaken_iff.2
    ⟨job, hjob, .inr ⟨b, _, hactive, getElem?_set_self_of hold new, hcrashed⟩⟩

lemma not_inChargeOf_of_pc (hbefore : old.pc.isBeforeInserts = false)
    (hserve : ¬ old.pc.WillServe w) : ¬ old.InChargeOf j w := by
  rintro (⟨-, h⟩ | h)
  · simp [hbefore] at h
  · exact hserve h

lemma not_inChargeOf_of_isOver (h : old.pc.isOver = true) : ¬ old.InChargeOf j w := by
  cases hpc : old.pc with
  | settled | crashed =>
    exact not_inChargeOf_of_pc (by rw [hpc]; rfl) (by rw [hpc]; exact fun hserve => hserve)
  | _ => simp [hpc, BatchPc.isOver] at h

/-- The queue hands its charge to the attempt that takes the job. -/
lemma CareInv.cared_of_take (h : s.CareInv) {i : ℕ} (hcared : s.Cared s.attempts j w)
    (hstep : s.step worker (.take i) = some s') : s'.Cared s'.attempts j w := by
  obtain ⟨job, hjob, -, rfl⟩ := step_take_inv hstep
  rcases hcared with hdoc | htaken | ⟨attempt, hmem, hin⟩
  · exact .inl hdoc
  · by_cases hij : i = j
    · subst hij
      refine .inr (.inr ⟨_, List.mem_append_right _ (List.mem_singleton_self _), .inl ⟨rfl, ?_⟩⟩)
      -- a job without signals would return at once
      have hne : job.signals.length ≠ 0 := fun hnil =>
        h.nonempty job (List.mem_of_getElem? hjob) (List.length_eq_zero_iff.1 hnil)
      simp [BatchPc.start, hne, BatchPc.isBeforeInserts]
    · refine .inr (.inl (willBeTaken_mono ?_ ?_ htaken))
      · intro job' hjob'
        exact (List.getElem?_set_ne hij).trans hjob'
      · intro c other hc hdead
        exact ⟨other, getElem?_concat_of hc _, hdead⟩
  · exact .inr (.inr ⟨attempt, List.mem_append_left _ hmem, hin⟩)

/-- A step of a batch passes the charge of its attempt on, and does not touch that
of the others. -/
lemma cared_onStep {io : Io} {step : BatchStep} (hold : s.attempts[b]? = some old)
    (hruns : BatchRuns d old.signals old.increments io s.stores old.pc step)
    (houtcome : io.outcome = .ok) (hcond : s.StepStaysCared b old)
    (hdocs : s.stores.mongo.HasDocumentOf w → step.stores.mongo.HasDocumentOf w)
    {a : ℕ} (hmem : (w, a) ∈ s.insertions) (hj : s.jobOf a = some j)
    (hcared : s.Cared s.attempts j w) :
    (s.onStep b old step).Cared (s.onStep b old step).attempts j w := by
  have hliving : old.pc.isCrashed = false := by
    cases hpc : old.pc with
    | crashed =>
      rw [hpc] at hruns
      cases hruns
    | _ => rfl
  have htaken : s.willBeTaken j = true → (s.onStep b old step).willBeTaken j = true :=
    willBeTaken_of_set hold hliving rfl rfl
  -- what the attempt itself is in charge of behind the step
  have hin : ∀ attempt' : Attempt, attempt' = { old with
      pc := step.pc, increments := step.increments } → attempt'.InChargeOf j w →
        (s.onStep b old step).Cared (s.onStep b old step).attempts j w := by
    rintro _ rfl hin
    exact .inr (.inr ⟨_, mem_set_self_of hold _, hin⟩)
  rw [StepStaysCared] at hcond
  rcases hruns.keepsCharge houtcome with ⟨hbefore, hnot⟩ |
    ⟨resolutions, hpc, hpass⟩ | ⟨resolutions, attempted, doc, rest, hpc, hpass⟩
  · refine hcared.set hdocs hold rfl htaken ?_
    rintro (⟨hjob, hpc⟩ | hpc)
    · exact hin _ rfl (.inl ⟨hjob, hbefore hpc⟩)
    · exact absurd hpc (hnot _)
  · -- the look-up
    rw [hpc] at hcond
    rcases hcond _ hmem j hj with hown | hothers
    · exact hin _ rfl (.inr (hpass _ hown))
    · exact hothers.of_others hdocs hold rfl htaken
  · -- an insert
    rw [hpc] at hcond
    rcases hcond _ hmem j hj with hown | hothers
    · exact (hpass _ hown).elim .inl fun hserve => hin _ rfl (.inr hserve)
    · exact hothers.of_others hdocs hold rfl htaken

/-- The rows created before an event that meets the condition are cared for behind it. -/
lemma CareInv.cared_of_step (h : s.CareInv) {e : PipelineEvent} (hfree : FaultFree e)
    (he : s.StaysCared worker e) (hstep : s.step worker e = some s') {p : WorkItemId × ℕ}
    (hp : p ∈ s.insertions) (hj : s.jobOf p.2 = some j) : s'.Cared s'.attempts j p.1 := by
  have hcared := h.cared p hp j hj
  have hdocs : s.stores.mongo.HasDocumentOf p.1 → s'.stores.mongo.HasDocumentOf p.1 :=
    hasDocumentOf_of_step hstep
  cases e with
  | enqueue signals =>
    obtain rfl := step_enqueue_inv hstep
    exact hcared.of_jobs hdocs rfl fun job hjob => getElem?_concat_of hjob _
  | take i => exact h.cared_of_take hcared hstep
  | step a io =>
    obtain ⟨attempt, hattempt, ⟨hpc, rfl⟩ | ⟨e, hpc, rfl⟩ | ⟨step, hruns, -, rfl⟩⟩ :=
      step_step_inv hstep
    · -- an attempt that returned has inserted its documents
      have hout : ¬ attempt.InChargeOf j p.1 :=
        not_inChargeOf_of_pc (by rw [hpc]; rfl) (by rw [hpc]; exact fun h => h)
      exact hcared.set hdocs hattempt (s.onReturn_attempts a attempt)
        (willBeTaken_onReturn hattempt hpc) fun hin => absurd hin hout
    · have hcond := he attempt hattempt
      rw [StepStaysCared, hpc] at hcond
      -- the charge goes back to the queue, or others have it
      rcases hcond p hp j hj with ⟨rfl, hretried⟩ | hothers
      · exact .inr (.inl (willBeTaken_of_isRetried hretried))
      · exact hothers.of_others hdocs hattempt (s.onThrow_attempts a attempt)
          (willBeTaken_onThrow hattempt hpc)
    · exact cared_onStep hattempt hruns hfree (he attempt hattempt) hdocs hp hj hcared
  | increment a k io =>
    obtain ⟨attempt, increment, hattempt, hk, -, rfl⟩ := step_increment_inv hstep
    refine hcared.set hdocs hattempt rfl
      (willBeTaken_mono (fun _ hjob => hjob) ?_) fun hin =>
        .inr (.inr ⟨_, mem_set_self_of hattempt _, hin⟩)
    intro c other hc hdead
    by_cases hac : a = c
    · subst hac
      obtain rfl := Option.some.inj (hattempt.symm.trans hc)
      exact ⟨_, getElem?_set_self_of hattempt _, hdead⟩
    · exact ⟨other, (List.getElem?_set_ne hac).trans hc, hdead⟩
  | crash a =>
    obtain ⟨attempt, hattempt, hpc, rfl⟩ := step_crash_inv hstep
    have hliving : attempt.pc.isCrashed = false := by
      cases hcrashed : attempt.pc with
      | crashed => exact absurd hcrashed hpc
      | _ => rfl
    rcases he attempt hattempt p hp j hj with ⟨rfl, hcurrent⟩ | hothers
    · exact .inr (.inl (willBeTaken_of_isCurrent hattempt hcurrent rfl))
    · exact hothers.of_others hdocs hattempt rfl (willBeTaken_of_set hattempt hliving rfl rfl)
  | stall i =>
    obtain ⟨job, c, hjob, hactive, rfl⟩ := step_stall_inv hstep
    by_cases hij : i = j
    · subst hij
      by_cases hlimit : worker.maxStalledCount < job.stalledCount + 1
      · exact (he job hjob hlimit p hp hj).imp_right .inr
      · -- below the limit the job waits again
        refine .inr (.inl (willBeTaken_iff.2 ⟨_, getElem?_set_self_of hjob _, .inl ?_⟩))
        simp [Job.onStall, hlimit]
    · exact hcared.of_jobs hdocs rfl fun job' hjob' => (List.getElem?_set_ne hij).trans hjob'
  | write write clock =>
    obtain ⟨-, -, _, -, rfl⟩ := step_write_inv hstep
    exact hcared
  | sessionLost c =>
    obtain rfl := Option.some.inj hstep
    exact hcared
  | lockLost c =>
    obtain rfl := Option.some.inj hstep
    exact hcared

lemma CareInv.step (h : s.CareInv) {e : PipelineEvent} (hfree : FaultFree e)
    (he : s.StaysCared worker e) (hstep : s.step worker e = some s') : s'.CareInv := by
  have hnonempty : ∀ job ∈ s'.jobs, job.signals ≠ [] := by
    intro job hmem
    rcases jobs_of_step hstep with heq | ⟨new, hnew, heq⟩ | ⟨i, old, new, hold, heq, hsignals⟩ <;>
      rw [heq] at hmem
    · exact h.nonempty job hmem
    · rcases List.mem_append.1 hmem with hmem | hmem
      · exact h.nonempty job hmem
      · exact List.mem_singleton.1 hmem ▸ hnew
    · rcases List.mem_or_eq_of_mem_set hmem with hmem | rfl
      · exact h.nonempty job hmem
      · rw [hsignals]
        exact h.nonempty old (List.mem_of_getElem? hold)
  have hdocs : ∀ w, s.stores.mongo.HasDocumentOf w → s'.stores.mongo.HasDocumentOf w :=
    fun _ => hasDocumentOf_of_step hstep
  have hcared : ∀ p ∈ s.insertions, ∀ j, s'.jobOf p.2 = some j →
      s'.Cared s'.attempts j p.1 := by
    intro p hp j hj
    -- an attempt never changes its job
    obtain ⟨i, hi⟩ := h.created p hp
    obtain rfl := Option.some.inj ((jobOf_of_step hstep hi).symm.trans hj)
    exact h.cared_of_step hfree he hstep hp hi
  have hcreated : ∀ p ∈ s.insertions, ∃ j, s'.jobOf p.2 = some j := fun p hp =>
    (h.created p hp).imp fun _ => jobOf_of_step hstep
  rcases insertions_of_step hstep with ⟨heq, hrows⟩ |
    ⟨a, io, attempt, resolved, locked, n, signal, r, rfl, hattempt, -, -, hcreate, hs', heq⟩
  · refine ⟨hnonempty, by rwa [heq], by rwa [heq], ?_⟩
    intro w hw
    rw [heq]
    exact (h.rows w (hrows w hw)).imp_left (hdocs w)
  · have hjob : s.jobOf a = some attempt.job := by rw [jobOf, hattempt]; rfl
    refine ⟨hnonempty, ?_, ?_, ?_⟩
    · rw [heq]
      intro p hp
      rcases List.mem_append.1 hp with hp | hp
      · exact hcreated p hp
      · obtain rfl := List.mem_singleton.1 hp
        exact ⟨_, jobOf_of_step hstep hjob⟩
    · rw [heq]
      intro p hp j hj
      rcases List.mem_append.1 hp with hp | hp
      · exact hcared p hp j hj
      · -- the attempt that creates a row is in charge of it
        obtain rfl := List.mem_singleton.1 hp
        obtain rfl := Option.some.inj ((jobOf_of_step hstep hjob).symm.trans hj)
        rw [hs']
        exact .inr (.inr ⟨_, List.mem_of_getElem? (getElem?_set_self_of hattempt _),
          .inl ⟨rfl, rfl⟩⟩)
    · intro w hw
      rw [heq]
      rcases hasRow_of_created hcreate hw with hold | rfl
      · rcases h.rows w hold with hdoc | ⟨b, hb⟩
        · exact .inl (hdocs w hdoc)
        · exact .inr ⟨b, List.mem_append_left _ hb⟩
      · exact .inr ⟨a, List.mem_append_right _ (List.mem_singleton_self _)⟩

/-- In every run without store faults that leaves nobody's charge behind, every
work item has a document once all jobs have finished. -/
theorem noPhantoms_of_run (hjobs : s₀.jobs = [])
    (hinsertions : s₀.insertions = [])
    (hdocuments : ∀ w, HasRow s₀.stores.world.postgres w → s₀.stores.mongo.HasDocumentOf w)
    {es : List PipelineEvent} (hfree : ∀ e ∈ es, FaultFree e)
    (hmeets : (lts worker).Meets (StaysCared worker) s₀ es)
    (hrun : (lts worker).run s₀ es = some s) : s.NoPhantoms := by
  have h₀ : s₀.CareInv := by
    refine ⟨?_, ?_, ?_, fun w hw => .inl (hdocuments w hw)⟩
    · intro job hmem
      simp [hjobs] at hmem
    · intro p hp
      simp [hinsertions] at hp
    · intro p hp
      simp [hinsertions] at hp
  have hstep : ∀ s e s', s.CareInv → (FaultFree e ∧ s.StaysCared worker e) →
      (lts worker).step s e = some s' → s'.CareInv :=
    fun _ _ _ h he hstep => h.step he.1 he.2 hstep
  have hinv := Lts.run_invariant_of_meets hstep hrun (hmeets.and_of_forall hfree) h₀
  intro ⟨hfinished, hover⟩ w hw
  rcases hinv.rows w hw with hdoc | ⟨a, ha⟩
  · exact hdoc
  obtain ⟨j, hj⟩ := hinv.created _ ha
  -- once everything is over nobody is in charge of anything
  rcases hinv.cared _ ha j hj with hdoc | htaken | ⟨attempt, hmem, hin⟩
  · exact hdoc
  · obtain ⟨job, hjob, hstatus⟩ := willBeTaken_iff.1 htaken
    rcases hfinished job (List.mem_of_getElem? hjob) with hdone | hdone <;>
      simp [hdone] at hstatus
  · exact absurd hin (not_inChargeOf_of_isOver (hover attempt hmem))

/-- A signal is stored, its incident is closed and its session expires; then a
client sends `second`. -/
def closedThen (second : IngestionSignal) : List PipelineEvent :=
  [.enqueue [cacheSignal "a" "c" .P1], .take 0] ++
    List.replicate 5 (.step 0 ⟨.ok, "w", 5⟩) ++ List.replicate 7 (.step 0 ⟨.ok, "v", 5⟩) ++
    .increment 0 0 ⟨.ok, "v", 5⟩ :: List.replicate 5 (.step 0 ⟨.ok, "v", 5⟩) ++
    [.write (.transitionState ⟨"w", .OPEN, .INVESTIGATING, "ops", none, none⟩) 6,
      .write (.transitionState ⟨"w", .INVESTIGATING, .RESOLVED, "ops", some 7, none⟩) 7,
      .write (.submitRca ⟨"w", "ops", ⟨0, 7, "OTHER", "cache was full", "raised its limit",
        "alert on the limit"⟩, 7, 8⟩) 8,
      .sessionLost "c", .enqueue [second], .take 1] ++
    List.replicate 5 (.step 1 ⟨.ok, "v", 9⟩) ++ List.replicate 5 (.step 1 ⟨.ok, "u", 9⟩)

/-- The signal of a closed incident is sent again. -/
def resubmittedEvents : List PipelineEvent :=
  closedThen (cacheSignal "a" "c" .P1) ++ List.replicate 6 (.step 1 ⟨.ok, "u", 9⟩)

/-- The signal sent again opens an incident that no document belongs to. -/
theorem resubmitted_signal_opens_phantom :
    ¬ ∀ es s, (∀ e ∈ es, FaultFree e) → (lts .standard).run empty es = some s →
      s.NoPhantoms := by
  intro hclaim
  have hfree : ∀ e ∈ resubmittedEvents, FaultFree e := by decide +kernel
  have hobserved : ((lts .standard).run empty resubmittedEvents).map (fun s =>
      (decide s.Finished, (s.stores.world.postgres.row "v").isSome,
        decide (s.stores.mongo.HasDocumentOf "v"))) = some (true, true, false) := by
    decide +kernel
  obtain ⟨s, hrun, hs⟩ := Option.map_eq_some_iff.1 hobserved
  simp only [Prod.mk.injEq, decide_eq_true_eq, decide_eq_false_iff_not] at hs
  obtain ⟨hfinished, hrow, hnone⟩ := hs
  exact hnone (hclaim _ s hfree hrun hfinished "v" (Option.isSome_iff_exists.1 hrow))

/-- Another signal opens the next incident. -/
def reopenedEvents : List PipelineEvent :=
  closedThen (cacheSignal "b" "c" .P1) ++ List.replicate 2 (.step 1 ⟨.ok, "u", 9⟩) ++
    .increment 1 0 ⟨.ok, "u", 9⟩ :: List.replicate 5 (.step 1 ⟨.ok, "u", 9⟩)

theorem noPhantoms_of_reopenedEvents : ∃ s,
    (lts .standard).run empty reopenedEvents = some s ∧ s.NoPhantoms ∧ s.Finished ∧
      s.stores.mongo.HasDocumentOf "w" ∧ s.stores.mongo.HasDocumentOf "v" := by
  have hfree : ∀ e ∈ reopenedEvents, FaultFree e := by decide +kernel
  have hobserved : ((lts .standard).run empty reopenedEvents).map (fun s =>
      decide (s.Finished ∧ s.stores.mongo.HasDocumentOf "w" ∧ s.stores.mongo.HasDocumentOf "v"))
      = some true := by
    decide +kernel
  have hmeets : (lts .standard).Meets (StaysCared .standard) empty reopenedEvents := by
    decide +kernel
  obtain ⟨s, hrun, hs⟩ := Option.map_eq_some_iff.1 hobserved
  exact ⟨s, hrun, noPhantoms_of_run rfl rfl (fun _ ⟨_, h⟩ => (nomatch h)) hfree hmeets hrun,
    of_decide_eq_true hs⟩

end Pipeline

end InveniOps.Workers
