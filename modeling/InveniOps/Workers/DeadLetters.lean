import InveniOps.Workers.SignalWorker

/-!
# Signals of finished jobs

A job that completes has stored all its signals, and a job whose last attempt
throws goes to the dead letter queue.  A job that is failed for good because it
stalled too often has attempts left, so the handler takes it for one that will
be retried.
-/

namespace InveniOps.Workers

open Lib Stores Ingestion

/-- What a run of `processBatch` has done for its signals: behind the look-up
each of them is stored or about to be. -/
def BatchPc.Safe (mongo : Mongo) (signals : List IngestionSignal) : BatchPc → Prop
  | .resolving resolved _ => resolved.length < signals.length
  | .lookUp resolutions => resolutions.length = signals.length
  | .inserting _ _ rest =>
    ∀ signal ∈ signals, mongo.Has signal.signalId ∨ signal.signalId ∈ rest.map (·.signalId)
  | .incrementing _ | .upserting _ _ | .announcing _ _ | .recording | .returned =>
    ∀ signal ∈ signals, mongo.Has signal.signalId
  | .threw _ | .settled | .crashed => True

section

variable {d : SignalDebouncer} {signals : List IngestionSignal} {increments : List Increment}
  {io : Io} {st : BatchStores}

lemma BatchPc.safe_start (mongo : Mongo) : (BatchPc.start signals).Safe mongo signals := by
  unfold BatchPc.start
  split_ifs with hnil
  · rw [List.length_eq_zero_iff.1 hnil]
    exact fun signal hmem => nomatch hmem
  · exact Nat.pos_of_ne_zero hnil

lemma BatchPc.Safe.mono {mongo mongo' : Mongo} (hmono : ∀ id, mongo.Has id → mongo'.Has id)
    {pc : BatchPc} (h : pc.Safe mongo signals) : pc.Safe mongo' signals := by
  cases pc with
  | resolving resolved pc | lookUp resolutions => exact h
  | inserting resolutions attempted rest =>
    intro signal hmem
    exact (h signal hmem).imp_left (hmono _)
  | incrementing _ | upserting _ _ | announcing _ _ | recording | returned =>
    intro signal hmem
    exact hmono _ (h signal hmem)
  | threw _ | settled | crashed => trivial

/-- Behind the look-up of a full batch, a signal is stored or has a document to insert. -/
lemma has_or_mem_newDocuments {mongo : Mongo} {resolutions : List DebounceResult}
    (hlength : resolutions.length = signals.length) {signal : IngestionSignal}
    (hmem : signal ∈ signals) : mongo.Has signal.signalId ∨
      signal.signalId ∈ (newDocuments signals mongo resolutions).map (·.signalId) := by
  by_cases hhas : mongo.Has signal.signalId
  · exact .inl hhas
  · right
    have hid : signal.signalId ∈ (batchDocuments signals resolutions).map (·.signalId) := by
      rw [map_signalId_batchDocuments hlength]
      exact List.mem_map_of_mem hmem
    obtain ⟨doc, hdoc, hid⟩ := List.mem_map.1 hid
    refine List.mem_map.2 ⟨doc, List.mem_filter.2 ⟨hdoc, ?_⟩, hid⟩
    simpa [hid] using hhas

/-- A step of `processBatch` keeps the signals safe. -/
lemma BatchRuns.safe {pc : BatchPc} {step : BatchStep}
    (h : BatchRuns d signals increments io st pc step) (hpc : pc.Safe st.mongo signals) :
    step.pc.Safe step.stores.mongo signals := by
  cases h with
  | resolve => exact hpc
  | resolved =>
    rename_i resolved result
    have hlength : (resolved ++ [result]).length = resolved.length + 1 := by simp
    have hlt : resolved.length < signals.length := hpc
    dsimp only [BatchPc.next]
    split_ifs with hmore
    · exact hmore
    · exact le_antisymm (by omega) (not_lt.1 hmore)
  | resolveThrew => trivial
  | lookUpThrew => trivial
  | lookUpNone houtcome hnew =>
    intro signal hmem
    refine (has_or_mem_newDocuments hpc hmem).resolve_right ?_
    simp [hnew]
  | lookUp houtcome hnew => exact fun signal hmem => has_or_mem_newDocuments hpc hmem
  | insertThrew => trivial
  | insert houtcome hrest =>
    intro signal hmem
    rw [Mongo.has_insert]
    rcases hpc signal hmem with hhas | hin
    · exact .inl (.inl hhas)
    · rcases List.mem_cons.1 hin with heq | hin
      · exact .inl (.inr heq)
      · exact .inr hin
  | insertLast houtcome =>
    intro signal hmem
    rw [Mongo.has_insert]
    rcases hpc signal hmem with hhas | hin
    · exact .inl hhas
    · exact .inr (List.mem_singleton.1 hin)
  | rejected => trivial
  | fulfilled => exact hpc
  | upserted => exact hpc
  | announced => exact hpc
  | recorded => exact hpc

end

namespace Pipeline

variable {worker : SignalWorker} {s₀ s s' : Pipeline}

/-- Each signal of the job is stored or contained in a dead letter. -/
def Kept (s : Pipeline) (job : Job) : Prop :=
  ∀ signal ∈ job.signals, s.stores.mongo.Has signal.signalId ∨
    ∃ letter ∈ s.deadLetters, signal ∈ letter.signals

/-- No signal of a finished job has vanished. -/
def NothingVanished (s : Pipeline) : Prop :=
  ∀ job ∈ s.jobs, job.status = .completed ∨ job.status = .failed → s.Kept job

/-- What every step keeps: attempts past their insert have stored their signals. -/
structure SafeInv (s : Pipeline) : Prop where
  linked : s.Linked
  safe : ∀ (a : ℕ) (attempt : Attempt), s.attempts[a]? = some attempt →
    attempt.pc.Safe s.stores.mongo attempt.signals
  kept : s.NothingVanished

/-- The stall limit fails no job for good that has attempts left while one of its
signals is not stored. -/
def StallsKeep (worker : SignalWorker) (s : Pipeline) : PipelineEvent → Prop
  | .stall j => ∀ job ∈ s.jobs[j]?, worker.maxStalledCount < job.stalledCount + 1 →
    job.attemptsMade < job.attempts.getD 1 →
      ∀ signal ∈ job.signals, s.stores.mongo.Has signal.signalId
  | _ => True

instance (worker : SignalWorker) (s : Pipeline) (e : PipelineEvent) :
    Decidable (StallsKeep worker s e) :=
  match e with
  | .enqueue _ | .take _ | .step _ _ | .increment _ _ _ | .crash _ | .stall _ | .write _ _
  | .sessionLost _ | .lockLost _ => by
    delta StallsKeep
    infer_instance

lemma Kept.mono {job job' : Job} (h : s.Kept job) (hsignals : job'.signals = job.signals)
    (hhas : ∀ id, s.stores.mongo.Has id → s'.stores.mongo.Has id)
    (hletters : s.deadLetters ⊆ s'.deadLetters) : s'.Kept job' := by
  intro signal hmem
  rw [hsignals] at hmem
  refine (h signal hmem).imp (hhas _) ?_
  rintro ⟨letter, hletter, hsignal⟩
  exact ⟨letter, hletters hletter, hsignal⟩

/-- A job that the handler dead-letters is kept. -/
lemma kept_of_onFailed (j : ℕ) {job : Job} (h : ¬ job.attemptsMade < job.attempts.getD 1)
    (hletters : onFailed j job ⊆ s.deadLetters) : s.Kept job := by
  intro signal hmem
  refine .inr ⟨⟨j, job.attemptsMade, job.signals⟩, hletters ?_, hmem⟩
  rw [onFailed, if_neg h]
  exact List.mem_singleton_self _

/-- Jobs behind an event are jobs before it, or the one that the event changed. -/
lemma kept_of_set (h : s.NothingVanished) {j : ℕ} {new : Job}
    (hjobs : s'.jobs = s.jobs.set j new)
    (hhas : ∀ id, s.stores.mongo.Has id → s'.stores.mongo.Has id)
    (hletters : s.deadLetters ⊆ s'.deadLetters)
    (hnew : new.status = .completed ∨ new.status = .failed → s'.Kept new) :
    s'.NothingVanished := by
  intro job hmem hstatus
  rw [hjobs] at hmem
  rcases List.mem_or_eq_of_mem_set hmem with hold | rfl
  · exact (h job hold hstatus).mono rfl hhas hletters
  · exact hnew hstatus

/-- The attempts' part of the invariant behind an event that changes one of them. -/
lemma safe_of_set (h : s.SafeInv)
    (hhas : ∀ id, s.stores.mongo.Has id → s'.stores.mongo.Has id) {a : ℕ} {attempt' : Attempt}
    (hattempts : s'.attempts = s.attempts.set a attempt')
    (hsafe : attempt'.pc.Safe s'.stores.mongo attempt'.signals) :
    ∀ (b : ℕ) (attempt : Attempt), s'.attempts[b]? = some attempt →
      attempt.pc.Safe s'.stores.mongo attempt.signals := by
  intro b old hb
  rw [hattempts] at hb
  rcases getElem?_set_cases hb with ⟨-, rfl⟩ | ⟨-, hb⟩
  · exact hsafe
  · exact (h.safe b old hb).mono hhas

/-- Every event that meets the condition keeps the invariant. -/
lemma SafeInv.step (h : s.SafeInv) {e : PipelineEvent} (he : StallsKeep worker s e)
    (hstep : s.step worker e = some s') : s'.SafeInv := by
  have hhas : ∀ id, s.stores.mongo.Has id → s'.stores.mongo.Has id := fun _ => has_of_step hstep
  have hlinked : s'.Linked := h.linked.step hstep
  have hsafe : ∀ (b : ℕ) (old : Attempt), s.attempts[b]? = some old →
      old.pc.Safe s'.stores.mongo old.signals := fun b old hb => (h.safe b old hb).mono hhas
  cases e with
  | enqueue signals =>
    obtain rfl := step_enqueue_inv hstep
    refine ⟨hlinked, hsafe, ?_⟩
    intro job hmem hstatus
    rcases List.mem_append.1 hmem with hold | hnew
    · exact h.kept job hold hstatus
    · obtain rfl := List.mem_singleton.1 hnew
      simp at hstatus
  | take j =>
    obtain ⟨job, hjob, -, rfl⟩ := step_take_inv hstep
    refine ⟨hlinked, ?_, ?_⟩
    · intro b old hb
      rcases getElem?_concat_cases hb with ⟨-, rfl⟩ | hb
      · exact BatchPc.safe_start _
      · exact hsafe b old hb
    · exact kept_of_set h.kept rfl hhas (List.Subset.refl _) (by simp)
  | step a io =>
    obtain ⟨attempt, hattempt, ⟨hpc, rfl⟩ | ⟨e, -, rfl⟩ | ⟨step, hruns, -, rfl⟩⟩ :=
      step_step_inv hstep
    · -- an attempt returns only behind the insert of all its signals
      have hall : ∀ signal ∈ attempt.signals, s.stores.mongo.Has signal.signalId := by
        simpa [hpc, BatchPc.Safe] using h.safe a attempt hattempt
      obtain ⟨job, hjob, hsig⟩ := h.linked a attempt hattempt
      refine ⟨hlinked, safe_of_set h hhas (s.onReturn_attempts a attempt) trivial, ?_⟩
      rcases s.onReturn_cases a attempt with ⟨heq, -⟩ | ⟨job', hjob', -, heq⟩
      · rw [heq]
        exact h.kept
      · obtain rfl := Option.some.inj (hjob'.symm.trans hjob)
        refine kept_of_set h.kept (by rw [heq]) hhas (by rw [heq]; exact List.Subset.refl _) ?_
        intro _ signal hmem
        exact .inl (hhas _ (hall signal (hsig ▸ hmem)))
    · refine ⟨hlinked, safe_of_set h hhas (s.onThrow_attempts a attempt) trivial, ?_⟩
      rcases s.onThrow_cases a attempt with ⟨heq, -⟩ | ⟨job, hjob, -, heq⟩
      · rw [heq]
        exact h.kept
      · refine kept_of_set h.kept (by rw [heq]) hhas
          (by rw [heq]; exact List.subset_append_left _ _) ?_
        intro hstatus
        -- a job that is not retried has no attempts left, so the handler keeps it
        have hexhausted : ¬ job.onThrow.attemptsMade < job.onThrow.attempts.getD 1 := by
          intro hlt
          simp [Job.onThrow, show job.attemptsMade + 1 < job.attempts.getD 1 from hlt] at hstatus
        refine kept_of_onFailed attempt.job hexhausted ?_
        rw [heq]
        exact List.subset_append_right _ _
    · exact ⟨hlinked, safe_of_set h hhas rfl (hruns.safe (h.safe a attempt hattempt)),
        fun job hmem hstatus => (h.kept job hmem hstatus).mono rfl hhas (List.Subset.refl _)⟩
  | increment a k io =>
    obtain ⟨attempt, increment, hattempt, -, -, rfl⟩ := step_increment_inv hstep
    exact ⟨hlinked, safe_of_set h hhas rfl (h.safe a attempt hattempt), h.kept⟩
  | crash a =>
    obtain ⟨attempt, hattempt, -, rfl⟩ := step_crash_inv hstep
    exact ⟨hlinked, safe_of_set h hhas rfl trivial, h.kept⟩
  | stall j =>
    obtain ⟨job, b, hjob, -, rfl⟩ := step_stall_inv hstep
    refine ⟨hlinked, hsafe, kept_of_set h.kept rfl hhas (List.subset_append_left _ _) ?_⟩
    intro hstatus
    have hfailed : (job.onStall worker.maxStalledCount).status = .failed := by
      rcases hstatus with hstatus | hstatus
      · simp only [Job.onStall] at hstatus
        split_ifs at hstatus
      · exact hstatus
    have hlimit : worker.maxStalledCount < job.stalledCount + 1 := by
      by_contra hnot
      simp [Job.onStall, hnot] at hfailed
    -- with attempts left the handler adds no dead letter: here the condition is needed
    by_cases hleft : job.attemptsMade < job.attempts.getD 1
    · exact fun signal hmem => .inl (he job hjob hlimit hleft signal hmem)
    · refine kept_of_onFailed j hleft ?_
      simp only [hfailed, if_true]
      exact List.subset_append_right _ _
  | write write clock =>
    obtain ⟨-, -, _, -, rfl⟩ := step_write_inv hstep
    exact ⟨hlinked, hsafe, h.kept⟩
  | sessionLost c =>
    obtain rfl := Option.some.inj hstep
    exact ⟨hlinked, hsafe, h.kept⟩
  | lockLost c =>
    obtain rfl := Option.some.inj hstep
    exact ⟨hlinked, hsafe, h.kept⟩

/-- In every run in which the stall limit never fails a job with a signal that is
not stored, under any thrown errors, crashes and redeliveries, the signals of
every finished job are stored or dead-lettered. -/
theorem nothingVanished_of_run (hjobs : s₀.jobs = []) (hattempts : s₀.attempts = [])
    {es : List PipelineEvent} (hmeets : (lts worker).Meets (StallsKeep worker) s₀ es)
    (hrun : (lts worker).run s₀ es = some s) : s.NothingVanished := by
  have h₀ : s₀.SafeInv := by
    refine ⟨?_, ?_, ?_⟩
    · intro a attempt ha
      simp [hattempts] at ha
    · intro a attempt ha
      simp [hattempts] at ha
    · intro job hmem
      simp [hjobs] at hmem
  have hstep : ∀ s e s', s.SafeInv → StallsKeep worker s e → (lts worker).step s e = some s' →
      s'.SafeInv := fun _ _ _ h he hstep => h.step he hstep
  exact (Lts.run_invariant_of_meets hstep hrun hmeets h₀).kept

/-- A job is taken and stalls, twice. -/
def stalledEvents : List PipelineEvent :=
  [.enqueue [cacheSignal "a" "c" .P1], .take 0, .stall 0, .take 0, .stall 0]

/-- The signal of a job that stalled too often is neither stored nor dead-lettered. -/
theorem stalled_job_vanishes :
    ¬ ∀ es s, (lts .standard).run empty es = some s → s.NothingVanished := by
  intro hclaim
  have hobserved : ((lts .standard).run empty stalledEvents).map (fun s =>
      (s.jobs.map fun job => (job.status, job.signals.length), s.stores.mongo.documents.length,
        s.deadLetters.length)) = some ([(.failed, 1)], 0, 0) := by
    decide +kernel
  obtain ⟨s, hrun, hs⟩ := Option.map_eq_some_iff.1 hobserved
  simp only [Prod.mk.injEq, List.length_eq_zero_iff, List.map_eq_cons_iff] at hs
  obtain ⟨⟨job, rest, hjobs, ⟨hstatus, hlength⟩, -⟩, hdocuments, hletters⟩ := hs
  have hkept := hclaim _ s hrun job (hjobs ▸ List.mem_cons_self) (.inr hstatus)
  obtain ⟨signal, hsignals⟩ := List.length_eq_one_iff.1 hlength
  rcases hkept signal (hsignals ▸ List.mem_singleton_self _) with hhas | ⟨letter, hmem, -⟩
  · simp [Mongo.Has, hdocuments] at hhas
  · simp [hletters] at hmem

/-- A job stalls once and its second attempt stores the signal. -/
def recoveredEvents : List PipelineEvent :=
  [.enqueue [cacheSignal "a" "c" .P1], .take 0, .stall 0, .crash 0, .take 0] ++
    List.replicate 5 (.step 1 ⟨.ok, "w", 5⟩) ++ List.replicate 7 (.step 1 ⟨.ok, "v", 5⟩) ++
    .increment 1 0 ⟨.ok, "v", 5⟩ :: List.replicate 5 (.step 1 ⟨.ok, "v", 5⟩)

theorem nothingVanished_of_recoveredEvents : ∃ s,
    (lts .standard).run empty recoveredEvents = some s ∧ s.NothingVanished ∧
      (s.jobs.map (·.status), s.stores.mongo.documents.length) = ([.completed], 1) := by
  have hobserved : ((lts .standard).run empty recoveredEvents).map
      (fun s => (s.jobs.map (·.status), s.stores.mongo.documents.length))
        = some ([.completed], 1) := by
    decide +kernel
  have hmeets : (lts .standard).Meets (StallsKeep .standard) empty recoveredEvents := by
    decide +kernel
  obtain ⟨s, hrun, hs⟩ := Option.map_eq_some_iff.1 hobserved
  exact ⟨s, hrun, nothingVanished_of_run rfl rfl hmeets hrun, hs⟩

end Pipeline

end InveniOps.Workers
