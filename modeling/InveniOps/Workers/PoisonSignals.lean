import InveniOps.Ingestion.DebounceAgreement
import InveniOps.Workers.DeadLetters
import InveniOps.Workers.WorkItemRefs

/-!
# Batches with poison signals

Postgres rejects the creation of a work item for some signals whatever is tried.
The loop of `resolveBatch` throws at the first of them, so they take down with
them the other signals of their batch.
-/

namespace InveniOps.Workers

open Lib Stores Ingestion

/-! ### An attempt whose commands are answered -/

/-- No error is on its way out of the call. -/
def ResolveUnharmed : ResolvePc → Prop
  | .release (.error _) | .done (.error _) => False
  | _ => True

/-- No error is on its way out of the run. -/
def BatchPc.Unharmed : BatchPc → Prop
  | .resolving _ pc => ResolveUnharmed pc
  | .threw _ => False
  | _ => True

/-- The store answered the increment, or has not been asked yet. -/
def Increment.Unharmed (increment : Increment) : Prop := ∀ e, increment.state ≠ .rejected e

/-- The work item of a run's `findWinner` is not active any more. -/
def WinnerGone (pg : Postgres) (signals : List IngestionSignal) : BatchPc → Prop
  | .resolving resolved (.findWinner _) =>
    ∃ signal ∈ signals[resolved.length]?, pg.activeOf signal.componentId = []
  | _ => False

instance (pg : Postgres) (signals : List IngestionSignal) (pc : BatchPc) :
    Decidable (WinnerGone pg signals pc) := by
  unfold WinnerGone
  split <;> infer_instance

section

variable {d : SignalDebouncer} {signal : IngestionSignal} {signals : List IngestionSignal}
  {increments : List Increment} {io : Io} {w : World} {st : BatchStores}

lemma unharmed_leave {result : DebounceResult} (locked : Bool) :
    ResolveUnharmed (SignalDebouncer.leave locked (.ok result)) := by
  cases locked <;> trivial

/-- A call whose commands are answered throws only for a missing winner. -/
lemma resolveStep_unharmed (hd : d.RecognisesConflict) (hio : io.outcome = .ok)
    (hfresh : w.postgres.row io.uuid = none) {pc : ResolvePc} (hpc : ResolveUnharmed pc)
    (hwinner : ∀ locked, pc = .findWinner locked → w.postgres.activeOf signal.componentId ≠ []) :
    ResolveUnharmed (d.resolveStep signal io w pc).2 := by
  have hruns : SignalDebouncer.ResolveRuns d signal io w pc _ := SignalDebouncer.resolveRuns pc
  generalize hpc' : (d.resolveStep signal io w pc).2 = pc' at hruns ⊢
  cases hruns with
  | @createThrew locked attempt e =>
    rw [← hpc']
    rcases SignalDebouncer.resolveStep_create hd hio hfresh locked attempt with
      ⟨-, hstep⟩ | ⟨-, _, _, -, -, hstep⟩ <;> rw [hstep] <;> trivial
  | noWinner head => exact absurd (List.head?_eq_none_iff.1 head) (hwinner _ rfl)
  | expires => exact unharmed_leave _
  | @released outcome => cases outcome <;> exact hpc
  | returned => exact hpc
  | left locked e failed => exact absurd hio failed
  | seedThrew locked created e failed => exact absurd hio failed
  | _ => trivial

lemma firstRejection_eq_none (h : ∀ increment ∈ increments, increment.Unharmed) :
    firstRejection increments = none := by
  induction increments with
  | nil => rfl
  | cons increment rest ih =>
    have hrest := ih fun other hmem => h other (List.mem_cons_of_mem _ hmem)
    have hself := h increment List.mem_cons_self
    simp only [firstRejection]
    split
    · rename_i e he
      exact absurd he (hself e)
    · exact hrest

lemma unharmed_startIncrements (resolutions : List DebounceResult) (ids : List SignalId) :
    ∀ increment ∈ startIncrements signals resolutions ids, increment.Unharmed := by
  intro increment hmem e
  obtain ⟨_, -, rfl⟩ := List.mem_map.1 hmem
  exact fun h => (nomatch h)

/-- Neither does a run of `processBatch`. -/
lemma BatchRuns.unharmed (hd : d.RecognisesConflict) (hio : io.outcome = .ok)
    (hfresh : st.world.postgres.row io.uuid = none) {pc : BatchPc} {step : BatchStep}
    (h : BatchRuns d signals increments io st pc step) (hpc : pc.Unharmed)
    (hincrements : ∀ increment ∈ increments, increment.Unharmed)
    (hwinner : ¬ WinnerGone st.world.postgres signals pc) :
    step.pc.Unharmed ∧ ∀ increment ∈ step.increments, increment.Unharmed := by
  cases h with
  | resolve hsignal hdone =>
    rename_i resolved rpc signal
    refine ⟨resolveStep_unharmed hd hio hfresh hpc ?_, hincrements⟩
    rintro locked rfl hnone
    exact hwinner ⟨signal, hsignal, hnone⟩
  | resolved =>
    refine ⟨?_, hincrements⟩
    dsimp only [BatchPc.next]
    split_ifs <;> trivial
  | resolveThrew => exact hpc.elim
  | lookUpThrew houtcome => rw [hio] at houtcome; cases houtcome
  | insertThrew houtcome => rw [hio] at houtcome; cases houtcome
  | lookUpNone => exact ⟨trivial, unharmed_startIncrements _ _⟩
  | insertLast => exact ⟨trivial, unharmed_startIncrements _ _⟩
  | rejected hfirst =>
    rw [firstRejection_eq_none hincrements] at hfirst
    cases hfirst
  | _ => exact ⟨trivial, hincrements⟩

/-- An increment of a row that exists is carried out when it is answered. -/
lemma incrementStep_unharmed (hio : io.outcome = .ok) {increment : Increment}
    (hrow : HasRow st.world.postgres increment.workItemId) :
    (incrementStep d io st increment).2.Unharmed := by
  obtain ⟨r, hr⟩ := hrow
  obtain ⟨r', pg', hcommand⟩ :=
    Postgres.incrementSignalCount_total d.workItemStore hr increment.amount io.now
  intro e
  simp only [incrementStep, hio, perform_ok_of hcommand, withPostgresRetry_ok]
  intro h
  cases h

/-! ### Documents and their work items -/

/-- The document is linked to a work item of which `P` holds. -/
def LinkedTo (P : WorkItemId → Prop) (doc : SignalDocument) : Prop :=
  ∃ w, doc.workItemId = some w ∧ P w

/-- The documents that a run is about to insert are linked. -/
def BatchPc.Links (P : WorkItemId → Prop) : BatchPc → Prop
  | .inserting _ _ rest => ∀ doc ∈ rest, LinkedTo P doc
  | _ => True

lemma LinkedTo.imp {P Q : WorkItemId → Prop} {doc : SignalDocument} (h : LinkedTo P doc)
    (hPQ : ∀ w, P w → Q w) : LinkedTo Q doc := by
  obtain ⟨w, hw, hP⟩ := h
  exact ⟨w, hw, hPQ w hP⟩

lemma BatchPc.Links.imp {P Q : WorkItemId → Prop} {pc : BatchPc} (h : pc.Links P)
    (hPQ : ∀ w, P w → Q w) : pc.Links Q := by
  cases pc with
  | inserting _ _ rest => exact fun doc hmem => (h doc hmem).imp hPQ
  | _ => trivial

lemma linkedTo_of_batchDocuments {P : WorkItemId → Prop} {resolutions : List DebounceResult}
    (h : ∀ result ∈ resolutions, P result.workItemId) {doc : SignalDocument}
    (hdoc : doc ∈ batchDocuments signals resolutions) : LinkedTo P doc := by
  rw [batchDocuments, ← List.map_uncurry_zip_eq_zipWith] at hdoc
  obtain ⟨⟨signal, result⟩, hmem, rfl⟩ := List.mem_map.1 hdoc
  exact ⟨result.workItemId, rfl, h result (List.of_mem_zip hmem).2⟩

lemma documents_insert_linked {P : WorkItemId → Prop} {mongo : Mongo} {doc : SignalDocument}
    (hall : ∀ other ∈ mongo.documents, LinkedTo P other) (hdoc : LinkedTo P doc) :
    ∀ other ∈ (mongo.insert doc).1.documents, LinkedTo P other := by
  by_cases hhas : mongo.Has doc.signalId
  · rw [Mongo.insert_of_has hhas]
    exact hall
  · rw [(Mongo.insert_of_not_has hhas).2]
    intro other hmem
    rcases List.mem_append.1 hmem with hold | hnew
    · exact hall other hold
    · rw [List.mem_singleton.1 hnew]
      exact hdoc

/-- A step of a run keeps the links of what it has inserted and of what it is about to insert. -/
lemma BatchRuns.links {P : WorkItemId → Prop} {pc : BatchPc} {step : BatchStep}
    (h : BatchRuns d signals increments io st pc step) (hnames : pc.Names P) (hpc : pc.Links P)
    (hall : ∀ doc ∈ st.mongo.documents, LinkedTo P doc) :
    step.pc.Links P ∧ ∀ doc ∈ step.stores.mongo.documents, LinkedTo P doc := by
  cases h with
  | resolved =>
    refine ⟨?_, hall⟩
    dsimp only [BatchPc.next]
    split_ifs <;> trivial
  | lookUp =>
    exact ⟨fun doc hmem => linkedTo_of_batchDocuments hnames (List.mem_filter.1 hmem).1, hall⟩
  | insert =>
    exact ⟨fun doc hmem => hpc doc (List.mem_cons_of_mem _ hmem),
      documents_insert_linked hall (hpc _ List.mem_cons_self)⟩
  | insertLast => exact ⟨trivial, documents_insert_linked hall (hpc _ List.mem_cons_self)⟩
  | insertThrew =>
    rename_i applied _ _
    refine ⟨trivial, ?_⟩
    cases applied with
    | true => exact documents_insert_linked hall (hpc _ List.mem_cons_self)
    | false => exact hall
  | _ => exact ⟨trivial, hall⟩

end

/-! ### Runs -/

/-- The command was refused. -/
def refused : Outcome → Bool
  | .fault false _ => true
  | _ => false

section

variable (rejects : CreateWorkItemInput → Bool)

/-- The store rejects the creation of a work item for the signal. -/
def poison (signal : IngestionSignal) : Bool := rejects (SignalDebouncer.toCreateInput signal)

/-- The batch holds a signal that is no poison. -/
def HoldsHealthy (signals : List IngestionSignal) : Prop :=
  ∃ signal ∈ signals, poison rejects signal = false

/-- The batch holds a poison signal next to another one. -/
def Mixed (signals : List IngestionSignal) : Prop :=
  HoldsHealthy rejects signals ∧ ∃ signal ∈ signals, poison rejects signal = true

instance (signals : List IngestionSignal) : Decidable (HoldsHealthy rejects signals) := by
  delta HoldsHealthy
  infer_instance

instance (signals : List IngestionSignal) : Decidable (Mixed rejects signals) := by
  delta Mixed
  infer_instance

/-- What can become of the next command of an attempt if nothing fails but the commands of
poison signals to Postgres, and each of their creations does. -/
def Attempt.mayMeet (attempt : Attempt) (outcome : Outcome) : Bool :=
  match attempt.pc with
  | .resolving resolved (.create _ _) =>
    if (attempt.signals[resolved.length]?).any (poison rejects) then refused outcome
    else outcome = .ok
  | .resolving resolved (.findActive _) | .resolving resolved (.findWinner _) =>
    outcome = .ok || (attempt.signals[resolved.length]?).any (poison rejects) && refused outcome
  | _ => outcome = .ok

end

section

variable {rejects : CreateWorkItemInput → Bool}

lemma any_poison_eq_false {signals : List IngestionSignal}
    (h : ∀ signal ∈ signals, poison rejects signal = false) (i : ℕ) :
    (signals[i]?).any (poison rejects) = false := by
  cases hsignal : signals[i]? with
  | none => rfl
  | some signal => exact h signal (List.mem_of_getElem? hsignal)

/-- Nothing fails in an attempt at a batch without poison. -/
lemma Attempt.ok_of_mayMeet {attempt : Attempt} {outcome : Outcome}
    (h : attempt.mayMeet rejects outcome = true)
    (hsignals : ∀ signal ∈ attempt.signals, poison rejects signal = false) : outcome = .ok := by
  unfold Attempt.mayMeet at h
  split at h <;> simpa [any_poison_eq_false hsignals] using h

end

namespace Pipeline

variable {worker : SignalWorker} {rejects : CreateWorkItemInput → Bool} {s s' : Pipeline}

/-- The `a`-th attempt is the last at its job. -/
def OnLast (s : Pipeline) (a : ℕ) : Prop :=
  ∃ job ∈ s.jobs, job.status = .active a ∧ ¬ job.attemptsMade + 1 < job.attempts.getD 1

instance (s : Pipeline) (a : ℕ) : Decidable (s.OnLast a) := by
  delta OnLast
  infer_instance

/-- Nothing fails but what concerns poison signals. -/
def OnlyPoisonFails (worker : SignalWorker) (rejects : CreateWorkItemInput → Bool)
    (s : Pipeline) : PipelineEvent → Prop
  | .step a io => ∀ attempt ∈ s.attempts[a]?, attempt.mayMeet rejects io.outcome = true
  | .increment _ _ io => io.outcome = .ok
  | .stall j => ∀ job ∈ s.jobs[j]?, ¬ worker.maxStalledCount < job.stalledCount + 1
  | _ => True

instance (worker : SignalWorker) (rejects : CreateWorkItemInput → Bool) (s : Pipeline)
    (e : PipelineEvent) : Decidable (OnlyPoisonFails worker rejects s e) := by
  cases e <;> simp only [OnlyPoisonFails] <;> infer_instance

/-- The last attempt at a batch that holds both kinds of signals comes to no refused command,
and the last attempt at a batch with a healthy signal to no winner of a conflict that is gone. -/
def SparesHealthy (rejects : CreateWorkItemInput → Bool) (s : Pipeline) : PipelineEvent → Prop
  | .step a io => s.OnLast a → ∀ attempt ∈ s.attempts[a]?,
      (Mixed rejects attempt.signals → io.outcome = .ok) ∧
        (HoldsHealthy rejects attempt.signals →
          ¬ WinnerGone s.stores.world.postgres attempt.signals attempt.pc)
  | _ => True

instance (rejects : CreateWorkItemInput → Bool) (s : Pipeline) (e : PipelineEvent) :
    Decidable (SparesHealthy rejects s e) := by
  cases e <;> simp only [SparesHealthy] <;> infer_instance

/-- The signal is stored, with a work item that exists. -/
def StoredAndLinked (s : Pipeline) (signal : IngestionSignal) : Prop :=
  ∃ doc ∈ s.stores.mongo.documents, doc.signalId = signal.signalId ∧
    LinkedTo (HasRow s.stores.world.postgres) doc

/-- The other signals of every finished job are stored and linked. -/
def Isolated (rejects : CreateWorkItemInput → Bool) (s : Pipeline) : Prop :=
  ∀ job ∈ s.jobs, job.status = .completed ∨ job.status = .failed →
    ∀ signal ∈ job.signals, poison rejects signal = false → s.StoredAndLinked signal

/-! ### Links -/

/-- All documents, stored or about to be, are linked to rows. -/
structure LinksInv (s : Pipeline) : Prop where
  documents : ∀ doc ∈ s.stores.mongo.documents, LinkedTo (HasRow s.stores.world.postgres) doc
  links : ∀ (a : ℕ) (attempt : Attempt), s.attempts[a]? = some attempt →
    attempt.pc.Links (HasRow s.stores.world.postgres)

lemma LinksInv.setAttempt (h : s.LinksInv)
    (hrows : ∀ w, HasRow s.stores.world.postgres w → HasRow s'.stores.world.postgres w)
    {a : ℕ} {attempt' : Attempt} (hattempts : s'.attempts = s.attempts.set a attempt')
    (hdocuments : ∀ doc ∈ s'.stores.mongo.documents,
      LinkedTo (HasRow s'.stores.world.postgres) doc)
    (hpc : attempt'.pc.Links (HasRow s'.stores.world.postgres)) : s'.LinksInv := by
  refine ⟨hdocuments, ?_⟩
  intro b old hb
  rw [hattempts] at hb
  rcases getElem?_set_cases hb with ⟨-, rfl⟩ | ⟨-, hb⟩
  · exact hpc
  · exact (h.links b old hb).imp hrows

lemma LinksInv.step (h : s.LinksInv) (hrefs : s.RefsInv) {e : PipelineEvent}
    (hstep : s.step worker e = some s') : s'.LinksInv := by
  have hrows : ∀ w, HasRow s.stores.world.postgres w → HasRow s'.stores.world.postgres w :=
    fun _ => hasRow_of_step hstep
  have hold : ∀ doc ∈ s.stores.mongo.documents, LinkedTo (HasRow s'.stores.world.postgres) doc :=
    fun doc hmem => (h.documents doc hmem).imp hrows
  cases e with
  | enqueue signals =>
    obtain rfl := step_enqueue_inv hstep
    exact ⟨h.documents, h.links⟩
  | take j =>
    obtain ⟨job, -, -, rfl⟩ := step_take_inv hstep
    refine ⟨h.documents, ?_⟩
    intro b old hb
    rcases getElem?_concat_cases hb with ⟨-, rfl⟩ | hb
    · show (BatchPc.start job.signals).Links _
      unfold BatchPc.start
      split_ifs <;> trivial
    · exact h.links b old hb
  | step a io =>
    obtain ⟨attempt, hattempt, ⟨-, rfl⟩ | ⟨e, -, rfl⟩ | ⟨step, hruns, -, rfl⟩⟩ :=
      step_step_inv hstep
    · exact h.setAttempt hrows (s.onReturn_attempts a attempt)
        (by rw [onReturn_stores]; exact h.documents) trivial
    · exact h.setAttempt hrows (s.onThrow_attempts a attempt)
        (by rw [onThrow_stores]; exact h.documents) trivial
    · obtain ⟨hpc, hdocuments⟩ := hruns.links (hrefs.resolutions a attempt hattempt)
        (h.links a attempt hattempt) h.documents
      exact h.setAttempt hrows rfl (fun doc hmem => (hdocuments doc hmem).imp hrows)
        (hpc.imp hrows)
  | increment a k io =>
    obtain ⟨attempt, increment, hattempt, -, -, rfl⟩ := step_increment_inv hstep
    exact h.setAttempt hrows rfl hold ((h.links a attempt hattempt).imp hrows)
  | crash a =>
    obtain ⟨attempt, -, -, rfl⟩ := step_crash_inv hstep
    exact h.setAttempt hrows rfl hold trivial
  | stall j =>
    obtain ⟨_, _, -, -, rfl⟩ := step_stall_inv hstep
    exact ⟨h.documents, h.links⟩
  | write write clock =>
    obtain ⟨-, -, _, -, rfl⟩ := step_write_inv hstep
    exact ⟨hold, fun b old hb => (h.links b old hb).imp hrows⟩
  | sessionLost c =>
    obtain rfl := Option.some.inj hstep
    exact ⟨h.documents, h.links⟩
  | lockLost c =>
    obtain rfl := Option.some.inj hstep
    exact ⟨h.documents, h.links⟩

/-! ### Last attempts -/

/-- Only a job that is taken comes to its last attempt. -/
lemma onLast_of_step {e : PipelineEvent} (hstep : s.step worker e = some s') {b : ℕ}
    (h : s'.OnLast b) : s.OnLast b ∨ (∃ j, e = .take j) ∧ b = s.attempts.length := by
  have hset : ∀ (j : ℕ) (new : Job), new.status ≠ .active b →
      s'.jobs = s.jobs.set j new → s.OnLast b := by
    intro j new hnew hjobs
    obtain ⟨job, hmem, hactive, hlast⟩ := h
    rw [hjobs] at hmem
    rcases List.mem_or_eq_of_mem_set hmem with hold | rfl
    · exact ⟨job, hold, hactive, hlast⟩
    · exact absurd hactive hnew
  cases e with
  | enqueue signals =>
    obtain rfl := step_enqueue_inv hstep
    obtain ⟨job, hmem, hactive, hlast⟩ := h
    rcases List.mem_append.1 hmem with hold | hnew
    · exact .inl ⟨job, hold, hactive, hlast⟩
    · rw [List.mem_singleton.1 hnew] at hactive
      cases hactive
  | take j =>
    obtain ⟨job, -, -, rfl⟩ := step_take_inv hstep
    by_cases hb : b = s.attempts.length
    · exact .inr ⟨⟨j, rfl⟩, hb⟩
    · exact .inl (hset j _ (by simpa using Ne.symm hb) rfl)
  | step a io =>
    obtain ⟨attempt, -, ⟨-, rfl⟩ | ⟨e, -, rfl⟩ | ⟨step, -, -, rfl⟩⟩ := step_step_inv hstep
    · rcases s.onReturn_cases a attempt with ⟨heq, -⟩ | ⟨job, -, -, heq⟩
      · rw [heq] at h
        exact .inl h
      · exact .inl (hset attempt.job { job with status := .completed } (by simp) (by rw [heq]))
    · rcases s.onThrow_cases a attempt with ⟨heq, -⟩ | ⟨job, -, -, heq⟩
      · rw [heq] at h
        exact .inl h
      · refine .inl (hset attempt.job job.onThrow ?_ (by rw [heq]))
        simp only [Job.onThrow]
        split_ifs <;> simp
    · exact .inl h
  | increment a k io =>
    obtain ⟨_, _, -, -, -, rfl⟩ := step_increment_inv hstep
    exact .inl h
  | crash a =>
    obtain ⟨_, -, -, rfl⟩ := step_crash_inv hstep
    exact .inl h
  | stall j =>
    obtain ⟨job, _, -, -, rfl⟩ := step_stall_inv hstep
    refine .inl (hset j (job.onStall worker.maxStalledCount) ?_ rfl)
    simp only [Job.onStall]
    split_ifs <;> simp
  | write write clock =>
    obtain ⟨-, -, _, -, rfl⟩ := step_write_inv hstep
    exact .inl h
  | sessionLost c =>
    obtain rfl := Option.some.inj hstep
    exact .inl h
  | lockLost c =>
    obtain rfl := Option.some.inj hstep
    exact .inl h

/-- Last attempts at batches with a healthy signal go without errors, so that nothing healthy
is dead-lettered. -/
structure LastInv (rejects : CreateWorkItemInput → Bool) (s : Pipeline) : Prop where
  unharmed : ∀ (a : ℕ) (attempt : Attempt), s.attempts[a]? = some attempt → s.OnLast a →
    HoldsHealthy rejects attempt.signals →
      attempt.pc.Unharmed ∧ ∀ increment ∈ attempt.increments, increment.Unharmed
  letters : ∀ letter ∈ s.deadLetters, ¬ HoldsHealthy rejects letter.signals

/-- An event that changes one attempt, and leaves it unharmed if it is a last one. -/
lemma unharmed_of_set (h : s.LastInv rejects) {a : ℕ} {old new : Attempt}
    (hold : s.attempts[a]? = some old) (honLast : ∀ b, s'.OnLast b → s.OnLast b)
    (hattempts : s'.attempts = s.attempts.set a new) (hsignals : new.signals = old.signals)
    (hunharmed : s.OnLast a → HoldsHealthy rejects old.signals →
      (old.pc.Unharmed ∧ ∀ increment ∈ old.increments, increment.Unharmed) →
        new.pc.Unharmed ∧ ∀ increment ∈ new.increments, increment.Unharmed) (b : ℕ)
    (attempt : Attempt) (hb : s'.attempts[b]? = some attempt) (hlast : s'.OnLast b)
    (hhealthy : HoldsHealthy rejects attempt.signals) :
    attempt.pc.Unharmed ∧ ∀ increment ∈ attempt.increments, increment.Unharmed := by
  rw [hattempts] at hb
  rcases getElem?_set_cases hb with ⟨rfl, rfl⟩ | ⟨-, hb⟩
  · rw [hsignals] at hhealthy
    exact hunharmed (honLast _ hlast) hhealthy (h.unharmed b old hold (honLast _ hlast) hhealthy)
  · exact h.unharmed b attempt hb (honLast b hlast) hhealthy

/-- An event that changes no attempt. -/
lemma unharmed_of_eq (h : s.LastInv rejects) (honLast : ∀ b, s'.OnLast b → s.OnLast b)
    (hattempts : s'.attempts = s.attempts) (b : ℕ) (attempt : Attempt)
    (hb : s'.attempts[b]? = some attempt) (hlast : s'.OnLast b)
    (hhealthy : HoldsHealthy rejects attempt.signals) :
    attempt.pc.Unharmed ∧ ∀ increment ∈ attempt.increments, increment.Unharmed := by
  rw [hattempts] at hb
  exact h.unharmed b attempt hb (honLast b hlast) hhealthy

/-- No command fails in a last attempt at a batch with a healthy signal. -/
lemma ok_of_healthy {a : ℕ} {attempt : Attempt} {io : Io}
    (hattempt : s.attempts[a]? = some attempt)
    (hpoison : OnlyPoisonFails worker rejects s (.step a io))
    (hspares : SparesHealthy rejects s (.step a io)) (hlast : s.OnLast a)
    (hhealthy : HoldsHealthy rejects attempt.signals) : io.outcome = .ok := by
  by_cases hmixed : Mixed rejects attempt.signals
  · exact (hspares hlast attempt hattempt).1 hmixed
  · refine Attempt.ok_of_mayMeet (hpoison attempt hattempt) ?_
    intro signal hmem
    simpa using fun hsignal => hmixed ⟨hhealthy, signal, hmem, hsignal⟩

/-- A job whose last attempt throws holds nothing but poison. -/
lemma letters_of_throw (h : s.LastInv rejects) (hlinked : s.Linked) {a : ℕ} {attempt : Attempt}
    (hattempt : s.attempts[a]? = some attempt) {e : Thrown} (hpc : attempt.pc = .threw e)
    {job : Job} (hjob : s.jobs[attempt.job]? = some job) (hactive : job.status = .active a) :
    ∀ letter ∈ onFailed attempt.job job.onThrow, ¬ HoldsHealthy rejects letter.signals := by
  intro letter hletter hhealthy
  obtain ⟨_, hjob', hsignals⟩ := hlinked a attempt hattempt
  obtain rfl := Option.some.inj (hjob'.symm.trans hjob)
  unfold onFailed at hletter
  split_ifs at hletter with hmore
  · cases hletter
  · obtain rfl := List.mem_singleton.1 hletter
    have hthrew := (h.unharmed a attempt hattempt
      ⟨_, List.mem_of_getElem? hjob, hactive, hmore⟩ (hsignals ▸ hhealthy)).1
    rw [hpc] at hthrew
    exact hthrew

lemma LastInv.step (hd : worker.debouncer.RecognisesConflict) (h : s.LastInv rejects)
    (hrefs : s.RefsInv) (hlinked : s.Linked) {e : PipelineEvent}
    (hpoison : OnlyPoisonFails worker rejects s e) (hspares : SparesHealthy rejects s e)
    (hstep : s.step worker e = some s') : s'.LastInv rejects := by
  have honLast : ∀ b, s'.OnLast b → s.OnLast b ∨ (∃ j, e = .take j) ∧ b = s.attempts.length :=
    fun b => onLast_of_step hstep
  have hkept : (∀ j, e ≠ .take j) → ∀ b, s'.OnLast b → s.OnLast b := by
    intro hne b hlast
    exact (honLast b hlast).resolve_right fun ⟨⟨j, he⟩, _⟩ => hne j he
  cases e with
  | enqueue signals =>
    have hkept := hkept (by simp)
    obtain rfl := step_enqueue_inv hstep
    exact ⟨unharmed_of_eq h hkept rfl, h.letters⟩
  | take j =>
    obtain ⟨job, -, -, rfl⟩ := step_take_inv hstep
    refine ⟨?_, h.letters⟩
    intro b attempt hb hlast hhealthy
    rcases getElem?_concat_cases hb with ⟨-, rfl⟩ | hb
    · refine ⟨?_, List.forall_mem_nil _⟩
      show (BatchPc.start job.signals).Unharmed
      unfold BatchPc.start
      split_ifs <;> trivial
    · obtain ⟨hlt, -⟩ := exists_lt_of_getElem? hb
      have hold := (honLast b hlast).resolve_right fun hnew => absurd hnew.2 hlt.ne
      exact h.unharmed b attempt hb hold hhealthy
  | step a io =>
    have hkept := hkept (by simp)
    obtain ⟨attempt, hattempt, ⟨hpc, rfl⟩ | ⟨e, hpc, rfl⟩ | ⟨step, hruns, hfresh, rfl⟩⟩ :=
      step_step_inv hstep
    · refine ⟨unharmed_of_set h hattempt hkept (s.onReturn_attempts a attempt) rfl
        fun _ _ hold => ⟨trivial, hold.2⟩, ?_⟩
      rcases s.onReturn_cases a attempt with ⟨heq, -⟩ | ⟨_, -, -, heq⟩ <;> rw [heq] <;>
        exact h.letters
    · refine ⟨unharmed_of_set h hattempt hkept (s.onThrow_attempts a attempt) rfl
        fun _ _ hold => ⟨trivial, hold.2⟩, ?_⟩
      rcases s.onThrow_cases a attempt with ⟨heq, -⟩ | ⟨job, hjob, hactive, heq⟩
      · rw [heq]
        exact h.letters
      · rw [heq]
        exact List.forall_mem_append.2
          ⟨h.letters, letters_of_throw h hlinked hattempt hpc hjob hactive⟩
    · refine ⟨unharmed_of_set h hattempt hkept rfl rfl ?_, h.letters⟩
      intro hlast hhealthy hold
      exact hruns.unharmed hd (ok_of_healthy hattempt hpoison hspares hlast hhealthy) hfresh
        hold.1 hold.2 ((hspares hlast attempt hattempt).2 hhealthy)
  | increment a k io =>
    have hkept := hkept (by simp)
    obtain ⟨attempt, increment, hattempt, hk, -, rfl⟩ := step_increment_inv hstep
    refine ⟨unharmed_of_set h hattempt hkept rfl rfl ?_, h.letters⟩
    intro _ _ hold
    refine ⟨hold.1, fun other hmem => ?_⟩
    rcases List.mem_or_eq_of_mem_set hmem with hmem | rfl
    · exact hold.2 other hmem
    · exact incrementStep_unharmed hpoison
        (hrefs.increments a attempt hattempt increment (List.mem_of_getElem? hk))
  | crash a =>
    have hkept := hkept (by simp)
    obtain ⟨attempt, hattempt, -, rfl⟩ := step_crash_inv hstep
    exact ⟨unharmed_of_set h hattempt hkept rfl rfl
      fun _ _ _ => ⟨trivial, List.forall_mem_nil _⟩, h.letters⟩
  | stall j =>
    have hkept := hkept (by simp)
    obtain ⟨job, _, hjob, -, rfl⟩ := step_stall_inv hstep
    refine ⟨unharmed_of_eq h hkept rfl, ?_⟩
    have hlimit := hpoison job hjob
    simpa [Job.onStall, hlimit] using h.letters
  | write write clock =>
    have hkept := hkept (by simp)
    obtain ⟨-, -, _, -, rfl⟩ := step_write_inv hstep
    exact ⟨unharmed_of_eq h hkept rfl, h.letters⟩
  | sessionLost c =>
    have hkept := hkept (by simp)
    obtain rfl := Option.some.inj hstep
    exact ⟨unharmed_of_eq h hkept rfl, h.letters⟩
  | lockLost c =>
    have hkept := hkept (by simp)
    obtain rfl := Option.some.inj hstep
    exact ⟨unharmed_of_eq h hkept rfl, h.letters⟩

/-! ### The fate of the batch -/

lemma OnlyPoisonFails.stallsKeep {e : PipelineEvent}
    (h : OnlyPoisonFails worker rejects s e) : StallsKeep worker s e := by
  cases e with
  | stall j => exact fun job hjob hlimit => absurd hlimit (h job hjob)
  | _ => trivial

/-- What holds of the runs in which healthy signals are spared. -/
structure IsolationInv (rejects : CreateWorkItemInput → Bool) (s : Pipeline) : Prop where
  refs : s.RefsInv
  safe : s.SafeInv
  links : s.LinksInv
  last : s.LastInv rejects

lemma isolationInv_empty : empty.IsolationInv rejects := by
  refine ⟨⟨?_, ?_, ?_⟩, ⟨?_, ?_, ?_⟩, ⟨?_, ?_⟩, ⟨?_, List.forall_mem_nil _⟩⟩
  · intro c w hw
    cases hw
  all_goals simp [empty, Linked, NothingVanished, Mongo.empty]

lemma IsolationInv.isolated (h : s.IsolationInv rejects) : s.Isolated rejects := by
  intro job hjob hstatus signal hsignal hhealthy
  rcases h.safe.kept job hjob hstatus signal hsignal with hhas | ⟨letter, hletter, hmem⟩
  · obtain ⟨doc, hdoc, hid⟩ := List.mem_map.1 hhas
    exact ⟨doc, hdoc, hid, h.links.documents doc hdoc⟩
  · exact absurd ⟨signal, hmem, hhealthy⟩ (h.last.letters letter hletter)

/-- If no command is refused on the last attempt at a batch that holds both kinds of signals,
all the healthy signals of every finished job are stored and linked to a work item, whatever
becomes of the poison. -/
theorem isolated_of_spared (hd : worker.debouncer.RecognisesConflict)
    {es : List PipelineEvent}
    (hmeets : (lts worker).Meets
      (fun s e => OnlyPoisonFails worker rejects s e ∧ SparesHealthy rejects s e) empty es)
    (hrun : (lts worker).run empty es = some s) : s.Isolated rejects := by
  have hinv : s.IsolationInv rejects := by
    refine Lts.run_invariant_of_meets (I := IsolationInv rejects) ?_ hrun hmeets
      isolationInv_empty
    rintro s e s' hinv ⟨hpoison, hspares⟩ hstep
    exact ⟨hinv.refs.step hstep, hinv.safe.step hpoison.stallsKeep hstep,
      hinv.links.step hinv.refs hstep,
      hinv.last.step hd hinv.refs hinv.safe.linked hpoison hspares hstep⟩
  exact hinv.isolated

/-- The component id holds a character that Postgres does not take. -/
def holdsNul (input : CreateWorkItemInput) : Bool :=
  input.componentId.toList.contains (Char.ofNat 0)

/-- An attempt at the first job, whose first signal is refused. -/
def refusedAttempt (a : ℕ) : List PipelineEvent :=
  .take 0 :: List.replicate 4 (.step a ⟨.ok, "w", 5⟩) ++
    .step a ⟨.fault false (.prisma (.other "PrismaClientUnknownRequestError")), "w", 5⟩ ::
    List.replicate 3 (.step a ⟨.ok, "w", 5⟩)

/-- A batch of poison only, all its attempts, and a batch without poison. -/
def unmixedEvents : List PipelineEvent :=
  .enqueue [cacheSignal "p" "c\x00" .P1, cacheSignal "q" "d\x00" .P1] ::
    .enqueue [cacheSignal "a" "db" .P1, cacheSignal "b" "db" .P1] ::
    (List.range 5).flatMap refusedAttempt ++ .take 1 ::
    List.replicate 5 (.step 5 ⟨.ok, "w", 5⟩) ++ List.replicate 12 (.step 5 ⟨.ok, "v", 5⟩) ++
    .increment 5 0 ⟨.ok, "v", 5⟩ :: List.replicate 5 (.step 5 ⟨.ok, "v", 5⟩)

/-- The poison of the first batch is not stored, and the signals of the second one are. -/
theorem isolated_of_unmixedEvents : ∃ s,
    (lts .standard).run empty unmixedEvents = some s ∧ s.Isolated holdsNul ∧
      s.jobs.map (fun job => (job.status, job.signals.map (poison holdsNul)))
        = [(.failed, [true, true]), (.completed, [false, false])] ∧
      s.stores.mongo.documents.map (·.signalId) = ["a", "b"] := by
  have hobserved : ((lts .standard).run empty unmixedEvents).map (fun s =>
      (s.jobs.map (fun job => (job.status, job.signals.map (poison holdsNul))),
        s.stores.mongo.documents.map (·.signalId)))
        = some ([(.failed, [true, true]), (.completed, [false, false])], ["a", "b"]) := by
    decide +kernel
  have hmeets : (lts .standard).Meets (fun s e => OnlyPoisonFails .standard holdsNul s e ∧
      SparesHealthy holdsNul s e) empty unmixedEvents := by
    decide +kernel
  obtain ⟨s, hrun, hs⟩ := Option.map_eq_some_iff.1 hobserved
  obtain ⟨hjobs, hdocuments⟩ := Prod.mk.inj hs
  refine ⟨s, hrun, isolated_of_spared ?_ hmeets hrun, hjobs, hdocuments⟩
  show SignalDebouncer.isConflictError _ _ = true
  decide +kernel

/-- A batch of a poison signal and another one, and all its attempts. -/
def poisonEvents : List PipelineEvent :=
  .enqueue [cacheSignal "p" "c\x00" .P1, cacheSignal "a" "db" .P1] ::
    (List.range 5).flatMap refusedAttempt

/-- The other signal of a batch with a poison signal is lost behind it. -/
theorem signal_lost_behind_poison : ¬ ∀ (rejects : CreateWorkItemInput → Bool) es s,
    (lts .standard).Meets (OnlyPoisonFails .standard rejects) empty es →
      (lts .standard).run empty es = some s → s.Isolated rejects := by
  intro hclaim
  have hobserved : ((lts .standard).run empty poisonEvents).map (fun s =>
      (s.jobs.map fun job => (job.status, job.signals.map fun signal =>
        (signal.signalId, poison holdsNul signal)), s.stores.mongo.documents.length))
        = some ([(.failed, [("p", true), ("a", false)])], 0) := by
    decide +kernel
  have hmeets : (lts .standard).Meets (OnlyPoisonFails .standard holdsNul) empty
      poisonEvents := by
    decide +kernel
  obtain ⟨s, hrun, hs⟩ := Option.map_eq_some_iff.1 hobserved
  simp only [Prod.mk.injEq, List.length_eq_zero_iff, List.map_eq_cons_iff] at hs
  obtain ⟨⟨job, _, hjobs, ⟨hstatus, _, _, hsignals, -, signal, _, hrest, ⟨-, hpoison⟩, -⟩, -⟩,
    hdocuments⟩ := hs
  have hmem : signal ∈ job.signals := by
    rw [hsignals, hrest]
    simp
  obtain ⟨doc, hdoc, -⟩ := hclaim holdsNul _ s hmeets hrun job (hjobs ▸ List.mem_cons_self)
    (.inr hstatus) signal hmem hpoison
  rw [hdocuments] at hdoc
  cases hdoc

end Pipeline

end InveniOps.Workers
