import Mathlib.Data.List.Count
import InveniOps.Workers.WorkItemRefs

/-!
# Signal counts against the signal store

The documents of a work item are those its row counts and those that an attempt
has inserted and is still to count.  The worker keeps this equation unless a batch
contains a new signal id twice, an attempt ends between its inserts and its
increments, or an increment is retried although it was carried out.
-/

namespace InveniOps.Workers

open Lib Stores Ingestion

/-- Whether the increment is under way. -/
def Increment.isPending (increment : Increment) : Bool :=
  match increment.state with
  | .pending => true
  | _ => false

/-- What a call of `incrementSignalCount` is still to add to a work item. -/
def Increment.owed (w : WorkItemId) (increment : Increment) : ℕ :=
  if increment.isPending ∧ increment.workItemId = w then increment.amount else 0

/-- The inserted documents of a run of `processBatch` that has not turned to its
increments yet. -/
def BatchPc.inserted : BatchPc → List SignalDocument
  | .inserting _ attempted _ => insertedDocuments attempted
  | _ => []

/-- The documents of a work item that a run has inserted and is still to count. -/
def BatchPc.owed (w : WorkItemId) (pc : BatchPc) (increments : List Increment) : ℕ :=
  pc.inserted.countP (·.workItemId = some w) + (increments.map (·.owed w)).sum

namespace Attempt

/-- The documents of a work item that the attempt has inserted and is still to count. -/
def owed (w : WorkItemId) (attempt : Attempt) : ℕ := attempt.pc.owed w attempt.increments

/-- The attempt is still to count something. -/
def isOwing (attempt : Attempt) : Bool :=
  !attempt.pc.inserted.isEmpty || attempt.increments.any (·.isPending)

end Attempt

/-- Excluded: the next document is new and its id occurs twice in the batch, or the
bulk insert fails behind a document that it inserted. -/
def BatchPc.InsertsSafely (signals : List IngestionSignal) (mongo : Mongo) (outcome : Outcome) :
    BatchPc → Prop
  | .inserting _ attempted (doc :: _) =>
    match outcome with
    | .ok => mongo.Has doc.signalId ∨ (signals.map (·.signalId)).count doc.signalId = 1
    | .fault applied _ =>
      (insertedDocuments attempted).isEmpty = true ∧ (applied = true → mongo.Has doc.signalId)
  | _ => True

instance (signals : List IngestionSignal) (mongo : Mongo) (outcome : Outcome) (pc : BatchPc) :
    Decidable (pc.InsertsSafely signals mongo outcome) :=
  match pc, outcome with
  | .inserting _ _ (_ :: _), .ok | .inserting _ _ (_ :: _), .fault _ _ | .inserting _ _ [], _
  | .resolving _ _, _ | .lookUp _, _ | .incrementing _, _ | .upserting _ _, _
  | .announcing _ _, _ | .recording, _ | .returned, _ | .threw _, _ | .settled, _
  | .crashed, _ => by
    delta BatchPc.InsertsSafely
    infer_instance

/-- An error reported for an increment is retried if and only if the increment
was not carried out. -/
def Increment.ReportsTruly (outcome : Outcome) (increment : Increment) : Prop :=
  match outcome with
  | .ok => True
  | .fault applied e =>
    (shouldRetry (.store e) = true ∧ increment.attempt ≠ ATTEMPTS) ↔ applied = false

instance (outcome : Outcome) (increment : Increment) :
    Decidable (increment.ReportsTruly outcome) :=
  match outcome with
  | .ok | .fault _ _ => by
    delta Increment.ReportsTruly
    infer_instance

section

variable {d : SignalDebouncer} {signals : List IngestionSignal} {increments : List Increment}
  {io : Io} {st : BatchStores}

/-! ### One step of a batch -/

/-- The attempted and the remaining documents are documents of the batch in its
order; the ids of the inserted ones occur once in it. -/
structure Inserting (signals : List IngestionSignal) (resolutions : List DebounceResult)
    (attempted : List (SignalDocument × Bool)) (rest : List SignalDocument) : Prop where
  documents : (attempted.map (·.1) ++ rest).Sublist (batchDocuments signals resolutions)
  once : ∀ doc ∈ insertedDocuments attempted, (signals.map (·.signalId)).count doc.signalId = 1

/-- The accounts of a run of `processBatch`: no increment before its inserts are done. -/
def BatchPc.Accounted (signals : List IngestionSignal) (increments : List Increment) :
    BatchPc → Prop
  | .resolving resolved _ => resolved.length < signals.length ∧ increments = []
  | .lookUp resolutions => resolutions.length = signals.length ∧ increments = []
  | .inserting resolutions attempted rest =>
    resolutions.length = signals.length ∧ increments = [] ∧
      Inserting signals resolutions attempted rest
  | _ => True

lemma BatchPc.accounted_start : (BatchPc.start signals).Accounted signals [] := by
  unfold BatchPc.start
  split_ifs with hnil
  · trivial
  · exact ⟨Nat.pos_of_ne_zero hnil, rfl⟩

/-- An increment runs only behind the inserts. -/
lemma BatchPc.Accounted.set {pc : BatchPc} (h : pc.Accounted signals increments) {k : ℕ}
    {old : Increment} (hk : increments[k]? = some old) (new : Increment) :
    pc.Accounted signals (increments.set k new) := by
  have hne : increments ≠ [] := fun hnil => by simp [hnil] at hk
  cases pc with
  | resolving resolved pc => exact absurd h.2 hne
  | lookUp resolutions => exact absurd h.2 hne
  | inserting resolutions attempted rest => exact absurd h.2.1 hne
  | _ => trivial

lemma Inserting.concat {resolutions : List DebounceResult}
    {attempted : List (SignalDocument × Bool)} {doc : SignalDocument} {rest : List SignalDocument}
    {flag : Bool} (h : Inserting signals resolutions attempted (doc :: rest))
    (hone : flag = true → (signals.map (·.signalId)).count doc.signalId = 1) :
    Inserting signals resolutions (attempted ++ [(doc, flag)]) rest := by
  refine ⟨by simpa using h.documents, ?_⟩
  intro x hx
  rw [insertedDocuments_concat] at hx
  rcases List.mem_append.1 hx with hold | hnew
  · exact h.once x hold
  · cases flag with
    | true => exact List.mem_singleton.1 hnew ▸ hone rfl
    | false => cases hnew

/-- The increments add up to the inserted documents of their work item. -/
lemma owed_startIncrements (w : WorkItemId) (resolutions : List DebounceResult)
    (insertedSignalIds : List SignalId) :
    ((startIncrements signals resolutions insertedSignalIds).map (·.owed w)).sum
      = (insertedWorkItemIds signals resolutions insertedSignalIds).count w := by
  rw [← totalOf_incrementsByWorkItemId, totalOf, startIncrements, List.map_map]
  congr 1
  refine List.map_congr_left ?_
  intro entry _
  simp [Increment.owed, Increment.isPending]

lemma Inserting.owed_startIncrements {resolutions : List DebounceResult}
    {attempted : List (SignalDocument × Bool)} {rest : List SignalDocument}
    (h : Inserting signals resolutions attempted rest)
    (hlength : resolutions.length = signals.length) (w : WorkItemId) :
    ((startIncrements signals resolutions (reportedIds attempted)).map (·.owed w)).sum
      = (insertedDocuments attempted).countP (·.workItemId = some w) := by
  have hreported : reportedIds attempted = (insertedDocuments attempted).map (·.signalId) := by
    simp [reportedIds, insertedDocuments]
  -- inserted documents are documents of the batch, in its order and each once
  have hsub : (insertedDocuments attempted).Sublist (batchDocuments signals resolutions) :=
    ((List.filter_sublist.map _).trans (List.sublist_append_left _ rest)).trans h.documents
  have hfilter := filter_eq_of_sublist (fun doc : SignalDocument => doc.signalId) hsub
    (by simpa only [map_signalId_batchDocuments hlength] using h.once)
  have hcount : ∀ ws : List WorkItemId, ws.count w = (ws.map some).count (some w) := fun ws =>
    (List.count_map_of_injective ws some (Option.some_injective _) w).symm
  rw [Workers.owed_startIncrements, hcount, insertedWorkItemIds_eq, hreported, hfilter,
    List.count, List.countP_map]
  exact List.countP_congr fun doc _ => by simp

/-- What a step of `processBatch` inserts it owes, and what it owed it still owes. -/
structure BatchStep.Balanced (st : BatchStores) (owed : WorkItemId → ℕ) (step : BatchStep) :
    Prop where
  counts : ∀ w, step.stores.world.postgres.signalCountOf w = st.world.postgres.signalCountOf w
  documents : ∀ w, step.stores.mongo.countByWorkItemId w + owed w
    = st.mongo.countByWorkItemId w + step.pc.owed w step.increments

/-- A created row counts no signal. -/
lemma signalCountOf_resolveStep {signal : IngestionSignal} {world : World} (pc : ResolvePc)
    (w : WorkItemId) : (d.resolveStep signal io world pc).1.postgres.signalCountOf w
      = world.postgres.signalCountOf w := by
  rcases SignalDebouncer.resolveStep_postgres pc with hsame | ⟨_, _, r, -, hcreate⟩
  · rw [hsame]
  · obtain ⟨rfl, hfresh, -, hrows⟩ := Postgres.createWorkItem_ok hcreate
    rw [Postgres.signalCountOf, hrows]
    split_ifs with hw
    · subst hw
      rw [Postgres.signalCountOf, hfresh]
      rfl
    · rfl

/-- A step of `processBatch` owes what it inserts and counts nothing. -/
lemma BatchRuns.balanced {pc : BatchPc} {step : BatchStep}
    (h : BatchRuns d signals increments io st pc step) (hpc : pc.Accounted signals increments)
    (hsafe : pc.InsertsSafely signals st.mongo io.outcome) :
    step.Balanced st fun w => pc.owed w increments := by
  cases h with
  | resolve hsignal hdone => exact ⟨signalCountOf_resolveStep _, fun _ => rfl⟩
  | resolved =>
    refine ⟨fun _ => rfl, ?_⟩
    intro w
    dsimp only [BatchPc.next]
    split_ifs <;> rfl
  | lookUpNone houtcome hnew =>
    obtain ⟨-, rfl⟩ := hpc
    refine ⟨fun _ => rfl, ?_⟩
    intro w
    simp [BatchPc.owed, BatchPc.inserted, owed_startIncrements, insertedWorkItemIds]
  | insertThrew houtcome =>
    rename_i resolutions attempted doc rest applied e
    obtain ⟨-, rfl, -⟩ := hpc
    rw [houtcome] at hsafe
    -- a reply that is lost loses nothing: no document was new
    obtain ⟨hnone, hhas⟩ := hsafe
    have hmongo : faultyInsert st.mongo doc applied = st.mongo := by
      unfold faultyInsert
      split_ifs with happlied
      · rw [Mongo.insert_of_has (hhas happlied)]
      · rfl
    refine ⟨fun _ => rfl, ?_⟩
    intro w
    simp [BatchPc.owed, BatchPc.inserted, hmongo, List.isEmpty_iff.1 hnone]
  | insert houtcome hrest =>
    refine ⟨fun _ => rfl, ?_⟩
    intro w
    simp only [BatchPc.owed, BatchPc.inserted, insertedDocuments_concat,
      Mongo.countByWorkItemId_insert, List.countP_append]
    split_ifs <;> simp_all
    all_goals omega
  | insertLast houtcome =>
    rename_i resolutions attempted doc
    obtain ⟨hlength, rfl, hinserting⟩ := hpc
    rw [houtcome] at hsafe
    -- what is owed from here on are the increments that start now
    have hnext := hinserting.concat fun hflag => hsafe.resolve_left (Mongo.insert_snd.1 hflag)
    refine ⟨fun _ => rfl, ?_⟩
    intro w
    simp only [BatchPc.owed, BatchPc.inserted, hnext.owed_startIncrements hlength,
      insertedDocuments_concat, Mongo.countByWorkItemId_insert, List.countP_append]
    split_ifs <;> simp_all
    all_goals omega
  | _ => exact ⟨fun _ => rfl, fun _ => rfl⟩

lemma BatchRuns.accounted {pc : BatchPc} {step : BatchStep}
    (h : BatchRuns d signals increments io st pc step) (hpc : pc.Accounted signals increments)
    (hsafe : pc.InsertsSafely signals st.mongo io.outcome) :
    step.pc.Accounted signals step.increments := by
  cases h with
  | resolve => exact hpc
  | resolved =>
    rename_i resolved result
    obtain ⟨hlt, hnone⟩ := hpc
    have hlength : (resolved ++ [result]).length = resolved.length + 1 := by simp
    dsimp only [BatchPc.next]
    split_ifs with hmore
    · exact ⟨hmore, hnone⟩
    · exact ⟨le_antisymm (by omega) (not_lt.1 hmore), hnone⟩
  | lookUp houtcome hnew =>
    refine ⟨hpc.1, hpc.2, ?_, fun doc hmem => (nomatch hmem)⟩
    exact List.filter_sublist
  | insert houtcome hrest =>
    obtain ⟨hlength, hnone, hinserting⟩ := hpc
    rw [houtcome] at hsafe
    exact ⟨hlength, hnone,
      hinserting.concat fun hflag => hsafe.resolve_left (Mongo.insert_snd.1 hflag)⟩
  | _ => trivial

/-! ### One step of an increment -/

/-- What an increment adds to a row it owed before and owes no more. -/
lemma incrementStep_balanced {increment : Increment} (hpending : increment.state = .pending)
    (hrow : HasRow st.world.postgres increment.workItemId)
    (htruly : increment.ReportsTruly io.outcome) (w : WorkItemId) :
    (incrementStep d io st increment).1.world.postgres.signalCountOf w
        + (incrementStep d io st increment).2.owed w
      = st.world.postgres.signalCountOf w + increment.owed w := by
  obtain ⟨r, hr⟩ := hrow
  obtain ⟨r', pg', hcommand⟩ :=
    Postgres.incrementSignalCount_total d.workItemStore hr increment.amount io.now
  -- carried out, the increment adds its amount
  have hadded : pg'.signalCountOf w = st.world.postgres.signalCountOf w + increment.owed w := by
    obtain ⟨r₀, hr₀, rfl, hrows, -⟩ := Postgres.incrementSignalCount_ok hcommand
    rw [Postgres.signalCountOf, Postgres.signalCountOf, hrows]
    by_cases hw : w = increment.workItemId
    · subst hw
      simp [hr₀, Increment.owed, Increment.isPending, hpending, Postgres.incremented]
    · simp [hw, Increment.owed, Ne.symm hw]
  have howes : ∀ e : IncrementState, e ≠ .pending →
      Increment.owed w { increment with state := e } = 0 := by
    intro e he
    cases e with
    | pending => exact absurd rfl he
    | fulfilled => simp [Increment.owed, Increment.isPending]
    | rejected e => simp [Increment.owed, Increment.isPending]
  cases houtcome : io.outcome with
  | ok =>
    simp only [incrementStep, houtcome, perform_ok_of hcommand, withPostgresRetry_ok, hadded]
    rw [howes .fulfilled (by simp)]
    rfl
  | fault applied e =>
    rw [houtcome] at htruly
    simp only [incrementStep, houtcome, perform_fault_of hcommand, withPostgresRetry]
    cases applied with
    | true =>
      have hthrown : (!shouldRetry (.store e) || increment.attempt == ATTEMPTS) = true := by
        have hnot := mt htruly.1 (by simp)
        simp only [Bool.or_eq_true, Bool.not_eq_true', beq_iff_eq]
        by_contra hneither
        push Not at hneither
        exact hnot ⟨by simpa using hneither.1, hneither.2⟩
      simp only [hthrown, if_true, hadded]
      rw [howes (.rejected (.store e)) (by simp)]
      rfl
    | false =>
      obtain ⟨hretry, hattempt⟩ := htruly.2 rfl
      simp only [hretry, Bool.not_true, Bool.false_or, beq_iff_eq, hattempt, if_false,
        Bool.false_eq_true]
      rfl

end

lemma BatchPc.owed_start (w : WorkItemId) (signals : List IngestionSignal) :
    (BatchPc.start signals).owed w [] = 0 := by
  unfold BatchPc.start
  split_ifs <;> rfl

lemma Attempt.owed_eq_zero {attempt : Attempt} (h : attempt.isOwing = false) (w : WorkItemId) :
    attempt.owed w = 0 := by
  simp only [isOwing, Bool.or_eq_false_iff, Bool.not_eq_false', List.isEmpty_iff,
    List.any_eq_false, Bool.not_eq_true] at h
  have hincrements : attempt.increments.map (·.owed w) = attempt.increments.map fun _ => 0 :=
    List.map_congr_left fun increment hmem => by simp [Increment.owed, h.2 increment hmem]
  simp [owed, BatchPc.owed, h.1, hincrements]

/-- A write that counts no signals leaves every count. -/
lemma signalCountOf_of_command {prisma : PrismaClient} {write : PostgresWrite} {clock : Instant}
    {pg pg' : Postgres} (h : write.command prisma clock pg = .ok ((), pg'))
    (hcounts : write.counts = false) (w : WorkItemId) :
    pg'.signalCountOf w = pg.signalCountOf w := by
  rcases PostgresWrite.row_of_command h w with ⟨hnone, hnone'⟩ | ⟨r, r', hr, hr', hkeeps⟩
  · rw [Postgres.signalCountOf, Postgres.signalCountOf, hnone, hnone']
  · simp [Postgres.signalCountOf, hr, hr', hkeeps.signalCount hcounts]

/-! ### Runs -/

namespace Pipeline

variable {worker : SignalWorker} {s₀ s s' : Pipeline}

/-- The documents of a work item that are inserted and still to be counted. -/
def owed (s : Pipeline) (w : WorkItemId) : ℕ := (s.attempts.map (·.owed w)).sum

/-- Every job has succeeded and no attempt is running on. -/
def Succeeded (s : Pipeline) : Prop :=
  (∀ job ∈ s.jobs, job.status = .completed) ∧
    ∀ attempt ∈ s.attempts, attempt.pc.isOver = true ∧ attempt.isOwing = false

/-- Once every job has succeeded, each row counts its documents. -/
def CountsAgree (s : Pipeline) : Prop :=
  s.Succeeded → ∀ w r, s.stores.world.postgres.row w = some r →
    r.signalCount = s.stores.mongo.countByWorkItemId w

/-- No batch inserts a document for an id that it contains twice, no bulk insert
fails and no process dies with documents inserted and not counted, and an error
reported for an increment is retried exactly when the increment was not carried out. -/
def CountsSafely (s : Pipeline) : PipelineEvent → Prop
  | .step a io => ∀ attempt ∈ s.attempts[a]?,
    attempt.pc.InsertsSafely attempt.signals s.stores.mongo io.outcome
  | .increment a k io => ∀ attempt ∈ s.attempts[a]?, ∀ increment ∈ attempt.increments[k]?,
    increment.ReportsTruly io.outcome
  | .crash a => ∀ attempt ∈ s.attempts[a]?, attempt.isOwing = false
  | _ => True

instance (s : Pipeline) (e : PipelineEvent) : Decidable (CountsSafely s e) :=
  match e with
  | .enqueue _ | .take _ | .step _ _ | .increment _ _ _ | .crash _ | .stall _ | .write _ _
  | .sessionLost _ | .lockLost _ => by
    delta CountsSafely
    infer_instance

/-- What every step keeps: an item's documents are its count and what is still owed to it. -/
structure CountInv (s : Pipeline) : Prop where
  refs : s.RefsInv
  accounted : ∀ (a : ℕ) (attempt : Attempt), s.attempts[a]? = some attempt →
    attempt.pc.Accounted attempt.signals attempt.increments
  balanced : ∀ w, s.stores.mongo.countByWorkItemId w
    = s.stores.world.postgres.signalCountOf w + s.owed w

/-- An event that changes one attempt keeps the invariant if it keeps the accounts
of that attempt. -/
lemma CountInv.setAttempt (h : s.CountInv) (hrefs : s'.RefsInv) {a : ℕ}
    {attempt attempt' : Attempt} (hattempt : s.attempts[a]? = some attempt)
    (hattempts : s'.attempts = s.attempts.set a attempt')
    (haccounted : attempt'.pc.Accounted attempt'.signals attempt'.increments)
    (hbalanced : ∀ w, s'.stores.mongo.countByWorkItemId w
        + s.stores.world.postgres.signalCountOf w + attempt.owed w
      = s.stores.mongo.countByWorkItemId w
        + s'.stores.world.postgres.signalCountOf w + attempt'.owed w) : s'.CountInv := by
  refine ⟨hrefs, ?_, ?_⟩
  · intro b old hb
    rw [hattempts] at hb
    rcases getElem?_set_cases hb with ⟨-, rfl⟩ | ⟨-, hb⟩
    · exact haccounted
    · exact h.accounted b old hb
  · intro w
    have hsum := sum_map_set hattempt attempt' (·.owed w)
    have hold := h.balanced w
    have hnew := hbalanced w
    simp only [owed, hattempts] at hold ⊢
    omega

/-- Every event that meets the condition keeps the invariant. -/
lemma CountInv.step (h : s.CountInv) {e : PipelineEvent} (he : CountsSafely s e)
    (hstep : s.step worker e = some s') : s'.CountInv := by
  have hrefs := h.refs.step hstep
  cases e with
  | enqueue signals =>
    obtain rfl := step_enqueue_inv hstep
    exact ⟨hrefs, h.accounted, h.balanced⟩
  | take j =>
    obtain ⟨job, -, -, rfl⟩ := step_take_inv hstep
    refine ⟨hrefs, ?_, ?_⟩
    · intro b old hb
      rcases getElem?_concat_cases hb with ⟨-, rfl⟩ | hb
      · exact BatchPc.accounted_start
      · exact h.accounted b old hb
    · intro w
      have hold := h.balanced w
      simp only [owed, List.map_append, List.sum_append, List.map_cons, List.map_nil,
        List.sum_singleton, Attempt.owed, BatchPc.owed_start] at hold ⊢
      exact hold
  | step a io =>
    obtain ⟨attempt, hattempt, ⟨hpc, rfl⟩ | ⟨e, hpc, rfl⟩ | ⟨step, hruns, -, rfl⟩⟩ :=
      step_step_inv hstep
    · refine h.setAttempt hrefs hattempt (s.onReturn_attempts a attempt) trivial ?_
      intro w
      rw [onReturn_stores, Attempt.owed, hpc]
      rfl
    · refine h.setAttempt hrefs hattempt (s.onThrow_attempts a attempt) trivial ?_
      intro w
      rw [onThrow_stores, Attempt.owed, hpc]
      rfl
    · have haccounted := h.accounted a attempt hattempt
      have hbalanced := hruns.balanced haccounted (he attempt hattempt)
      refine h.setAttempt hrefs hattempt rfl (hruns.accounted haccounted (he attempt hattempt)) ?_
      intro w
      have hcounts := hbalanced.counts w
      have hdocuments := hbalanced.documents w
      simp only [Attempt.owed, onStep] at hdocuments ⊢
      omega
  | increment a k io =>
    obtain ⟨attempt, increment, hattempt, hk, hpending, rfl⟩ := step_increment_inv hstep
    have hincrement := @incrementStep_balanced worker.debouncer io s.stores increment hpending
      (h.refs.increments a attempt hattempt increment (List.mem_of_getElem? hk))
      (he attempt hattempt increment hk)
    refine h.setAttempt hrefs hattempt rfl ((h.accounted a attempt hattempt).set hk _) ?_
    intro w
    have hsum := sum_map_set hk
      (incrementStep worker.debouncer io s.stores increment).2 (·.owed w)
    -- the increment takes from what is owed what it adds to the row
    have hmove := hincrement w
    have hmongo : (incrementStep worker.debouncer io s.stores increment).1.mongo
        = s.stores.mongo := rfl
    simp only [Attempt.owed, BatchPc.owed, onIncrement, hmongo]
    omega
  | crash a =>
    obtain ⟨attempt, hattempt, -, rfl⟩ := step_crash_inv hstep
    refine h.setAttempt hrefs hattempt rfl trivial ?_
    intro w
    -- a process that dies owes nothing: here the condition is needed
    rw [Attempt.owed_eq_zero (he attempt hattempt)]
    rfl
  | stall j =>
    obtain ⟨_, _, -, -, rfl⟩ := step_stall_inv hstep
    exact ⟨hrefs, h.accounted, h.balanced⟩
  | write write clock =>
    obtain ⟨hcounts, -, postgres, hcommand, rfl⟩ := step_write_inv hstep
    refine ⟨hrefs, h.accounted, ?_⟩
    intro w
    rw [signalCountOf_of_command hcommand hcounts]
    exact h.balanced w
  | sessionLost c =>
    obtain rfl := Option.some.inj hstep
    exact ⟨hrefs, h.accounted, h.balanced⟩
  | lockLost c =>
    obtain rfl := Option.some.inj hstep
    exact ⟨hrefs, h.accounted, h.balanced⟩

/-- In every run that meets the condition the counts agree with the signal store
once every job has succeeded. -/
theorem countsAgree_of_run (hattempts : s₀.attempts = [])
    (hsessions : SessionsName (HasRow s₀.stores.world.postgres) s₀.stores.world.redis)
    (hcounts : ∀ w, s₀.stores.mongo.countByWorkItemId w
      = s₀.stores.world.postgres.signalCountOf w)
    {es : List PipelineEvent} (hmeets : (lts worker).Meets CountsSafely s₀ es)
    (hrun : (lts worker).run s₀ es = some s) : s.CountsAgree := by
  have h₀ : s₀.CountInv := by
    refine ⟨⟨hsessions, ?_, ?_⟩, ?_, ?_⟩
    · intro a attempt ha
      simp [hattempts] at ha
    · intro a attempt ha
      simp [hattempts] at ha
    · intro a attempt ha
      simp [hattempts] at ha
    · intro w
      simp [owed, hattempts, hcounts]
  have hstep : ∀ s e s', s.CountInv → CountsSafely s e → (lts worker).step s e = some s' →
      s'.CountInv := fun _ _ _ h he hstep => h.step he hstep
  have hinv := Lts.run_invariant_of_meets hstep hrun hmeets h₀
  intro hsucceeded w r hr
  have howed : s.attempts.map (·.owed w) = s.attempts.map fun _ => 0 :=
    List.map_congr_left fun attempt hmem =>
      Attempt.owed_eq_zero (hsucceeded.2 attempt hmem).2 w
  have hbalanced := hinv.balanced w
  simp only [owed, howed, List.map_const', List.sum_replicate_nat, Nat.mul_zero, Nat.add_zero,
    Postgres.signalCountOf, hr, Option.map_some, Option.getD_some] at hbalanced
  exact hbalanced.symm

/-- A batch of a first and a second signal of one component, counted at the second try. -/
def retriedEvents : List PipelineEvent :=
  [.enqueue [cacheSignal "a" "c" .P1, cacheSignal "b" "c" .P1], .take 0] ++
    List.replicate 5 (.step 0 ⟨.ok, "w", 5⟩) ++ List.replicate 12 (.step 0 ⟨.ok, "v", 5⟩) ++
    [.increment 0 0 ⟨.fault false (.prisma .initialization), "v", 5⟩,
      .increment 0 0 ⟨.ok, "v", 5⟩] ++ List.replicate 5 (.step 0 ⟨.ok, "v", 5⟩)

theorem countsAgree_of_retriedEvents : ∃ s, (lts .standard).run empty retriedEvents = some s ∧
    s.CountsAgree ∧ s.stores.world.postgres.signalCountOf "w" = 2 := by
  have hobserved : ((lts .standard).run empty retriedEvents).map
      (fun s => s.stores.world.postgres.signalCountOf "w") = some 2 := by
    decide +kernel
  have hmeets : (lts .standard).Meets CountsSafely empty retriedEvents := by
    decide +kernel
  obtain ⟨s, hrun, hs⟩ := Option.map_eq_some_iff.1 hobserved
  have hsessions : SessionsName (HasRow Postgres.empty) Redis.empty := fun c w h => nomatch
    show (none : Option WorkItemId) = some w from h
  exact ⟨s, hrun, countsAgree_of_run rfl hsessions (fun _ => rfl) hmeets hrun, hs⟩

/-- A batch with the same new signal twice. -/
def twiceEvents : List PipelineEvent :=
  [.enqueue [cacheSignal "a" "c" .P1, cacheSignal "a" "c" .P1], .take 0] ++
    List.replicate 5 (.step 0 ⟨.ok, "w", 5⟩) ++ List.replicate 12 (.step 0 ⟨.ok, "v", 5⟩) ++
    .increment 0 0 ⟨.ok, "v", 5⟩ :: List.replicate 5 (.step 0 ⟨.ok, "v", 5⟩)

instance (s : Pipeline) : Decidable s.Succeeded := by
  delta Succeeded
  infer_instance

/-- The signal is stored once and counted twice. -/
theorem signal_counted_twice :
    ¬ ∀ es s, (lts .standard).run empty es = some s → s.CountsAgree := by
  intro hclaim
  have hobserved : ((lts .standard).run empty twiceEvents).map
      (fun s => (decide s.Succeeded, (s.stores.world.postgres.row "w").map (·.signalCount),
        s.stores.mongo.countByWorkItemId "w")) = some (true, some 2, 1) := by
    decide +kernel
  obtain ⟨s, hrun, hs⟩ := Option.map_eq_some_iff.1 hobserved
  simp only [Prod.mk.injEq, decide_eq_true_eq, Option.map_eq_some_iff] at hs
  obtain ⟨hsucceeded, ⟨r, hr, hcount⟩, hdocuments⟩ := hs
  have hagree := hclaim _ s hrun hsucceeded "w" r hr
  omega

end Pipeline

end InveniOps.Workers
