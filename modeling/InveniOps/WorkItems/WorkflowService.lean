import InveniOps.Domain.Rca
import InveniOps.Stores.DashboardCache

/-!
# The workflow service

`services/workitems/workflowService.ts`.  Both of its methods find the work item,
decide with the domain's state machine, write behind the guard of the repository,
bring the dashboard cache in line and report; they differ in the decision and in
what they write.  One step is one command to a store.
-/

namespace InveniOps.WorkItems

open Domain Stores

/-- The service, with the client of its work item store and the runtime's parser of
date strings. -/
structure WorkflowService where
  prisma : PrismaClient
  parseDate : String → JsDate

/-- What `transitionWorkItem` resolves to. -/
inductive TransitionOutcome
  | not_found
  | invalid_transition (message : String)
  | conflict (message : String)
  | transitioned (workItem : WorkItem)

/-- What `submitIncidentRca` resolves to. -/
inductive RcaSubmissionOutcome
  | not_found
  | invalid_rca (errors : List RcaFieldError)
  | invalid_state (message : String)
  | closed (workItem : WorkItem) (mttrSeconds : ℤ)

/-! ### From the request body to a candidate -/

/-- `raw[key]`; the parser keeps the last of equal keys. -/
def property (raw : Json) (key : String) : Option Json :=
  match raw with
  | .obj fields => (fields.reverse.find? (·.1 = key)).map (·.2)
  | _ => none

/-- `new Date(value)` of a string or a number. -/
def toDate (parseDate : String → JsDate) : Option Json → Option JsDate
  | some (.str s) => some (parseDate s)
  | some (.num q) => some (dateOfNumber q)
  | _ => none

/-- Only strings count as text. -/
def toOptionalString : Option Json → Option String
  | some (.str s) => some s
  | _ => none

/-- The candidate in a request's body, whatever its shape. -/
def toRcaCandidate (parseDate : String → JsDate) (raw : Json) : RcaCandidate where
  incidentStartTime := toDate parseDate (property raw "incidentStartTime")
  incidentEndTime := toDate parseDate (property raw "incidentEndTime")
  rootCauseCategory := toOptionalString (property raw "rootCauseCategory")
  rootCauseDescription := toOptionalString (property raw "rootCauseDescription")
  fixApplied := toOptionalString (property raw "fixApplied")
  preventionSteps := toOptionalString (property raw "preventionSteps")

/-- What the domain rules look at. -/
def toSnapshot (workItem : WorkItem) : WorkItemSnapshot :=
  ⟨workItem.id, workItem.state, workItem.firstSignalAt⟩

/-- The `rca` of the call of `submitRca`, if no field is missing or invalid. -/
def rcaFields (candidate : RcaCandidate) : Option RcaFields := do
  return {
    incidentStartTime := ← validDate candidate.incidentStartTime
    incidentEndTime := ← validDate candidate.incidentEndTime
    rootCauseCategory := ← candidate.rootCauseCategory
    rootCauseDescription := ← candidate.rootCauseDescription
    fixApplied := ← candidate.fixApplied
    preventionSteps := ← candidate.preventionSteps }

/-- The candidate that a row of `rca_records` was submitted as. -/
def candidateOf (rca : RcaFields) : RcaCandidate where
  incidentStartTime := some (some rca.incidentStartTime)
  incidentEndTime := some (some rca.incidentEndTime)
  rootCauseCategory := some rca.rootCauseCategory
  rootCauseDescription := some rca.rootCauseDescription
  fixApplied := some rca.fixApplied
  preventionSteps := some rca.preventionSteps

/-! ### The two methods -/

/-- A call with its arguments; `now` is its reading of the clock. -/
inductive WorkflowRequest
  | transitionWorkItem (workItemId : WorkItemId) (toState : WorkItemStatus) (actor : String)
      (now : Instant)
  | submitIncidentRca (workItemId : WorkItemId) (rawRcaInput : Json) (actor : String)
      (now : Instant)

/-- The item that the request is about. -/
def WorkflowRequest.workItemId : WorkflowRequest → WorkItemId
  | .transitionWorkItem workItemId _ _ _ | .submitIncidentRca workItemId _ _ _ => workItemId

/-- The clock as the call reads it. -/
def WorkflowRequest.now : WorkflowRequest → Instant
  | .transitionWorkItem _ _ _ now | .submitIncidentRca _ _ _ now => now

/-- The outcome of either call. -/
inductive WorkflowOutcome
  | transition (outcome : TransitionOutcome)
  | rca (outcome : RcaSubmissionOutcome)

/-- The call reports that it moved the item. -/
def WorkflowOutcome.isSuccess : WorkflowOutcome → Bool
  | .transition (.transitioned _) | .rca (.closed _ _) => true
  | _ => false

/-- A write of the repository behind its guard. -/
inductive GuardedWrite
  | transitionState (input : TransitionStateInput)
  | submitRca (input : SubmitRcaInput)

namespace GuardedWrite

/-- The transition that the write applies. -/
def transition : GuardedWrite → TransitionStateInput
  | .transitionState input => input
  | .submitRca input => input.transition

/-- The write, and the row that its method hands to the service. -/
def command (prisma : PrismaClient) (clock : Instant) : GuardedWrite → Command Postgres WorkItem
  | .transitionState input, pg => Postgres.transitionState prisma input clock pg
  | .submitRca input, pg => do
    let ((workItem, _), pg) ← Postgres.submitRca prisma input clock pg
    return (workItem, pg)

/-- The cache write behind the commit. -/
def cacheWrite (updated : WorkItem) : GuardedWrite → CachePc
  | .transitionState _ => upsertActiveIncident updated
  | .submitRca input => removeIncident input.workItemId

/-- What the method returns behind the commit. -/
def success (updated : WorkItem) : GuardedWrite → WorkflowOutcome
  | .transitionState _ => .transition (.transitioned updated)
  | .submitRca input => .rca (.closed updated input.mttrSeconds)

/-- What the method returns for an `OptimisticConcurrencyError`. -/
def lostRace (message : String) : GuardedWrite → WorkflowOutcome
  | .transitionState _ => .transition (.conflict message)
  | .submitRca _ => .rca (.invalid_state message)

end GuardedWrite

/-- What a method does with the row that it found. -/
inductive Decision
  | answer (outcome : WorkflowOutcome)
  | fail (e : Thrown)
  | write (write : GuardedWrite)

/-- The state object of the row with the guard of the call. -/
def currentState (now : Instant) (snapshot : WorkItemSnapshot) : WorkItemState RcaCandidate :=
  createWorkItemStateGraph (createRcaCloseGuard now) snapshot.state

/-- `transitionWorkItem` from the row that it found to its call of `transitionState`. -/
def decideTransition (workItemId : WorkItemId) (toState : WorkItemStatus) (actor : String)
    (now : Instant) (workItem : WorkItem) : Decision :=
  let snapshot := toSnapshot workItem
  match (currentState now snapshot).transition ⟨snapshot, toState, none⟩ with
  | .error e => .answer (.transition (.invalid_transition e.message))
  | .ok _ => .write (.transitionState
    { workItemId := workItemId
      fromState := snapshot.state
      toState := toState
      actor := actor
      resolvedAt := if toState = .RESOLVED then some now else none
      closedAt := none })

/-- `submitIncidentRca` from the row that it found to its call of `submitRca`.  Prisma
refuses a record with a missing or invalid field. -/
def decideRca (parseDate : String → JsDate) (workItemId : WorkItemId) (rawRcaInput : Json)
    (actor : String) (now : Instant) (workItem : WorkItem) : Decision :=
  let snapshot := toSnapshot workItem
  let rcaCandidate := toRcaCandidate parseDate rawRcaInput
  let errors := validateRca rcaCandidate ⟨workItem.firstSignalAt, now⟩
  match (currentState now snapshot).transition ⟨snapshot, .CLOSED, some rcaCandidate⟩ with
  | .error _ =>
    -- a candidate with errors is reported as such in any state
    if !errors.isEmpty then .answer (.rca (.invalid_rca errors))
    else .answer (.rca (.invalid_state ("Work item " ++ workItemId ++ " is in state "
      ++ snapshot.state.name ++ ", which cannot transition to CLOSED.")))
  | .ok _ =>
    match calculateMttr workItem.firstSignalAt now with
    | .error message =>
      .fail (.error ("MTTR calculation failed for work item " ++ workItemId ++ ": " ++ message))
    | .ok mttrSeconds =>
      match rcaFields rcaCandidate with
      | none => .fail (.store (.prisma (.other "PrismaClientValidationError")))
      | some rca => .write (.submitRca ⟨workItemId, actor, rca, mttrSeconds, now⟩)

/-- What the method answers when there is no such row. -/
def WorkflowRequest.notFound : WorkflowRequest → WorkflowOutcome
  | .transitionWorkItem _ _ _ _ => .transition .not_found
  | .submitIncidentRca _ _ _ _ => .rca .not_found

/-- What the call decides from the row that it found. -/
def WorkflowRequest.decide (parseDate : String → JsDate) : WorkflowRequest → WorkItem → Decision
  | .transitionWorkItem workItemId toState actor now =>
    decideTransition workItemId toState actor now
  | .submitIncidentRca workItemId rawRcaInput actor now =>
    decideRca parseDate workItemId rawRcaInput actor now

/-! ### Reports -/

/-- What goes to the alert dispatcher, the metrics writer and the event publisher,
none of which throws. -/
inductive Report
  | dispatch (workItem : WorkItem) (eventType : WorkItemStatus)
  | recordStateTransition (ts : Instant) (fromState toState : WorkItemStatus) (timeInStateMs : ℤ)
  | recordMttr (ts : Instant) (componentType : ComponentType) (severity : Severity)
      (componentId : ComponentId) (mttrMs : ℤ)
  | publishWorkItemStateChanged (workItem : WorkItem) (fromState toState : WorkItemStatus)

/-- The reports behind a write, of which `found` is the row before it. -/
def reportsOf (now : Instant) (found updated : WorkItem) (write : GuardedWrite) : List Report :=
  let fromState := found.state
  let toState := write.transition.toState
  let mttr :=
    match write with
    | .transitionState _ => []
    | .submitRca input => [Report.recordMttr now updated.componentType updated.severity
        updated.componentId (input.mttrSeconds * 1000)]
  [.dispatch updated toState,
    .recordStateTransition now fromState toState (max 0 (now - found.updatedAt))]
    ++ mttr ++ [.publishWorkItemStateChanged updated fromState toState]

/-! ### The steps of a call -/

/-- Where a call is suspended, or how it ended. -/
inductive WorkflowPc
  /-- At `findById`, in the given attempt of its retry wrapper. -/
  | find (attempt : ℕ)
  /-- At the transaction, in the given attempt. -/
  | transact (found : WorkItem) (write : GuardedWrite) (attempt : ℕ)
  /-- In the cache write. -/
  | caching (found updated : WorkItem) (write : GuardedWrite) (pc : CachePc)
  | reporting (found updated : WorkItem) (write : GuardedWrite)
  | returned (outcome : WorkflowOutcome)
  | threw (e : Thrown)

/-- What a step leaves behind. -/
structure WorkflowStep where
  stores : IncidentStores
  pc : WorkflowPc
  reports : List Report

variable (service : WorkflowService) (request : WorkflowRequest)

/-- Behind the reply to `findById`. -/
def afterFind (attempt : ℕ) (reply : Except Thrown (Option Postgres.WorkItemWithRca)) :
    WorkflowPc :=
  match withPostgresRetry attempt reply with
  | .again attempt => .find attempt
  | .thrown e => .threw e
  | .returned none => .returned request.notFound
  | .returned (some (found, _)) =>
    match request.decide service.parseDate found with
    | .answer outcome => .returned outcome
    | .fail e => .threw e
    | .write write => .transact found write 1

/-- Behind the reply to the transaction. -/
def afterTransact (found : WorkItem) (write : GuardedWrite) (attempt : ℕ)
    (reply : Except Thrown WorkItem) : WorkflowPc :=
  match withPostgresRetry attempt reply with
  | .again attempt => .transact found write attempt
  -- the guard of the write found the row in another state
  | .thrown (.optimisticConcurrency workItemId expectedState) =>
    .returned (write.lostRace (optimisticConcurrencyMessage workItemId expectedState))
  | .thrown e => .threw e
  | .returned updated => .caching found updated write (write.cacheWrite updated)

/-- Behind a command of the cache write. -/
def afterCaching (found updated : WorkItem) (write : GuardedWrite) (pc : CachePc) : WorkflowPc :=
  if pc.isDone then .reporting found updated write else .caching found updated write pc

/-- One step of a call; a call that is over takes none. -/
def workflowStep (io : StepIo) (st : IncidentStores) : WorkflowPc → Option WorkflowStep
  | .find attempt =>
    let reply := perform (Postgres.findById request.workItemId) io.outcome st.postgres
    some ⟨{ st with postgres := reply.2 }, afterFind service request attempt reply.1, []⟩
  | .transact found write attempt =>
    let reply := perform (write.command service.prisma io.now) io.outcome st.postgres
    some ⟨{ st with postgres := reply.2 }, afterTransact found write attempt reply.1, []⟩
  | .caching found updated write pc =>
    let result := cacheStep io.outcome io.now st.cache pc
    some ⟨{ st with cache := result.1 }, afterCaching found updated write result.2, []⟩
  | .reporting found updated write =>
    some ⟨st, .returned (write.success updated), reportsOf request.now found updated write⟩
  | .returned _ | .threw _ => none

/-! ### Decisions -/

/-- A candidate whose fields are all there is the candidate of its fields. -/
lemma eq_candidateOf {candidate : RcaCandidate} {rca : RcaFields}
    (h : rcaFields candidate = some rca) : candidate = candidateOf rca := by
  obtain ⟨start, finish, category, description, fix, prevention⟩ := candidate
  simp only [rcaFields, Option.bind_eq_bind, Option.bind_eq_some_iff] at h
  obtain ⟨_, hstart, _, hfinish, _, rfl, _, rfl, _, rfl, _, rfl, h⟩ := h
  cases h
  simp only [candidateOf, eq_of_validDate hstart, eq_of_validDate hfinish]

lemma rcaFields_of_valid {candidate : RcaCandidate} {context : RcaValidationContext}
    (h : validateRca candidate context = []) : ∃ rca, rcaFields candidate = some rca := by
  obtain ⟨_, _, _, _, _, _, hvalid⟩ := validRca_of_validateRca h
  simp only [rcaFields, validDate, hvalid.incidentStartTime, hvalid.incidentEndTime,
    hvalid.rootCauseCategory, hvalid.rootCauseDescription, hvalid.fixApplied,
    hvalid.preventionSteps]
  exact ⟨_, rfl⟩

/-- What a method has checked of the write that it sends. -/
inductive Decided (found : WorkItem) : WorkflowRequest → GuardedWrite → Prop
  | transition {workItemId : WorkItemId} {toState : WorkItemStatus} {actor : String}
      {now : Instant} (edge : toState ∈ getLegalNextStates found.state)
      (stays_active : toState ≠ .CLOSED) :
    Decided found (.transitionWorkItem workItemId toState actor now) (.transitionState
      { workItemId := workItemId
        fromState := found.state
        toState := toState
        actor := actor
        resolvedAt := if toState = .RESOLVED then some now else none
        closedAt := none })
  | rca {workItemId : WorkItemId} {rawRcaInput : Json} {actor : String} {now : Instant}
      {rca : RcaFields} {mttrSeconds : ℤ} (resolved : found.state = .RESOLVED)
      (valid : validateRca (candidateOf rca) ⟨found.firstSignalAt, now⟩ = []) :
    Decided found (.submitIncidentRca workItemId rawRcaInput actor now)
      (.submitRca ⟨workItemId, actor, rca, mttrSeconds, now⟩)

lemma mem_getLegalNextStates_closed {state : WorkItemStatus}
    (h : .CLOSED ∈ getLegalNextStates state) : state = .RESOLVED := by
  cases state <;> first | rfl | exact absurd h (by decide)

section

variable {parseDate : String → JsDate} {request : WorkflowRequest} {found : WorkItem}

lemma decided_of_decide {write : GuardedWrite}
    (h : request.decide parseDate found = .write write) : Decided found request write := by
  cases request with
  | transitionWorkItem workItemId toState actor now =>
    simp only [WorkflowRequest.decide, decideTransition] at h
    split at h
    · cases h
    · rename_i hok
      cases h
      obtain ⟨rfl, hedge, hguard⟩ := transition_ok_iff.1 hok
      -- without a payload the guard lets nothing into `CLOSED`
      exact .transition hedge fun hclosed => absurd (hguard hclosed) (by simp [createRcaCloseGuard])
  | submitIncidentRca workItemId rawRcaInput actor now =>
    simp only [WorkflowRequest.decide, decideRca] at h
    split at h
    · split at h <;> cases h
    · rename_i hok
      obtain ⟨rfl, hedge, hguard⟩ := transition_ok_iff.1 hok
      have hvalid := List.isEmpty_iff.1 (hguard rfl)
      split at h
      · cases h
      · split at h
        · cases h
        · rename_i hfields
          cases h
          exact .rca (mem_getLegalNextStates_closed hedge) (eq_candidateOf hfields ▸ hvalid)

/-- An answer without a write reports no success. -/
lemma isSuccess_of_decide {outcome : WorkflowOutcome}
    (h : request.decide parseDate found = .answer outcome) : outcome.isSuccess = false := by
  cases request with
  | transitionWorkItem workItemId toState actor now =>
    simp only [WorkflowRequest.decide, decideTransition] at h
    split at h <;> cases h
    rfl
  | submitIncidentRca workItemId rawRcaInput actor now =>
    simp only [WorkflowRequest.decide, decideRca] at h
    split at h
    · split at h <;> cases h <;> rfl
    · split at h
      · cases h
      · split at h <;> cases h

end

lemma isSuccess_notFound (request : WorkflowRequest) : request.notFound.isSuccess = false := by
  cases request <;> rfl

namespace GuardedWrite

lemma isSuccess_success (updated : WorkItem) (write : GuardedWrite) :
    (write.success updated).isSuccess = true := by
  cases write <;> rfl

lemma isSuccess_lostRace (message : String) (write : GuardedWrite) :
    (write.lostRace message).isSuccess = false := by
  cases write <;> rfl

/-- The RCA rows that a write appends. -/
def rcaRows : GuardedWrite → List RcaRecord
  | .transitionState _ => []
  | .submitRca input => [input.rcaRow]

/-- A write that is carried out moves one row and appends one audit row. -/
lemma command_ok {prisma : PrismaClient} {clock : Instant} {write : GuardedWrite}
    {pg pg' : Postgres} {updated : WorkItem}
    (h : write.command prisma clock pg = .ok (updated, pg')) :
    ∃ r, Postgres.Moved write.transition clock pg pg' r ∧
      updated = write.transition.set clock r ∧ pg'.rcaRecords = pg.rcaRecords ++ write.rcaRows := by
  cases write with
  | transitionState input =>
    obtain ⟨r, hmoved, hupdated, hrcas⟩ := Postgres.transitionState_ok h
    exact ⟨r, hmoved, hupdated, by rw [hrcas]; exact (List.append_nil _).symm⟩
  | submitRca input =>
    obtain ⟨⟨⟨workItem, rca⟩, pg₁⟩, hsubmit, h⟩ := Stores.bind_ok h
    cases h
    obtain ⟨r, hmoved, hupdated, -, hrcas⟩ := Postgres.submitRca_ok hsubmit
    exact ⟨r, hmoved, hupdated, hrcas⟩

end GuardedWrite

/-! ### What a step can do -/

/-- The steps of a call, with the stores and the counter behind them. -/
inductive WorkflowRuns (prisma : PrismaClient) (request : WorkflowRequest) (io : StepIo)
    (st : IncidentStores) : WorkflowPc → IncidentStores → WorkflowPc → Prop
  | again {attempt : ℕ} : WorkflowRuns prisma request io st (.find attempt) st (.find (attempt + 1))
  | failed {attempt : ℕ} {e : Thrown} :
    WorkflowRuns prisma request io st (.find attempt) st (.threw e)
  | answered {attempt : ℕ} {outcome : WorkflowOutcome} (fails : outcome.isSuccess = false) :
    WorkflowRuns prisma request io st (.find attempt) st (.returned outcome)
  | found {attempt : ℕ} {found : WorkItem} {write : GuardedWrite}
      (row : st.postgres.row request.workItemId = some found)
      (decided : Decided found request write) :
    WorkflowRuns prisma request io st (.find attempt) st (.transact found write 1)
  | committed {found updated : WorkItem} {write : GuardedWrite} {attempt : ℕ} {pg : Postgres}
      (ok : io.outcome = .ok)
      (commits : write.command prisma io.now st.postgres = .ok (updated, pg)) :
    WorkflowRuns prisma request io st (.transact found write attempt) { st with postgres := pg }
      (.caching found updated write (write.cacheWrite updated))
  | retried {found : WorkItem} {write : GuardedWrite} {attempt : ℕ} {pg : Postgres}
      (left : attempt ≠ ATTEMPTS)
      (commits : pg = st.postgres ∨
        (∃ e, io.outcome = .fault true e ∧ shouldRetry (.store e) = true) ∧
          ∃ updated, write.command prisma io.now st.postgres = .ok (updated, pg)) :
    WorkflowRuns prisma request io st (.transact found write attempt) { st with postgres := pg }
      (.transact found write (attempt + 1))
  | lost {found : WorkItem} {write : GuardedWrite} {attempt : ℕ} {message : String} :
    WorkflowRuns prisma request io st (.transact found write attempt) st
      (.returned (write.lostRace message))
  | broke {found : WorkItem} {write : GuardedWrite} {attempt : ℕ} {pg : Postgres} {e : Thrown}
      (commits : pg = st.postgres ∨ (∃ e, io.outcome = .fault true e) ∧
        ∃ updated, write.command prisma io.now st.postgres = .ok (updated, pg)) :
    WorkflowRuns prisma request io st (.transact found write attempt) { st with postgres := pg }
      (.threw e)
  | caching {found updated : WorkItem} {write : GuardedWrite} {pc : CachePc}
      (more : (cacheStep io.outcome io.now st.cache pc).2.isDone = false) :
    WorkflowRuns prisma request io st (.caching found updated write pc)
      { st with cache := (cacheStep io.outcome io.now st.cache pc).1 }
      (.caching found updated write (cacheStep io.outcome io.now st.cache pc).2)
  | cached {found updated : WorkItem} {write : GuardedWrite} {pc : CachePc}
      (last : (cacheStep io.outcome io.now st.cache pc).2.isDone = true) :
    WorkflowRuns prisma request io st (.caching found updated write pc)
      { st with cache := (cacheStep io.outcome io.now st.cache pc).1 }
      (.reporting found updated write)
  | reported {found updated : WorkItem} {write : GuardedWrite} :
    WorkflowRuns prisma request io st (.reporting found updated write) st
      (.returned (write.success updated))

variable {service : WorkflowService} {request : WorkflowRequest} {io : StepIo}
  {st : IncidentStores}

lemma workflowRuns_find (attempt : ℕ) (reply : Except Thrown (Option Postgres.WorkItemWithRca))
    (hreply : ∀ found rca, reply = .ok (some (found, rca)) →
      st.postgres.row request.workItemId = some found) :
    WorkflowRuns service.prisma request io st (.find attempt) st
      (afterFind service request attempt reply) := by
  unfold afterFind
  split
  · rename_i next hagain
    obtain ⟨rfl, -, -⟩ := withPostgresRetry_again hagain
    exact .again
  · exact .failed
  · exact .answered (isSuccess_notFound request)
  · rename_i found rca hreturned
    split
    · rename_i hanswer
      exact .answered (isSuccess_of_decide hanswer)
    · exact .failed
    · rename_i hwrite
      exact .found (hreply _ _ (withPostgresRetry_returned hreturned)) (decided_of_decide hwrite)

lemma workflowRuns_transact (found : WorkItem) (write : GuardedWrite) (attempt : ℕ) :
    WorkflowRuns service.prisma request io st (.transact found write attempt)
      { st with
        postgres := (perform (write.command service.prisma io.now) io.outcome st.postgres).2 }
      (afterTransact found write attempt
        (perform (write.command service.prisma io.now) io.outcome st.postgres).1) := by
  unfold afterTransact
  split
  · rename_i next hagain
    obtain ⟨rfl, hleft, e, he, hretry⟩ := withPostgresRetry_again hagain
    rcases perform_error he with hsame | ⟨error, updated, hfault, rfl, hcommit⟩
    · exact .retried hleft (.inl hsame)
    · exact .retried hleft (.inr ⟨⟨error, hfault, hretry⟩, updated, hcommit⟩)
  · rename_i workItemId expectedState hthrown
    rcases perform_error (withPostgresRetry_thrown hthrown) with hsame | ⟨_, _, -, he, -⟩
    · rw [hsame]
      exact .lost
    · cases he
  · rename_i hthrown
    rcases perform_error (withPostgresRetry_thrown hthrown) with hsame |
      ⟨error, updated, hfault, -, hcommit⟩
    · exact .broke (.inl hsame)
    · exact .broke (.inr ⟨⟨error, hfault⟩, updated, hcommit⟩)
  · rename_i updated hreturned
    obtain ⟨hok, hcommit⟩ := perform_ok (withPostgresRetry_returned hreturned)
    exact .committed hok hcommit

lemma workflowRuns_of_step {pc : WorkflowPc} {step : WorkflowStep}
    (h : workflowStep service request io st pc = some step) :
    WorkflowRuns service.prisma request io st pc step.stores step.pc := by
  cases pc with
  | find attempt =>
    cases h
    have hread : Postgres.findById request.workItemId st.postgres = .ok (_, st.postgres) := rfl
    simp only [perform_read hread]
    refine workflowRuns_find attempt _ ?_
    intro _ _ hreply
    exact (Postgres.findById_ok (perform_ok hreply).2).1
  | transact found write attempt =>
    cases h
    exact workflowRuns_transact found write attempt
  | caching found updated write pc =>
    cases h
    simp only [afterCaching]
    split_ifs with hdone
    · exact .cached hdone
    · exact .caching (Bool.not_eq_true _ ▸ hdone)
  | reporting found updated write =>
    cases h
    exact .reported
  | returned outcome => cases h
  | threw e => cases h

/-- A call comes before its transaction with a fresh row and a checked write, or stays there. -/
lemma WorkflowRuns.transact_inv {prisma : PrismaClient} {st' : IncidentStores} {pc : WorkflowPc}
    {found : WorkItem} {write : GuardedWrite} {attempt : ℕ}
    (h : WorkflowRuns prisma request io st pc st' (.transact found write attempt)) :
    (st' = st ∧ st.postgres.row request.workItemId = some found ∧ Decided found request write) ∨
      ∃ n, pc = .transact found write n := by
  cases h with
  | found row decided => exact .inl ⟨rfl, row, decided⟩
  | retried left commits => exact .inr ⟨_, rfl⟩

end InveniOps.WorkItems
