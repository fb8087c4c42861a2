import Mathlib.Algebra.Order.Round
import Mathlib.Data.Rat.Floor
import InveniOps.Incidents.Lifecycle

/-!
# Decisions on submitted RCAs

A call of `submitIncidentRca` decides on the row that it has read: an RCA with
errors is refused in every state, a valid one is refused unless the item was
`RESOLVED`, and otherwise its transaction closes the item or loses a race.  The
branch behind a failed computation of the time to repair is never taken.
-/

namespace InveniOps.WorkItems

open Domain Stores

/-! ### The decision on a row -/

variable {parseDate : String → JsDate} {w : WorkItemId} {raw : Json} {actor : String}
  {now : Instant} {workItem : WorkItem}

/-- The errors of the candidate in a request body, against a row. -/
def rcaErrors (parseDate : String → JsDate) (raw : Json) (now : Instant) (workItem : WorkItem) :
    List RcaFieldError :=
  validateRca (toRcaCandidate parseDate raw) ⟨workItem.firstSignalAt, now⟩

lemma transition_closed_iff {candidate : RcaCandidate} :
    (∃ state, (currentState now (toSnapshot workItem)).transition
        ⟨toSnapshot workItem, .CLOSED, some candidate⟩ = .ok state) ↔
      workItem.state = .RESOLVED ∧ validateRca candidate ⟨workItem.firstSignalAt, now⟩ = [] := by
  constructor
  · rintro ⟨state, hok⟩
    obtain ⟨rfl, hedge, hguard⟩ := transition_ok_iff.1 hok
    exact ⟨mem_getLegalNextStates_closed hedge, List.isEmpty_iff.1 (hguard rfl)⟩
  · rintro ⟨hstate, hvalid⟩
    refine ⟨.CLOSED, transition_ok_iff.2 ⟨rfl, ?_, fun _ => List.isEmpty_iff.2 hvalid⟩⟩
    simp only [toSnapshot, hstate]
    decide

lemma decideRca_of_errors (h : rcaErrors parseDate raw now workItem ≠ []) :
    decideRca parseDate w raw actor now workItem
      = .answer (.rca (.invalid_rca (rcaErrors parseDate raw now workItem))) := by
  simp only [decideRca]
  split
  · exact if_pos (by simpa [rcaErrors] using h)
  · rename_i state hok
    exact absurd (transition_closed_iff.1 ⟨state, hok⟩).2 h

lemma decideRca_of_unresolved (w : WorkItemId) (actor : String)
    (h : rcaErrors parseDate raw now workItem = [])
    (hstate : workItem.state ≠ .RESOLVED) : ∃ message,
      decideRca parseDate w raw actor now workItem
        = .answer (.rca (.invalid_state message)) := by
  simp only [decideRca]
  split
  · exact ⟨_, if_neg (by simpa [rcaErrors] using h)⟩
  · rename_i state hok
    exact absurd (transition_closed_iff.1 ⟨state, hok⟩).1 hstate

/-- What a valid RCA puts on record. -/
structure RcaWrite (parseDate : String → JsDate) (raw : Json) (now : Instant)
    (workItem : WorkItem) (rca : RcaFields) (mttrSeconds : ℤ) : Prop where
  fields : rcaFields (toRcaCandidate parseDate raw) = some rca
  notBefore : workItem.firstSignalAt ≤ rca.incidentStartTime
  ordered : rca.incidentStartTime < rca.incidentEndTime
  notFuture : rca.incidentEndTime ≤ now
  mttr : mttrSeconds = round (((now - workItem.firstSignalAt : ℤ) : ℚ) / 1000)
  duration : round (((rca.incidentEndTime - rca.incidentStartTime : ℤ) : ℚ) / 1000) ≤ mttrSeconds

/-- Halves of seconds round up. -/
lemma round_seconds (ms : ℤ) : round ((ms : ℚ) / 1000) = (ms + 500) / 1000 := by
  have hsum : (ms : ℚ) / 1000 + 1 / 2 = ((ms + 500 : ℤ) : ℚ) / (1000 : ℕ) := by
    push_cast
    ring
  rw [round_eq, hsum, Rat.floor_intCast_div_natCast]
  rfl

lemma decideRca_of_resolved (w : WorkItemId) (actor : String)
    (h : rcaErrors parseDate raw now workItem = [])
    (hstate : workItem.state = .RESOLVED) : ∃ rca mttrSeconds,
      decideRca parseDate w raw actor now workItem
        = .write (.submitRca ⟨w, actor, rca, mttrSeconds, now⟩) ∧
      RcaWrite parseDate raw now workItem rca mttrSeconds := by
  obtain ⟨rca, hfields⟩ := rcaFields_of_valid h
  obtain ⟨start, finish, _, _, _, _, hvalid⟩ := validRca_of_validateRca h
  have hcandidate := eq_candidateOf hfields
  have hstart : rca.incidentStartTime = start := by
    have heq := hvalid.incidentStartTime
    simpa [hcandidate, candidateOf] using heq
  have hfinish : rca.incidentEndTime = finish := by
    have heq := hvalid.incidentEndTime
    simpa [hcandidate, candidateOf] using heq
  subst hstart hfinish
  have hle : workItem.firstSignalAt ≤ now :=
    hvalid.notBefore.trans (hvalid.ordered.le.trans hvalid.notFuture)
  have hmttr : calculateMttr workItem.firstSignalAt now
      = .ok ((now - workItem.firstSignalAt + 500) / 1000) :=
    if_neg (not_lt.2 (Int.sub_nonneg_of_le hle))
  refine ⟨rca, _, ?_, hfields, hvalid.notBefore, hvalid.ordered, hvalid.notFuture,
    (round_seconds _).symm, ?_⟩
  · obtain ⟨state, hok⟩ := transition_closed_iff.2 ⟨hstate, h⟩
    simp only [decideRca, hok, hmttr, hfields]
  · rw [round_seconds]
    have hnotBefore : workItem.firstSignalAt ≤ rca.incidentStartTime := hvalid.notBefore
    have hnotFuture : rca.incidentEndTime ≤ now := hvalid.notFuture
    exact Int.ediv_le_ediv (by decide) (by linarith)

end InveniOps.WorkItems

namespace InveniOps.Incidents

open Lib Domain Stores WorkItems

lemma PostgresRuns.rcaRecords {prisma : PrismaClient} {calls : List Call} {pg pg' : Postgres}
    (h : PostgresRuns prisma calls pg pg') : pg.rcaRecords ⊆ pg'.rcaRecords := by
  cases h with
  | plain runs =>
    cases runs with
    | same => exact List.Subset.refl _
    | created commits =>
      obtain ⟨-, -, htables, -⟩ := Postgres.createWorkItem_ok commits
      rw [htables]
      exact List.Subset.refl _
    | escalated commits =>
      rw [Postgres.recordEscalation_ok commits]
      exact List.Subset.refl _
    | incremented commits =>
      obtain ⟨_, -, -, -, -, hrcas⟩ := Postgres.incrementSignalCount_ok commits
      rw [hrcas]
      exact List.Subset.refl _
  | wrote mem transacts commits =>
    obtain ⟨_, -, -, hrcas⟩ := GuardedWrite.command_ok commits
    rw [hrcas]
    exact List.subset_append_left _ _

namespace IncidentSystem

/-! ### The course of a call -/

variable (services : IncidentServices) (s : IncidentSystem) (k : ℕ)

/-- The `k`-th call is one of the workflow service, at `pc`. -/
def WorkflowAt (request : WorkflowRequest) (pc : WorkflowPc) : Prop :=
  ∃ effects, s.calls[k]? = some ⟨.workflow request pc, effects⟩

/-- The `k`-th call stands before its transaction. -/
def atTransaction : Bool :=
  match s.calls[k]? with
  | some ⟨.workflow _ (.transact _ _ _), _⟩ => true
  | _ => false

/-- Postgres answers the transaction of the `k`-th call. -/
def AnswersTransaction (s : IncidentSystem) (e : IncidentEvent) : Prop :=
  match e with
  | .step j _ io => j = k → s.atTransaction k = true → io.outcome = .ok
  | _ => True

instance (e : IncidentEvent) : Decidable (AnswersTransaction k s e) :=
  match e with
  | .start _ | .step _ _ _ | .createWorkItem _ _ _ | .recordEscalation _ _ _
  | .summaryExpired _ | .cacheFlushed => by
    delta AnswersTransaction
    infer_instance

/-- The transaction of the `k`-th call comes when the work item is not `RESOLVED` any more. -/
def LosesRace (w : WorkItemId) (events : List IncidentEvent) : Prop :=
  ∃ pre e post t, events = pre ++ e :: post ∧ e.isStepOf k = true ∧
    (lts services).run s pre = some t ∧ t.atTransaction k = true ∧
      (t.stores.postgres.row w).map (·.state) ≠ some .RESOLVED

variable {services s k} {s₁ s' t : IncidentSystem} {request : WorkflowRequest} {pc : WorkflowPc}
  {w : WorkItemId}

lemma WorkflowAt.atTransaction_iff (h : s.WorkflowAt k request pc) :
    s.atTransaction k = true ↔ ∃ found write attempt, pc = .transact found write attempt := by
  obtain ⟨effects, hcall⟩ := h
  simp only [atTransaction, hcall]
  cases pc <;> simp

lemma losesRace_concat {events : List IncidentEvent} {e : IncidentEvent}
    (hrun : (lts services).run s₁ events = some t) :
    LosesRace services s₁ k w (events ++ [e]) ↔ LosesRace services s₁ k w events ∨
      e.isStepOf k = true ∧ t.atTransaction k = true ∧
        (t.stores.postgres.row w).map (·.state) ≠ some .RESOLVED := by
  constructor
  · rintro ⟨pre, e', post, u, hevents, he, hpre, hat, hstate⟩
    rcases List.eq_nil_or_concat post with rfl | ⟨post, last, rfl⟩
    · obtain ⟨rfl, hlast⟩ := List.append_inj' hevents rfl
      cases hlast
      obtain rfl := Option.some.inj (hrun.symm.trans hpre)
      exact .inr ⟨he, hat, hstate⟩
    · rw [List.concat_eq_append, ← List.cons_append, ← List.append_assoc] at hevents
      obtain ⟨rfl, -⟩ := List.append_inj' hevents rfl
      exact .inl ⟨pre, e', post, u, rfl, he, hpre, hat, hstate⟩
  · rintro (⟨pre, e', post, u, rfl, he, hpre, hat, hstate⟩ | ⟨he, hat, hstate⟩)
    · exact ⟨pre, e', post ++ [e], u, by simp, he, hpre, hat, hstate⟩
    · exact ⟨events, e, [], t, rfl, he, hrun, hat, hstate⟩

/-- The calls that have closed their item, by the number of the steps that they have left. -/
inductive Closing (found updated : WorkItem) (write : GuardedWrite) (w : WorkItemId) :
    WorkflowPc → ℕ → Prop
  | del : Closing found updated write w (.caching found updated write (.del w)) 3
  | zrem : Closing found updated write w (.caching found updated write (.zrem w)) 2
  | reporting : Closing found updated write w (.reporting found updated write) 1
  | returned : Closing found updated write w (.returned (write.success updated)) 0

section

variable (services s₁ k w) (raw : Json) (actor : String) (now : Instant) (r : WorkItem)
  (events : List IncidentEvent) (t : IncidentSystem)

/-- The stages of a call that has read the row `r`, by the number of the steps that it has
left; `events` have come behind its reading. -/
inductive RcaStage : ℕ → Prop
  | rejected (errors : rcaErrors services.workflow.parseDate raw now r ≠ [])
      (call : t.WorkflowAt k (.submitIncidentRca w raw actor now) (.returned (.rca
        (.invalid_rca (rcaErrors services.workflow.parseDate raw now r)))))
      (no_race : ¬ LosesRace services s₁ k w events) : RcaStage 0
  | refused {message : String} (valid : rcaErrors services.workflow.parseDate raw now r = [])
      (unresolved : r.state ≠ .RESOLVED)
      (call : t.WorkflowAt k (.submitIncidentRca w raw actor now)
        (.returned (.rca (.invalid_state message))))
      (no_race : ¬ LosesRace services s₁ k w events) : RcaStage 0
  | deciding {rca : RcaFields} {mttrSeconds : ℤ}
      (valid : rcaErrors services.workflow.parseDate raw now r = [])
      (resolved : r.state = .RESOLVED)
      (write : RcaWrite services.workflow.parseDate raw now r rca mttrSeconds)
      (call : t.WorkflowAt k (.submitIncidentRca w raw actor now)
        (.transact r (.submitRca ⟨w, actor, rca, mttrSeconds, now⟩) 1))
      (no_race : ¬ LosesRace services s₁ k w events) : RcaStage 4
  | lost {message : String} (valid : rcaErrors services.workflow.parseDate raw now r = [])
      (resolved : r.state = .RESOLVED)
      (call : t.WorkflowAt k (.submitIncidentRca w raw actor now)
        (.returned (.rca (.invalid_state message))))
      (race : LosesRace services s₁ k w events) : RcaStage 0
  | closing {rca : RcaFields} {mttrSeconds : ℤ} {updated : WorkItem} {pc : WorkflowPc} {n : ℕ}
      (valid : rcaErrors services.workflow.parseDate raw now r = [])
      (resolved : r.state = .RESOLVED)
      (write : RcaWrite services.workflow.parseDate raw now r rca mttrSeconds)
      (call : t.WorkflowAt k (.submitIncidentRca w raw actor now) pc)
      (closing : Closing r updated (.submitRca ⟨w, actor, rca, mttrSeconds, now⟩) w pc n)
      (record : (SubmitRcaInput.mk w actor rca mttrSeconds now).rcaRow
        ∈ t.stores.postgres.rcaRecords)
      (no_race : ¬ LosesRace services s₁ k w events) : RcaStage n

end

variable {raw : Json} {actor : String} {now : Instant} {r : WorkItem}
  {events : List IncidentEvent} {t' : IncidentSystem} {n : ℕ}

lemma WorkflowAt.of_other (h : t.WorkflowAt k request pc) {e : IncidentEvent}
    (he : e.isStepOf k = false) (hstep : t.step services e = some t') :
    t'.WorkflowAt k request pc := by
  obtain ⟨effects, hcall⟩ := h
  exact ⟨effects, calls_of_other he hcall hstep⟩

/-- A stage lasts while others take steps. -/
lemma RcaStage.of_other (h : RcaStage services k s₁ w raw actor now r events t n)
    (hrun : (lts services).run s₁ events = some t) {e : IncidentEvent}
    (he : e.isStepOf k = false) (hstep : t.step services e = some t') :
    RcaStage services k s₁ w raw actor now r (events ++ [e]) t' n := by
  have hrace : LosesRace services s₁ k w (events ++ [e]) ↔ LosesRace services s₁ k w events := by
    rw [losesRace_concat hrun, he]
    simp
  cases h with
  | rejected errors call no_race =>
    exact .rejected errors (call.of_other he hstep) (mt hrace.1 no_race)
  | refused valid unresolved call no_race =>
    exact .refused valid unresolved (call.of_other he hstep) (mt hrace.1 no_race)
  | deciding valid resolved write call no_race =>
    exact .deciding valid resolved write (call.of_other he hstep) (mt hrace.1 no_race)
  | lost valid resolved call race =>
    exact .lost valid resolved (call.of_other he hstep) (hrace.2 race)
  | closing valid resolved write call closing record no_race =>
    exact .closing valid resolved write (call.of_other he hstep) closing
      ((postgresRuns_of_step hstep).rcaRecords record) (mt hrace.1 no_race)

/-- A step of a call of the workflow service. -/
lemma WorkflowAt.step_inv (h : t.WorkflowAt k request pc) {i : ℕ} {io : StepIo}
    (hstep : t.step services (.step k i io) = some t') :
    ∃ step, workflowStep services.workflow request io t.stores pc = some step ∧
      t'.stores = step.stores ∧ t'.WorkflowAt k request step.pc := by
  obtain ⟨effects, hcall⟩ := h
  obtain ⟨call, step, hcall', htask, rfl⟩ := step_step_inv hstep
  obtain rfl := Option.some.inj (hcall.symm.trans hcall')
  obtain ⟨step, hpc, rfl⟩ := Option.map_eq_some_iff.1 htask
  exact ⟨step, hpc, rfl, _, getElem?_set_self_of hcall _⟩

/-- The transaction of a valid RCA closes the item if that is still resolved. -/
lemma submitRca_cases (prisma : PrismaClient) (hlife : t.LifecycleInv) (input : SubmitRcaInput)
    {row : WorkItem} (hrow : t.stores.postgres.row input.workItemId = some row)
    (clock : Instant) :
    (row.state = .RESOLVED ∧ ∃ updated pg', (GuardedWrite.submitRca input).command prisma clock
        t.stores.postgres = .ok (updated, pg') ∧ input.rcaRow ∈ pg'.rcaRecords) ∨
      row.state ≠ .RESOLVED ∧ (GuardedWrite.submitRca input).command prisma clock
        t.stores.postgres = .error (.optimisticConcurrency input.workItemId .RESOLVED) := by
  by_cases hstate : row.state = .RESOLVED
  · left
    have hnone : ∀ rca ∈ t.stores.postgres.rcaRecords, rca.workItemId ≠ input.workItemId := by
      have hrcas := (hlife.rows _ row hrow).active (by rw [hstate]; decide)
      rw [Tables.row_id hrow] at hrcas
      intro rca hmem
      simpa using List.filter_eq_nil_iff.1 hrcas rca hmem
    obtain ⟨closed, pg', hsubmit⟩ : ∃ closed pg', Postgres.submitRca prisma input clock
        t.stores.postgres = .ok ((closed, input.rcaRow), pg') :=
      Postgres.submitRca_of_guard hrow hstate hnone
    obtain ⟨_, -, -, -, hrcas⟩ := Postgres.submitRca_ok hsubmit
    refine ⟨hstate, closed, pg', ?_, ?_⟩
    · simp only [GuardedWrite.command, hsubmit, bind, Except.bind]
      rfl
    · rw [hrcas]
      exact List.mem_append_right _ (List.mem_singleton_self _)
  · right
    refine ⟨hstate, ?_⟩
    have hguard : ¬ ∃ row, t.stores.postgres.row input.transition.workItemId = some row ∧
        row.state = input.transition.fromState := by
      rintro ⟨row', hrow', hstate'⟩
      obtain rfl := Option.some.inj (hrow.symm.trans hrow')
      exact hstate hstate'
    have herror : Postgres.applyGuardedTransition prisma input.transition clock t.stores.postgres
        = .error (.optimisticConcurrency input.workItemId .RESOLVED) :=
      Postgres.applyGuardedTransition_error hguard
    simp only [GuardedWrite.command, Postgres.submitRca, herror, bind, Except.bind]

/-- A step of the call itself brings it to its next stage. -/
lemma RcaStage.of_own (h : RcaStage services k s₁ w raw actor now r events t n)
    (hrun : (lts services).run s₁ events = some t) (hlife : t.LifecycleInv) {i : ℕ} {io : StepIo}
    (hanswers : AnswersTransaction k t (.step k i io))
    (hstep : t.step services (.step k i io) = some t') :
    ∃ m, RcaStage services k s₁ w raw actor now r (events ++ [.step k i io]) t' m ∧
      m + 1 ≤ n := by
  have hrace := losesRace_concat (k := k) (w := w) (e := .step k i io) hrun
  have hown : (IncidentEvent.step k i io).isStepOf k = true := by simp [IncidentEvent.isStepOf]
  cases h with
  | rejected errors call no_race =>
    obtain ⟨_, hpc, -⟩ := call.step_inv hstep
    cases hpc
  | refused valid unresolved call no_race =>
    obtain ⟨_, hpc, -⟩ := call.step_inv hstep
    cases hpc
  | lost valid resolved call race =>
    obtain ⟨_, hpc, -⟩ := call.step_inv hstep
    cases hpc
  | @deciding rca mttrSeconds valid resolved write call no_race =>
    have hat : t.atTransaction k = true := call.atTransaction_iff.2 ⟨_, _, _, rfl⟩
    have hok : io.outcome = .ok := hanswers rfl hat
    obtain ⟨effects, hcall⟩ := call
    obtain ⟨-, row, hrow, -⟩ := hlife.calls _ (List.mem_of_getElem? hcall) _ _ _ _ rfl
    obtain ⟨step, hpc, hstores, hcall'⟩ := WorkflowAt.step_inv ⟨effects, hcall⟩ hstep
    simp only [WorkflowRequest.workItemId] at hrow
    simp only [hrow, Option.map_some, ne_eq, Option.some.injEq, hown, hat, true_and] at hrace
    simp only [workflowStep, hok, Option.some.injEq] at hpc
    rcases submitRca_cases services.workflow.prisma hlife ⟨w, actor, rca, mttrSeconds, now⟩ hrow
      io.now with
      ⟨hstate, updated, pg', hcommand, hrecord⟩ | ⟨hstate, hcommand⟩
    · rw [perform_ok_of hcommand] at hpc
      subst hpc
      refine ⟨3, .closing valid resolved write hcall' .del ?_ ?_, le_rfl⟩
      · rw [hstores]
        exact hrecord
      · exact fun hlost => no_race (hrace.1 hlost |>.resolve_right fun hne => hne hstate)
    · rw [perform_error_of hcommand] at hpc
      subst hpc
      exact ⟨0, .lost valid resolved hcall' (hrace.2 (.inr hstate)), by omega⟩
  | closing valid resolved write call closing record no_race =>
    have hidle : t.atTransaction k = false := by
      rw [← Bool.not_eq_true, call.atTransaction_iff]
      rintro ⟨found, write, attempt, rfl⟩
      cases closing
    have hrace' : ¬ LosesRace services s₁ k w (events ++ [.step k i io]) := by
      rw [hrace, hidle]
      simpa using no_race
    have hrecord := (postgresRuns_of_step hstep).rcaRecords record
    obtain ⟨step, hpc, hstores, hcall⟩ := call.step_inv hstep
    cases closing with
    | del =>
      cases hpc
      exact ⟨2, .closing valid resolved write hcall .zrem hrecord hrace', le_rfl⟩
    | zrem =>
      cases hpc
      exact ⟨1, .closing valid resolved write hcall .reporting hrecord hrace', le_rfl⟩
    | reporting =>
      cases hpc
      exact ⟨0, .closing valid resolved write hcall .returned hrecord hrace', le_rfl⟩
    | returned => cases hpc

lemma not_losesRace_nil : ¬ LosesRace services s₁ k w [] := by
  rintro ⟨pre, e, post, u, hevents, -⟩
  simp at hevents

/-- The call reads the row and decides. -/
lemma stage_of_find {s₀ : IncidentSystem} {attempt i : ℕ} {io : StepIo}
    (hcall : s₀.WorkflowAt k (.submitIncidentRca w raw actor now) (.find attempt))
    (hrow : s₀.stores.postgres.row w = some r) (hok : io.outcome = .ok)
    (hstep : s₀.step services (.step k i io) = some s₁) :
    ∃ n, RcaStage services k s₁ w raw actor now r [] s₁ n ∧ n ≤ 4 := by
  obtain ⟨step, hpc, hstores, hcall⟩ := hcall.step_inv hstep
  have hread : Postgres.findById w s₀.stores.postgres
      = .ok (some (r, s₀.stores.postgres.rca w), s₀.stores.postgres) := by
    rw [Postgres.findById, hrow]
    rfl
  simp only [workflowStep, WorkflowRequest.workItemId, hok, perform_ok_of hread,
    Option.some.injEq] at hpc
  subst hpc
  simp only [afterFind, withPostgresRetry_ok, WorkflowRequest.decide] at hcall
  by_cases herrors : rcaErrors services.workflow.parseDate raw now r = []
  · by_cases hstate : r.state = .RESOLVED
    · obtain ⟨rca, mttrSeconds, hdecide, hwrite⟩ :=
        decideRca_of_resolved w actor herrors hstate
      rw [hdecide] at hcall
      exact ⟨4, .deciding herrors hstate hwrite hcall not_losesRace_nil, le_rfl⟩
    · obtain ⟨message, hdecide⟩ :=
        decideRca_of_unresolved w actor herrors hstate
      rw [hdecide] at hcall
      exact ⟨0, .refused herrors hstate hcall not_losesRace_nil, by omega⟩
  · rw [decideRca_of_errors herrors] at hcall
    exact ⟨0, .rejected herrors hcall not_losesRace_nil, by omega⟩

/-! ### Outcomes -/

section

variable (services s₁ k w) (raw : Json) (actor : String) (now : Instant) (r : WorkItem)
  (events : List IncidentEvent) (t : IncidentSystem)

/-- The outcome is the right one for a call that has read the row `r`. -/
structure DecidesRca (outcome : RcaSubmissionOutcome) : Prop where
  invalid_rca : (∃ errors, outcome = .invalid_rca errors) ↔
    rcaErrors services.workflow.parseDate raw now r ≠ []
  invalid_state : (∃ message, outcome = .invalid_state message) ↔
    rcaErrors services.workflow.parseDate raw now r = [] ∧
      (r.state ≠ .RESOLVED ∨ LosesRace services s₁ k w events)
  closed : (∃ updated mttrSeconds, outcome = .closed updated mttrSeconds) ↔
    rcaErrors services.workflow.parseDate raw now r = [] ∧ r.state = .RESOLVED ∧
      ¬ LosesRace services s₁ k w events
  errors : ∀ errors, outcome = .invalid_rca errors →
    errors = rcaErrors services.workflow.parseDate raw now r
  recorded : ∀ updated mttrSeconds, outcome = .closed updated mttrSeconds →
    ∃ record ∈ t.stores.postgres.rcaRecords, record.workItemId = w ∧
      record.mttrSeconds = mttrSeconds ∧
      RcaWrite services.workflow.parseDate raw now r record.toRcaFields mttrSeconds

/-- The call has returned the right outcome, or can take its next step. -/
def DecidesOrProceeds : Prop :=
  (∃ outcome, t.WorkflowAt k (.submitIncidentRca w raw actor now) (.returned (.rca outcome)) ∧
      DecidesRca services k s₁ w raw now r events t outcome) ∨
    ∀ i io, (t.step services (.step k i io)).isSome = true

end

lemma WorkflowAt.isSome_step (h : t.WorkflowAt k request pc) {i : ℕ} {io : StepIo}
    (hpc : (workflowStep services.workflow request io t.stores pc).isSome = true) :
    (t.step services (.step k i io)).isSome = true := by
  obtain ⟨effects, hcall⟩ := h
  simp only [IncidentSystem.step, hcall, Task.step, Option.isSome_map]
  exact hpc

lemma RcaStage.decides (h : RcaStage services k s₁ w raw actor now r events t n) :
    DecidesOrProceeds services k s₁ w raw actor now r events t := by
  cases h with
  | rejected errors call no_race =>
    obtain ⟨errs, herrs⟩ : ∃ errs, rcaErrors services.workflow.parseDate raw now r = errs :=
      ⟨_, rfl⟩
    rw [herrs] at call errors
    refine .inl ⟨.invalid_rca errs, call, ⟨?_, ?_, ?_, ?_, fun _ _ h => nomatch h⟩⟩ <;> rw [herrs]
    · exact ⟨fun _ => errors, fun _ => ⟨_, rfl⟩⟩
    · exact ⟨fun ⟨_, h⟩ => (nomatch h), fun h => absurd h.1 errors⟩
    · exact ⟨fun ⟨_, _, h⟩ => (nomatch h), fun h => absurd h.1 errors⟩
    · rintro _ ⟨⟩
      rfl
  | refused valid unresolved call no_race =>
    refine .inl ⟨.invalid_state _, call, ⟨?_, ?_, ?_, fun _ h => (nomatch h),
      fun _ _ h => nomatch h⟩⟩
    · exact ⟨fun ⟨_, h⟩ => (nomatch h), fun h => absurd valid h⟩
    · exact ⟨fun _ => ⟨valid, .inl unresolved⟩, fun _ => ⟨_, rfl⟩⟩
    · exact ⟨fun ⟨_, _, h⟩ => (nomatch h), fun h => absurd h.2.1 unresolved⟩
  | deciding valid resolved write call no_race => exact .inr fun _ _ => call.isSome_step rfl
  | lost valid resolved call race =>
    refine .inl ⟨.invalid_state _, call, ⟨?_, ?_, ?_, fun _ h => (nomatch h),
      fun _ _ h => nomatch h⟩⟩
    · exact ⟨fun ⟨_, h⟩ => (nomatch h), fun h => absurd valid h⟩
    · exact ⟨fun _ => ⟨valid, .inr race⟩, fun _ => ⟨_, rfl⟩⟩
    · exact ⟨fun ⟨_, _, h⟩ => (nomatch h), fun h => absurd race h.2.2⟩
  | closing valid resolved write call closing record no_race =>
    cases closing with
    | returned =>
      refine .inl ⟨.closed _ _, call, ⟨?_, ?_, ?_, fun _ h => (nomatch h), ?_⟩⟩
      · exact ⟨fun ⟨_, h⟩ => (nomatch h), fun h => absurd valid h⟩
      · refine ⟨fun ⟨_, h⟩ => (nomatch h), ?_⟩
        rintro ⟨-, hunresolved | hrace⟩
        · exact absurd resolved hunresolved
        · exact absurd hrace no_race
      · exact ⟨fun _ => ⟨valid, resolved, no_race⟩, fun _ => ⟨_, _, rfl⟩⟩
      · rintro _ _ ⟨⟩
        exact ⟨_, record, rfl, rfl, write⟩
    | _ => exact .inr fun _ _ => call.isSome_step rfl

/-- A call of `submitIncidentRca` that reads its work item takes at most four more steps,
always can take the next one until it has returned, and returns the outcome that the row and
its own transaction call for; with a valid RCA its time to repair can be computed. -/
theorem submitIncidentRca_decides {before after : List IncidentEvent} {s₀ : IncidentSystem}
    {attempt i : ℕ} {io : StepIo} (hbefore : (lts services).run empty before = some s₀)
    (hcall : s₀.WorkflowAt k (.submitIncidentRca w raw actor now) (.find attempt))
    (hrow : s₀.stores.postgres.row w = some r) (hok : io.outcome = .ok)
    (hfind : s₀.step services (.step k i io) = some s₁)
    (hafter : (lts services).run s₁ after = some s)
    (hanswers : (lts services).Meets (AnswersTransaction k) s₁ after) :
    after.countP (·.isStepOf k) ≤ 4 ∧
      DecidesOrProceeds services k s₁ w raw actor now r after s ∧
      (rcaErrors services.workflow.parseDate raw now r = [] →
        ∃ mttrSeconds, calculateMttr r.firstSignalAt now = .ok mttrSeconds) := by
  have hlife : s₁.LifecycleInv := by
    refine LifecycleInv.step ?_ hfind
    exact Lts.run_invariant (I := LifecycleInv) (fun _ _ _ h hstep => h.step hstep) hbefore
      lifecycleInv_empty
  obtain ⟨n, hstage, hn⟩ := stage_of_find hcall hrow hok hfind
  have hcourse := Lts.run_invariant_history_of_meets
    (I := fun events t => t.LifecycleInv ∧
      ∃ m, RcaStage services k s₁ w raw actor now r events t m ∧
        m + events.countP (·.isStepOf k) ≤ 4)
    ⟨hlife, n, hstage, hn⟩ (fun events t e t' hrun ht hanswers hstep => ?_) hafter hanswers
  · obtain ⟨-, m, hstage, hle⟩ := hcourse
    exact ⟨by omega, hstage.decides, calculateMttr_ok_of_valid⟩
  · obtain ⟨hlife, m, hstage, hle⟩ := ht
    refine ⟨hlife.step hstep, ?_⟩
    rw [List.countP_append, List.countP_singleton]
    cases hown : e.isStepOf k with
    | false => exact ⟨m, hstage.of_other hrun hown hstep, hle⟩
    | true =>
      cases e with
      | step j i io =>
        obtain rfl : j = k := by simpa [IncidentEvent.isStepOf] using hown
        obtain ⟨m', hstage', hlt⟩ := hstage.of_own hrun hlife hanswers hstep
        exact ⟨m', hstage', by simp only [if_true]; omega⟩
      | _ => cases hown

/-- The item is resolved, and its RCA is submitted; the cache is out of reach. -/
def submittedEvents : List IncidentEvent := resolvedEvents ++ [.start (closeRequest 5000)]

/-- The call commits, and its cache write fails. -/
def closingEvents : List IncidentEvent :=
  .step 2 0 ⟨.ok, 5000⟩ :: List.replicate 3
    (.step 2 0 ⟨.fault false (.redis "ECONNREFUSED"), 5000⟩)

theorem submitIncidentRca_decides_closing : ∃ s₀ s₁ s r,
    (lts .standard).run empty submittedEvents = some s₀ ∧
    s₀.step .standard (.step 2 0 ⟨.ok, 5000⟩) = some s₁ ∧
    (lts .standard).run s₁ closingEvents = some s ∧ s.Finished ∧
    (closingEvents.countP (·.isStepOf 2) ≤ 4 ∧
      DecidesOrProceeds .standard 2 s₁ "w" rcaBody "operator" 5000 r closingEvents s ∧
      (rcaErrors (fun _ => none) rcaBody 5000 r = [] →
        ∃ mttrSeconds, calculateMttr r.firstSignalAt 5000 = .ok mttrSeconds)) := by
  have hobserved : ((lts .standard).run empty submittedEvents).bind (fun s₀ =>
      (s₀.step .standard (.step 2 0 ⟨.ok, 5000⟩)).bind fun s₁ =>
        ((lts .standard).run s₁ closingEvents).map fun s =>
          ((s₀.stores.postgres.row "w").isSome,
            decide ((lts .standard).Meets (AnswersTransaction 2) s₁ closingEvents ∧ s.Finished),
            s₀.calls.length)) = some (true, true, 3) := by
    decide +kernel
  obtain ⟨s₀, hbefore, hs₀⟩ := Option.bind_eq_some_iff.1 hobserved
  obtain ⟨s₁, hfind, hs₁⟩ := Option.bind_eq_some_iff.1 hs₀
  obtain ⟨s, hafter, hs⟩ := Option.map_eq_some_iff.1 hs₁
  simp only [Prod.mk.injEq, decide_eq_true_eq] at hs
  obtain ⟨hrow, ⟨hanswers, hfinished⟩, hlength⟩ := hs
  obtain ⟨r, hr⟩ := Option.isSome_iff_exists.1 hrow
  -- the call is the third one
  obtain ⟨s', -, hstart⟩ := Lts.run_concat_inv hbefore
  cases hstart
  obtain hcalls : s'.calls.length = 2 := by simpa using hlength
  have hat : (IncidentSystem.mk s'.stores (s'.calls ++ [⟨(closeRequest 5000).task, []⟩])
      s'.reports).WorkflowAt 2 (.submitIncidentRca "w" rcaBody "operator" 5000) (.find 1) := by
    refine ⟨[], ?_⟩
    rw [List.getElem?_append_right (by omega), hcalls]
    rfl
  exact ⟨_, s₁, s, r, hbefore, hfind, hafter, hfinished,
    submitIncidentRca_decides hbefore hat hr rfl hfind hafter hanswers⟩

end IncidentSystem

end InveniOps.Incidents
