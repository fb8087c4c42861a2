import InveniOps.Incidents.IncidentRuns

/-!
# Reported outcomes and effects

A call of the workflow service moves its work item in one transaction and reports
what came of it.  Report and effect agree unless a transaction is carried out behind
a transient error: the retry then finds the guard false and reports a lost race.
-/

namespace InveniOps.Incidents

open Lib Domain Stores WorkItems

/-- The state that a call is to lead to. -/
def requestedState : WorkflowRequest → WorkItemStatus
  | .transitionWorkItem _ toState _ _ => toState
  | .submitIncidentRca _ _ _ _ => .CLOSED

/-- The effect moves the work item of the request, and appends `row` to the audit log. -/
structure Effect.Moves (effect : Effect) (request : WorkflowRequest) (row : StateTransition) :
    Prop where
  audit : effect.after.stateTransitions = effect.before.stateTransitions ++ [row]
  workItemId : row.workItemId = request.workItemId
  toState : row.toState = requestedState request
  changes : row.fromState ≠ row.toState
  before : (effect.before.row request.workItemId).map (·.state) = some row.fromState
  after : (effect.after.row request.workItemId).map (·.state) = some row.toState

/-- All that the call did was to move its work item, with one audit row. -/
def MovedBy (request : WorkflowRequest) (effects : List Effect) : Prop :=
  ∃ effect row, effects = [effect] ∧ effect.Moves request row

lemma not_movedBy_nil (request : WorkflowRequest) : ¬ MovedBy request [] := by
  rintro ⟨effect, row, h, -⟩
  cases h

/-- A committed write of a call moves its work item. -/
lemma moves_of_command {prisma : PrismaClient} {request : WorkflowRequest} {found : WorkItem}
    {write : GuardedWrite} {clock : Instant} {pg pg' : Postgres} {updated : WorkItem}
    (hdecided : Decided found request write)
    (h : write.command prisma clock pg = .ok (updated, pg')) :
    Effect.Moves ⟨pg.toTables, pg'.toTables⟩ request (write.transition.auditRow clock) := by
  obtain ⟨r, hmoved, -, -⟩ := GuardedWrite.command_ok h
  have hid : request.workItemId = write.transition.workItemId := by cases hdecided <;> rfl
  have hto : write.transition.toState = requestedState request := by cases hdecided <;> rfl
  have hne : write.transition.fromState ≠ write.transition.toState := by
    cases hdecided with
    | transition edge stays_active => exact ne_of_mem_getLegalNextStates edge
    | rca resolved valid => exact nofun
  refine ⟨hmoved.stateTransitions, hid.symm, hto, hne, ?_, ?_⟩
  · show (pg.row request.workItemId).map (·.state) = some write.transition.fromState
    rw [hid, hmoved.before, Option.map_some, hmoved.guard]
  · show (pg'.row request.workItemId).map (·.state) = some write.transition.toState
    rw [hid, hmoved.row, if_pos rfl]
    rfl

/-- A move is an effect. -/
lemma effectsOf_of_moves {t t' : Tables} {request : WorkflowRequest} {row : StateTransition}
    (h : Effect.Moves ⟨t, t'⟩ request row) : effectsOf t t' = [⟨t, t'⟩] := by
  refine if_neg ?_
  rintro rfl
  have hlength := congrArg List.length h.audit
  simp at hlength

@[simp] lemma effectsOf_same (t : Tables) : effectsOf t t = [] := if_pos rfl

/-- The guard of a write that is carried out holds. -/
lemma any_selects_of_command {prisma : PrismaClient} {write : GuardedWrite} {clock : Instant}
    {pg pg' : Postgres} {updated : WorkItem}
    (h : write.command prisma clock pg = .ok (updated, pg')) :
    pg.workItems.any write.transition.selects = true := by
  obtain ⟨r, hmoved, -, -⟩ := GuardedWrite.command_ok h
  refine List.any_eq_true.2 ⟨r, Tables.row_mem hmoved.before, ?_⟩
  simp [TransitionStateInput.selects, Tables.row_id hmoved.before, hmoved.guard]

/-! ### The invariant -/

/-- What a call has done when it is at a point of its method. -/
def Accounts (request : WorkflowRequest) (effects : List Effect) : WorkflowPc → Prop
  | .find _ => effects = []
  | .transact found write _ => effects = [] ∧ Decided found request write
  | .caching _ _ _ _ | .reporting _ _ _ => MovedBy request effects
  | .returned outcome =>
    (outcome.isSuccess = true → MovedBy request effects) ∧
      (outcome.isSuccess = false → effects = [])
  | .threw _ => True

/-- The transaction is not carried out behind an error that is retried. -/
def Acknowledged (io : StepIo) (attempt : ℕ) (write : GuardedWrite) (pg : Postgres) : Prop :=
  match io.outcome with
  | .fault true e => shouldRetry (.store e) = true → attempt ≠ ATTEMPTS →
      pg.workItems.any write.transition.selects = false
  | _ => True

instance (io : StepIo) (attempt : ℕ) (write : GuardedWrite) (pg : Postgres) :
    Decidable (Acknowledged io attempt write pg) :=
  match io with
  | ⟨.ok, _⟩ | ⟨.fault true _, _⟩ | ⟨.fault false _, _⟩ => by
    delta Acknowledged
    infer_instance

/-- If the next step of the call is its transaction, then that is acknowledged. -/
def Call.Acknowledges (call : Call) (io : StepIo) (pg : Postgres) : Prop :=
  match call.task with
  | .workflow _ (.transact _ write attempt) => Acknowledged io attempt write pg
  | _ => True

instance (call : Call) (io : StepIo) (pg : Postgres) : Decidable (call.Acknowledges io pg) :=
  match call with
  | ⟨.workflow _ (.transact _ _ _), _⟩ | ⟨.workflow _ (.find _), _⟩
  | ⟨.workflow _ (.caching _ _ _ _), _⟩ | ⟨.workflow _ (.reporting _ _ _), _⟩
  | ⟨.workflow _ (.returned _), _⟩ | ⟨.workflow _ (.threw _), _⟩ | ⟨.getIncidentDetail _ _, _⟩
  | ⟨.getActiveIncidents _ _ _, _⟩ | ⟨.updateWorkItems _, _⟩ => by
    delta Call.Acknowledges
    infer_instance

/-- A step keeps the account of a call. -/
lemma Accounts.of_runs {prisma : PrismaClient} {request : WorkflowRequest} {io : StepIo}
    {st st' : IncidentStores} {pc pc' : WorkflowPc} {effects : List Effect}
    (h : Accounts request effects pc)
    (hack : ∀ found write attempt, pc = .transact found write attempt →
      Acknowledged io attempt write st.postgres)
    (hruns : WorkflowRuns prisma request io st pc st' pc') :
    Accounts request (effects ++ effectsOf st.postgres.toTables st'.postgres.toTables) pc' := by
  cases hruns with
  | again =>
    rw [effectsOf_same, List.append_nil]
    exact h
  | failed => trivial
  | answered fails =>
    obtain rfl : effects = [] := h
    rw [effectsOf_same]
    exact ⟨fun hsuccess => absurd hsuccess (by simp [fails]), fun _ => rfl⟩
  | found row decided =>
    obtain rfl : effects = [] := h
    rw [effectsOf_same]
    exact ⟨rfl, decided⟩
  | committed ok commits =>
    obtain ⟨rfl, hdecided⟩ := h
    have hmoves := moves_of_command hdecided commits
    rw [effectsOf_of_moves hmoves]
    exact ⟨_, _, rfl, hmoves⟩
  | @retried found write attempt pg left commits =>
    rcases commits with rfl | ⟨⟨e, hfault, hretry⟩, updated, commits⟩
    · rw [effectsOf_same, List.append_nil]
      exact h
    · -- the transaction was carried out: its guard was true
      have hguard := hack found write attempt rfl
      simp only [Acknowledged, hfault] at hguard
      rw [any_selects_of_command commits] at hguard
      exact absurd (hguard hretry left) (by decide)
  | lost =>
    obtain ⟨rfl, -⟩ := h
    rw [effectsOf_same]
    refine ⟨?_, fun _ => rfl⟩
    intro hsuccess
    exact absurd hsuccess (by simp [GuardedWrite.isSuccess_lostRace])
  | broke commits => trivial
  | caching more =>
    rw [effectsOf_same, List.append_nil]
    exact h
  | cached last =>
    rw [effectsOf_same, List.append_nil]
    exact h
  | @reported found updated write =>
    rw [effectsOf_same, List.append_nil]
    exact ⟨fun _ => h, fun hfails => absurd hfails (by simp [GuardedWrite.isSuccess_success])⟩

/-- The call has returned a failure. -/
def Call.reportsFailure (call : Call) : Bool :=
  match call.task with
  | .workflow _ (.returned outcome) => !outcome.isSuccess
  | _ => false

namespace IncidentSystem

/-- The condition on an event: if it is a transaction of a call, then that is acknowledged. -/
def AcknowledgesCommit (s : IncidentSystem) : IncidentEvent → Prop
  | .step k _ io => ∀ call ∈ s.calls[k]?, call.Acknowledges io s.stores.postgres
  | _ => True

instance (s : IncidentSystem) (e : IncidentEvent) : Decidable (s.AcknowledgesCommit e) :=
  match e with
  | .start _ | .step _ _ _ | .createWorkItem _ _ _ | .recordEscalation _ _ _
  | .summaryExpired _ | .cacheFlushed => by
    delta AcknowledgesCommit
    infer_instance

/-- Every outcome that has been reported is right about what its call did. -/
def ReportsTruly (s : IncidentSystem) : Prop :=
  ∀ call ∈ s.calls, ∀ request outcome, call.task = .workflow request (.returned outcome) →
    (outcome.isSuccess = true ↔ MovedBy request call.effects) ∧
      (outcome.isSuccess = false → call.effects = [])

/-- Every call's account is right. -/
def OutcomeInv (s : IncidentSystem) : Prop :=
  ∀ call ∈ s.calls, ∀ request pc, call.task = .workflow request pc →
    Accounts request call.effects pc

variable {services : IncidentServices} {s s' : IncidentSystem}

lemma OutcomeInv.step (h : s.OutcomeInv) {e : IncidentEvent} (he : s.AcknowledgesCommit e)
    (hstep : s.step services e = some s') : s'.OutcomeInv := by
  intro call' hmem request pc' htask
  rcases workflow_of_step hstep hmem htask with hold | ⟨rfl, heffects⟩ |
    ⟨k, i, io, ⟨task, effects⟩, pc, rfl, hcall, rfl, hruns, heffects⟩
  · exact h call' hold request pc' htask
  · exact heffects
  · rw [heffects]
    refine (h _ (List.mem_of_getElem? hcall) request pc rfl).of_runs ?_ hruns
    rintro found write attempt rfl
    exact he _ hcall

/-- In every run whose commits are acknowledged the outcomes agree with the effects. -/
theorem reportsTruly_of_run {events : List IncidentEvent}
    (hmeets : (lts services).Meets AcknowledgesCommit empty events)
    (hrun : (lts services).run empty events = some s) : s.ReportsTruly := by
  have hstep : ∀ s e s', s.OutcomeInv → s.AcknowledgesCommit e →
      (lts services).step s e = some s' → s'.OutcomeInv := fun _ _ _ h he hstep => h.step he hstep
  have h₀ : empty.OutcomeInv := fun _ hmem => (nomatch hmem)
  intro call hmem request outcome htask
  obtain ⟨hsuccess, hfailure⟩ :=
    Lts.run_invariant_of_meets hstep hrun hmeets h₀ call hmem request _ htask
  refine ⟨⟨hsuccess, ?_⟩, hfailure⟩
  -- a call that moved the item has not reported a failure
  intro hmoved
  by_contra hfails
  rw [hfailure (Bool.not_eq_true _ ▸ hfails)] at hmoved
  exact not_movedBy_nil request hmoved

/-- The connection closes under a statement. -/
def connectionClosed (applied : Bool) : StepIo :=
  ⟨.fault applied (.prisma (.knownRequest "P1017" .undefined)), 2000⟩

/-- Two calls race for one edge; the winner's transaction is not carried out at first. -/
def racingEvents : List IncidentEvent :=
  [itemCreated, .start (moveRequest .INVESTIGATING 2000), .start (moveRequest .INVESTIGATING 2000),
    .step 0 0 ⟨.ok, 2000⟩, .step 1 0 ⟨.ok, 2000⟩, .step 0 0 (connectionClosed false),
    .step 0 0 ⟨.ok, 2000⟩, .step 1 0 ⟨.ok, 2000⟩]
    ++ List.replicate 3 (.step 0 0 ⟨.ok, 2000⟩)

theorem reportsTruly_of_racingEvents : ∃ s, (lts .standard).run empty racingEvents = some s ∧
    s.ReportsTruly ∧ s.Finished ∧ s.calls.map (·.effects.length) = [1, 0] := by
  have hobserved : ((lts .standard).run empty racingEvents).map
      (fun s => decide (s.Finished ∧ s.calls.map (·.effects.length) = [1, 0])) = some true := by
    decide +kernel
  have hmeets : (lts .standard).Meets AcknowledgesCommit empty racingEvents := by
    decide +kernel
  obtain ⟨s, hrun, hs⟩ := Option.map_eq_some_iff.1 hobserved
  exact ⟨s, hrun, reportsTruly_of_run hmeets hrun, of_decide_eq_true hs⟩

/-- A call whose transaction is carried out while the connection closes. -/
def unacknowledgedEvents : List IncidentEvent :=
  [itemCreated, .start (moveRequest .INVESTIGATING 2000), .step 0 0 ⟨.ok, 2000⟩,
    .step 0 0 (connectionClosed true), .step 0 0 ⟨.ok, 2000⟩]

/-- The call moves the work item and reports a conflict. -/
theorem moved_item_reported_conflict :
    ¬ ∀ events s, (lts .standard).run empty events = some s → s.ReportsTruly := by
  intro hclaim
  have hobserved : ((lts .standard).run empty unacknowledgedEvents).map
      (fun s => s.calls.any fun call => call.reportsFailure && !call.effects.isEmpty)
        = some true := by
    decide +kernel
  obtain ⟨s, hrun, hs⟩ := Option.map_eq_some_iff.1 hobserved
  obtain ⟨call, hmem, hcall⟩ := List.any_eq_true.1 hs
  obtain ⟨hfailure, heffects⟩ := Bool.and_eq_true_iff.1 hcall
  unfold Call.reportsFailure at hfailure
  split at hfailure
  · rename_i request outcome htask
    have htruly := (hclaim _ s hrun call hmem request outcome htask).2
    rw [htruly (by simpa using hfailure)] at heffects
    cases heffects
  · cases hfailure

end IncidentSystem

end InveniOps.Incidents
