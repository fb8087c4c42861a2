import InveniOps.Lib.Lts
import InveniOps.Lib.ListFacts
import InveniOps.WorkItems.WorkflowService
import InveniOps.Dashboard.DashboardProjection

/-!
# Runs of the incident services

Any number of calls of the workflow service, of the dashboard's reads and of the
worker's update of counts and cache, over one Postgres and one cache.  A call
remembers the writes with which its steps changed the tables.
-/

namespace InveniOps.Incidents

open Lib Stores WorkItems Dashboard

/-! ### The worker's update -/

/-- A call of `incrementSignalCount`, in the given attempt of its retry wrapper. -/
inductive CountPc
  | pending (workItemId : WorkItemId) (amount attempt : ℕ)
  | fulfilled (updated : WorkItem)
  | rejected (e : Thrown)

namespace CountPc

/-- The call has not been answered yet. -/
def isPending : CountPc → Bool
  | .pending _ _ _ => true
  | _ => false

/-- The row of a call that succeeded. -/
def updated? : CountPc → Option WorkItem
  | .fulfilled updated => some updated
  | _ => none

/-- Behind the reply to the increment. -/
def afterIncrement (workItemId : WorkItemId) (amount attempt : ℕ)
    (reply : Except Thrown WorkItem) : CountPc :=
  match withPostgresRetry attempt reply with
  | .again attempt => .pending workItemId amount attempt
  | .thrown e => .rejected e
  | .returned updated => .fulfilled updated

end CountPc

/-- Where `processBatch` is in its update of the work items that a batch touched. -/
inductive UpdatePc
  /-- At the `Promise.all` of the increments. -/
  | incrementing (counts : List CountPc)
  /-- At the `Promise.all` of `upsertActiveIncident`. -/
  | upserting (writes : List CachePc)
  | threw

namespace UpdatePc

/-- Behind a step of an increment; increments go on when another one has rejected. -/
def afterCounts (counts : List CountPc) : UpdatePc :=
  if counts.any (·.isPending) then .incrementing counts
  else
    match counts.mapM (·.updated?) with
    | some updated => .upserting (updated.map upsertActiveIncident)
    -- an increment has rejected, and with it the `Promise.all`
    | none => .threw

/-- The update takes no more steps. -/
def isOver : UpdatePc → Bool
  | .incrementing _ => false
  | .upserting writes => writes.all (·.isDone)
  | .threw => true

/-- One step; `i` selects among the commands that are awaited together. -/
def step (prisma : PrismaClient) (i : ℕ) (io : StepIo) (st : IncidentStores) :
    UpdatePc → Option (IncidentStores × UpdatePc)
  | .incrementing counts =>
    match counts[i]? with
    | some (.pending workItemId amount attempt) =>
      let reply := perform (Postgres.incrementSignalCount prisma workItemId amount io.now)
        io.outcome st.postgres
      some ({ st with postgres := reply.2 }, afterCounts
        (counts.set i (.afterIncrement workItemId amount attempt reply.1)))
    | _ => none
  | .upserting writes =>
    (cacheStepAt io.outcome io.now st.cache i writes).map fun (cache, writes) =>
      ({ st with cache := cache }, .upserting writes)
  | .threw => none

end UpdatePc

/-! ### Calls -/

/-- The calls that are modelled. -/
inductive Request
  | workflow (request : WorkflowRequest)
  | getIncidentDetail (workItemId : WorkItemId)
  | getActiveIncidents (limit offset : ℕ)
  | updateWorkItems (incrementsByWorkItemId : List (WorkItemId × ℕ))

/-- A call in progress. -/
inductive Task
  | workflow (request : WorkflowRequest) (pc : WorkflowPc)
  | getIncidentDetail (workItemId : WorkItemId) (pc : LookUpPc)
  | getActiveIncidents (limit offset : ℕ) (pc : ActivePc)
  | updateWorkItems (pc : UpdatePc)

/-- A call that has just been made. -/
def Request.task : Request → Task
  | .workflow request => .workflow request (.find 1)
  | .getIncidentDetail workItemId => .getIncidentDetail workItemId .get
  | .getActiveIncidents limit offset => .getActiveIncidents limit offset (.zcard false)
  | .updateWorkItems increments =>
    .updateWorkItems (.afterCounts (increments.map fun (w, amount) => .pending w amount 1))

/-- The services that the calls belong to. -/
structure IncidentServices where
  workflow : WorkflowService
  projection : DashboardProjectionOptions

/-- A step of a call: the stores and the call behind it, and its reports. -/
structure TaskStep where
  stores : IncidentStores
  task : Task
  reports : List Report

namespace Task

/-- The call takes no more steps. -/
def isOver : Task → Bool
  | .workflow _ pc =>
    match pc with
    | .returned _ | .threw _ => true
    | _ => false
  | .getIncidentDetail _ pc => pc.isOver
  | .getActiveIncidents _ _ pc => pc.isOver
  | .updateWorkItems pc => pc.isOver

/-- One step of a call; a call that is over takes none. -/
def step (services : IncidentServices) (i : ℕ) (io : StepIo) (st : IncidentStores) :
    Task → Option TaskStep
  | .workflow request pc => (workflowStep services.workflow request io st pc).map fun step =>
    ⟨step.stores, .workflow request step.pc, step.reports⟩
  | .getIncidentDetail workItemId pc => (pc.step workItemId io st).map fun (st, pc) =>
    ⟨st, .getIncidentDetail workItemId pc, []⟩
  | .getActiveIncidents limit offset pc =>
    (pc.step services.projection limit offset i io st).map fun (st, pc) =>
      ⟨st, .getActiveIncidents limit offset pc, []⟩
  | .updateWorkItems pc => (pc.step services.workflow.prisma i io st).map fun (st, pc) =>
    ⟨st, .updateWorkItems pc, []⟩

end Task

/-- The tables before and behind a step that changed them. -/
structure Effect where
  before : Tables
  after : Tables

/-- A call, with the effects of its steps so far. -/
structure Call where
  task : Task
  effects : List Effect

/-- The effects of a step. -/
def effectsOf (before after : Tables) : List Effect :=
  if before = after then [] else [⟨before, after⟩]

/-! ### The system -/

/-- The stores, the calls and what they have reported. -/
structure IncidentSystem where
  stores : IncidentStores
  calls : List Call
  reports : List Report

/-- What the environment decides: which call takes a step, and what others do. -/
inductive IncidentEvent
  | start (request : Request)
  /-- The `k`-th call takes a step. -/
  | step (k i : ℕ) (io : StepIo)
  /-- An attempt of a call of `createWorkItem`; `uuid` is the generated id. -/
  | createWorkItem (input : CreateWorkItemInput) (uuid : WorkItemId) (io : StepIo)
  /-- An attempt of a call of `recordEscalation`. -/
  | recordEscalation (workItemId : WorkItemId) (actor : String) (io : StepIo)
  /-- A summary outlives its time in the cache. -/
  | summaryExpired (workItemId : WorkItemId)
  | cacheFlushed

/-- The `k`-th call takes a step. -/
def IncidentEvent.isStepOf (k : ℕ) : IncidentEvent → Bool
  | .step j _ _ => j == k
  | _ => false

namespace IncidentSystem

/-- Empty stores, and no call. -/
def empty : IncidentSystem := ⟨⟨.empty, .empty⟩, [], []⟩

variable (services : IncidentServices) (s : IncidentSystem)

/-- Another Postgres. -/
def setPostgres (postgres : Postgres) : IncidentSystem :=
  { s with stores := { s.stores with postgres := postgres } }

/-- Another cache. -/
def setCache (cache : DashboardCache) : IncidentSystem :=
  { s with stores := { s.stores with cache := cache } }

/-- The `k`-th call has taken a step. -/
def onStep (k : ℕ) (call : Call) (step : TaskStep) : IncidentSystem where
  stores := step.stores
  calls := s.calls.set k ⟨step.task, call.effects ++
    effectsOf s.stores.postgres.toTables step.stores.postgres.toTables⟩
  reports := s.reports ++ step.reports

/-- The system behind an event, if the event can happen. -/
def step : IncidentSystem → IncidentEvent → Option IncidentSystem
  | s, .start request => some { s with calls := s.calls ++ [⟨request.task, []⟩] }
  | s, .step k i io =>
    match s.calls[k]? with
    | none => none
    | some call => (call.task.step services i io s.stores).map (s.onStep k call)
  | s, .createWorkItem input uuid io =>
    some (s.setPostgres (perform (Postgres.createWorkItem services.workflow.prisma input uuid
      io.now) io.outcome s.stores.postgres).2)
  | s, .recordEscalation workItemId actor io =>
    some (s.setPostgres (perform (Postgres.recordEscalation services.workflow.prisma workItemId
      actor io.now) io.outcome s.stores.postgres).2)
  | s, .summaryExpired workItemId => some (s.setCache (s.stores.cache.setIncident workItemId none))
  | s, .cacheFlushed => some (s.setCache .empty)

/-- All calls have finished. -/
def Finished : Prop := ∀ call ∈ s.calls, call.task.isOver = true

instance : Decidable s.Finished :=
  inferInstanceAs (Decidable (∀ call ∈ s.calls, call.task.isOver = true))

/-- The incident services as a transition system. -/
def lts : Lts IncidentSystem IncidentEvent := ⟨step services⟩

variable {services s} {s' : IncidentSystem}

lemma step_step_inv {k i : ℕ} {io : StepIo} (h : s.step services (.step k i io) = some s') :
    ∃ call step, s.calls[k]? = some call ∧ call.task.step services i io s.stores = some step ∧
      s' = s.onStep k call step := by
  simp only [step] at h
  split at h
  · cases h
  · rename_i call hcall
    obtain ⟨step, hstep, hs'⟩ := Option.map_eq_some_iff.1 h
    exact ⟨call, step, hcall, hstep, hs'.symm⟩

end IncidentSystem

/-! ### What a step of a call can do to Postgres -/

section

variable {i : ℕ} {io : StepIo} {st st' : IncidentStores}

lemma postgres_of_lookUp {workItemId : WorkItemId} {pc pc' : LookUpPc}
    (h : pc.step workItemId io st = some (st', pc')) : st'.postgres = st.postgres := by
  cases pc with
  | get =>
    simp only [LookUpPc.step] at h
    split at h <;> cases h <;> rfl
  | find attempt =>
    cases h
    exact perform_read rfl _
  | caching found pc =>
    cases h
    rfl
  | _ => cases h

lemma postgres_of_active {options : DashboardProjectionOptions} {limit offset : ℕ}
    {pc pc' : ActivePc} (h : pc.step options limit offset i io st = some (st', pc')) :
    st'.postgres = st.postgres := by
  cases pc with
  | zcard repopulated =>
    cases h
    rfl
  | zrange repopulated total =>
    cases h
    rfl
  | listing =>
    cases h
    exact perform_read rfl _
  | repopulating writes =>
    obtain ⟨_, -, h⟩ := Option.map_eq_some_iff.1 h
    cases h
    rfl
  | summarizing total lookUps =>
    simp only [ActivePc.step] at h
    split at h
    · cases h
    · obtain ⟨⟨st₁, pc₁⟩, hstep, h⟩ := Option.map_eq_some_iff.1 h
      cases h
      exact postgres_of_lookUp hstep
  | direct items total =>
    simp only [ActivePc.step] at h
    split at h
    · cases h
      exact perform_read rfl _
    · cases h
      exact perform_read rfl _
    · cases h
  | returned page => cases h
  | threw e => cases h

lemma postgres_of_update {prisma : PrismaClient} {pc pc' : UpdatePc}
    (h : pc.step prisma i io st = some (st', pc')) :
    st'.postgres = st.postgres ∨ ∃ workItemId amount updated,
      Postgres.incrementSignalCount prisma workItemId amount io.now st.postgres
        = .ok (updated, st'.postgres) := by
  cases pc with
  | incrementing counts =>
    simp only [UpdatePc.step] at h
    split at h
    · rename_i workItemId amount attempt _
      cases h
      exact (perform_snd _ _ _).imp_right fun ⟨updated, h⟩ => ⟨workItemId, amount, updated, h⟩
    · cases h
  | upserting writes =>
    obtain ⟨_, -, h⟩ := Option.map_eq_some_iff.1 h
    cases h
    exact .inl rfl
  | threw => cases h

end

/-- A change of Postgres that moves no work item. -/
inductive PlainRuns (prisma : PrismaClient) (pg : Postgres) : Postgres → Prop
  | same : PlainRuns prisma pg pg
  | created {input : CreateWorkItemInput} {uuid : WorkItemId} {clock : Instant} {r : WorkItem}
      {pg' : Postgres}
      (commits : Postgres.createWorkItem prisma input uuid clock pg = .ok (r, pg')) :
    PlainRuns prisma pg pg'
  | escalated {workItemId : WorkItemId} {actor : String} {clock : Instant} {pg' : Postgres}
      (commits : Postgres.recordEscalation prisma workItemId actor clock pg = .ok ((), pg')) :
    PlainRuns prisma pg pg'
  | incremented {workItemId : WorkItemId} {amount : ℕ} {clock : Instant} {updated : WorkItem}
      {pg' : Postgres} (commits : Postgres.incrementSignalCount prisma workItemId amount clock pg
        = .ok (updated, pg')) :
    PlainRuns prisma pg pg'

/-- Rows stay, but for their counts and the instants of their last updates. -/
lemma PlainRuns.counted {prisma : PrismaClient} {pg pg' : Postgres} (h : PlainRuns prisma pg pg')
    {x : WorkItemId} {r : WorkItem} (hr : pg.row x = some r) : ∃ signalCount updatedAt,
      pg'.row x = some { r with signalCount := signalCount, updatedAt := updatedAt } := by
  cases h with
  | same => exact ⟨r.signalCount, r.updatedAt, hr⟩
  | created commits =>
    obtain ⟨-, hnone, -, hrows⟩ := Postgres.createWorkItem_ok commits
    refine ⟨r.signalCount, r.updatedAt, ?_⟩
    rw [hrows, if_neg, hr]
    rintro rfl
    cases hnone.symm.trans hr
  | escalated commits =>
    refine ⟨r.signalCount, r.updatedAt, ?_⟩
    rw [Postgres.recordEscalation_ok commits, Tables.row_insertTransition, hr]
  | incremented commits =>
    obtain ⟨r₀, hr₀, rfl, hrows, -, -⟩ := Postgres.incrementSignalCount_ok commits
    rw [hrows]
    split_ifs with hx
    · subst hx
      cases hr₀.symm.trans hr
      exact ⟨_, _, rfl⟩
    · exact ⟨r.signalCount, r.updatedAt, hr⟩

lemma PlainRuns.row {prisma : PrismaClient} {pg pg' : Postgres} (h : PlainRuns prisma pg pg')
    {x : WorkItemId} {r : WorkItem} (hr : pg.row x = some r) :
    ∃ r', pg'.row x = some r' ∧ r'.state = r.state ∧ r'.firstSignalAt = r.firstSignalAt := by
  obtain ⟨_, _, hr'⟩ := h.counted hr
  exact ⟨_, hr', rfl, rfl⟩

/-- How an event changes Postgres; `calls` are those before it. -/
inductive PostgresRuns (prisma : PrismaClient) (calls : List Call) (pg pg' : Postgres) : Prop
  | plain (runs : PlainRuns prisma pg pg')
  | wrote {call : Call} {request : WorkflowRequest} {found updated : WorkItem}
      {write : GuardedWrite} {attempt : ℕ} {clock : Instant} (mem : call ∈ calls)
      (transacts : call.task = .workflow request (.transact found write attempt))
      (commits : write.command prisma clock pg = .ok (updated, pg'))

lemma PostgresRuns.row {prisma : PrismaClient} {calls : List Call} {pg pg' : Postgres}
    (h : PostgresRuns prisma calls pg pg') {x : WorkItemId} {r : WorkItem}
    (hr : pg.row x = some r) :
    ∃ r', pg'.row x = some r' ∧ r'.firstSignalAt = r.firstSignalAt := by
  cases h with
  | plain runs =>
    obtain ⟨r', hr', -, hfirst⟩ := runs.row hr
    exact ⟨r', hr', hfirst⟩
  | wrote mem transacts commits =>
    obtain ⟨r₀, hmoved, -, -⟩ := GuardedWrite.command_ok commits
    rw [hmoved.row]
    split_ifs with hx
    · subst hx
      cases hmoved.before.symm.trans hr
      exact ⟨_, rfl, rfl⟩
    · exact ⟨r, hr, rfl⟩

lemma postgresRuns_of_workflow {prisma : PrismaClient} {calls : List Call} {call : Call}
    {request : WorkflowRequest} {io : StepIo} {st st' : IncidentStores} {pc pc' : WorkflowPc}
    (h : WorkflowRuns prisma request io st pc st' pc') (hmem : call ∈ calls)
    (htask : call.task = .workflow request pc) :
    PostgresRuns prisma calls st.postgres st'.postgres := by
  cases h with
  | committed ok commits => exact .wrote hmem htask commits
  | retried left commits =>
    rcases commits with rfl | ⟨-, updated, commits⟩
    · exact .plain .same
    · exact .wrote hmem htask commits
  | broke commits =>
    rcases commits with rfl | ⟨-, updated, commits⟩
    · exact .plain .same
    · exact .wrote hmem htask commits
  | _ => exact .plain .same

namespace IncidentSystem

variable {services : IncidentServices} {s s' : IncidentSystem}

/-- An event moves no work item, unless it is a step of a call of the workflow service; and
then only an escalation appends audit rows. -/
lemma plain_or_workflow_of_step {e : IncidentEvent} (h : s.step services e = some s') :
    PlainRuns services.workflow.prisma s.stores.postgres s'.stores.postgres ∧
        (s'.stores.postgres.stateTransitions = s.stores.postgres.stateTransitions ∨
          ∃ workItemId actor io, e = .recordEscalation workItemId actor io) ∨
      ∃ k i io call request pc pc', e = .step k i io ∧ s.calls[k]? = some call ∧
        call.task = .workflow request pc ∧
        WorkflowRuns services.workflow.prisma request io s.stores pc s'.stores pc' ∧
        ∃ call' ∈ s'.calls, call'.task = .workflow request pc' := by
  cases e with
  | start request =>
    cases h
    exact .inl ⟨.same, .inl rfl⟩
  | step k i io =>
    obtain ⟨⟨task, effects⟩, step, hcall, hstep, rfl⟩ := step_step_inv h
    cases task with
    | workflow request pc =>
      obtain ⟨step, hpc, rfl⟩ := Option.map_eq_some_iff.1 hstep
      exact .inr ⟨k, i, io, _, request, pc, step.pc, rfl, hcall, rfl, workflowRuns_of_step hpc,
        _, mem_set_self_of hcall _, rfl⟩
    | getIncidentDetail workItemId pc =>
      obtain ⟨⟨st, pc'⟩, hpc, rfl⟩ := Option.map_eq_some_iff.1 hstep
      have hsame := postgres_of_lookUp hpc
      exact .inl ⟨hsame ▸ .same, .inl (by rw [← hsame]; rfl)⟩
    | getActiveIncidents limit offset pc =>
      obtain ⟨⟨st, pc'⟩, hpc, rfl⟩ := Option.map_eq_some_iff.1 hstep
      have hsame := postgres_of_active hpc
      exact .inl ⟨hsame ▸ .same, .inl (by rw [← hsame]; rfl)⟩
    | updateWorkItems pc =>
      obtain ⟨⟨st, pc'⟩, hpc, rfl⟩ := Option.map_eq_some_iff.1 hstep
      rcases postgres_of_update hpc with hsame | ⟨_, _, _, hcommits⟩
      · exact .inl ⟨hsame ▸ .same, .inl (by rw [← hsame]; rfl)⟩
      · obtain ⟨_, -, -, -, htransitions, -⟩ := Postgres.incrementSignalCount_ok hcommits
        exact .inl ⟨.incremented hcommits, .inl htransitions⟩
  | createWorkItem input uuid io =>
    cases h
    rcases perform_snd (Postgres.createWorkItem services.workflow.prisma input uuid io.now)
      io.outcome s.stores.postgres with hsame | ⟨r, hcommits⟩
    · exact .inl ⟨hsame.symm ▸ .same, .inl (congrArg _ (congrArg _ hsame))⟩
    · obtain ⟨-, -, htables, -⟩ := Postgres.createWorkItem_ok hcommits
      refine .inl ⟨.created hcommits, .inl ?_⟩
      exact (congrArg Tables.stateTransitions htables).trans rfl
  | recordEscalation workItemId actor io =>
    cases h
    rcases perform_snd (Postgres.recordEscalation services.workflow.prisma workItemId actor io.now)
      io.outcome s.stores.postgres with hsame | ⟨_, hcommits⟩
    · exact .inl ⟨hsame.symm ▸ .same, .inr ⟨_, _, _, rfl⟩⟩
    · exact .inl ⟨.escalated hcommits, .inr ⟨_, _, _, rfl⟩⟩
  | summaryExpired workItemId =>
    cases h
    exact .inl ⟨.same, .inl rfl⟩
  | cacheFlushed =>
    cases h
    exact .inl ⟨.same, .inl rfl⟩

lemma postgresRuns_of_step {e : IncidentEvent} (h : s.step services e = some s') :
    PostgresRuns services.workflow.prisma s.calls s.stores.postgres s'.stores.postgres := by
  rcases plain_or_workflow_of_step h with ⟨hplain, -⟩ |
    ⟨k, i, io, call, request, pc, pc', rfl, hcall, htask, hruns, -⟩
  · exact .plain hplain
  · exact postgresRuns_of_workflow hruns (List.mem_of_getElem? hcall) htask

/-- Audit rows of other events than escalations are those of guarded writes. -/
lemma stateTransitions_of_step {e : IncidentEvent} (h : s.step services e = some s')
    (hother : ∀ workItemId actor io, e ≠ .recordEscalation workItemId actor io) :
    s'.stores.postgres.stateTransitions = s.stores.postgres.stateTransitions ∨
      ∃ call request found updated write attempt clock, call ∈ s.calls ∧
        call.task = .workflow request (.transact found write attempt) ∧
        write.command services.workflow.prisma clock s.stores.postgres
          = .ok (updated, s'.stores.postgres) := by
  rcases plain_or_workflow_of_step h with ⟨-, hsame | ⟨_, _, _, he⟩⟩ |
    ⟨k, i, io, call, request, pc, pc', rfl, hcall, htask, hruns, -⟩
  · exact .inl hsame
  · exact absurd he (hother _ _ _)
  · have hmem := List.mem_of_getElem? hcall
    generalize hst : s'.stores = st' at hruns
    cases hruns with
    | committed ok commits => exact .inr ⟨call, request, _, _, _, _, _, hmem, htask, commits⟩
    | retried left commits =>
      rcases commits with rfl | ⟨-, updated, commits⟩
      · exact .inl rfl
      · exact .inr ⟨call, request, _, _, _, _, _, hmem, htask, commits⟩
    | broke commits =>
      rcases commits with rfl | ⟨-, updated, commits⟩
      · exact .inl rfl
      · exact .inr ⟨call, request, _, _, _, _, _, hmem, htask, commits⟩
    | _ => exact .inl rfl

/-! ### What becomes of the calls -/

/-- A call behind an event was there before, or has started, or has taken a step. -/
lemma mem_calls_of_step {e : IncidentEvent} (h : s.step services e = some s') {call' : Call}
    (hmem : call' ∈ s'.calls) :
    call' ∈ s.calls ∨ (∃ request : Request, call' = ⟨request.task, []⟩ ∧ s'.stores = s.stores) ∨
      ∃ k i io call step, e = .step k i io ∧ s.calls[k]? = some call ∧
        call.task.step services i io s.stores = some step ∧ s'.stores = step.stores ∧
        call' = ⟨step.task, call.effects ++
          effectsOf s.stores.postgres.toTables step.stores.postgres.toTables⟩ := by
  cases e with
  | start request =>
    cases h
    rcases List.mem_append.1 hmem with hold | hnew
    · exact .inl hold
    · exact .inr (.inl ⟨request, List.mem_singleton.1 hnew, rfl⟩)
  | step k i io =>
    obtain ⟨call, step, hcall, hstep, rfl⟩ := step_step_inv h
    rcases List.mem_or_eq_of_mem_set hmem with hold | hnew
    · exact .inl hold
    · exact .inr (.inr ⟨k, i, io, call, step, rfl, hcall, hstep, rfl, hnew⟩)
  | _ =>
    cases h
    exact .inl hmem

/-- A call stays as it is while others take steps. -/
lemma calls_of_other {k : ℕ} {call : Call} {e : IncidentEvent} (he : e.isStepOf k = false)
    (hcall : s.calls[k]? = some call) (hstep : s.step services e = some s') :
    s'.calls[k]? = some call := by
  cases e with
  | start request =>
    cases hstep
    exact getElem?_concat_of hcall _
  | step j i io =>
    obtain ⟨_, step, -, -, rfl⟩ := step_step_inv hstep
    have hne : j ≠ k := by simpa [IncidentEvent.isStepOf] using he
    exact (List.getElem?_set_ne hne).trans hcall
  | _ =>
    cases hstep
    exact hcall

/-- The calls of the workflow service behind an event. -/
lemma workflow_of_step {e : IncidentEvent} (h : s.step services e = some s') {call' : Call}
    {request : WorkflowRequest} {pc' : WorkflowPc} (hmem : call' ∈ s'.calls)
    (htask : call'.task = .workflow request pc') :
    call' ∈ s.calls ∨ (pc' = .find 1 ∧ call'.effects = []) ∨
      ∃ k i io call pc, e = .step k i io ∧ s.calls[k]? = some call ∧
        call.task = .workflow request pc ∧
        WorkflowRuns services.workflow.prisma request io s.stores pc s'.stores pc' ∧
        call'.effects = call.effects ++
          effectsOf s.stores.postgres.toTables s'.stores.postgres.toTables := by
  rcases mem_calls_of_step h hmem with hold | ⟨started, rfl, -⟩ |
    ⟨k, i, io, ⟨task, effects⟩, step, rfl, hcall, hstep, hstores, rfl⟩
  · exact .inl hold
  · cases started with
    | workflow request' =>
      cases htask
      exact .inr (.inl ⟨rfl, rfl⟩)
    | _ => cases htask
  · cases task with
    | workflow request' pc =>
      obtain ⟨step, hpc, rfl⟩ := Option.map_eq_some_iff.1 hstep
      cases htask
      rw [hstores]
      exact .inr (.inr ⟨k, i, io, _, pc, rfl, hcall, rfl, workflowRuns_of_step hpc, rfl⟩)
    | _ =>
      obtain ⟨_, -, rfl⟩ := Option.map_eq_some_iff.1 hstep
      cases htask

variable (s) in
/-- The request has been made. -/
def Requested (request : WorkflowRequest) : Prop :=
  ∃ call ∈ s.calls, ∃ pc, call.task = .workflow request pc

lemma Requested.of_step {e : IncidentEvent} {request : WorkflowRequest}
    (h : s.Requested request) (hstep : s.step services e = some s') : s'.Requested request := by
  obtain ⟨call, hmem, pc, htask⟩ := h
  cases e with
  | start request' =>
    cases hstep
    exact ⟨call, List.mem_append_left _ hmem, pc, htask⟩
  | step k i io =>
    obtain ⟨call₀, step, hcall₀, htaskStep, rfl⟩ := step_step_inv hstep
    obtain ⟨j, hj⟩ := List.getElem?_of_mem hmem
    by_cases hjk : j = k
    · subst hjk
      obtain rfl : call = call₀ := Option.some.inj (hj.symm.trans hcall₀)
      rw [htask] at htaskStep
      obtain ⟨step, -, rfl⟩ := Option.map_eq_some_iff.1 htaskStep
      exact ⟨_, List.mem_set (List.getElem?_eq_some_iff.1 hj).1 _, step.pc, rfl⟩
    · have hkept : (s.onStep k call₀ step).calls[j]? = some call := by
        simpa only [onStep, List.getElem?_set_ne (Ne.symm hjk)] using hj
      exact ⟨call, List.mem_of_getElem? hkept, pc, htask⟩
  | _ =>
    cases hstep
    exact ⟨call, hmem, pc, htask⟩

end IncidentSystem

/-! ### Runs on fixed inputs -/

/-- The default configuration. -/
def IncidentServices.standard : IncidentServices := ⟨⟨⟨fun _ => .undefined⟩, fun _ => none⟩, ⟨1000⟩⟩

/-- The `k`-th call is made and takes some steps, the stores being healthy. -/
def callEvents (k : ℕ) (request : Request) (now : Instant) (steps : ℕ) : List IncidentEvent :=
  .start request :: List.replicate steps (.step k 0 ⟨.ok, now⟩)

/-- A work item `w` of a cache component appears. -/
def itemCreated : IncidentEvent :=
  .createWorkItem ⟨none, "cache-1", .CACHE, .P1, "cache-1 is failing", 1000, some 0⟩ "w" ⟨.ok, 1000⟩

/-- The RCA of `w` in a request body. -/
def rcaBody : Json :=
  .obj [("incidentStartTime", .num 1000), ("incidentEndTime", .num 4000),
    ("rootCauseCategory", .str "UNKNOWN"), ("rootCauseDescription", .str "the node was lost"),
    ("fixApplied", .str "the node was restarted"), ("preventionSteps", .str "a second node")]

/-- Move `w` to a state. -/
def moveRequest (toState : WorkItemStatus) (now : Instant) : Request :=
  .workflow (.transitionWorkItem "w" toState "operator" now)

/-- Close `w` with its RCA. -/
def closeRequest (now : Instant) : Request :=
  .workflow (.submitIncidentRca "w" rcaBody "operator" now)

/-- `w` is created and resolved by two calls. -/
def resolvedEvents : List IncidentEvent :=
  itemCreated :: callEvents 0 (moveRequest .INVESTIGATING 2000) 2000 5
    ++ callEvents 1 (moveRequest .RESOLVED 4000) 4000 5

end InveniOps.Incidents
