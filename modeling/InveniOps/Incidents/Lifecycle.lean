import InveniOps.Incidents.IncidentRuns

/-!
# The lifecycle of a work item

Whatever the calls do at the same time, the audit log of a work item records a walk
along the lifecycle, and its state, its RCA and its timestamps are those of the end
of this walk.  Two invariants carry this: one of the rows, and one of the calls that
stand before their transaction, which have checked the edge of the lifecycle that
their guard will test again.
-/

namespace InveniOps.Incidents

open Lib Domain Stores WorkItems

/-- The edges of a work item's life, in order. -/
def LIFECYCLE : List (WorkItemStatus × WorkItemStatus) :=
  [(.OPEN, .INVESTIGATING), (.INVESTIGATING, .RESOLVED), (.RESOLVED, .CLOSED)]

/-- The edges that lead to a state. -/
def edgesTo : WorkItemStatus → List (WorkItemStatus × WorkItemStatus)
  | .OPEN => LIFECYCLE.take 0
  | .INVESTIGATING => LIFECYCLE.take 1
  | .RESOLVED => LIFECYCLE.take 2
  | .CLOSED => LIFECYCLE.take 3

/-- The edges that audit rows record; the rows of escalations lead from a state to itself. -/
def edgesOf (audit : List StateTransition) : List (WorkItemStatus × WorkItemStatus) :=
  (audit.filter fun row => row.fromState ≠ row.toState).map fun row =>
    (row.fromState, row.toState)

lemma edgesTo_isPrefix_lifecycle (state : WorkItemStatus) : edgesTo state <+: LIFECYCLE := by
  cases state <;> exact List.take_prefix _ _

/-- The last of the edges to a state leads there. -/
lemma getLast?_edgesTo (state : WorkItemStatus) :
    (((edgesTo state).getLast?).map (·.2)).getD .OPEN = state := by
  cases state <;> rfl

/-- A legal transition prolongs the walk. -/
lemma edgesTo_of_edge {state toState : WorkItemStatus}
    (h : toState ∈ getLegalNextStates state) :
    edgesTo toState = edgesTo state ++ [(state, toState)] := by
  cases state <;> cases toState <;> first | rfl | exact absurd h (by decide)

lemma edgesOf_append (audit audit' : List StateTransition) :
    edgesOf (audit ++ audit') = edgesOf audit ++ edgesOf audit' := by
  simp only [edgesOf, List.filter_append, List.map_append]

/-- The RCA rows of a work item. -/
def rcasOf (t : Tables) (id : WorkItemId) : List RcaRecord :=
  t.rcaRecords.filter (·.workItemId = id)

/-- The edge that a guarded write records. -/
lemma edgesOf_auditRow {input : TransitionStateInput} (h : input.fromState ≠ input.toState)
    (clock : Instant) : edgesOf [input.auditRow clock] = [(input.fromState, input.toState)] := by
  simp [edgesOf, TransitionStateInput.auditRow, h]

lemma audit_eq_nil {pg : Postgres} {id : WorkItemId} (h : pg.row id = none) : pg.audit id = [] := by
  simp only [Tables.audit, List.filter_eq_nil_iff, decide_eq_true_eq]
  rintro row hmem rfl
  exact Postgres.row_none_iff.1 h (pg.constraints.state_transitions_work_item_id_fkey row hmem)

lemma rcasOf_eq_nil {pg : Postgres} {id : WorkItemId} (h : pg.row id = none) :
    rcasOf pg.toTables id = [] := by
  simp only [rcasOf, List.filter_eq_nil_iff, decide_eq_true_eq]
  rintro rca hmem rfl
  exact Postgres.row_none_iff.1 h (pg.constraints.rca_records_work_item_id_fkey rca hmem)

/-- A guarded write appends RCA rows of its own work item. -/
lemma rcasOf_of_write {t t' : Tables} {write : GuardedWrite}
    (h : t'.rcaRecords = t.rcaRecords ++ write.rcaRows) (x : WorkItemId) :
    rcasOf t' x = rcasOf t x ++ if write.transition.workItemId = x then write.rcaRows else [] := by
  simp only [rcasOf, h, List.filter_append]
  cases write with
  | transitionState input => simp [GuardedWrite.rcaRows]
  | submitRca input =>
    by_cases hx : input.workItemId = x <;>
      simp [GuardedWrite.rcaRows, GuardedWrite.transition, SubmitRcaInput.transition,
        SubmitRcaInput.rcaRow, hx]

namespace IncidentSystem

variable (s : IncidentSystem)

/-- The RCA row was submitted for the work item, and it was valid by the submitter's clock. -/
def Submitted (r : WorkItem) (rca : RcaRecord) : Prop :=
  (∃ rawRcaInput actor,
      s.Requested (.submitIncidentRca r.id rawRcaInput actor rca.submittedAt)) ∧
    validateRca (candidateOf rca.toRcaFields) ⟨r.firstSignalAt, rca.submittedAt⟩ = []

/-- What holds of every row of `work_items`. -/
structure Lived (r : WorkItem) : Prop where
  edges : edgesOf (s.stores.postgres.audit r.id) = edgesTo r.state
  active : r.state ≠ .CLOSED → rcasOf s.stores.postgres.toTables r.id = []
  closed : r.state = .CLOSED →
    ∃ rca, rcasOf s.stores.postgres.toTables r.id = [rca] ∧ s.Submitted r rca
  resolvedAt : r.resolvedAt.isSome = true ↔ r.state = .RESOLVED ∨ r.state = .CLOSED
  closedAt : r.closedAt.isSome = true ↔ r.state = .CLOSED

/-- What a call has checked that stands before its transaction. -/
def Checked (call : Call) : Prop :=
  ∀ request found write attempt, call.task = .workflow request (.transact found write attempt) →
    Decided found request write ∧
      ∃ r, s.stores.postgres.row request.workItemId = some r ∧
        r.firstSignalAt = found.firstSignalAt

/-- The rows have lived, and the calls before their transactions have checked their edges. -/
structure LifecycleInv : Prop where
  rows : ∀ x r, s.stores.postgres.row x = some r → s.Lived r
  calls : ∀ call ∈ s.calls, s.Checked call

variable {s} {s' : IncidentSystem}

/-- A row that an event leaves alone has lived on. -/
lemma Lived.of_same {r : WorkItem} (h : s.Lived r)
    (hrequests : ∀ request, s.Requested request → s'.Requested request)
    (haudit : edgesOf (s'.stores.postgres.audit r.id) = edgesOf (s.stores.postgres.audit r.id))
    (hrcas : rcasOf s'.stores.postgres.toTables r.id = rcasOf s.stores.postgres.toTables r.id) :
    s'.Lived r := by
  refine ⟨haudit.trans h.edges, fun hactive => hrcas.trans (h.active hactive), ?_,
    h.resolvedAt, h.closedAt⟩
  intro hclosed
  obtain ⟨rca, hrca, ⟨rawRcaInput, actor, hrequest⟩, hvalid⟩ := h.closed hclosed
  exact ⟨rca, hrcas.trans hrca, ⟨rawRcaInput, actor, hrequests _ hrequest⟩, hvalid⟩

/-- A row that is inserted starts its life. -/
lemma lived_of_created {input : CreateWorkItemInput} {uuid : WorkItemId} {clock : Instant}
    (haudit : s'.stores.postgres.audit (input.toRow uuid clock).id = [])
    (hrcas : rcasOf s'.stores.postgres.toTables (input.toRow uuid clock).id = []) :
    s'.Lived (input.toRow uuid clock) := by
  refine ⟨by rw [haudit]; rfl, fun _ => hrcas, nofun, ?_, ?_⟩
  · simp [CreateWorkItemInput.toRow]
  · simp [CreateWorkItemInput.toRow]

/-- A row lives on along the edge that its write has checked. -/
lemma Lived.of_wrote {request : WorkflowRequest} {found r : WorkItem} {write : GuardedWrite}
    {clock : Instant} (h : s.Lived r) (hdecided : Decided found request write)
    (hrequested : s'.Requested request) (hstate : r.state = found.state)
    (hfirst : r.firstSignalAt = found.firstSignalAt) (hid : r.id = write.transition.workItemId)
    (haudit : s'.stores.postgres.audit r.id
      = s.stores.postgres.audit r.id ++ [write.transition.auditRow clock])
    (hrcas : rcasOf s'.stores.postgres.toTables r.id
      = rcasOf s.stores.postgres.toTables r.id ++ write.rcaRows) :
    s'.Lived (write.transition.set clock r) := by
  have hedgesOf : edgesOf (s'.stores.postgres.audit r.id)
      = edgesTo r.state ++ edgesOf [write.transition.auditRow clock] := by
    rw [haudit, edgesOf_append, h.edges]
  cases hdecided with
  | @transition workItemId toState actor now edge stays_active =>
    rw [← hstate] at edge hedgesOf
    have hne := ne_of_mem_getLegalNextStates edge
    have hactive : r.state ≠ .CLOSED := by
      intro hclosed
      rw [hclosed] at edge
      cases edge
    -- from `RESOLVED` the only edge leads to `CLOSED`, which this method refuses
    have hunresolved : r.state ≠ .RESOLVED := by
      intro hresolved
      rw [hresolved] at edge
      exact stays_active (List.mem_singleton.1 edge)
    have hresolvedAt : r.resolvedAt.isSome = false := by
      simpa [hunresolved, hactive] using h.resolvedAt
    have hclosedAt : r.closedAt.isSome = false := by simpa [hactive] using h.closedAt
    refine ⟨?_, ?_, fun hclosed => absurd hclosed stays_active, ?_, ?_⟩
    · exact hedgesOf.trans (by rw [edgesOf_auditRow hne]; exact (edgesTo_of_edge edge).symm)
    · intro _
      exact hrcas.trans (by rw [h.active hactive]; rfl)
    · show ((if toState = .RESOLVED then some now else none) <|> r.resolvedAt).isSome = true ↔
        toState = .RESOLVED ∨ toState = .CLOSED
      by_cases hto : toState = .RESOLVED
      · simp [hto]
      · simp [hto, stays_active, hresolvedAt]
    · show r.closedAt.isSome = true ↔ toState = .CLOSED
      simp [hclosedAt, stays_active]
  | @rca workItemId rawRcaInput actor now rca mttrSeconds resolved valid =>
    rw [← hstate] at resolved
    have hactive : r.state ≠ .CLOSED := by simp [resolved]
    refine ⟨?_, fun hactive => absurd rfl hactive, ?_, ?_, ?_⟩
    · refine hedgesOf.trans ?_
      rw [edgesOf_auditRow (by exact nofun), resolved]
      rfl
    · intro _
      refine ⟨_, hrcas.trans (by rw [h.active hactive]; rfl), ⟨rawRcaInput, actor, ?_⟩, ?_⟩
      · exact hid ▸ hrequested
      · exact hfirst ▸ valid
    · have hresolvedAt := h.resolvedAt.2 (.inl resolved)
      exact iff_of_true hresolvedAt (.inr rfl)
    · exact iff_of_true rfl rfl

/-- The rows live on when Postgres changes without a move. -/
lemma LifecycleInv.rows_of_plain {prisma : PrismaClient} (h : s.LifecycleInv)
    (hrequests : ∀ request, s.Requested request → s'.Requested request)
    (hruns : PlainRuns prisma s.stores.postgres s'.stores.postgres) {x : WorkItemId}
    {r' : WorkItem} (hr' : s'.stores.postgres.row x = some r') : s'.Lived r' := by
  generalize hpg : s'.stores.postgres = pg' at hruns hr'
  cases hruns with
  | same => exact (h.rows x r' hr').of_same hrequests (by rw [hpg]) (by rw [hpg])
  | created commits =>
    obtain ⟨rfl, hnone, htables, hrows⟩ := Postgres.createWorkItem_ok commits
    have haudit : ∀ y, s'.stores.postgres.audit y = s.stores.postgres.audit y := by
      intro y
      rw [hpg, htables]
      rfl
    have hrcas : ∀ y, rcasOf s'.stores.postgres.toTables y
        = rcasOf s.stores.postgres.toTables y := by
      intro y
      rw [hpg, htables]
      rfl
    rw [hrows] at hr'
    split_ifs at hr' with hx
    · cases hr'
      exact lived_of_created ((haudit _).trans (audit_eq_nil hnone))
        ((hrcas _).trans (rcasOf_eq_nil hnone))
    · exact (h.rows x r' hr').of_same hrequests (by rw [haudit]) (hrcas _)
  | escalated commits =>
    have htables := Postgres.recordEscalation_ok commits
    rw [htables, Tables.row_insertTransition] at hr'
    refine (h.rows x r' hr').of_same hrequests ?_ (by rw [hpg, htables]; rfl)
    rw [hpg, htables, Tables.audit_insertTransition, edgesOf_append]
    split_ifs <;> exact List.append_nil _
  | incremented commits =>
    obtain ⟨r, hr, rfl, hrows, htransitions, hrcas⟩ := Postgres.incrementSignalCount_ok commits
    have haudit : ∀ y, s'.stores.postgres.audit y = s.stores.postgres.audit y := by
      intro y
      simp only [hpg, Tables.audit, htransitions]
    have hrcasOf : ∀ y, rcasOf s'.stores.postgres.toTables y
        = rcasOf s.stores.postgres.toTables y := by
      intro y
      simp only [hpg, rcasOf, hrcas]
    rw [hrows] at hr'
    split_ifs at hr' with hx
    · cases hr'
      have hlived := (h.rows _ r hr).of_same hrequests (by rw [haudit]) (hrcasOf _)
      exact ⟨hlived.edges, hlived.active, hlived.closed, hlived.resolvedAt, hlived.closedAt⟩
    · exact (h.rows x r' hr').of_same hrequests (by rw [haudit]) (hrcasOf _)

/-- A step of the row invariant. -/
lemma LifecycleInv.rows_of_step {services : IncidentServices} (h : s.LifecycleInv)
    {e : IncidentEvent} (hstep : s.step services e = some s') {x : WorkItemId} {r' : WorkItem}
    (hr' : s'.stores.postgres.row x = some r') : s'.Lived r' := by
  have hrequests : ∀ request, s.Requested request → s'.Requested request :=
    fun _ hrequest => hrequest.of_step hstep
  cases postgresRuns_of_step hstep with
  | plain runs => exact h.rows_of_plain hrequests runs hr'
  | @wrote call request found updated write attempt clock hmem htask commits =>
    obtain ⟨hdecided, r, hr, hfirst⟩ := h.calls call hmem request found write attempt htask
    obtain ⟨r₁, hmoved, -, hrcas⟩ := GuardedWrite.command_ok commits
    have hid : request.workItemId = write.transition.workItemId := by cases hdecided <;> rfl
    -- the guard of the write is on the state that the call has read
    have hguard : write.transition.fromState = found.state := by
      cases hdecided with
      | transition => rfl
      | rca resolved => exact resolved.symm
    obtain rfl : r₁ = r := by
      rw [hid, hmoved.before] at hr
      exact Option.some.inj hr
    have haudit := hmoved.audit
    rw [hmoved.row] at hr'
    split_ifs at hr' with hx
    · cases hr'
      have hrid : r₁.id = write.transition.workItemId := Tables.row_id hmoved.before
      refine (h.rows _ r₁ hmoved.before).of_wrote hdecided
        (hrequests _ ⟨call, hmem, _, htask⟩) (hmoved.guard.trans hguard) hfirst hrid ?_ ?_
      · rw [haudit, if_pos hrid.symm]
      · rw [rcasOf_of_write hrcas, if_pos hrid.symm]
    · -- another row: neither its audit nor its RCA rows change
      have hne : write.transition.workItemId ≠ r'.id :=
        fun heq => hx ((Tables.row_id hr').symm.trans heq.symm)
      refine (h.rows x r' hr').of_same hrequests ?_ ?_
      · rw [haudit, if_neg hne, List.append_nil]
      · rw [rcasOf_of_write hrcas, if_neg hne, List.append_nil]

lemma Checked.of_step {services : IncidentServices} {e : IncidentEvent} {call : Call}
    (h : s.Checked call) (hstep : s.step services e = some s') : s'.Checked call := by
  intro request found write attempt htask
  obtain ⟨hdecided, r, hr, hfirst⟩ := h request found write attempt htask
  obtain ⟨r', hr', hfirst'⟩ := (postgresRuns_of_step hstep).row hr
  exact ⟨hdecided, r', hr', hfirst'.trans hfirst⟩

/-- A step of the call invariant. -/
lemma LifecycleInv.calls_of_step {services : IncidentServices} (h : s.LifecycleInv)
    {e : IncidentEvent} (hstep : s.step services e = some s') {call' : Call}
    (hmem : call' ∈ s'.calls) : s'.Checked call' := by
  intro request found write attempt htask
  rcases workflow_of_step hstep hmem htask with hold | ⟨hfind, -⟩ |
    ⟨k, i, io, call, pc, rfl, hcall, hpc, hruns, -⟩
  · exact (h.calls call' hold).of_step hstep request found write attempt htask
  · cases hfind
  · rcases hruns.transact_inv with ⟨hsame, hrow, hdecided⟩ | ⟨n, rfl⟩
    · exact ⟨hdecided, found, by rw [hsame]; exact hrow, rfl⟩
    · have hchecked := h.calls call (List.mem_of_getElem? hcall)
      exact hchecked.of_step hstep request found write n hpc

lemma LifecycleInv.step {services : IncidentServices} (h : s.LifecycleInv) {e : IncidentEvent}
    (hstep : s.step services e = some s') : s'.LifecycleInv :=
  ⟨fun _ _ => h.rows_of_step hstep, fun _ => h.calls_of_step hstep⟩

lemma lifecycleInv_empty : empty.LifecycleInv :=
  ⟨fun _ _ hr => (nomatch hr), fun _ hmem => (nomatch hmem)⟩

/-! ### The invariant of the runs -/

variable (s) in
/-- A row has walked a part of the lifecycle, and all that is recorded of it agrees. -/
structure Lifecycle (r : WorkItem) : Prop where
  edges : edgesOf (s.stores.postgres.audit r.id) <+: LIFECYCLE
  state : r.state
    = (((edgesOf (s.stores.postgres.audit r.id)).getLast?).map (·.2)).getD .OPEN
  rca_iff : (∃ rca, rca ∈ rcasOf s.stores.postgres.toTables r.id) ↔ r.state = .CLOSED
  rca : ∀ rca ∈ rcasOf s.stores.postgres.toTables r.id,
    rcasOf s.stores.postgres.toTables r.id = [rca] ∧ s.Submitted r rca
  closedAt : r.closedAt.isSome = true ↔ r.state = .CLOSED
  resolvedAt : r.resolvedAt.isSome = true ↔ r.state = .RESOLVED ∨ r.state = .CLOSED

lemma Lived.lifecycle {r : WorkItem} (h : s.Lived r) : s.Lifecycle r := by
  refine ⟨h.edges ▸ edgesTo_isPrefix_lifecycle _, by rw [h.edges, getLast?_edgesTo],
    ⟨?_, fun hclosed => ?_⟩, fun rca hmem => ?_, h.closedAt, h.resolvedAt⟩
  · rintro ⟨rca, hmem⟩
    by_contra hactive
    rw [h.active hactive] at hmem
    cases hmem
  · obtain ⟨rca, hrca, -⟩ := h.closed hclosed
    exact ⟨rca, hrca ▸ List.mem_singleton_self _⟩
  · by_cases hclosed : r.state = .CLOSED
    · obtain ⟨rca', hrca, hsubmitted⟩ := h.closed hclosed
      rw [hrca] at hmem ⊢
      obtain rfl := List.mem_singleton.1 hmem
      exact ⟨rfl, hsubmitted⟩
    · rw [h.active hclosed] at hmem
      cases hmem

/-- In every reachable state every work item has walked a part of its lifecycle. -/
theorem lifecycle_of_run {services : IncidentServices} {events : List IncidentEvent}
    (hrun : (lts services).run empty events = some s) {x : WorkItemId} {r : WorkItem}
    (hr : s.stores.postgres.row x = some r) : s.Lifecycle r := by
  have hstep : ∀ s e s', s.LifecycleInv → (lts services).step s e = some s' → s'.LifecycleInv :=
    fun _ _ _ h hstep => h.step hstep
  exact ((Lts.run_invariant hstep hrun lifecycleInv_empty).rows x r hr).lifecycle

/-- The life of a work item that is escalated, counted and closed. -/
def closedEvents : List IncidentEvent :=
  resolvedEvents ++ .recordEscalation "w" "scheduler" ⟨.ok, 4500⟩ ::
    callEvents 2 (.updateWorkItems [("w", 3)]) 4600 3 ++ callEvents 3 (closeRequest 5000) 5000 5

theorem lifecycle_of_closedEvents : ∃ s r, (lts .standard).run empty closedEvents = some s ∧
    s.stores.postgres.row "w" = some r ∧ r.state = .CLOSED ∧ r.signalCount = 3 ∧
      s.Lifecycle r := by
  have hobserved : ((lts .standard).run empty closedEvents).map
      (fun s => (s.stores.postgres.row "w").map fun r => (r.state, r.signalCount))
        = some (some (.CLOSED, 3)) := by
    decide +kernel
  obtain ⟨s, hrun, hs⟩ := Option.map_eq_some_iff.1 hobserved
  obtain ⟨r, hr, hstate⟩ := Option.map_eq_some_iff.1 hs
  simp only [Prod.mk.injEq] at hstate
  exact ⟨s, r, hrun, hr, hstate.1, hstate.2, lifecycle_of_run hrun hr⟩

end IncidentSystem

end InveniOps.Incidents
