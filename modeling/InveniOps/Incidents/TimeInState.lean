import InveniOps.Incidents.Lifecycle

/-!
# The time that a work item was in a state

A transition reports how long its work item was in the state that it leaves, and
measures it from the `updatedAt` of the row that it has read.  That is when the
item entered the state, unless something else has updated the row since: counting
its signals does.
-/

namespace InveniOps.Incidents

open Lib Domain Stores WorkItems

/-- When a work item entered a state: its creation, or its first transition there. -/
def enteredAt (t : Tables) (w : WorkItemId) : WorkItemStatus → Option Instant
  | .OPEN => (t.row w).map (·.createdAt)
  | state => ((t.audit w).find? fun row => row.fromState ≠ row.toState ∧ row.toState = state).map
      (·.occurredAt)

lemma enteredAt_eq {t : Tables} {w : WorkItemId} {state : WorkItemStatus} (h : state ≠ .OPEN) :
    enteredAt t w state = ((t.audit w).find? fun row =>
      row.fromState ≠ row.toState ∧ row.toState = state).map (·.occurredAt) := by
  cases state with
  | OPEN => exact absurd rfl h
  | _ => rfl

/-! ### What the tables keep -/

section

variable {prisma : PrismaClient} {pg pg' : Postgres}

lemma PlainRuns.audit (h : PlainRuns prisma pg pg') (w : WorkItemId) :
    pg.audit w <+: pg'.audit w := by
  cases h with
  | same => exact List.prefix_refl _
  | created commits =>
    obtain ⟨-, -, htables, -⟩ := Postgres.createWorkItem_ok commits
    rw [htables]
    exact List.prefix_refl _
  | escalated commits =>
    rw [Postgres.recordEscalation_ok commits, Tables.audit_insertTransition]
    exact List.prefix_append _ _
  | incremented commits =>
    obtain ⟨_, -, -, -, htransitions, -⟩ := Postgres.incrementSignalCount_ok commits
    simp only [Tables.audit, htransitions]
    exact List.prefix_refl _

/-- Rows keep the instant of their creation, and audit rows stay. -/
lemma PostgresRuns.history {calls : List Call} (h : PostgresRuns prisma calls pg pg')
    (w : WorkItemId) : pg.audit w <+: pg'.audit w ∧ ∀ r, pg.row w = some r →
      ∃ r', pg'.row w = some r' ∧ r'.createdAt = r.createdAt := by
  cases h with
  | plain runs =>
    refine ⟨runs.audit w, fun r hr => ?_⟩
    obtain ⟨_, _, hr'⟩ := runs.counted hr
    exact ⟨_, hr', rfl⟩
  | wrote mem transacts commits =>
    obtain ⟨r₀, hmoved, -, -⟩ := GuardedWrite.command_ok commits
    refine ⟨hmoved.audit w ▸ List.prefix_append _ _, fun r hr => ?_⟩
    rw [hmoved.row]
    split_ifs with hx
    · subst hx
      cases hmoved.before.symm.trans hr
      exact ⟨_, rfl, rfl⟩
    · exact ⟨r, hr, rfl⟩

end

namespace IncidentSystem

variable {services : IncidentServices} {s s' : IncidentSystem} {w : WorkItemId}

/-- When a work item has entered a state never changes. -/
lemma enteredAt_of_step {e : IncidentEvent} (hstep : s.step services e = some s')
    {state : WorkItemStatus} {entry : Instant}
    (h : enteredAt s.stores.postgres.toTables w state = some entry) :
    enteredAt s'.stores.postgres.toTables w state = some entry := by
  obtain ⟨⟨rows, haudit⟩, hcreated⟩ := (postgresRuns_of_step hstep).history w
  by_cases hopen : state = .OPEN
  · subst hopen
    obtain ⟨r, hr, rfl⟩ := Option.map_eq_some_iff.1 h
    obtain ⟨r', hr', hsame⟩ := hcreated r hr
    exact Option.map_eq_some_iff.2 ⟨r', hr', hsame⟩
  · rw [enteredAt_eq hopen] at h ⊢
    obtain ⟨row, hrow, rfl⟩ := Option.map_eq_some_iff.1 h
    rw [← haudit, List.find?_append, hrow]
    rfl

/-! ### What is reported -/

/-- A time in state that a call has reported, with the work item of the call. -/
structure ReportedTime where
  workItemId : WorkItemId
  fromState : WorkItemStatus
  /-- The clock reading of the transition. -/
  ts : Instant
  timeInStateMs : ℤ
deriving DecidableEq

/-- The times in state among the reports of a call. -/
def timesOf (workItemId : WorkItemId) (reports : List Report) : List ReportedTime :=
  reports.filterMap fun report =>
    match report with
    | .recordStateTransition ts fromState _ timeInStateMs =>
      some ⟨workItemId, fromState, ts, timeInStateMs⟩
    | _ => none

/-- The times in state that an event reports. -/
def timesReported (services : IncidentServices) (s : IncidentSystem) :
    IncidentEvent → List ReportedTime
  | .step k _ io =>
    match (s.calls[k]?).map Call.task with
    | some (.workflow request pc) =>
      match workflowStep services.workflow request io s.stores pc with
      | some step => timesOf request.workItemId step.reports
      | none => []
    | _ => []
  | _ => []

/-- The times are those from the entry of the state on. -/
def TimesFromEntry (s : IncidentSystem) (times : List ReportedTime) : Prop :=
  ∀ time ∈ times, ∃ entry,
    enteredAt s.stores.postgres.toTables time.workItemId time.fromState = some entry ∧
      time.timeInStateMs = time.ts - entry

/-- The row was last updated when its work item entered its state, before the clock reading;
or both are not before the reading, and that is the entry itself. -/
def MeasuresEntry (t : Tables) (now : Instant) (r : WorkItem) : Prop :=
  ∃ entry ∈ enteredAt t r.id r.state,
    r.updatedAt = entry ∧ entry ≤ now ∨ now = entry ∧ entry ≤ r.updatedAt

instance (t : Tables) (now : Instant) (r : WorkItem) : Decidable (MeasuresEntry t now r) :=
  inferInstanceAs (Decidable (∃ entry ∈ enteredAt t r.id r.state, _))

/-- A call that reports holds a row that measures when its work item entered its state. -/
def ReportsMeasured (s : IncidentSystem) : IncidentEvent → Prop
  | .step k _ _ => ∀ call ∈ s.calls[k]?,
    match call.task with
    | .workflow request (.reporting found _ _) =>
      MeasuresEntry s.stores.postgres.toTables request.now found
    | _ => True
  | _ => True

instance (s : IncidentSystem) (e : IncidentEvent) : Decidable (ReportsMeasured s e) :=
  match e with
  | .start _ | .createWorkItem _ _ _ | .recordEscalation _ _ _ | .summaryExpired _
  | .cacheFlushed => isTrue trivial
  | .step k _ _ =>
    have (call : Call) : Decidable (match call.task with
        | .workflow request (.reporting found _ _) =>
          MeasuresEntry s.stores.postgres.toTables request.now found
        | _ => True) := by
      split <;> infer_instance
    inferInstanceAs (Decidable (∀ call ∈ s.calls[k]?, _))

/-- The measurement is the time from the entry on exactly for the rows that measure it. -/
lemma max_sub_eq_iff (now entry updatedAt : ℤ) : max 0 (now - updatedAt) = now - entry ↔
    updatedAt = entry ∧ entry ≤ now ∨ now = entry ∧ entry ≤ updatedAt := by
  omega

lemma timesOf_reportsOf (w : WorkItemId) (now : Instant) (found updated : WorkItem)
    (write : GuardedWrite) : timesOf w (reportsOf now found updated write)
      = [⟨w, found.state, now, max 0 (now - found.updatedAt)⟩] := by
  cases write <;> rfl

variable (services s) in
/-- A step reports a time in state only where a call reports its transition. -/
lemma timesReported_step (k i : ℕ) (io : StepIo) :
    timesReported services s (.step k i io) = [] ∧ ReportsMeasured s (.step k i io) ∨
      ∃ call request found updated write, s.calls[k]? = some call ∧
        call.task = .workflow request (.reporting found updated write) ∧
        timesReported services s (.step k i io) = [⟨request.workItemId, found.state, request.now,
          max 0 (request.now - found.updatedAt)⟩] := by
  cases hcall : s.calls[k]? with
  | none => exact .inl ⟨by simp [timesReported, hcall], by simp [ReportsMeasured, hcall]⟩
  | some call =>
    cases htask : call.task with
    | workflow request pc =>
      cases pc with
      | reporting found updated write =>
        refine .inr ⟨call, request, found, updated, write, rfl, htask, ?_⟩
        simp [timesReported, hcall, htask, workflowStep, timesOf_reportsOf]
      | _ =>
        refine .inl ⟨?_, by simp [ReportsMeasured, hcall, htask]⟩
        simp [timesReported, hcall, htask, workflowStep, timesOf]
    | _ =>
      exact .inl ⟨by simp [timesReported, hcall, htask],
        by simp [ReportsMeasured, hcall, htask]⟩

/-! ### What the calls hold -/

/-- The row that a call holds, when it holds one. -/
def foundOf : WorkflowPc → Option WorkItem
  | .transact found _ _ | .caching found _ _ _ | .reporting found _ _ => some found
  | _ => none

/-- The calls hold rows of their work items in states that these have entered. -/
structure EntryInv (s : IncidentSystem) : Prop where
  lifecycle : s.LifecycleInv
  held : ∀ call ∈ s.calls, ∀ request pc, call.task = .workflow request pc →
    ∀ found ∈ foundOf pc, found.id = request.workItemId ∧
      ∃ entry, enteredAt s.stores.postgres.toTables found.id found.state = some entry

/-- A call holds the row that it held before, or has just read it. -/
lemma foundOf_of_runs {prisma : PrismaClient} {request : WorkflowRequest} {io : StepIo}
    {st st' : IncidentStores} {pc pc' : WorkflowPc}
    (h : WorkflowRuns prisma request io st pc st' pc') {found : WorkItem}
    (hfound : found ∈ foundOf pc') :
    found ∈ foundOf pc ∨ (∃ attempt, pc = .find attempt) ∧
      st.postgres.row request.workItemId = some found := by
  cases h with
  | found row decided =>
    obtain rfl := Option.some.inj hfound
    exact .inr ⟨⟨_, rfl⟩, row⟩
  | committed | retried | caching | cached => exact .inl hfound
  | _ => cases hfound

/-- Every work item has entered the state that it is in. -/
lemma LifecycleInv.enteredAt (h : s.LifecycleInv) {r : WorkItem}
    (hr : s.stores.postgres.row w = some r) :
    ∃ entry, enteredAt s.stores.postgres.toTables w r.state = some entry := by
  by_cases hopen : r.state = .OPEN
  · rw [hopen]
    exact ⟨r.createdAt, Option.map_eq_some_iff.2 ⟨r, hr, rfl⟩⟩
  · have hedges := (h.rows w r hr).edges
    rw [Tables.row_id hr] at hedges
    have hlast : ∃ edge ∈ edgesTo r.state, edge.2 = r.state := by
      cases hstate : r.state with
      | OPEN => exact absurd hstate hopen
      | _ => decide
    obtain ⟨edge, hedge, hto⟩ := hlast
    rw [← hedges, edgesOf] at hedge
    obtain ⟨row, hrow, rfl⟩ := List.mem_map.1 hedge
    obtain ⟨hmem, hmoves⟩ := List.mem_filter.1 hrow
    rw [enteredAt_eq hopen, ← Option.isSome_iff_exists, Option.isSome_map, List.find?_isSome]
    simp only [decide_eq_true_eq] at hmoves ⊢
    exact ⟨row, hmem, hmoves, hto⟩

lemma EntryInv.step (h : s.EntryInv) {e : IncidentEvent}
    (hstep : s.step services e = some s') : s'.EntryInv := by
  have hentered : ∀ {x : WorkItemId} {state : WorkItemStatus},
      (∃ entry, enteredAt s.stores.postgres.toTables x state = some entry) →
        ∃ entry, enteredAt s'.stores.postgres.toTables x state = some entry :=
    fun ⟨entry, hentry⟩ => ⟨entry, enteredAt_of_step hstep hentry⟩
  refine ⟨h.lifecycle.step hstep, ?_⟩
  intro call' hmem request pc' htask found hfound
  rcases workflow_of_step hstep hmem htask with hold | ⟨rfl, -⟩ |
    ⟨k, i, io, call, pc, rfl, hcall, hpc, hruns, -⟩
  · obtain ⟨hid, hentry⟩ := h.held call' hold request pc' htask found hfound
    exact ⟨hid, hentered hentry⟩
  · cases hfound
  · rcases foundOf_of_runs hruns hfound with hheld | ⟨⟨attempt, rfl⟩, hrow⟩
    · obtain ⟨hid, hentry⟩ := h.held call (List.mem_of_getElem? hcall) request pc hpc found hheld
      exact ⟨hid, hentered hentry⟩
    · have hid := Tables.row_id hrow
      exact ⟨hid, hentered (hid ▸ h.lifecycle.enteredAt hrow)⟩

/-- What an event reports is about states that were entered, and is the time from the entry
on exactly if the reporting call holds a row that measures it. -/
lemma EntryInv.reports (h : s.EntryInv) {e : IncidentEvent}
    (hstep : s.step services e = some s') :
    (∀ time ∈ timesReported services s e, ∃ entry,
        enteredAt s'.stores.postgres.toTables time.workItemId time.fromState = some entry) ∧
      (s'.TimesFromEntry (timesReported services s e) ↔ ReportsMeasured s e) := by
  cases e with
  | step k i io =>
    rcases timesReported_step services s k i io with ⟨hnone, hmeasured⟩ |
      ⟨call, request, found, updated, write, hcall, htask, htimes⟩
    · simp [hnone, hmeasured, TimesFromEntry]
    · obtain ⟨hid, entry, hentry⟩ := h.held call (List.mem_of_getElem? hcall) request _ htask
        found rfl
      have hentry' := enteredAt_of_step hstep hentry
      rw [hid] at hentry'
      have hiff : ReportsMeasured s (.step k i io)
          ↔ MeasuresEntry s.stores.postgres.toTables request.now found := by
        simp [ReportsMeasured, hcall, htask]
      rw [htimes, hiff]
      refine ⟨by simpa using ⟨entry, hentry'⟩, ?_⟩
      simp only [TimesFromEntry, List.forall_mem_singleton, hentry', Option.some.injEq,
        exists_eq_left', MeasuresEntry, hentry, Option.mem_def]
      exact max_sub_eq_iff _ _ _
  | _ => simp [timesReported, TimesFromEntry, ReportsMeasured]

/-- A run reports the times from the entry on if and only if, whenever a call reports, the row
that it read was last updated when its work item entered its state; and every work item has
entered its state. -/
theorem timesFromEntry_iff_of_run {events : List IncidentEvent}
    (hrun : (lts services).run empty events = some s) :
    (s.TimesFromEntry ((lts services).emitted (timesReported services) empty events) ↔
        (lts services).Meets ReportsMeasured empty events) ∧
      ∀ w r, s.stores.postgres.row w = some r →
        ∃ entry, Incidents.enteredAt s.stores.postgres.toTables w r.state = some entry := by
  have hempty : empty.EntryInv := ⟨lifecycleInv_empty, fun _ hmem => nomatch hmem⟩
  have hinv := Lts.run_invariant (I := EntryInv) (fun _ _ _ h hstep => h.step hstep) hrun hempty
  refine ⟨?_, fun w r hr => hinv.lifecycle.enteredAt hr⟩
  refine Lts.forall_emitted_iff_meets (fun _ _ _ h hstep => h.step hstep)
    (fun _ _ _ h hstep => h.reports hstep) ?_ hrun hempty
  -- an entry stays, and so does what is measured from it
  rintro s e s' time ⟨entry, hentry⟩ hstep
  have hentry' := enteredAt_of_step hstep hentry
  exact ⟨⟨entry, hentry'⟩, by simp only [hentry, hentry']⟩

/-- A transition of `w` at 2000 is reported, between a call that is refused at 500 and one
that is refused behind a count. -/
def refusedAroundEvents : List IncidentEvent :=
  itemCreated :: callEvents 0 (moveRequest .RESOLVED 500) 500 1 ++
    callEvents 1 (moveRequest .INVESTIGATING 2000) 2000 5 ++
    callEvents 2 (.updateWorkItems [("w", 1)]) 2500 1 ++
    callEvents 3 (moveRequest .OPEN 3000) 3000 1

theorem timesFromEntry_of_refusedAround : ∃ s,
    (lts .standard).run empty refusedAroundEvents = some s ∧
      (lts .standard).emitted (timesReported .standard) empty refusedAroundEvents
        = [⟨"w", .OPEN, 2000, 1000⟩] ∧
      s.TimesFromEntry [⟨"w", .OPEN, 2000, 1000⟩] := by
  have hruns : ((lts .standard).run empty refusedAroundEvents).isSome = true := by
    decide +kernel
  have hemitted : (lts .standard).emitted (timesReported .standard) empty refusedAroundEvents
      = [⟨"w", .OPEN, 2000, 1000⟩] := by
    decide +kernel
  have hmeets : (lts .standard).Meets ReportsMeasured empty refusedAroundEvents := by
    decide +kernel
  obtain ⟨s, hrun⟩ := Option.isSome_iff_exists.1 hruns
  refine ⟨s, hrun, hemitted, ?_⟩
  rw [← hemitted]
  exact (timesFromEntry_iff_of_run hrun).1.2 hmeets

/-- A signal is counted before the item is moved. -/
def countedBeforeEvents : List IncidentEvent :=
  itemCreated :: callEvents 0 (.updateWorkItems [("w", 1)]) 1500 1 ++
    callEvents 1 (moveRequest .INVESTIGATING 2000) 2000 5

/-- The time is measured from the last count. -/
theorem time_since_last_count : ¬ ∀ services events s,
    (lts services).run empty events = some s →
      s.TimesFromEntry ((lts services).emitted (timesReported services) empty events) := by
  intro hclaim
  have hobserved : ((lts .standard).run empty countedBeforeEvents).map
      (fun s => Incidents.enteredAt s.stores.postgres.toTables "w" .OPEN) = some (some 1000) := by
    decide +kernel
  have hemitted : (lts .standard).emitted (timesReported .standard) empty countedBeforeEvents
      = [⟨"w", .OPEN, 2000, 500⟩] := by
    decide +kernel
  obtain ⟨s, hrun, hentry⟩ := Option.map_eq_some_iff.1 hobserved
  have htimes := hclaim _ _ s hrun
  rw [hemitted] at htimes
  obtain ⟨entry, heq, htime⟩ := htimes _ (List.mem_singleton_self _)
  cases hentry.symm.trans heq
  exact absurd htime (by decide)

end IncidentSystem

end InveniOps.Incidents
