import InveniOps.Alerting.EscalationScheduler
import InveniOps.Incidents.Lifecycle

/-!
# Runs of the escalation schedulers

Any number of ticks, on any number of replicas, over one Postgres and one Redis,
beside the calls that create, count and move the work items.  The candidates of
all ticks stand in one list.  The history records what the ticks have done.
-/

namespace InveniOps.Alerting

open Lib Domain Stores WorkItems Incidents

/-- The incident services and the alerting that the scheduler calls. -/
structure EscalationServices where
  incidents : IncidentServices
  alerting : AlertingInstance

/-- Where a tick is. -/
inductive TickPc
  /-- At `findOpenWorkItemsOlderThan`, with the clock reading of the tick. -/
  | querying (now : Instant)
  /-- At the `Promise.all` over the candidates. -/
  | queried
  | threw
  | crashed
deriving DecidableEq

/-- A deed, with the tick that did it and the work item that it is about. -/
structure HistoryEntry where
  tick : ℕ
  workItemId : WorkItemId
  deed : EscalationDeed

/-- The incidents, Redis, and the ticks of all schedulers with their candidates. -/
structure EscalationSystem where
  incidents : IncidentSystem
  keys : EscalationKeys
  /-- The clock of Redis at its last command. -/
  clock : Instant
  ticks : List TickPc
  candidates : List Candidate
  history : List HistoryEntry
  /-- When the last `EXPIRE` for a work item was carried out. -/
  lastExpire : WorkItemId → Option Instant

/-- The events of the schedulers and of the services below them. -/
inductive EscalationEvent
  /-- An event of the incident services, other than an escalation. -/
  | incidents (e : IncidentEvent)
  | startTick (now : Instant)
  /-- The candidate query of a tick is answered. -/
  | query (tick : ℕ) (outcome : Outcome)
  /-- The `k`-th candidate takes a step. -/
  | escalate (k : ℕ) (io : StepIo)
  /-- The process of a tick is lost. -/
  | crash (tick : ℕ)

/-- The command changed its store. -/
def carriedOut : Outcome → Bool
  | .ok => true
  | .fault applied _ => applied

namespace Candidate

/-- The candidate stands before a command to Redis. -/
def onRedis (candidate : Candidate) : Bool :=
  match candidate.pc with
  | .claim | .expire _ => true
  | _ => false

/-- The candidate stands before `EXPIRE`. -/
def onExpire (candidate : Candidate) : Bool :=
  match candidate.pc with
  | .expire _ => true
  | _ => false

/-- The candidate after the loss of the process of a tick. -/
def crash (tick : ℕ) (candidate : Candidate) : Candidate :=
  if candidate.tick = tick then { candidate with pc := candidate.pc.crash } else candidate

end Candidate

/-- The event of the incident services is an escalation. -/
def isEscalation : IncidentEvent → Bool
  | .recordEscalation _ _ _ => true
  | _ => false

namespace EscalationSystem

/-- No work item, and no tick so far. -/
def empty : EscalationSystem := ⟨.empty, fun _ => none, 0, [], [], [], fun _ => none⟩

variable (services : EscalationServices) (s : EscalationSystem)

/-- The Postgres that the schedulers share with the incident services. -/
def postgres : Postgres := s.incidents.stores.postgres

/-- The `k`-th candidate has taken a step. -/
def onEscalate (k : ℕ) (io : StepIo) (candidate : Candidate) (step : EscalateStep) :
    EscalationSystem where
  incidents := s.incidents.setPostgres step.postgres
  keys := step.keys
  clock := if candidate.onRedis then io.now else s.clock
  ticks := s.ticks
  candidates := s.candidates.set k { candidate with pc := step.pc }
  history := s.history ++ step.deeds.map (⟨candidate.tick, candidate.workItem.id, ·⟩)
  lastExpire :=
    if candidate.onExpire ∧ carriedOut io.outcome then
      Function.update s.lastExpire candidate.workItem.id (some io.now)
    else s.lastExpire

/-- The system behind an event, if the event can happen. -/
def step : EscalationSystem → EscalationEvent → Option EscalationSystem
  | s, .incidents e =>
    if isEscalation e then none
    else (s.incidents.step services.incidents e).map fun incidents =>
      { s with incidents := incidents }
  | s, .startTick now => some { s with ticks := s.ticks ++ [.querying now] }
  | s, .query tick outcome =>
    match s.ticks[tick]? with
    | some (.querying now) =>
      match (perform (Postgres.findOpenWorkItemsOlderThan
        (EscalationScheduler.widestPossibleCutoff now)) outcome s.postgres).1 with
      | .ok candidates => some { s with
          ticks := s.ticks.set tick .queried
          candidates := s.candidates ++
            candidates.map (services.alerting.scheduler.candidate tick now) }
      | .error _ => some { s with ticks := s.ticks.set tick .threw }
    | _ => none
  | s, .escalate k io =>
    match s.candidates[k]? with
    | none => none
    | some candidate =>
      -- the clock of Redis does not run backwards
      if candidate.onRedis ∧ io.now < s.clock then none
      else
        (candidate.step services.incidents.workflow.prisma services.alerting io s.postgres
          s.keys).map (s.onEscalate k io candidate)
  | s, .crash tick => some { s with
      ticks := s.ticks.set tick .crashed
      candidates := s.candidates.map (Candidate.crash tick) }

/-- The schedulers and the incident services as a transition system. -/
def lts : Lts EscalationSystem EscalationEvent := ⟨step services⟩

variable {services s} {s' : EscalationSystem}

lemma step_incidents_inv {e : IncidentEvent} (h : s.step services (.incidents e) = some s') :
    isEscalation e = false ∧ ∃ incidents,
      s.incidents.step services.incidents e = some incidents ∧
        s' = { s with incidents := incidents } := by
  simp only [step] at h
  split at h
  · cases h
  · rename_i hother
    obtain ⟨incidents, hincidents, hs'⟩ := Option.map_eq_some_iff.1 h
    exact ⟨Bool.not_eq_true _ ▸ hother, incidents, hincidents, hs'.symm⟩

lemma step_query_inv {tick : ℕ} {outcome : Outcome}
    (h : s.step services (.query tick outcome) = some s') :
    ∃ now, s.ticks[tick]? = some (.querying now) ∧
      (s' = { s with ticks := s.ticks.set tick .threw } ∨
        s' = { s with
          ticks := s.ticks.set tick .queried
          candidates := s.candidates ++ (s.postgres.workItems.filter fun r =>
            r.state = .OPEN ∧ r.firstSignalAt ≤ EscalationScheduler.widestPossibleCutoff now).map
              (services.alerting.scheduler.candidate tick now) }) := by
  simp only [step] at h
  split at h
  · rename_i now hnow
    refine ⟨now, hnow, ?_⟩
    split at h
    · rename_i rows hrows
      obtain ⟨-, hcommand⟩ := perform_ok hrows
      obtain ⟨rfl, -⟩ := Prod.mk.inj (Except.ok.inj hcommand)
      exact .inr (Option.some.inj h).symm
    · exact .inl (Option.some.inj h).symm
  · cases h

lemma step_escalate_inv {k : ℕ} {io : StepIo} (h : s.step services (.escalate k io) = some s') :
    ∃ candidate step, s.candidates[k]? = some candidate ∧
      (candidate.onRedis = true → s.clock ≤ io.now) ∧
      candidate.Runs services.incidents.workflow.prisma services.alerting io s.postgres s.keys
        candidate.pc step ∧
      s' = s.onEscalate k io candidate step := by
  simp only [EscalationSystem.step] at h
  split at h
  · cases h
  · rename_i candidate hcandidate
    split at h
    · cases h
    · rename_i hclock
      obtain ⟨step, hstep, hs'⟩ := Option.map_eq_some_iff.1 h
      refine ⟨candidate, step, hcandidate, ?_, Candidate.runs_of_step hstep, hs'.symm⟩
      intro hredis
      by_contra hlt
      exact hclock ⟨hredis, not_le.1 hlt⟩

/-! ### The incidents below the schedulers -/

/-- The incidents are as before, or take a step of their own. -/
lemma incidents_of_step {e : EscalationEvent} (h : s.step services e = some s') :
    s'.incidents = s.incidents ∨
      ∃ e', s.incidents.step services.incidents e' = some s'.incidents := by
  cases e with
  | incidents e' =>
    obtain ⟨-, incidents, hincidents, rfl⟩ := step_incidents_inv h
    exact .inr ⟨e', hincidents⟩
  | startTick now =>
    cases h
    exact .inl rfl
  | query tick outcome =>
    obtain ⟨now, -, rfl | rfl⟩ := step_query_inv h <;> exact .inl rfl
  | escalate k io =>
    obtain ⟨candidate, step, -, -, hruns, rfl⟩ := step_escalate_inv h
    generalize candidate.pc = pc at hruns
    cases hruns with
    | recorded commits =>
      refine .inr ⟨.recordEscalation candidate.workItem.id ESCALATION_ACTOR ⟨.ok, io.now⟩, ?_⟩
      have hperform := congrArg Prod.snd (perform_ok_of commits)
      exact congrArg (fun pg => some (s.incidents.setPostgres pg)) hperform
    | _ => exact .inl rfl
  | crash tick =>
    cases h
    exact .inl rfl

lemma lifecycleInv_of_step {e : EscalationEvent} (h : s.step services e = some s')
    (hinv : s.incidents.LifecycleInv) : s'.incidents.LifecycleInv := by
  rcases incidents_of_step h with hsame | ⟨e', hstep⟩
  · exact hsame ▸ hinv
  · exact hinv.step hstep

/-- Other events than those of the candidates append rows of transitions alone. -/
lemma audit_of_incidents {e : IncidentEvent} (h : s.step services (.incidents e) = some s')
    (hinv : s.incidents.LifecycleInv) (w : WorkItemId) :
    ∃ rows, s'.postgres.audit w = s.postgres.audit w ++ rows ∧
      ∀ row ∈ rows, row.fromState ≠ row.toState := by
  obtain ⟨hother, incidents, hstep, rfl⟩ := step_incidents_inv h
  have hne : ∀ workItemId actor io, e ≠ .recordEscalation workItemId actor io := by
    rintro _ _ _ rfl
    cases hother
  rcases IncidentSystem.stateTransitions_of_step hstep hne with hsame |
    ⟨call, request, found, updated, write, attempt, clock, hmem, htask, hcommits⟩
  · refine ⟨[], ?_, List.forall_mem_nil _⟩
    rw [List.append_nil]
    simp only [postgres, Tables.audit, hsame]
  · obtain ⟨hdecided, -⟩ := hinv.calls call hmem request found write attempt htask
    obtain ⟨r, hmoved, -, -⟩ := GuardedWrite.command_ok hcommits
    have hmoves : write.transition.fromState ≠ write.transition.toState := by
      cases hdecided with
      | transition edge => exact ne_of_mem_getLegalNextStates edge
      | rca =>
        intro h
        cases h
    refine ⟨_, hmoved.audit w, ?_⟩
    intro row hrow
    split_ifs at hrow
    · rw [List.mem_singleton.1 hrow]
      exact hmoves
    · cases hrow

/-- A candidate behind an event was one before, or its row has just been read. -/
lemma candidate_of_step {e : EscalationEvent} (h : s.step services e = some s')
    {candidate : Candidate} (hmem : candidate ∈ s'.candidates) :
    (∃ old ∈ s.candidates, candidate.tick = old.tick ∧ candidate.workItem = old.workItem ∧
        (candidate.pc.isOver = false → old.pc.isOver = false)) ∨
      s'.incidents = s.incidents ∧
        s.postgres.row candidate.workItem.id = some candidate.workItem ∧
        candidate.workItem.state = .OPEN := by
  cases e with
  | incidents e' =>
    obtain ⟨-, incidents, -, rfl⟩ := step_incidents_inv h
    exact .inl ⟨candidate, hmem, rfl, rfl, id⟩
  | startTick now =>
    cases h
    exact .inl ⟨candidate, hmem, rfl, rfl, id⟩
  | query tick outcome =>
    obtain ⟨now, -, rfl | rfl⟩ := step_query_inv h
    · exact .inl ⟨candidate, hmem, rfl, rfl, id⟩
    · rcases List.mem_append.1 hmem with hold | hnew
      · exact .inl ⟨candidate, hold, rfl, rfl, id⟩
      · obtain ⟨r, hr, rfl⟩ := List.mem_map.1 hnew
        simp only [List.mem_filter, decide_eq_true_eq] at hr
        exact .inr ⟨rfl, Postgres.row_eq_some_iff.2 ⟨hr.1, rfl⟩, hr.2.1⟩
  | escalate k io =>
    obtain ⟨old, step, hold, -, hruns, rfl⟩ := step_escalate_inv h
    rcases List.mem_or_eq_of_mem_set hmem with hsame | rfl
    · exact .inl ⟨candidate, hsame, rfl, rfl, id⟩
    · exact .inl ⟨old, List.mem_of_getElem? hold, rfl, rfl, fun _ => hruns.isOver_eq_false⟩
  | crash tick =>
    cases h
    obtain ⟨old, hold, rfl⟩ := List.mem_map.1 hmem
    refine .inl ⟨old, hold, ?_⟩
    simp only [Candidate.crash, EscalatePc.crash]
    split_ifs with htick hover
    · exact ⟨rfl, rfl, fun h => h⟩
    · refine ⟨rfl, rfl, ?_⟩
      intro h
      cases h
    · exact ⟨rfl, rfl, fun h => h⟩

/-- Rows stay. -/
lemma row_of_step {e : EscalationEvent} (h : s.step services e = some s') {x : WorkItemId}
    (hx : ∃ r, s.postgres.row x = some r) : ∃ r, s'.postgres.row x = some r := by
  obtain ⟨r, hr⟩ := hx
  rcases incidents_of_step h with hsame | ⟨e', hstep⟩
  · exact ⟨r, by rw [postgres, hsame]; exact hr⟩
  · obtain ⟨r', hr', -⟩ := (IncidentSystem.postgresRuns_of_step hstep).row hr
    exact ⟨r', hr'⟩

/-! ### Counting -/

variable (s) (w : WorkItemId)

/-- How often a deed was done for a work item. -/
def deeds (p : EscalationDeed → Bool) : ℕ :=
  s.history.countP fun entry => entry.workItemId = w ∧ p entry.deed

/-- The candidates of a work item at certain control points. -/
def pending (p : EscalatePc → Bool) : ℕ :=
  s.candidates.countP fun candidate => candidate.workItem.id = w ∧ p candidate.pc

/-- The audit rows of the escalations of a work item. -/
def escalationRows : ℕ := (s.postgres.audit w).countP fun row => row.fromState = row.toState

variable {s w}

lemma deeds_onEscalate (p : EscalationDeed → Bool) (k : ℕ) (io : StepIo) (candidate : Candidate)
    (step : EscalateStep) : (s.onEscalate k io candidate step).deeds w p
      = s.deeds w p + if candidate.workItem.id = w then step.deeds.countP p else 0 := by
  simp only [deeds, onEscalate, List.countP_append, List.countP_map, Function.comp_def]
  split_ifs with hw <;> simp [hw]

lemma pending_onEscalate (p : EscalatePc → Bool) {k : ℕ} {candidate : Candidate}
    (hcandidate : s.candidates[k]? = some candidate) (io : StepIo) (step : EscalateStep) :
    (s.onEscalate k io candidate step).pending w p
        + (if candidate.workItem.id = w ∧ p candidate.pc then 1 else 0)
      = s.pending w p + if candidate.workItem.id = w ∧ p step.pc then 1 else 0 := by
  have hset := countP_set_of hcandidate { candidate with pc := step.pc }
    fun candidate => candidate.workItem.id = w ∧ p candidate.pc
  simp only [decide_eq_true_eq] at hset
  exact hset

/-- A query adds candidates that stand before their claim, or are not overdue. -/
lemma pending_query {p : EscalatePc → Bool} (hclaim : p .claim = false) (hdone : p .done = false)
    {tick : ℕ} {outcome : Outcome} (h : s.step services (.query tick outcome) = some s') :
    s'.pending w p = s.pending w p := by
  obtain ⟨now, -, rfl | rfl⟩ := step_query_inv h
  · rfl
  · simp only [pending, List.countP_append, Nat.add_eq_left, List.countP_eq_zero, List.mem_map]
    rintro _ ⟨r, -, rfl⟩
    simp only [EscalationScheduler.candidate]
    split_ifs <;> simp [hclaim, hdone]

lemma pending_crash_le {p : EscalatePc → Bool} (hcrashed : p .crashed = false) (tick : ℕ)
    {l : List Candidate} :
    (l.map (Candidate.crash tick)).countP (fun c => c.workItem.id = w ∧ p c.pc)
      ≤ l.countP fun c => c.workItem.id = w ∧ p c.pc := by
  rw [List.countP_map]
  refine List.countP_mono_left ?_
  intro candidate _
  simp only [Function.comp_def, Candidate.crash, EscalatePc.crash, decide_eq_true_eq]
  split_ifs <;> simp [hcrashed]

end EscalationSystem

/-! ### Runs on fixed inputs -/

/-- The default configuration. -/
def AlertingInstance.standard : AlertingInstance := ⟨escalationScheduler, alertDispatcher, 86400⟩

/-- The default configuration. -/
def EscalationServices.standard : EscalationServices := ⟨.standard, .standard⟩

/-- The `tick`-th tick starts at an instant and makes its query. -/
def tickEvents (tick : ℕ) (now : Instant) : List EscalationEvent :=
  [.startTick now, .query tick .ok]

/-- The `k`-th candidate takes some steps, the stores being healthy. -/
def escalateEvents (k : ℕ) (now : Instant) (steps : ℕ) : List EscalationEvent :=
  List.replicate steps (.escalate k ⟨.ok, now⟩)

end InveniOps.Alerting
