import InveniOps.Alerting.EscalationRuns

/-!
# Escalations and their audit rows

The claim of the level, the fan-out and the audit row are three effects on three
systems, and the claim comes first.  So a later tick repeats neither a fan-out nor
an insert that was lost: what the run of `maybeEscalate` that made the claim does
not record stays unrecorded.
-/

namespace InveniOps.Alerting

open Lib Stores Incidents

/-- A row that exists can be escalated. -/
lemma recordEscalation_of_row (prisma : PrismaClient) {pg : Postgres} {w : WorkItemId}
    {r : WorkItem} (hr : pg.row w = some r) (actor : String) (clock : Instant) :
    ∃ pg', Postgres.recordEscalation prisma w actor clock pg = .ok ((), pg') := by
  have hconstraints := Postgres.constraints_insertTransition
    (t := ⟨w, .OPEN, .OPEN, actor, clock⟩) hr
  exact ⟨⟨_, hconstraints⟩, by
    simp [Postgres.recordEscalation, Postgres.write_eq_ok hconstraints, bind, Except.bind, pure,
      Except.pure]⟩

/-- The notifiers have been called, and the audit row is still to come. -/
def awaitsRecord : EscalatePc → Bool
  | .sending | .record _ => true
  | _ => false

@[simp] lemma awaitsRecord_record (attempt : ℕ) : awaitsRecord (.record attempt) = true := rfl

@[simp] lemma awaitsRecord_crashed : awaitsRecord .crashed = false := rfl

lemma awaitsRecord_afterRecord {attempt : ℕ} {reply : Except Thrown Unit} :
    awaitsRecord (.afterRecord attempt reply) = true ↔
      ∃ e, reply = .error e ∧ shouldRetry e = true ∧ attempt ≠ ATTEMPTS := by
  simp only [EscalatePc.afterRecord]
  cases hretry : withPostgresRetry attempt reply with
  | returned a =>
    obtain rfl := withPostgresRetry_returned hretry
    simp [awaitsRecord]
  | again next =>
    obtain ⟨-, hleft, e, rfl, htransient⟩ := withPostgresRetry_again hretry
    simp [awaitsRecord, htransient, hleft]
  | thrown e =>
    obtain rfl := withPostgresRetry_thrown hretry
    by_cases htransient : shouldRetry e = true ∧ attempt ≠ ATTEMPTS
    · simp [withPostgresRetry, htransient] at hretry
    · simpa [awaitsRecord] using htransient

namespace Candidate

/-- An outcome that leaves no escalation without its audit row and none with two. -/
def RecordsOnce (io : StepIo) (candidate : Candidate) : Prop :=
  match candidate.pc with
  | .sending => io.outcome = .ok
  | .record attempt =>
    match io.outcome with
    | .ok => True
    -- the insert is made again if and only if it was lost
    | .fault applied e => shouldRetry (.store e) = true ∧ attempt ≠ ATTEMPTS ↔ applied = false
  | _ => True

instance (io : StepIo) (candidate : Candidate) : Decidable (candidate.RecordsOnce io) := by
  unfold RecordsOnce
  split <;> try infer_instance
  split <;> infer_instance

variable {prisma : PrismaClient} {alerting : AlertingInstance} {io : StepIo}
  {candidate : Candidate} {step : EscalateStep} {pg : Postgres} {keys : EscalationKeys}

/-- What a candidate has dispatched, it records or holds. -/
lemma Runs.account (h : candidate.Runs prisma alerting io pg keys candidate.pc step)
    (honce : candidate.RecordsOnce io) (hrow : ∃ r, pg.row candidate.workItem.id = some r) :
    step.deeds.countP EscalationDeed.isDispatched + (if awaitsRecord candidate.pc then 1 else 0)
      = (if step.deeds.countP EscalationDeed.isRecorded = 1 then 1 else 0)
        + if awaitsRecord step.pc then 1 else 0 := by
  obtain ⟨r, hr⟩ := hrow
  simp only [RecordsOnce] at honce
  generalize candidate.pc = pc at *
  cases h with
  | claimed adds hpc => rcases hpc with rfl | rfl <;> rfl
  | expired expires hpc => rcases hpc with ⟨rfl, -⟩ | rfl <;> rfl
  | rejected outcome => exact absurd honce outcome
  | @unrecorded attempt e reply =>
    obtain ⟨pg', hcommits⟩ := recordEscalation_of_row prisma hr ESCALATION_ACTOR io.now
    rcases perform_cases hcommits io.outcome with ⟨hreply, -⟩ | ⟨e', hreply, -⟩ |
      ⟨e', hreply, hio⟩
    · cases reply.symm.trans hreply
    · -- the row was written
      obtain ⟨-, hsame⟩ := Prod.mk.inj (hreply.symm.trans reply)
      exact absurd (congrArg Postgres.toTables hsame) (toTables_ne_of_recordEscalation hcommits)
    · obtain rfl : e = .store e' := Except.error.inj (congrArg Prod.fst (reply.symm.trans hreply))
      simp only [hio, iff_true] at honce
      have hagain := awaitsRecord_afterRecord.2 ⟨_, rfl, honce⟩
      simp [hagain]
  | @recorded attempt pg' reply commits reply_eq =>
    have hover : awaitsRecord (.afterRecord attempt reply) = false := by
      rw [Bool.eq_false_iff, ne_eq, awaitsRecord_afterRecord]
      rintro ⟨e, rfl, hretry⟩
      rcases reply_eq with hok | ⟨e', hio, he⟩
      · cases hok
      · cases he
        simp only [hio] at honce
        exact absurd (honce.1 hretry) (by decide)
    simp [hover, EscalationDeed.isDispatched, EscalationDeed.isRecorded]
  | _ => rfl

end Candidate

namespace EscalationSystem

variable (services : EscalationServices) (s : EscalationSystem) (w : WorkItemId)

/-- Every escalation that has begun goes on to its audit row. -/
def RecordsOnce (s : EscalationSystem) : EscalationEvent → Prop
  | .escalate k io => ∀ candidate ∈ s.candidates[k]?, candidate.RecordsOnce io
  | .crash tick => ∀ candidate ∈ s.candidates, candidate.tick = tick →
    awaitsRecord candidate.pc = false
  | _ => True

/-- The escalations of a work item are recorded or on their way to it, and the work items
of all candidates exist. -/
structure AuditInv : Prop where
  account : s.deeds w EscalationDeed.isDispatched = s.escalationRows w + s.pending w awaitsRecord
  rows : ∀ candidate ∈ s.candidates, ∃ r, s.postgres.row candidate.workItem.id = some r

variable {services s w} {s' : EscalationSystem}

/-- The work items of candidates are in the table. -/
lemma AuditInv.rows_of_step (hinv : s.AuditInv w) {e : EscalationEvent}
    (h : s.step services e = some s') {candidate : Candidate} (hmem : candidate ∈ s'.candidates) :
    ∃ r, s'.postgres.row candidate.workItem.id = some r := by
  refine row_of_step h ?_
  rcases candidate_of_step h hmem with ⟨old, hold, -, hsame, -⟩ | ⟨-, hrow, -⟩
  · exact hsame ▸ hinv.rows old hold
  · exact ⟨_, hrow⟩

/-- A step of a candidate moves its escalation on to its audit row. -/
lemma AuditInv.account_of_escalate (hinv : s.AuditInv w) {k : ℕ} {io : StepIo}
    {candidate : Candidate} {step : EscalateStep} (hcandidate : s.candidates[k]? = some candidate)
    (hruns : candidate.Runs services.incidents.workflow.prisma services.alerting io s.postgres
      s.keys candidate.pc step) (honce : RecordsOnce s (.escalate k io)) :
    (s.onEscalate k io candidate step).deeds w EscalationDeed.isDispatched
      = (s.onEscalate k io candidate step).escalationRows w
        + (s.onEscalate k io candidate step).pending w awaitsRecord := by
  have hdeeds := deeds_onEscalate (s := s) (w := w) EscalationDeed.isDispatched k io candidate step
  have hpending := pending_onEscalate (w := w) awaitsRecord hcandidate io step
  have hrows : (s.onEscalate k io candidate step).escalationRows w = s.escalationRows w +
      if candidate.workItem.id = w ∧ step.deeds.countP EscalationDeed.isRecorded = 1
      then 1 else 0 := by
    simp only [escalationRows, postgres, onEscalate, IncidentSystem.setPostgres, hruns.audit,
      List.countP_append]
    split_ifs <;> simp
  have haccount := hinv.account
  by_cases hw : candidate.workItem.id = w
  · have hmem := List.mem_of_getElem? hcandidate
    have hmoves := hruns.account (honce candidate hcandidate) (hinv.rows candidate hmem)
    simp only [hw, true_and, if_true] at hdeeds hpending hrows
    omega
  · simp only [hw, false_and, if_false, Nat.add_zero] at hdeeds hpending hrows
    omega

/-- A step of the audit invariant. -/
lemma AuditInv.step (hinv : s.AuditInv w) (hlife : s.incidents.LifecycleInv)
    {e : EscalationEvent} (honce : RecordsOnce s e) (hstep : s.step services e = some s') :
    s'.AuditInv w := by
  refine ⟨?_, fun _ hmem => hinv.rows_of_step hstep hmem⟩
  cases e with
  | incidents e' =>
    obtain ⟨rows, haudit, hmoves⟩ := audit_of_incidents hstep hlife w
    obtain ⟨-, incidents, -, rfl⟩ := step_incidents_inv hstep
    have hnone : rows.countP (fun row => decide (row.fromState = row.toState)) = 0 := by
      refine List.countP_eq_zero.2 ?_
      intro row hrow
      simpa using hmoves row hrow
    have haccount := hinv.account
    simp only [escalationRows, haudit, List.countP_append, hnone, Nat.add_zero]
    exact haccount
  | startTick now =>
    cases hstep
    exact hinv.account
  | query tick outcome =>
    have hpending := pending_query (w := w) (p := awaitsRecord) rfl rfl hstep
    have haccount := hinv.account
    rw [hpending]
    obtain ⟨now, -, rfl | rfl⟩ := step_query_inv hstep <;> exact haccount
  | escalate k io =>
    obtain ⟨candidate, step, hcandidate, -, hruns, rfl⟩ := step_escalate_inv hstep
    exact hinv.account_of_escalate hcandidate hruns honce
  | crash tick =>
    cases hstep
    have hpending : (s.candidates.map (Candidate.crash tick)).countP
        (fun c => c.workItem.id = w ∧ awaitsRecord c.pc) = s.pending w awaitsRecord := by
      rw [List.countP_map]
      refine List.countP_congr ?_
      intro candidate hmem
      simp only [Function.comp_def, Candidate.crash]
      split_ifs with htick
      · have hpc := honce candidate hmem htick
        simp only [EscalatePc.crash]
        split_ifs <;> simp [hpc]
      · rfl
    exact hinv.account.trans (congrArg _ hpending.symm)

variable (s w) in
/-- No candidate of the work item is under way. -/
def Settled : Prop := ∀ candidate ∈ s.candidates, candidate.workItem.id = w →
  candidate.pc.isOver = true

lemma pending_eq_zero (h : s.Settled w) : s.pending w awaitsRecord = 0 := by
  refine List.countP_eq_zero.2 ?_
  intro candidate hmem
  simp only [decide_eq_true_eq, not_and]
  intro hw
  have hover := h candidate hmem hw
  cases hpc : candidate.pc with
  | sending => simp [hpc, EscalatePc.isOver] at hover
  | record attempt => simp [hpc, EscalatePc.isOver] at hover
  | _ => exact nofun

/-- When every escalation that has begun goes on to its audit row, the audit rows of the
escalations of a work item are as many as the escalations that were dispatched for it,
whenever none of them is under way. -/
theorem dispatched_eq_escalationRows {events : List EscalationEvent}
    (hrun : (lts services).run empty events = some s)
    (honce : (lts services).Meets RecordsOnce empty events) (w : WorkItemId)
    (hsettled : s.Settled w) :
    s.deeds w EscalationDeed.isDispatched = s.escalationRows w := by
  have hempty : empty.AuditInv w := ⟨rfl, fun _ hmem => nomatch hmem⟩
  have hinv := Lts.run_invariant_of_meets
    (I := fun t => t.incidents.LifecycleInv ∧ t.AuditInv w)
    (fun t e t' ht honce hstep =>
      ⟨lifecycleInv_of_step hstep ht.1, ht.2.step ht.1 honce hstep⟩)
    hrun honce ⟨IncidentSystem.lifecycleInv_empty, hempty⟩
  rw [hinv.2.account, pending_eq_zero hsettled, Nat.add_zero]

instance (e : EscalationEvent) : Decidable (RecordsOnce s e) := by
  cases e <;> simp only [RecordsOnce] <;> infer_instance

instance : Decidable (s.Settled w) :=
  inferInstanceAs (Decidable (∀ candidate ∈ s.candidates, candidate.workItem.id = w →
    candidate.pc.isOver = true))

/-- Postgres is out of reach. -/
def unreachable : Outcome := .fault false (.prisma (.knownRequest "P1001" .undefined))

/-- A tick dispatches an escalation and loses its audit row some times. -/
def losingEvents (times : ℕ) : List EscalationEvent :=
  .incidents itemCreated :: tickEvents 0 902000 ++ escalateEvents 0 902010 4 ++
    List.replicate times (.escalate 0 ⟨unreachable, 902020⟩)

/-- Another tick runs, beside what the first one has left to do. -/
def laterEvents (left : ℕ) : List EscalationEvent :=
  escalateEvents 0 902030 left ++ tickEvents 1 962000 ++ escalateEvents 1 962010 2

theorem recorded_of_retry : ∃ s,
    (lts .standard).run empty (losingEvents 2 ++ laterEvents 1) = some s ∧
    s.deeds "w" EscalationDeed.isDispatched = 1 ∧
      s.deeds "w" EscalationDeed.isDispatched = s.escalationRows "w" := by
  have hobserved : ((lts .standard).run empty (losingEvents 2 ++ laterEvents 1)).map
      (fun s => (s.deeds "w" EscalationDeed.isDispatched, decide (s.Settled "w")))
        = some (1, true) := by
    decide +kernel
  have honce : (lts .standard).Meets RecordsOnce empty (losingEvents 2 ++ laterEvents 1) := by
    decide +kernel
  obtain ⟨s, hrun, hs⟩ := Option.map_eq_some_iff.1 hobserved
  simp only [Prod.mk.injEq, decide_eq_true_eq] at hs
  exact ⟨s, hrun, hs.1, dispatched_eq_escalationRows hrun honce "w" hs.2⟩

/-- The event brings no failure to a tick. -/
def Healthy : EscalationEvent → Prop
  | .query _ outcome => outcome = .ok
  | .escalate _ io => io.outcome = .ok
  | .crash _ => False
  | _ => True

instance (e : EscalationEvent) : Decidable (Healthy e) := by
  cases e <;> simp only [Healthy] <;> infer_instance

variable (s) in
/-- Every tick has made its query, and no candidate is under way. -/
def Quiet : Prop :=
  (∀ tick ∈ s.ticks, tick = .queried ∨ tick = .threw ∨ tick = .crashed) ∧
    ∀ candidate ∈ s.candidates, candidate.pc.isOver = true

instance : Decidable s.Quiet := by
  simp only [Quiet]
  infer_instance

/-- An escalation whose audit row is lost in all attempts is not recorded by later ticks. -/
theorem unrecorded_escalation : ¬ ∀ services before after s₁ s₂ w,
    (lts services).run empty before = some s₁ → (lts services).run s₁ after = some s₂ →
      (∀ e ∈ after, Healthy e) → s₁.ticks.length < s₂.ticks.length → s₂.Quiet →
        (∃ r, s₂.postgres.row w = some r ∧ r.state = .OPEN) →
          s₂.deeds w EscalationDeed.isDispatched = s₂.escalationRows w := by
  intro hclaim
  have hobserved : ((lts .standard).run empty (losingEvents 3)).bind (fun s₁ =>
      ((lts .standard).run s₁ (laterEvents 0)).map fun s₂ =>
        (decide (s₁.ticks.length < s₂.ticks.length ∧ s₂.Quiet),
          (s₂.postgres.row "w").map (·.state), s₂.deeds "w" EscalationDeed.isDispatched,
          s₂.escalationRows "w")) = some (true, some .OPEN, 1, 0) := by
    decide +kernel
  obtain ⟨s₁, hbefore, hs₁⟩ := Option.bind_eq_some_iff.1 hobserved
  obtain ⟨s₂, hafter, hs₂⟩ := Option.map_eq_some_iff.1 hs₁
  simp only [Prod.mk.injEq, decide_eq_true_eq, Option.map_eq_some_iff] at hs₂
  obtain ⟨⟨hlater, hquiet⟩, hopen, hdispatched, hrows⟩ := hs₂
  have heq := hclaim _ _ _ s₁ s₂ "w" hbefore hafter (by decide) hlater hquiet hopen
  omega

end EscalationSystem

end InveniOps.Alerting
