import InveniOps.Alerting.Dispatcher
import InveniOps.Stores.EscalationKeys
import InveniOps.Stores.DashboardCache

/-!
# The escalation of a candidate

`maybeEscalate` of `services/alerting/escalationScheduler.ts`, with
`dispatchEscalation` of the dispatcher and `claimEscalationLevel` of
`services/alerting/suppression.ts` inlined: what a tick does with one row that
its query returned, command by command.  `dispatchEscalation` catches everything,
so an error on the way to its `return true` reads `false` to the scheduler.
-/

namespace InveniOps.Alerting

open Domain Stores

/-- The only level there is. -/
def ESCALATION_LEVEL : ℕ := 1

/-- The actor of the audit rows of escalations. -/
def ESCALATION_ACTOR : String := "system:escalation"

/-- Where `maybeEscalate` is. -/
inductive EscalatePc
  /-- At `redis.sadd`. -/
  | claim
  /-- At `redis.expire`, with the reply to `redis.sadd`. -/
  | expire (added : ℕ)
  /-- Before `fanOut`. -/
  | fanOut
  /-- At the `Promise.all` of `fanOut`: every notifier has been called. -/
  | sending
  /-- At `recordEscalation`, in the given attempt of its retry wrapper. -/
  | record (attempt : ℕ)
  | done
  | threw (e : Thrown)
  /-- The process was lost. -/
  | crashed
deriving DecidableEq

namespace EscalatePc

/-- The candidate takes no more steps. -/
def isOver : EscalatePc → Bool
  | .done | .threw _ | .crashed => true
  | _ => false

/-- What is left when the process is lost. -/
def crash (pc : EscalatePc) : EscalatePc := if pc.isOver then pc else .crashed

/-- Behind the reply to `redis.sadd`. -/
def afterClaim : Except Thrown ℕ → EscalatePc
  | .ok added => .expire added
  | .error _ => .done

/-- Behind the reply to `redis.expire`. -/
def afterExpire (added : ℕ) : Except Thrown Unit → EscalatePc
  | .ok _ => if added = 1 then .fanOut else .done
  | .error _ => .done

/-- Behind the `Promise.all` of `fanOut`, which rejects when the provider of the metrics
writer throws. -/
def afterFanOut : Outcome → EscalatePc
  | .ok => .record 1
  | .fault _ _ => .done

/-- Behind the reply to the insert of `recordEscalation`. -/
def afterRecord (attempt : ℕ) (reply : Except Thrown Unit) : EscalatePc :=
  match withPostgresRetry attempt reply with
  | .returned _ => .done
  | .again attempt => .record attempt
  | .thrown e => .threw e

end EscalatePc

/-- A row that a query returned, in the hands of `maybeEscalate`. -/
structure Candidate where
  /-- The tick that made the query. -/
  tick : ℕ
  workItem : WorkItem
  pc : EscalatePc

/-- The scheduler and the dispatcher of a process, with the dispatcher's window. -/
structure AlertingInstance where
  scheduler : EscalationScheduler
  dispatcher : AlertDispatcher
  suppressionWindowSeconds : ℕ

namespace EscalationScheduler

/-- The cutoff of the query: the shortest delay of all severities. -/
def widestPossibleCutoff (now : Instant) : Instant :=
  now - (getEscalationPolicy .P0).acknowledgeWithinMs

/-- `maybeEscalate` up to its first `await`. -/
def candidate (scheduler : EscalationScheduler) (tick : ℕ) (now : Instant) (workItem : WorkItem) :
    Candidate where
  tick := tick
  workItem := workItem
  pc := if now < scheduler.overdueSince workItem then .done else .claim

end EscalationScheduler

/-- What the ticks have done with a work item. -/
inductive EscalationDeed
  /-- The notifiers were called. -/
  | dispatched (alert : Alert)
  /-- `dispatchEscalation` returned `true`. -/
  | escalated
  /-- The audit row was written. -/
  | recorded

namespace EscalationDeed

/-- The deed is an alert to a channel. -/
def isDispatched : EscalationDeed → Bool
  | .dispatched _ => true
  | _ => false

/-- The deed is an escalation that was reported as such. -/
def isEscalated : EscalationDeed → Bool
  | .escalated => true
  | _ => false

/-- The deed is an audit row. -/
def isRecorded : EscalationDeed → Bool
  | .recorded => true
  | _ => false

end EscalationDeed

/-- What a step of a candidate leaves. -/
structure EscalateStep where
  postgres : Postgres
  keys : EscalationKeys
  pc : EscalatePc
  deeds : List EscalationDeed

namespace Candidate

variable (prisma : PrismaClient) (alerting : AlertingInstance) (io : StepIo) (pg : Postgres)
  (keys : EscalationKeys) (candidate : Candidate)

/-- One command of a candidate. -/
def step : Option EscalateStep :=
  match candidate.pc with
  | .claim =>
    let reply := perform (EscalationKeys.sadd candidate.workItem.id ESCALATION_LEVEL io.now)
      io.outcome keys
    some ⟨pg, reply.2, .afterClaim reply.1, []⟩
  | .expire added =>
    let reply := perform (EscalationKeys.expire candidate.workItem.id
      alerting.suppressionWindowSeconds io.now) io.outcome keys
    some ⟨pg, reply.2, .afterExpire added reply.1, []⟩
  | .fanOut =>
    some ⟨pg, keys, .sending,
      [.dispatched (alerting.dispatcher.escalationAlert candidate.workItem)]⟩
  | .sending =>
    some ⟨pg, keys, .afterFanOut io.outcome, if io.outcome = .ok then [.escalated] else []⟩
  | .record attempt =>
    let reply := perform (Postgres.recordEscalation prisma candidate.workItem.id
      ESCALATION_ACTOR io.now) io.outcome pg
    some ⟨reply.2, keys, .afterRecord attempt reply.1,
      if reply.2.toTables = pg.toTables then [] else [.recorded]⟩
  | _ => none

/-- What a step can do, by the control point that it leaves. -/
inductive Runs : EscalatePc → EscalateStep → Prop
  | unclaimed : Runs .claim ⟨pg, keys, .done, []⟩
  | claimed {added : ℕ} {keys' : EscalationKeys} {pc' : EscalatePc}
      (adds : EscalationKeys.sadd candidate.workItem.id ESCALATION_LEVEL io.now keys
        = .ok (added, keys'))
      (pc : pc' = .expire added ∨ pc' = .done) :
    Runs .claim ⟨pg, keys', pc', []⟩
  | unexpired {added : ℕ} (lost : ∃ e, io.outcome = .fault false e) :
    Runs (.expire added) ⟨pg, keys, .done, []⟩
  | expired {added : ℕ} {keys' : EscalationKeys} {pc' : EscalatePc}
      (expires : EscalationKeys.expire candidate.workItem.id alerting.suppressionWindowSeconds
        io.now keys = .ok ((), keys'))
      (pc : pc' = .fanOut ∧ added = 1 ∨ pc' = .done)
      (carriedOut : ∀ e, io.outcome ≠ .fault false e) :
    Runs (.expire added) ⟨pg, keys', pc', []⟩
  | dispatched : Runs .fanOut
      ⟨pg, keys, .sending, [.dispatched (alerting.dispatcher.escalationAlert candidate.workItem)]⟩
  | settled : Runs .sending ⟨pg, keys, .record 1, [.escalated]⟩
  | rejected (outcome : io.outcome ≠ .ok) : Runs .sending ⟨pg, keys, .done, []⟩
  | unrecorded {attempt : ℕ} {e : Thrown}
      (reply : perform (Postgres.recordEscalation prisma candidate.workItem.id ESCALATION_ACTOR
        io.now) io.outcome pg = (.error e, pg)) :
    Runs (.record attempt) ⟨pg, keys, .afterRecord attempt (.error e), []⟩
  | recorded {attempt : ℕ} {pg' : Postgres} {reply : Except Thrown Unit}
      (commits : Postgres.recordEscalation prisma candidate.workItem.id ESCALATION_ACTOR io.now pg
        = .ok ((), pg'))
      (reply_eq : reply = .ok () ∨ ∃ e, io.outcome = .fault true e ∧ reply = .error (.store e)) :
    Runs (.record attempt) ⟨pg', keys, .afterRecord attempt reply, [.recorded]⟩

variable {prisma alerting io pg keys candidate}

lemma toTables_ne_of_recordEscalation {workItemId : WorkItemId} {actor : String} {clock : Instant}
    {u : Unit} {pg' : Postgres}
    (h : Postgres.recordEscalation prisma workItemId actor clock pg = .ok (u, pg')) :
    pg'.toTables ≠ pg.toTables := by
  intro heq
  have htables := Postgres.recordEscalation_ok h
  rw [heq] at htables
  have hlength := congrArg (fun t : Tables => t.stateTransitions.length) htables
  simp [Tables.insertTransition] at hlength

lemma runs_of_claim :
    let reply := perform (EscalationKeys.sadd candidate.workItem.id ESCALATION_LEVEL io.now)
      io.outcome keys
    candidate.Runs prisma alerting io pg keys .claim ⟨pg, reply.2, .afterClaim reply.1, []⟩ := by
  obtain ⟨added, keys', hadds⟩ := EscalationKeys.sadd_eq keys candidate.workItem.id
    ESCALATION_LEVEL io.now
  rcases perform_cases hadds io.outcome with ⟨hreply, -⟩ | ⟨e, hreply, -⟩ | ⟨e, hreply, -⟩ <;>
    simp only [hreply]
  · exact .claimed hadds (.inl rfl)
  · exact .claimed hadds (.inr rfl)
  · exact .unclaimed

lemma runs_of_expire (added : ℕ) :
    let reply := perform (EscalationKeys.expire candidate.workItem.id
      alerting.suppressionWindowSeconds io.now) io.outcome keys
    candidate.Runs prisma alerting io pg keys (.expire added)
      ⟨pg, reply.2, .afterExpire added reply.1, []⟩ := by
  obtain ⟨keys', hexpires⟩ : ∃ keys', EscalationKeys.expire candidate.workItem.id
      alerting.suppressionWindowSeconds io.now keys = .ok ((), keys') := ⟨_, rfl⟩
  rcases perform_cases hexpires io.outcome with ⟨hreply, hio⟩ | ⟨e, hreply, hio⟩ |
    ⟨e, hreply, hio⟩ <;> simp only [hreply]
  · refine .expired hexpires ?_ (by simp [hio])
    by_cases hadded : added = 1
    · exact .inl ⟨if_pos hadded, hadded⟩
    · exact .inr (if_neg hadded)
  · exact .expired hexpires (.inr rfl) (by simp [hio])
  · exact .unexpired ⟨e, hio⟩

lemma runs_of_record (attempt : ℕ) :
    let reply := perform (Postgres.recordEscalation prisma candidate.workItem.id ESCALATION_ACTOR
      io.now) io.outcome pg
    candidate.Runs prisma alerting io pg keys (.record attempt)
      ⟨reply.2, keys, .afterRecord attempt reply.1,
        if reply.2.toTables = pg.toTables then [] else [.recorded]⟩ := by
  cases hcommand : Postgres.recordEscalation prisma candidate.workItem.id ESCALATION_ACTOR io.now
    pg with
  | ok p =>
    obtain ⟨⟨⟩, pg'⟩ := p
    have hne := toTables_ne_of_recordEscalation hcommand
    rcases perform_cases hcommand io.outcome with ⟨hreply, hio⟩ | ⟨e, hreply, hio⟩ |
      ⟨e, hreply, hio⟩
    · simp only [hreply, if_neg hne]
      exact .recorded hcommand (.inl rfl)
    · simp only [hreply, if_neg hne]
      exact .recorded hcommand (.inr ⟨e, hio, rfl⟩)
    · simp only [hreply, if_true]
      exact .unrecorded hreply
  | error e =>
    obtain ⟨e', hreply⟩ := perform_of_error hcommand io.outcome
    simp only [hreply, if_true]
    exact .unrecorded hreply

lemma runs_of_step {step : EscalateStep}
    (h : candidate.step prisma alerting io pg keys = some step) :
    candidate.Runs prisma alerting io pg keys candidate.pc step := by
  simp only [Candidate.step] at h
  cases hpc : candidate.pc with
  | claim =>
    simp only [hpc, Option.some.injEq] at h
    exact h ▸ runs_of_claim
  | expire added =>
    simp only [hpc, Option.some.injEq] at h
    exact h ▸ runs_of_expire added
  | fanOut =>
    simp only [hpc, Option.some.injEq] at h
    exact h ▸ .dispatched
  | sending =>
    simp only [hpc, Option.some.injEq] at h
    subst h
    cases hio : io.outcome with
    | ok => exact .settled
    | fault applied e => exact .rejected (by simp [hio])
  | record attempt =>
    simp only [hpc, Option.some.injEq] at h
    exact h ▸ runs_of_record attempt
  | _ => simp only [hpc] at h; cases h

/-- A step appends the audit rows that it reports. -/
lemma Runs.audit {pc : EscalatePc} {step : EscalateStep}
    (h : candidate.Runs prisma alerting io pg keys pc step) (w : WorkItemId) :
    step.postgres.audit w = pg.audit w ++
      if candidate.workItem.id = w ∧ step.deeds.countP EscalationDeed.isRecorded = 1 then
        [⟨w, .OPEN, .OPEN, ESCALATION_ACTOR, io.now⟩] else [] := by
  cases h with
  | recorded commits =>
    rw [Postgres.recordEscalation_ok commits, Tables.audit_insertTransition]
    by_cases hw : candidate.workItem.id = w
    · subst hw
      simp [EscalationDeed.isRecorded]
    · simp [hw]
  | _ => simp [EscalationDeed.isRecorded]

/-- No candidate is over that takes a step. -/
lemma Runs.isOver_eq_false {pc : EscalatePc} {step : EscalateStep}
    (h : candidate.Runs prisma alerting io pg keys pc step) : pc.isOver = false := by
  cases h <;> rfl

end Candidate

end InveniOps.Alerting
