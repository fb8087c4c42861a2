import InveniOps.Alerting.EscalationRuns

/-!
# Which work items a tick escalates

The query of a tick has one cutoff, the shortest delay of all severities; behind it each
candidate is tested against the delay of its own severity.  The two tests together select
the `OPEN` work items whose own deadline has come, and no other.
-/

namespace InveniOps.Alerting

open Lib Domain Stores Incidents

namespace EscalationScheduler

variable {scheduler : EscalationScheduler} {now : Instant} {r : WorkItem}

lemma acknowledgeWithinMs_P0_le (severity : Severity) :
    (getEscalationPolicy .P0).acknowledgeWithinMs
      ≤ (getEscalationPolicy severity).acknowledgeWithinMs := by
  cases severity <;> decide

/-- The cutoff loses no row whose own deadline has come. -/
lemma firstSignalAt_le_cutoff (h : scheduler.overdueSince r ≤ now) :
    r.firstSignalAt ≤ widestPossibleCutoff now := by
  have hshortest := acknowledgeWithinMs_P0_le (scheduler.reconciledSeverity r)
  have hdue : r.firstSignalAt
      + (getEscalationPolicy (scheduler.reconciledSeverity r)).acknowledgeWithinMs ≤ now := h
  exact le_sub_iff_add_le.2 ((add_le_add_right hshortest _).trans hdue)

/-- The second test lets a row through exactly from its deadline on. -/
lemma candidate_pc_eq_claim_iff (tick : ℕ) :
    (scheduler.candidate tick now r).pc = .claim ↔ scheduler.overdueSince r ≤ now := by
  simp only [candidate]
  split_ifs with hearly
  · exact iff_of_false (by simp) (not_le.2 hearly)
  · exact iff_of_true rfl (not_lt.1 hearly)

end EscalationScheduler

namespace EscalationSystem

variable {services : EscalationServices} {s s' : EscalationSystem}

/-- The rows for which `dispatchEscalation` is called between two states. -/
def attempted (s s' : EscalationSystem) : List WorkItem :=
  ((s'.candidates.drop s.candidates.length).filter (·.pc = .claim)).map (·.workItem)

lemma attempted_query {tick : ℕ} {now : Instant} (htick : s.ticks[tick]? = some (.querying now))
    (hquery : s.step services (.query tick .ok) = some s') :
    s.attempted s' = (s.postgres.workItems.filter fun r =>
      r.state = .OPEN ∧ r.firstSignalAt ≤ EscalationScheduler.widestPossibleCutoff now).filter
        fun r => services.alerting.scheduler.overdueSince r ≤ now := by
  simp only [step, htick, perform, Postgres.findOpenWorkItemsOlderThan, Option.some.injEq]
    at hquery
  subst hquery
  simp only [attempted, List.drop_left, List.filter_map, List.map_map]
  refine (List.map_congr_left fun _ _ => rfl).trans ((List.map_id _).trans ?_)
  refine List.filter_congr fun r _ => ?_
  simp [EscalationScheduler.candidate_pc_eq_claim_iff]

/-- Whatever the work items and the clock: a tick attempts to escalate the `OPEN` work items
whose first signal lies back by the delay of their reconciled severity, each of them once. -/
theorem selection_exact {tick : ℕ} {now : Instant}
    (htick : s.ticks[tick]? = some (.querying now))
    (hquery : s.step services (.query tick .ok) = some s') :
    (∀ r, r ∈ s.attempted s' ↔ r ∈ s.postgres.workItems ∧ r.state = .OPEN ∧
      r.firstSignalAt + (getEscalationPolicy (reconcileSeverity
        (services.alerting.scheduler.strategyRegistry.resolve r.componentType.name).severityFloor
        r.severity)).acknowledgeWithinMs ≤ now) ∧
      ((s.attempted s').map (·.id)).Nodup := by
  rw [attempted_query htick hquery]
  constructor
  · intro r
    simp only [List.mem_filter, decide_eq_true_eq]
    constructor
    · rintro ⟨⟨hmem, hopen, -⟩, hdue⟩
      exact ⟨hmem, hopen, hdue⟩
    · rintro ⟨hmem, hopen, hdue⟩
      exact ⟨⟨hmem, hopen, EscalationScheduler.firstSignalAt_le_cutoff hdue⟩, hdue⟩
  · have hsublist := (List.filter_sublist
      (p := fun r => decide (services.alerting.scheduler.overdueSince r ≤ now))).trans
      (List.filter_sublist (l := s.postgres.workItems) (p := fun r => decide (r.state = .OPEN ∧
        r.firstSignalAt ≤ EscalationScheduler.widestPossibleCutoff now)))
    exact s.postgres.constraints.work_items_pkey.sublist (hsublist.map _)

/-- A tick at the deadline of an item, to the millisecond. -/
theorem selection_exact_at_deadline : ∃ s s' : EscalationSystem,
    s.step .standard (.query 0 .ok) = some s' ∧ (s.attempted s').map (·.id) = ["w"] ∧
      ((s.attempted s').map (·.id)).Nodup := by
  have hobserved : ((lts .standard).run empty [.incidents itemCreated, .startTick 901000]).bind
      (fun s => (s.step .standard (.query 0 .ok)).map fun s' =>
        (s.ticks, (s.attempted s').map (·.id))) = some ([.querying 901000], ["w"]) := by
    decide +kernel
  obtain ⟨s, -, hs⟩ := Option.bind_eq_some_iff.1 hobserved
  obtain ⟨s', hquery, hs'⟩ := Option.map_eq_some_iff.1 hs
  obtain ⟨hticks, hattempted⟩ := Prod.mk.inj hs'
  have htick : s.ticks[0]? = some (.querying 901000) := by rw [hticks]; rfl
  exact ⟨s, s', hquery, hattempted, (selection_exact htick hquery).2⟩

end EscalationSystem

end InveniOps.Alerting
