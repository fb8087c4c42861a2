import Mathlib.Data.List.Chain
import Mathlib.Data.List.TakeWhile
import InveniOps.Alerting.EscalationRuns

/-!
# Escalations of work items that have left `OPEN`

The query of a tick is the only test of the state.  So a tick that has read a work
item as `OPEN` escalates it also when it has left `OPEN` by then, and a tick whose
query comes later does not.  In the audit trail these late escalations are the
only rows that do not start from where the row before them leads.
-/

namespace InveniOps.Alerting

open Lib Domain Stores Incidents

/-! ### Chains of audit rows -/

/-- Every row starts from the state to which the row before it leads. -/
def Chained (audit : List StateTransition) : Prop :=
  audit.IsChain fun row next => next.fromState = row.toState

instance (audit : List StateTransition) : Decidable (Chained audit) :=
  inferInstanceAs (Decidable (audit.IsChain _))

/-- The row is that of an escalation. -/
def escalates (row : StateTransition) : Bool := row.fromState = row.toState

/-- The audit rows without the escalations that come behind a transition. -/
def inTime (audit : List StateTransition) : List StateTransition :=
  audit.takeWhile escalates ++ (audit.dropWhile escalates).filter (!escalates ·)

/-- The audit rows of a walk along the lifecycle, with escalations in between. -/
structure Walk (audit : List StateTransition) (state : WorkItemStatus) : Prop where
  edges : edgesOf audit = edgesTo state
  escalations : ∀ row ∈ audit, escalates row = true → row.fromState = .OPEN

lemma isChain_edgesTo (k : ℕ) (state : WorkItemStatus) :
    (List.replicate k (WorkItemStatus.OPEN, WorkItemStatus.OPEN) ++ edgesTo state).IsChain
      fun edge next => next.1 = edge.2 := by
  induction k with
  | zero => cases state <;> decide
  | succ k ih =>
    rw [List.replicate_succ, List.cons_append, List.isChain_cons]
    refine ⟨?_, ih⟩
    intro next hnext
    show next.1 = .OPEN
    cases k with
    | zero => cases state <;> simp [edgesTo, LIFECYCLE] at hnext <;> exact hnext ▸ rfl
    | succ k =>
      rw [List.replicate_succ, List.cons_append, List.head?_cons, Option.mem_some_iff] at hnext
      exact hnext ▸ rfl

/-- The escalations in time start and end in `OPEN`, like the walk behind them. -/
lemma Walk.chained_inTime {audit : List StateTransition} {state : WorkItemStatus}
    (h : Walk audit state) : Chained (inTime audit) := by
  have hearly : (audit.takeWhile escalates).map (fun row => (row.fromState, row.toState))
      = List.replicate (audit.takeWhile escalates).length (.OPEN, .OPEN) := by
    rw [List.eq_replicate_iff]
    refine ⟨List.length_map _, ?_⟩
    intro edge hedge
    obtain ⟨row, hrow, rfl⟩ := List.mem_map.1 hedge
    have hescalates : escalates row = true := (List.mem_takeWhile_imp hrow)
    have hopen := h.escalations row (List.takeWhile_subset _ hrow) hescalates
    simp only [escalates, decide_eq_true_eq] at hescalates
    rw [← hescalates, hopen]
  have hlate : ((audit.dropWhile escalates).filter (!escalates ·)).map
      (fun row => (row.fromState, row.toState)) = edgesTo state := by
    have hdropped : (audit.takeWhile escalates).filter (!escalates ·) = [] := by
      rw [List.filter_eq_nil_iff]
      intro row hrow
      simp [List.mem_takeWhile_imp hrow]
    have hfilter : audit.filter (!escalates ·)
        = (audit.dropWhile escalates).filter (!escalates ·) := by
      conv_lhs => rw [← List.takeWhile_append_dropWhile (p := escalates) (l := audit)]
      rw [List.filter_append, hdropped, List.nil_append]
    rw [← h.edges, ← hfilter]
    simp [edgesOf, escalates]
  rw [Chained]
  have hchain := isChain_edgesTo (audit.takeWhile escalates).length state
  rw [← hearly, ← hlate, ← List.map_append, List.isChain_map] at hchain
  exact hchain

/-- Behind a state other than `OPEN` a chain has no room for an escalation. -/
lemma no_escalation_of_chain {row : StateTransition} {rest : List StateTransition}
    (hchain : Chained (row :: rest)) (hrow : row.toState ≠ .OPEN)
    (hescalations : ∀ next ∈ rest, escalates next = true → next.fromState = .OPEN)
    (hmoves : ∀ next ∈ rest, escalates next = false → next.toState ≠ .OPEN) :
    ∀ next ∈ rest, escalates next = false := by
  induction rest generalizing row with
  | nil => exact nofun
  | cons x rest ih =>
    obtain ⟨hx, hrest⟩ := List.isChain_cons_cons.1 hchain
    have hmove : escalates x = false := by
      rw [← Bool.not_eq_true]
      intro hescalates
      exact hrow (hx.symm.trans (hescalations x List.mem_cons_self hescalates))
    intro next hnext
    rcases List.mem_cons.1 hnext with rfl | hmem
    · exact hmove
    · exact ih hrest (hmoves x List.mem_cons_self hmove)
        (fun y hy => hescalations y (List.mem_cons_of_mem _ hy))
        (fun y hy => hmoves y (List.mem_cons_of_mem _ hy)) next hmem

lemma Walk.toState_ne {audit : List StateTransition} {state : WorkItemStatus}
    (h : Walk audit state) {row : StateTransition} (hrow : row ∈ audit)
    (hmove : escalates row = false) : row.toState ≠ .OPEN := by
  have hne : row.fromState ≠ row.toState := by simpa [escalates] using hmove
  have hedge : (row.fromState, row.toState) ∈ edgesTo state := by
    rw [← h.edges, edgesOf]
    exact List.mem_map.2 ⟨row, List.mem_filter.2 ⟨hrow, by simpa using hne⟩, rfl⟩
  intro hopen
  rw [hopen] at hedge
  have hlife := (edgesTo_isPrefix_lifecycle state).subset hedge
  generalize row.fromState = fromState at hlife
  cases fromState <;> exact absurd hlife (by decide)

/-- The whole trail is a chain if and only if no escalation comes behind a transition. -/
lemma Walk.chained_iff {audit : List StateTransition} {state : WorkItemStatus}
    (h : Walk audit state) : Chained audit ↔ inTime audit = audit := by
  refine ⟨?_, fun heq => heq ▸ h.chained_inTime⟩
  intro hchain
  have hkept : (audit.dropWhile escalates).filter (!escalates ·) = audit.dropWhile escalates := by
    cases hrest : audit.dropWhile escalates with
    | nil => rfl
    | cons row rest =>
      have hsuffix : row :: rest <:+ audit := hrest ▸ List.dropWhile_suffix _
      have hrow : escalates row = false := by
        have hhead := List.head?_dropWhile_not escalates audit
        simpa [hrest] using hhead
      have hmem : ∀ next ∈ row :: rest, next ∈ audit := fun _ hnext => hsuffix.subset hnext
      have hnone := no_escalation_of_chain (hchain.suffix hsuffix)
        (h.toState_ne (hmem row List.mem_cons_self) hrow)
        (fun next hnext => h.escalations next (hmem next (List.mem_cons_of_mem _ hnext)))
        (fun next hnext => h.toState_ne (hmem next (List.mem_cons_of_mem _ hnext)))
      refine List.filter_eq_self.2 ?_
      intro next hnext
      rcases List.mem_cons.1 hnext with rfl | hmem
      · simp [hrow]
      · simp [hnone next hmem]
  rw [inTime, hkept, List.takeWhile_append_dropWhile]

/-! ### The trail of a run -/

namespace EscalationSystem

variable {services : EscalationServices} {s s₁ s₂ s' : EscalationSystem} {w : WorkItemId}

/-- The audit rows that an event appends. -/
lemma trail_of_step {e : EscalationEvent} (h : s.step services e = some s')
    (hlife : s.incidents.LifecycleInv) (w : WorkItemId) :
    ∃ rows, s'.postgres.audit w = s.postgres.audit w ++ rows ∧
      (∀ row ∈ rows, escalates row = true → row.fromState = .OPEN) ∧
      s'.deeds w EscalationDeed.isRecorded
        = s.deeds w EscalationDeed.isRecorded + rows.countP escalates := by
  have hidle : s'.incidents = s.incidents → s'.history = s.history →
      ∃ rows, s'.postgres.audit w = s.postgres.audit w ++ rows ∧
        (∀ row ∈ rows, escalates row = true → row.fromState = .OPEN) ∧
        s'.deeds w EscalationDeed.isRecorded
          = s.deeds w EscalationDeed.isRecorded + rows.countP escalates := by
    intro hincidents hhistory
    refine ⟨[], ?_, nofun, ?_⟩
    · rw [List.append_nil, postgres, postgres, hincidents]
    · rw [List.countP_nil, Nat.add_zero, deeds, deeds, hhistory]
  cases e with
  | incidents e' =>
    obtain ⟨rows, haudit, hmoves⟩ := audit_of_incidents h hlife w
    obtain ⟨-, incidents, -, rfl⟩ := step_incidents_inv h
    have hnone : ∀ row ∈ rows, escalates row = false := by
      intro row hrow
      simpa [escalates] using hmoves row hrow
    refine ⟨rows, haudit, fun row hrow hescalates => ?_, ?_⟩
    · rw [hnone row hrow] at hescalates
      cases hescalates
    · rw [List.countP_eq_zero.2 fun row hrow => by simp [hnone row hrow]]
      rfl
  | startTick now =>
    cases h
    exact hidle rfl rfl
  | query tick outcome =>
    obtain ⟨now, -, rfl | rfl⟩ := step_query_inv h <;> exact hidle rfl rfl
  | escalate k io =>
    obtain ⟨candidate, step, -, -, hruns, rfl⟩ := step_escalate_inv h
    have hdeeds := deeds_onEscalate (s := s) (w := w) EscalationDeed.isRecorded k io candidate step
    have hone : step.deeds.countP EscalationDeed.isRecorded ≤ 1 := by
      generalize candidate.pc = pc at hruns
      cases hruns <;> simp [EscalationDeed.isRecorded]
    refine ⟨_, hruns.audit w, ?_, ?_⟩
    · intro row hrow _
      split_ifs at hrow
      · rw [List.mem_singleton.1 hrow]
      · cases hrow
    · rw [hdeeds]
      split_ifs with hw hrecorded hrecorded
      · simp [escalates, hrecorded.2]
      · have hnone : step.deeds.countP EscalationDeed.isRecorded ≠ 1 :=
          fun heq => hrecorded ⟨hw, heq⟩
        rw [List.countP_nil]
        omega
      · exact absurd hrecorded.1 hw
      · rfl
  | crash tick =>
    cases h
    exact hidle rfl rfl

variable (s w) in
/-- The audit rows of escalations are those that the ticks have recorded. -/
structure TrailInv : Prop where
  life : s.incidents.LifecycleInv
  escalations : ∀ row ∈ s.postgres.audit w, escalates row = true → row.fromState = .OPEN
  recorded : s.deeds w EscalationDeed.isRecorded = s.escalationRows w

lemma TrailInv.step (hinv : s.TrailInv w) {e : EscalationEvent}
    (h : s.step services e = some s') : s'.TrailInv w := by
  obtain ⟨rows, haudit, hrows, hdeeds⟩ := trail_of_step h hinv.life w
  refine ⟨lifecycleInv_of_step h hinv.life, ?_, ?_⟩
  · intro row hrow
    rw [haudit] at hrow
    rcases List.mem_append.1 hrow with hold | hnew
    · exact hinv.escalations row hold
    · exact hrows row hnew
  · rw [hdeeds, hinv.recorded, escalationRows, escalationRows, haudit, List.countP_append]
    rfl

lemma trailInv_of_run {events : List EscalationEvent}
    (hrun : (lts services).run empty events = some s) (w : WorkItemId) : s.TrailInv w := by
  have hempty : empty.TrailInv w :=
    ⟨IncidentSystem.lifecycleInv_empty, fun _ hrow => (nomatch hrow), rfl⟩
  exact Lts.run_invariant (I := fun t => t.TrailInv w)
    (fun _ _ _ ht hstep => TrailInv.step ht hstep) hrun hempty

lemma TrailInv.walk (hinv : s.TrailInv w) : ∃ state, Walk (s.postgres.audit w) state := by
  cases hr : s.postgres.row w with
  | none =>
    have hnil : s.postgres.audit w = [] := audit_eq_nil hr
    exact ⟨.OPEN, by rw [hnil]; rfl, hinv.escalations⟩
  | some r =>
    have hedges := (hinv.life.rows w r hr).edges
    rw [Tables.row_id hr] at hedges
    exact ⟨r.state, hedges, hinv.escalations⟩

/-! ### Ticks that have read the work item -/

variable (services) in
/-- The tick has read the work item as `OPEN` before, and is not done with it. -/
def HasRead (before : List EscalationEvent) (s : EscalationSystem) (w : WorkItemId)
    (tick : ℕ) : Prop :=
  ∃ candidate ∈ s.candidates, candidate.tick = tick ∧ candidate.workItem.id = w ∧
    candidate.pc.isOver = false ∧ candidate.workItem.state = .OPEN ∧
    (lts services).Passed empty before fun _ t => t.postgres.row w = some candidate.workItem

/-- Every candidate was read from the table, as a row in `OPEN`. -/
lemma read_of_run {events : List EscalationEvent}
    (hrun : (lts services).run empty events = some s) {candidate : Candidate}
    (hmem : candidate ∈ s.candidates) : candidate.workItem.state = .OPEN ∧
      (lts services).Passed empty events fun _ t =>
        t.postgres.row candidate.workItem.id = some candidate.workItem := by
  have hinv := Lts.run_invariant_history
    (I := fun events t => ∀ c ∈ t.candidates, c.workItem.state = .OPEN ∧
      (lts services).Passed empty events fun _ t => t.postgres.row c.workItem.id = some c.workItem)
    (fun c hc => absurd hc List.not_mem_nil) (fun events t e t' hrun ht hstep c hc => ?_) hrun
  · exact hinv candidate hmem
  · rcases candidate_of_step hstep hc with ⟨old, hold, -, hsame, -⟩ | ⟨-, hrow, hopen⟩
    · obtain ⟨hopen, hpassed⟩ := ht old hold
      rw [hsame]
      exact ⟨hopen, hpassed.mono [e]⟩
    · exact ⟨hopen, (Lts.Passed.now hrun hrow).mono [e]⟩

/-- What holds behind a state `s₁` in which the work item has left `OPEN`. -/
structure LateInv (s₁ s : EscalationSystem) (w : WorkItemId) : Prop where
  trail : s.TrailInv w
  left : ∃ r, s.postgres.row w = some r ∧ r.state ≠ .OPEN
  history : ∃ late, s.history = s₁.history ++ late ∧ ∀ entry ∈ late, entry.workItemId = w →
    ∃ candidate ∈ s₁.candidates, candidate.tick = entry.tick ∧ candidate.workItem.id = w ∧
      candidate.pc.isOver = false
  candidates : ∀ candidate ∈ s.candidates, candidate.workItem.id = w →
    candidate.pc.isOver = false → ∃ old ∈ s₁.candidates, old.tick = candidate.tick ∧
      old.workItem.id = w ∧ old.pc.isOver = false

/-- No work item returns to `OPEN`. -/
lemma left_of_step (hinv : s.TrailInv w) {e : EscalationEvent} (h : s.step services e = some s')
    (hleft : ∃ r, s.postgres.row w = some r ∧ r.state ≠ .OPEN) :
    ∃ r, s'.postgres.row w = some r ∧ r.state ≠ .OPEN := by
  obtain ⟨r, hr, hstate⟩ := hleft
  obtain ⟨r', hr'⟩ := row_of_step h ⟨r, hr⟩
  refine ⟨r', hr', ?_⟩
  have hedges := (hinv.life.rows w r hr).edges
  have hedges' := ((hinv.step h).life.rows w r' hr').edges
  rw [Tables.row_id hr] at hedges
  rw [Tables.row_id hr'] at hedges'
  obtain ⟨rows, haudit, -, -⟩ := trail_of_step h hinv.life w
  intro hopen
  have hnil : edgesOf (s.postgres.audit w) ++ edgesOf rows = [] := by
    rw [← edgesOf_append, ← haudit]
    exact hedges'.trans (by rw [hopen]; rfl)
  have hnone := hedges.symm.trans (List.append_eq_nil_iff.1 hnil).1
  cases hs : r.state with
  | OPEN => exact hstate hs
  | _ => simp [hs, edgesTo, LIFECYCLE] at hnone

lemma LateInv.step (hinv : LateInv s₁ s w) {e : EscalationEvent}
    (h : s.step services e = some s') : LateInv s₁ s' w := by
  refine ⟨hinv.trail.step h, left_of_step hinv.trail h hinv.left, ?_, ?_⟩
  · obtain ⟨late, hhistory, hlate⟩ := hinv.history
    have hidle : s'.history = s.history → ∃ late, s'.history = s₁.history ++ late ∧
        ∀ entry ∈ late, entry.workItemId = w → ∃ candidate ∈ s₁.candidates,
          candidate.tick = entry.tick ∧ candidate.workItem.id = w ∧
            candidate.pc.isOver = false :=
      fun hsame => ⟨late, hsame.trans hhistory, hlate⟩
    cases e with
    | incidents e' =>
      obtain ⟨-, incidents, -, rfl⟩ := step_incidents_inv h
      exact hidle rfl
    | startTick now =>
      cases h
      exact hidle rfl
    | query tick outcome =>
      obtain ⟨now, -, rfl | rfl⟩ := step_query_inv h <;> exact hidle rfl
    | escalate k io =>
      obtain ⟨candidate, step, hcandidate, -, hruns, rfl⟩ := step_escalate_inv h
      refine ⟨late ++ step.deeds.map (⟨candidate.tick, candidate.workItem.id, ·⟩), ?_, ?_⟩
      · rw [← List.append_assoc, ← hhistory]
        rfl
      · intro entry hentry hw
        rcases List.mem_append.1 hentry with hold | hnew
        · exact hlate entry hold hw
        · obtain ⟨deed, -, rfl⟩ := List.mem_map.1 hnew
          exact hinv.candidates candidate (List.mem_of_getElem? hcandidate) hw
            hruns.isOver_eq_false
    | crash tick =>
      cases h
      exact hidle rfl
  · intro candidate hmem hw hover
    rcases candidate_of_step h hmem with ⟨old, hold, htick, hsame, hpc⟩ | ⟨-, hrow, hopen⟩
    · rw [htick]
      exact hinv.candidates old hold (hsame ▸ hw) (hpc hover)
    · -- a query does not return a work item that has left `OPEN`
      obtain ⟨r, hr, hstate⟩ := hinv.left
      rw [hw, hr] at hrow
      exact absurd (Option.some.inj hrow ▸ hopen) hstate

/-- Behind the moment at which a work item has left `OPEN` only ticks that have read it
before escalate it, and without these escalations the audit rows of every work item are a
chain. -/
theorem late_escalations {before after : List EscalationEvent}
    (hbefore : (lts services).run empty before = some s₁)
    (hafter : (lts services).run s₁ after = some s₂) :
    (∀ w r, s₁.postgres.row w = some r → r.state ≠ .OPEN →
      ∃ late, s₂.history = s₁.history ++ late ∧
        ∀ entry ∈ late, entry.workItemId = w → HasRead services before s₁ w entry.tick) ∧
    ∀ w, s₂.deeds w EscalationDeed.isRecorded = s₂.escalationRows w ∧
      Chained (inTime (s₂.postgres.audit w)) ∧
      (Chained (s₂.postgres.audit w) ↔ inTime (s₂.postgres.audit w) = s₂.postgres.audit w) := by
  have hrun : (lts services).run empty (before ++ after) = some s₂ := by
    rw [Lts.run_append, hbefore, Option.bind_some, hafter]
  refine ⟨fun w r hr hstate => ?_, fun w => ?_⟩
  · have hstart : LateInv s₁ s₁ w := by
      refine ⟨trailInv_of_run hbefore w, ⟨r, hr, hstate⟩, ⟨[], ?_, nofun⟩, ?_⟩
      · rw [List.append_nil]
      · exact fun candidate hmem hw hover => ⟨candidate, hmem, rfl, hw, hover⟩
    have hinv := Lts.run_invariant (I := fun t => LateInv s₁ t w)
      (fun _ _ _ ht hstep => LateInv.step ht hstep) hafter hstart
    obtain ⟨late, hhistory, hlate⟩ := hinv.history
    refine ⟨late, hhistory, fun entry hentry hw => ?_⟩
    obtain ⟨candidate, hmem, htick, rfl, hover⟩ := hlate entry hentry hw
    obtain ⟨hopen, hpassed⟩ := read_of_run hbefore hmem
    exact ⟨candidate, hmem, htick, rfl, hover, hopen, hpassed⟩
  · have htrail := trailInv_of_run hrun w
    obtain ⟨state, hwalk⟩ := htrail.walk
    exact ⟨htrail.recorded, hwalk.chained_inTime, hwalk.chained_iff⟩

/-- A tick reads the work item as `OPEN`, and a responder acknowledges it. -/
def acknowledgedEvents : List EscalationEvent :=
  .incidents itemCreated :: tickEvents 0 902000 ++
    (callEvents 0 (moveRequest .INVESTIGATING 902005) 902005 5).map .incidents

theorem late_escalations_of_acknowledged : ∃ s₁ s₂ r,
    (lts .standard).run empty acknowledgedEvents = some s₁ ∧
    (lts .standard).run s₁ (escalateEvents 0 902010 5) = some s₂ ∧
    s₁.postgres.row "w" = some r ∧ r.state = .INVESTIGATING ∧
    ∃ late, s₂.history = s₁.history ++ late ∧
      ∀ entry ∈ late, entry.workItemId = "w" →
        HasRead .standard acknowledgedEvents s₁ "w" entry.tick := by
  have hobserved : ((lts .standard).run empty acknowledgedEvents).bind
      (fun s₁ => ((lts .standard).run s₁ (escalateEvents 0 902010 5)).map
        fun _ => (s₁.postgres.row "w").map (·.state)) = some (some .INVESTIGATING) := by
    decide +kernel
  obtain ⟨s₁, hbefore, hs₁⟩ := Option.bind_eq_some_iff.1 hobserved
  obtain ⟨s₂, hafter, hrow⟩ := Option.map_eq_some_iff.1 hs₁
  obtain ⟨r, hr, hstate⟩ := Option.map_eq_some_iff.1 hrow
  exact ⟨s₁, s₂, r, hbefore, hafter, hr, hstate,
    (late_escalations hbefore hafter).1 "w" r hr (by rw [hstate]; decide)⟩

/-- The tick escalates the acknowledged work item. -/
theorem escalated_when_acknowledged : ¬ ∀ services before after s₁ s₂,
    (lts services).run empty before = some s₁ → (lts services).run s₁ after = some s₂ →
      (∀ w r, s₁.postgres.row w = some r → r.state ≠ .OPEN →
        ∀ entry ∈ s₂.history.drop s₁.history.length, entry.workItemId ≠ w) ∧
      ∀ w, Chained (s₂.postgres.audit w) := by
  intro hclaim
  have hobserved : ((lts .standard).run empty acknowledgedEvents).bind
      (fun s₁ => ((lts .standard).run s₁ (escalateEvents 0 902010 5)).map
        fun s₂ => decide (Chained (s₂.postgres.audit "w"))) = some false := by
    decide +kernel
  obtain ⟨s₁, hbefore, hs₁⟩ := Option.bind_eq_some_iff.1 hobserved
  obtain ⟨s₂, hafter, hs₂⟩ := Option.map_eq_some_iff.1 hs₁
  exact (decide_eq_false_iff_not.1 hs₂) ((hclaim _ _ _ s₁ s₂ hbefore hafter).2 "w")

end EscalationSystem

end InveniOps.Alerting
