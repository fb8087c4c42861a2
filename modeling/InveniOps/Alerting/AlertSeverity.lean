import InveniOps.Workers.WorkItemRefs
import InveniOps.Alerting.Dispatcher

/-!
# The severity that an incident is alerted by

A work item has the origin of the signal for which the worker created it, and
keeps it whatever signals are linked to it later.  So its alerts and its
escalation follow the more urgent of the floor of the component type and the
severity which that one signal reported.
-/

namespace InveniOps.Alerting

open Lib Domain Stores Ingestion Workers

/-- The origin of the work items that are created for a signal. -/
def signalOrigin (signal : IngestionSignal) : Origin :=
  (SignalDebouncer.toCreateInput signal).origin

/-- The alert channels and the escalation of a row are those of a severity. -/
structure AlertsBy (severity : Severity) (r : WorkItem) : Prop where
  dispatch : ∀ eventType, (alertDispatcher.alert r eventType).severity = severity
  escalation : (alertDispatcher.escalationAlert r).severity = severity
  channels : (alertDispatcher.escalationAlert r).channels
    = [(getEscalationPolicy severity).escalateTo]
  deadline : escalationScheduler.overdueSince r
    = r.firstSignalAt + (getEscalationPolicy severity).acknowledgeWithinMs

lemma alertsBy_origin (r : WorkItem) : AlertsBy (alertSeverity r.origin) r :=
  ⟨severity_alert r, severity_escalationAlert r, channels_escalationAlert r, rfl⟩

end InveniOps.Alerting

namespace InveniOps.Workers.Pipeline

open Lib Domain Stores Ingestion Alerting

variable {worker : SignalWorker} {s s' : Pipeline}

/-- The origin of the row with an id. -/
def originOf (s : Pipeline) (w : WorkItemId) : Option Origin :=
  s.stores.world.postgres.originOf w

lemma hasRow_iff_originOf {pg : Postgres} {w : WorkItemId} :
    HasRow pg w ↔ pg.originOf w ≠ none := by
  rw [HasRow, Postgres.originOf, ne_eq, Option.map_eq_none_iff, ← ne_eq,
    Option.ne_none_iff_exists']

/-- No event changes the origin of a row. -/
lemma originOf_of_step {e : PipelineEvent} (h : s.step worker e = some s') {w : WorkItemId}
    (hw : HasRow s.stores.world.postgres w) : s'.originOf w = s.originOf w := by
  simp only [originOf]
  rcases stores_of_step h with heq | ⟨_, io, step, -, hruns, heq⟩ | ⟨io, increment, heq⟩ |
    ⟨_, _, _, hcommand, heq⟩ | ⟨_, heq⟩ <;> rw [heq]
  · rcases hruns.world with hsame | ⟨_, rpc, signal, -, -, -, rfl⟩
    · rw [hsame]
    · rcases SignalDebouncer.resolveStep_postgres rpc with hsame | ⟨_, _, r, -, hcreate⟩
      · rw [hsame]
      · -- the new row has an id of its own
        obtain ⟨-, hfresh, -, -⟩ := Postgres.createWorkItem_ok hcreate
        obtain ⟨r₀, hr₀⟩ := hw
        have hne : w ≠ r.id := by
          rintro rfl
          rw [hfresh] at hr₀
          cases hr₀
        rw [Postgres.originOf_createWorkItem hcreate, if_neg hne]
  · rcases incrementStep_postgres increment with hsame | ⟨r, hcommand⟩
    · rw [hsame]
    · exact Postgres.originOf_incrementSignalCount hcommand w
  · exact PostgresWrite.originOf_of_command hcommand w

lemma originOf_of_run {events : List PipelineEvent} (hrun : (lts worker).run s events = some s')
    {w : WorkItemId} (hw : HasRow s.stores.world.postgres w) : s'.originOf w = s.originOf w := by
  have hinv := Lts.run_invariant
    (I := fun t => HasRow t.stores.world.postgres w ∧ t.originOf w = s.originOf w)
    (fun t e t' ht hstep => ?_) hrun ⟨hw, rfl⟩
  · exact hinv.2
  · have hlts : t.step worker e = some t' := hstep
    exact ⟨hasRow_of_step hlts ht.1, (originOf_of_step hlts ht.1).trans ht.2⟩

/-- Attempt `a` has created the work item `w` for the signal, one of its batch. -/
structure CreatedFor (s : Pipeline) (w : WorkItemId) (a : ℕ) (signal : IngestionSignal) :
    Prop where
  inserted : (w, a) ∈ s.insertions
  batch : ∃ attempt, s.attempts[a]? = some attempt ∧ signal ∈ attempt.signals
  origin : s.originOf w = some (signalOrigin signal)

/-- Every row was created for a signal of a batch. -/
def OriginInv (s : Pipeline) : Prop :=
  ∀ w, HasRow s.stores.world.postgres w → ∃ a signal, s.CreatedFor w a signal

/-- The attempts keep their batches. -/
lemma batch_of_step {e : PipelineEvent} (h : s.step worker e = some s') {a : ℕ}
    {attempt : Attempt} (ha : s.attempts[a]? = some attempt) :
    ∃ attempt', s'.attempts[a]? = some attempt' ∧ attempt'.signals = attempt.signals := by
  rcases attempts_of_step h with heq | ⟨_, _, -, heq⟩ | ⟨b, old, new, hold, heq, -, hsignals⟩ <;>
    rw [heq]
  · exact ⟨attempt, ha, rfl⟩
  · exact ⟨attempt, getElem?_concat_of ha _, rfl⟩
  · by_cases hba : b = a
    · subst hba
      obtain rfl := Option.some.inj (hold.symm.trans ha)
      exact ⟨new, getElem?_set_self_of hold new, hsignals⟩
    · exact ⟨attempt, by rw [List.getElem?_set_ne hba, ha], rfl⟩

lemma CreatedFor.step {w : WorkItemId} {a : ℕ} {signal : IngestionSignal}
    (h : s.CreatedFor w a signal) {e : PipelineEvent} (hstep : s.step worker e = some s')
    (hinsertions : s.insertions ⊆ s'.insertions) : s'.CreatedFor w a signal := by
  obtain ⟨attempt, ha, hsignal⟩ := h.batch
  obtain ⟨attempt', ha', hsignals⟩ := batch_of_step hstep ha
  have hw : HasRow s.stores.world.postgres w := by
    rw [hasRow_iff_originOf]
    intro hnone
    cases h.origin.symm.trans hnone
  exact ⟨hinsertions h.inserted, ⟨attempt', ha', hsignals ▸ hsignal⟩,
    (originOf_of_step hstep hw).trans h.origin⟩

lemma OriginInv.step (h : s.OriginInv) {e : PipelineEvent} (hstep : s.step worker e = some s') :
    s'.OriginInv := by
  intro w hw
  rcases insertions_of_step hstep with ⟨hinsertions, hrows⟩ |
    ⟨a, io, attempt, resolved, locked, n, signal, r, -, ha, -, hsignal, hcreate, -, hinsertions⟩
  · obtain ⟨a, signal, hcreated⟩ := h w (hrows w hw)
    exact ⟨a, signal, hcreated.step hstep (hinsertions ▸ List.Subset.refl _)⟩
  have hsubset : s.insertions ⊆ s'.insertions := hinsertions ▸ List.subset_append_left _ _
  rcases hasRow_of_created hcreate hw with hold | rfl
  · obtain ⟨b, signal', hcreated⟩ := h w hold
    exact ⟨b, signal', hcreated.step hstep hsubset⟩
  -- the row that this event creates
  obtain ⟨attempt', ha', hsignals⟩ := batch_of_step hstep ha
  have horigin := Postgres.originOf_createWorkItem hcreate r.id
  rw [if_pos rfl] at horigin
  exact ⟨a, signal, hinsertions ▸ List.mem_append_right _ (List.mem_singleton_self _),
    ⟨attempt', ha', hsignals ▸ List.mem_of_getElem? hsignal⟩, horigin⟩

/-! ### Runs -/

/-- The work item is alerted by the more urgent of its floor and the severity of a signal,
which is as urgent as a linked signal if and only if one of the two is. -/
structure AlertsFor (s : Pipeline) (w : WorkItemId) (signal : IngestionSignal) : Prop where
  row : ∃ r, s.stores.world.postgres.row w = some r ∧ r.origin = signalOrigin signal ∧
    AlertsBy (alertSeverity (signalOrigin signal)) r
  le_floor : (alertSeverity (signalOrigin signal)).rank
    ≤ (severityFloorOf signal.componentType).rank
  le_reported : (alertSeverity (signalOrigin signal)).rank ≤ signal.severity.rank
  linked : ∀ doc ∈ s.stores.mongo.documents, doc.workItemId = some w →
    ((alertSeverity (signalOrigin signal)).rank ≤ doc.severity.rank ↔
      (severityFloorOf signal.componentType).rank ≤ doc.severity.rank ∨
        signal.severity.rank ≤ doc.severity.rank)

lemma alertsFor_of_origin {w : WorkItemId} {signal : IngestionSignal}
    (h : s.originOf w = some (signalOrigin signal)) : s.AlertsFor w signal := by
  obtain ⟨r, hr, horigin⟩ := Option.map_eq_some_iff.1 h
  have hle := rank_alertSeverity_le_iff (signalOrigin signal)
  refine ⟨⟨r, hr, horigin, horigin ▸ alertsBy_origin r⟩, (hle _).2 (.inl le_rfl),
    (hle _).2 (.inr le_rfl), fun doc _ _ => hle doc.severity⟩

/-- A work item is alerted, at every moment after its creation, by the more urgent of the
floor of its component type and the severity of the signal it was created for. -/
theorem alertsFor_of_run {before after : List PipelineEvent}
    (hbefore : (lts worker).run empty before = some s) {w : WorkItemId}
    (hw : HasRow s.stores.world.postgres w) :
    ∃ a signal, s.CreatedFor w a signal ∧
      ∀ s', (lts worker).run s after = some s' → s'.AlertsFor w signal := by
  have hinv : s.OriginInv := by
    refine Lts.run_invariant ?_ hbefore ?_
    · intro t e t' ht hstep
      exact ht.step hstep
    · intro w hw
      obtain ⟨r, hr⟩ := hw
      cases hr
  obtain ⟨a, signal, hcreated⟩ := hinv w hw
  refine ⟨a, signal, hcreated, fun s' hafter => alertsFor_of_origin ?_⟩
  exact (originOf_of_run hafter hw).trans hcreated.origin

/-- A batch of two signals: one that barely reports anything, for which the work item is
created here, and one that reports an emergency. -/
def openedEvents : List PipelineEvent :=
  [.enqueue [cacheSignal "a" "c" .P3, cacheSignal "b" "c" .P0], .take 0] ++
    List.replicate 5 (.step 0 ⟨.ok, "w", 5⟩)

/-- The rest of the batch, in which the second signal joins the work item. -/
def joiningEvents : List PipelineEvent :=
  List.replicate 12 (.step 0 ⟨.ok, "v", 5⟩) ++
    .increment 0 0 ⟨.ok, "v", 5⟩ :: List.replicate 5 (.step 0 ⟨.ok, "v", 5⟩)

theorem alertsFor_of_joiningEvents : ∃ s s', (lts .standard).run empty openedEvents = some s ∧
    (lts .standard).run s joiningEvents = some s' ∧
      ∃ a signal, s.CreatedFor "w" a signal ∧ s'.AlertsFor "w" signal := by
  have hobserved : ((lts .standard).run empty openedEvents).bind
      (fun s => ((lts .standard).run s joiningEvents).map
        fun _ => (s.stores.world.postgres.row "w").isSome) = some true := by
    decide +kernel
  obtain ⟨s, hopened, hs⟩ := Option.bind_eq_some_iff.1 hobserved
  obtain ⟨s', hjoined, hrow⟩ := Option.map_eq_some_iff.1 hs
  obtain ⟨a, signal, hcreated, halerts⟩ := alertsFor_of_run hopened
    (Option.isSome_iff_exists.1 hrow)
  exact ⟨s, s', hopened, hjoined, a, signal, hcreated, halerts s' hjoined⟩

/-- The severities by which a row is alerted and escalated are as urgent as those of its
linked signals. -/
def NeverBelowSignals (s : Pipeline) : Prop :=
  ∀ w r, s.stores.world.postgres.row w = some r →
    ∀ doc ∈ s.stores.mongo.documents, doc.workItemId = some w →
      (∀ eventType, (alertDispatcher.alert r eventType).severity.rank ≤ doc.severity.rank) ∧
        (escalationScheduler.reconciledSeverity r).rank ≤ doc.severity.rank

/-- An emergency that joins the work item of a component with a low floor is alerted by
the floor. -/
theorem alerted_below_signal : ¬ ∀ worker events s c, (lts worker).run empty events = some s →
    (∀ job ∈ s.jobs, ∀ signal ∈ job.signals, signal.componentId = c) → s.NeverBelowSignals := by
  intro hclaim
  have hobserved : ((lts .standard).run empty (openedEvents ++ joiningEvents)).map
      (fun s => (decide (∀ job ∈ s.jobs, ∀ signal ∈ job.signals, signal.componentId = "c"),
        (s.stores.world.postgres.row "w").map
          (fun r => (escalationScheduler.reconciledSeverity r).rank),
        s.stores.mongo.documents.any fun doc => doc.workItemId = some "w" ∧ doc.severity.rank = 0))
      = some (true, some 2, true) := by
    decide +kernel
  obtain ⟨s, hrun, hs⟩ := Option.map_eq_some_iff.1 hobserved
  simp only [Prod.mk.injEq, decide_eq_true_eq, Option.map_eq_some_iff, List.any_eq_true] at hs
  obtain ⟨hcomponent, ⟨r, hr, hrank⟩, doc, hdoc, hw, hurgent⟩ := hs
  have hbelow := (hclaim _ _ s "c" hrun hcomponent "w" r hr doc hdoc hw).2
  omega

end InveniOps.Workers.Pipeline
