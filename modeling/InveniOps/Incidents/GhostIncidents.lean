import InveniOps.Incidents.CacheWrites

/-!
# Ghost incidents

A snapshot of a work item can reach the cache after the item was closed and removed
from it.  The set of active incidents holds no closed item as long as a snapshot is
added only while its item is not closed, or the removal is still to come.
-/

namespace InveniOps.Incidents

open Lib Stores WorkItems Dashboard

/-- The stores are healthy. -/
def IncidentEvent.Healthy : IncidentEvent → Prop
  | .step _ _ io | .createWorkItem _ _ io | .recordEscalation _ _ io => io.outcome = .ok
  | _ => True

instance (e : IncidentEvent) : Decidable e.Healthy :=
  match e with
  | .start _ | .step _ _ _ | .createWorkItem _ _ _ | .recordEscalation _ _ _
  | .summaryExpired _ | .cacheFlushed => by
    delta IncidentEvent.Healthy
    infer_instance

/-- A write that closes its item is followed by a removal of the item from the cache. -/
lemma removes_of_command {prisma : PrismaClient} {write : GuardedWrite} {clock : Instant}
    {pg pg' : Postgres} {updated : WorkItem}
    (h : write.command prisma clock pg = .ok (updated, pg'))
    (hclosed : write.transition.toState = .CLOSED) :
    (write.cacheWrite updated).removes = some write.transition.workItemId := by
  obtain ⟨r, hmoved, rfl, -⟩ := GuardedWrite.command_ok h
  cases write with
  | transitionState input =>
    have hremoves := upsertActiveIncident_removes
      (show (input.set clock r).state = .CLOSED from hclosed)
    have hid : r.id = input.workItemId := Tables.row_id hmoved.before
    exact hremoves.trans (congrArg some hid)
  | submitRca input => rfl

/-- On healthy stores an active item stays active, or the call that closes it is going
to remove it. -/
lemma active_of_workflow {prisma : PrismaClient} {request : WorkflowRequest} {io : StepIo}
    {st st' : IncidentStores} {pc pc' : WorkflowPc} (hok : io.outcome = .ok)
    (h : WorkflowRuns prisma request io st pc st' pc') {w : WorkItemId} {r : WorkItem}
    (hr : st.postgres.row w = some r) (hactive : r.state ≠ .CLOSED) :
    (∃ r', st'.postgres.row w = some r' ∧ r'.state ≠ .CLOSED) ∨
      ∃ cpc ∈ (Task.workflow request pc').cacheWrites, cpc.removes = some w := by
  cases h with
  | @committed found updated write attempt pg ok commits =>
    obtain ⟨r₀, hmoved, -, -⟩ := GuardedWrite.command_ok commits
    by_cases hw : w = write.transition.workItemId
    · subst hw
      by_cases hclosed : write.transition.toState = .CLOSED
      · exact .inr ⟨_, List.mem_singleton_self _, removes_of_command commits hclosed⟩
      · refine .inl ⟨write.transition.set io.now r₀, ?_, hclosed⟩
        rw [hmoved.row, if_pos rfl]
    · refine .inl ⟨r, ?_, hactive⟩
      rw [hmoved.row, if_neg hw, hr]
  | retried left commits =>
    rcases commits with rfl | ⟨⟨e, hfault, -⟩, -⟩
    · exact .inl ⟨r, hr, hactive⟩
    · rw [hok] at hfault
      cases hfault
  | broke commits =>
    rcases commits with rfl | ⟨⟨e, hfault⟩, -⟩
    · exact .inl ⟨r, hr, hactive⟩
    · rw [hok] at hfault
      cases hfault
  | _ => exact .inl ⟨r, hr, hactive⟩

namespace IncidentSystem

variable (s : IncidentSystem)

/-- The work item is there and not closed. -/
def IsActive (w : WorkItemId) : Prop :=
  ∃ r, s.stores.postgres.row w = some r ∧ r.state ≠ .CLOSED

/-- A call is going to remove the work item from the active incidents. -/
def RemovalPending (w : WorkItemId) : Prop :=
  ∃ call ∈ s.calls, ∃ pc ∈ call.task.cacheWrites, pc.removes = some w

/-- The condition on an event: what it adds to the active incidents is active, or its
removal is pending. -/
def AddsActive : IncidentEvent → Prop
  | .step k i _ =>
    ∀ call ∈ s.calls[k]?, ∀ w ∈ (call.task.nextWrite i).bind (·.adds),
      s.IsActive w ∨ s.RemovalPending w
  | _ => True

/-- Every member of the active incidents is active, or its removal is pending. -/
def GhostInv : Prop :=
  ∀ w ∈ s.stores.cache.active.members, s.IsActive w ∨ s.RemovalPending w

/-- When all calls have finished every cached incident is an active work item. -/
def NoGhosts : Prop := s.Finished → ∀ w ∈ s.stores.cache.active.members, s.IsActive w

instance (w : WorkItemId) : Decidable (s.IsActive w) :=
  decidable_of_iff (∃ r ∈ s.stores.postgres.row w, r.state ≠ .CLOSED) Iff.rfl

instance (w : WorkItemId) : Decidable (s.RemovalPending w) := by
  delta RemovalPending
  infer_instance

instance (e : IncidentEvent) : Decidable (s.AddsActive e) :=
  match e with
  | .start _ | .step _ _ _ | .createWorkItem _ _ _ | .recordEscalation _ _ _
  | .summaryExpired _ | .cacheFlushed => by
    delta AddsActive
    infer_instance

variable {s} {s' : IncidentSystem} {services : IncidentServices}

lemma not_removalPending_of_finished (h : s.Finished) (w : WorkItemId) : ¬ s.RemovalPending w := by
  rintro ⟨call, hmem, pc, hpc, hremoves⟩
  have hdone := isDone_of_isOver (h call hmem) hpc
  rw [isDone_of_removes hremoves] at hdone
  cases hdone

/-! ### Steps -/

lemma IsActive.of_step {e : IncidentEvent} {w : WorkItemId} (h : s.IsActive w)
    (hhealthy : e.Healthy) (hstep : s.step services e = some s') :
    s'.IsActive w ∨ s'.RemovalPending w := by
  obtain ⟨r, hr, hactive⟩ := h
  rcases plain_or_workflow_of_step hstep with ⟨hplain, -⟩ |
    ⟨k, i, io, call, request, pc, pc', rfl, hcall, htask, hruns, call', hmem, htask'⟩
  · obtain ⟨r', hr', hstate, -⟩ := hplain.row hr
    exact .inl ⟨r', hr', hstate ▸ hactive⟩
  · refine (active_of_workflow hhealthy hruns hr hactive).imp_right ?_
    rintro ⟨cpc, hcpc, hremoves⟩
    exact ⟨call', hmem, cpc, htask' ▸ hcpc, hremoves⟩

lemma RemovalPending.of_step {e : IncidentEvent} {w : WorkItemId} (h : s.RemovalPending w)
    (hhealthy : e.Healthy) (hstep : s.step services e = some s') :
    s'.RemovalPending w ∨ w ∉ s'.stores.cache.active.members := by
  obtain ⟨call, hmem, pc, hpc, hremoves⟩ := h
  cases e with
  | start request =>
    cases hstep
    exact .inl ⟨call, List.mem_append_left _ hmem, pc, hpc, hremoves⟩
  | step k i io =>
    obtain ⟨call₀, step, hcall₀, htask, rfl⟩ := step_step_inv hstep
    rcases eq_or_mem_set_of_mem hcall₀ hmem ⟨step.task, call₀.effects ++
      effectsOf s.stores.postgres.toTables step.stores.postgres.toTables⟩ with rfl | hother
    · have hpending : ∀ pc' ∈ step.task.cacheWrites, pc'.removes = some w →
          (s.onStep k call step).RemovalPending w :=
        fun pc' hpc' hremoves' => ⟨_, mem_set_self_of hcall₀ _, pc', hpc', hremoves'⟩
      have hnotDone := isDone_of_removes hremoves
      have hruns := cacheRuns_of_step htask
      generalize hwrites : step.task.cacheWrites = writes' at hruns hpending
      generalize hcache : step.stores.cache = cache' at hruns
      cases hruns with
      | quiet kept =>
        rcases kept pc hpc with hkept | hdone
        · exact .inl (hpending pc hkept hremoves)
        · rw [hnotDone] at hdone
          cases hdone
      | sent isNext kept goes_on =>
        rcases kept pc hpc with rfl | hkept | hdone
        · rw [show io.outcome = .ok from hhealthy] at goes_on hcache
          rcases removes_of_cacheStep hremoves with hnext | hgone
          · rcases goes_on with hmem' | hdone
            · exact .inl (hpending _ hmem' hnext)
            · rw [isDone_of_removes hnext] at hdone
              cases hdone
          · exact .inr (hcache ▸ hgone)
        · exact .inl (hpending pc hkept hremoves)
        · rw [hnotDone] at hdone
          cases hdone
    · exact .inl ⟨call, hother, pc, hpc, hremoves⟩
  | _ =>
    cases hstep
    exact .inl ⟨call, hmem, pc, hpc, hremoves⟩

lemma mem_active_of_step {e : IncidentEvent} {w : WorkItemId} (hhealthy : e.Healthy)
    (hadds : s.AddsActive e) (hstep : s.step services e = some s')
    (hmem : w ∈ s'.stores.cache.active.members) :
    w ∈ s.stores.cache.active.members ∨ s.IsActive w ∨ s.RemovalPending w := by
  cases e with
  | step k i io =>
    obtain ⟨call, step, hcall, htask, rfl⟩ := step_step_inv hstep
    have hruns := cacheRuns_of_step htask
    generalize hcache : step.stores.cache = cache' at hruns
    change w ∈ step.stores.cache.active.members at hmem
    rw [hcache] at hmem
    cases hruns with
    | quiet kept => exact .inl hmem
    | sent isNext kept goes_on =>
      rw [show io.outcome = .ok from hhealthy] at hmem
      refine (mem_active_of_cacheStep hmem).imp_right fun hadd => hadds call hcall w ?_
      rw [isNext]
      exact hadd
  | cacheFlushed =>
    cases hstep
    cases hmem
  | _ =>
    cases hstep
    exact .inl hmem

lemma GhostInv.step {e : IncidentEvent} (h : s.GhostInv) (hhealthy : e.Healthy)
    (hadds : s.AddsActive e) (hstep : s.step services e = some s') : s'.GhostInv := by
  intro w hmem
  have hbefore : s.IsActive w ∨ s.RemovalPending w := by
    rcases mem_active_of_step hhealthy hadds hstep hmem with hold | hnew
    · exact h w hold
    · exact hnew
  rcases hbefore with hactive | hpending
  · exact hactive.of_step hhealthy hstep
  · exact .inr ((hpending.of_step hhealthy hstep).resolve_right fun hgone => hgone hmem)

/-- In every run on healthy stores that meets the condition no ghost is left when all
calls have finished. -/
theorem noGhosts_of_run {events : List IncidentEvent} (hhealthy : ∀ e ∈ events, e.Healthy)
    (hmeets : (lts services).Meets AddsActive empty events)
    (hrun : (lts services).run empty events = some s) : s.NoGhosts := by
  have hstep : ∀ s e s', s.GhostInv → e.Healthy ∧ s.AddsActive e →
      (lts services).step s e = some s' → s'.GhostInv :=
    fun _ _ _ h he hstep => h.step he.1 he.2 hstep
  have h₀ : empty.GhostInv := fun _ hmem => (nomatch hmem)
  have hinv := Lts.run_invariant_of_meets hstep hrun (hmeets.and_of_forall hhealthy) h₀
  intro hfinished w hmem
  exact (hinv w hmem).resolve_right (not_removalPending_of_finished hfinished w)

/-- A second work item `v` appears. -/
def otherCreated : IncidentEvent :=
  .createWorkItem ⟨none, "cache-2", .CACHE, .P2, "cache-2 is failing", 1500, some 0⟩ "v" ⟨.ok, 1500⟩

/-- `w` is being resolved, and is about to be written to the cache. -/
def resolvingEvents : List IncidentEvent :=
  itemCreated :: otherCreated :: callEvents 0 (moveRequest .INVESTIGATING 2000) 2000 5
    ++ callEvents 1 (moveRequest .RESOLVED 4000) 4000 2

/-- `w` is written to the cache while its removal is pending; then the dashboard finds
no active incident cached, and fills the cache again. -/
def refilledEvents : List IncidentEvent :=
  resolvingEvents ++ callEvents 2 (closeRequest 5000) 5000 2
    ++ List.replicate 3 (.step 1 0 ⟨.ok, 5000⟩) ++ List.replicate 3 (.step 2 0 ⟨.ok, 5000⟩)
    ++ callEvents 3 (.getActiveIncidents 10 0) 6000 8

theorem noGhosts_of_refilledEvents : ∃ s, (lts .standard).run empty refilledEvents = some s ∧
    s.NoGhosts ∧ s.Finished ∧ s.stores.cache.active.members = ["v"] := by
  have hobserved : ((lts .standard).run empty refilledEvents).map
      (fun s => decide (s.Finished ∧ s.stores.cache.active.members = ["v"])) = some true := by
    decide +kernel
  have hhealthy : ∀ e ∈ refilledEvents, e.Healthy := by decide +kernel
  have hmeets : (lts .standard).Meets AddsActive empty refilledEvents := by decide +kernel
  obtain ⟨s, hrun, hs⟩ := Option.map_eq_some_iff.1 hobserved
  exact ⟨s, hrun, noGhosts_of_run hhealthy hmeets hrun, of_decide_eq_true hs⟩

/-- `w` is written to the cache when it has been closed and removed. -/
def staleEvents : List IncidentEvent :=
  resolvingEvents ++ callEvents 2 (closeRequest 5000) 5000 5
    ++ List.replicate 3 (.step 1 0 ⟨.ok, 6000⟩)

/-- The closed work item stays among the active incidents. -/
theorem closed_item_cached : ¬ ∀ events s, (∀ e ∈ events, IncidentEvent.Healthy e) →
    (lts .standard).run empty events = some s → s.NoGhosts := by
  intro hclaim
  have hobserved : ((lts .standard).run empty staleEvents).map
      (fun s => decide (s.Finished ∧ "w" ∈ s.stores.cache.active.members ∧ ¬ s.IsActive "w"))
        = some true := by
    decide +kernel
  have hhealthy : ∀ e ∈ staleEvents, e.Healthy := by decide +kernel
  obtain ⟨s, hrun, hs⟩ := Option.map_eq_some_iff.1 hobserved
  obtain ⟨hfinished, hmem, hclosed⟩ := of_decide_eq_true hs
  exact hclosed (hclaim staleEvents s hhealthy hrun hfinished "w" hmem)

end IncidentSystem

end InveniOps.Incidents
