import InveniOps.Incidents.CacheWrites

/-!
# What the cache says about rows

A call writes to the cache what it has read of a row, maybe long ago.  The row may
have changed since, but neither its id nor what its score is made of.  So in every
reachable state a summary is one of the work item under whose key it is, and a
member of the active incidents has the score that its row would get now.
-/

namespace InveniOps.Incidents

open Lib Stores WorkItems Dashboard

/-! ### Rows keep their origins -/

section

variable {prisma : PrismaClient} {pg pg' : Postgres} {w : WorkItemId} {origin : Origin}

lemma PlainRuns.originOf (h : PlainRuns prisma pg pg') (hw : pg.originOf w = some origin) :
    pg'.originOf w = some origin := by
  obtain ⟨r, hr, rfl⟩ := Option.map_eq_some_iff.1 hw
  obtain ⟨_, _, hr'⟩ := h.counted hr
  rw [Postgres.originOf, hr']
  rfl

lemma PostgresRuns.originOf {calls : List Call} (h : PostgresRuns prisma calls pg pg')
    (hw : pg.originOf w = some origin) : pg'.originOf w = some origin := by
  cases h with
  | plain runs => exact runs.originOf hw
  | wrote mem transacts commits =>
    obtain ⟨r, hmoved, -, -⟩ := GuardedWrite.command_ok commits
    rw [hmoved.originOf, hw]

end

/-! ### Snapshots -/

/-- The rows that a call has read and may write to the cache. -/
def Task.snapshots : Task → List WorkItem
  | .updateWorkItems (.incrementing counts) => counts.filterMap (·.updated?)
  | task => task.cacheWrites.filterMap (·.snapshot)

section

variable {i : ℕ} {io : StepIo} {st st' : IncidentStores} {r : WorkItem}

lemma snapshots_of_workflow {prisma : PrismaClient} {request : WorkflowRequest}
    {pc pc' : WorkflowPc} (h : WorkflowRuns prisma request io st pc st' pc')
    (hr : r ∈ (Task.workflow request pc').snapshots) :
    r ∈ (Task.workflow request pc).snapshots ∨ st'.postgres.row r.id = some r := by
  cases h with
  | @committed found updated write attempt pg ok commits =>
    -- the service writes the row as the transaction has left it
    obtain ⟨r₀, hmoved, rfl, -⟩ := GuardedWrite.command_ok commits
    obtain ⟨pc, hpc, hsnapshot⟩ := List.mem_filterMap.1 hr
    obtain rfl := List.mem_singleton.1 hpc
    cases write with
    | transitionState input =>
      obtain rfl := snapshot_upsertActiveIncident hsnapshot
      have hid : r₀.id = input.workItemId := Tables.row_id hmoved.before
      exact .inr ((hmoved.row _).trans (if_pos hid))
    | submitRca input => cases hsnapshot
  | caching more =>
    obtain ⟨pc, hpc, hsnapshot⟩ := List.mem_filterMap.1 hr
    obtain rfl := List.mem_singleton.1 hpc
    exact .inl (List.mem_filterMap.2 ⟨_, List.mem_singleton_self _,
      snapshot_of_cacheStep hsnapshot⟩)
  | _ => cases hr

lemma snapshot_of_afterCaching {found : Postgres.WorkItemWithRca} {pc : CachePc}
    (hr : (LookUpPc.afterCaching found pc).cacheWrite.bind (·.snapshot) = some r) :
    pc.snapshot = some r := by
  cases pc with
  | done written => cases hr
  | _ => exact hr

lemma snapshot_of_lookUp {workItemId : WorkItemId} {pc pc' : LookUpPc}
    (h : pc.step workItemId io st = some (st', pc'))
    (hr : pc'.cacheWrite.bind (·.snapshot) = some r) :
    pc.cacheWrite.bind (·.snapshot) = some r ∨ st'.postgres.row r.id = some r := by
  cases pc with
  | get =>
    simp only [LookUpPc.step] at h
    split at h <;> cases h <;> cases hr
  | find attempt =>
    obtain ⟨rfl, rfl⟩ := Prod.mk.inj (Option.some.inj h)
    simp only [LookUpPc.afterFind] at hr
    split at hr
    · cases hr
    · cases hr
    · cases hr
    · rename_i found hreturned
      split_ifs at hr
      · cases hr
      · -- the row is written as it was found
        obtain rfl := snapshot_upsertActiveIncident hr
        have hreply := (perform_ok (withPostgresRetry_returned hreturned)).2
        obtain ⟨hrow, -⟩ := Postgres.findById_ok hreply
        right
        rw [perform_read rfl, Tables.row_id hrow]
        exact hrow
  | caching found pc =>
    obtain ⟨rfl, rfl⟩ := Prod.mk.inj (Option.some.inj h)
    exact .inl (snapshot_of_cacheStep (snapshot_of_afterCaching hr))
  | _ => cases h

/-- Of several writes that are awaited together, the one that has sent a command holds
the snapshot that it held. -/
lemma snapshots_of_cacheStepAt {cache cache' : DashboardCache} {writes writes' : List CachePc}
    (h : cacheStepAt io.outcome io.now cache i writes = some (cache', writes'))
    (hr : r ∈ writes'.filterMap (·.snapshot)) : r ∈ writes.filterMap (·.snapshot) := by
  obtain ⟨pc, hpc, rfl, rfl⟩ := cacheStepAt_inv h
  obtain ⟨pc', hmem, hsnapshot⟩ := List.mem_filterMap.1 hr
  rcases List.mem_or_eq_of_mem_set hmem with hold | rfl
  · exact List.mem_filterMap.2 ⟨pc', hold, hsnapshot⟩
  · exact List.mem_filterMap.2 ⟨pc, List.mem_of_getElem? hpc, snapshot_of_cacheStep hsnapshot⟩

lemma snapshots_afterRepopulating {writes : List CachePc}
    (hr : r ∈ (ActivePc.afterRepopulating writes).cacheWrites.filterMap (·.snapshot)) :
    r ∈ writes.filterMap (·.snapshot) := by
  unfold ActivePc.afterRepopulating at hr
  split_ifs at hr
  · cases hr
  · exact hr

lemma cacheWrites_afterDirect (items : Option (List WorkItem)) (total : Option ℕ) :
    (ActivePc.afterDirect items total).cacheWrites = [] := by
  cases items <;> cases total <;> rfl

/-- The snapshots that the look-ups of a page hold. -/
lemma mem_snapshots_lookUps {lookUps : List (WorkItemId × LookUpPc)} :
    r ∈ (lookUps.filterMap (·.2.cacheWrite)).filterMap (·.snapshot) ↔
      ∃ lookUp ∈ lookUps, lookUp.2.cacheWrite.bind (·.snapshot) = some r := by
  simp only [List.mem_filterMap, Option.bind_eq_some_iff]
  constructor
  · rintro ⟨pc, ⟨lookUp, hmem, hwrite⟩, hsnapshot⟩
    exact ⟨lookUp, hmem, pc, hwrite, hsnapshot⟩
  · rintro ⟨lookUp, hmem, pc, hwrite, hsnapshot⟩
    exact ⟨pc, ⟨lookUp, hmem, hwrite⟩, hsnapshot⟩

lemma snapshots_of_active {options : DashboardProjectionOptions} {limit offset : ℕ}
    {pc pc' : ActivePc} (h : pc.step options limit offset i io st = some (st', pc'))
    (hr : r ∈ pc'.cacheWrites.filterMap (·.snapshot)) :
    r ∈ pc.cacheWrites.filterMap (·.snapshot) ∨ st'.postgres.row r.id = some r := by
  cases pc with
  | zcard repopulated =>
    obtain ⟨rfl, rfl⟩ := Prod.mk.inj (Option.some.inj h)
    cases hr
  | zrange repopulated total =>
    obtain ⟨rfl, rfl⟩ := Prod.mk.inj (Option.some.inj h)
    unfold ActivePc.afterRange at hr
    split at hr
    · split_ifs at hr
      · cases hr
      · rw [afterSummarizing_cacheWrites] at hr
        simp [LookUpPc.cacheWrite] at hr
    · cases hr
  | listing =>
    obtain ⟨rfl, rfl⟩ := Prod.mk.inj (Option.some.inj h)
    dsimp only at hr ⊢
    split at hr
    · rename_i active hreply
      obtain ⟨pc, hpc, hsnapshot⟩ := List.mem_filterMap.1 (snapshots_afterRepopulating hr)
      obtain ⟨workItem, hmem, rfl⟩ := List.mem_map.1 hpc
      obtain rfl := snapshot_upsertActiveIncident hsnapshot
      right
      rw [perform_read rfl]
      exact (row_of_listActive (perform_ok hreply).2 hmem).1
    · cases hr
  | repopulating writes =>
    obtain ⟨⟨cache, writes'⟩, hstep, h⟩ := Option.map_eq_some_iff.1 h
    obtain ⟨rfl, rfl⟩ := Prod.mk.inj h
    exact .inl (snapshots_of_cacheStepAt hstep (snapshots_afterRepopulating hr))
  | summarizing total lookUps =>
    simp only [ActivePc.step] at h
    split at h
    · cases h
    · rename_i workItemId lookUp hlookUp
      obtain ⟨⟨st₁, lookUp'⟩, hstep, h⟩ := Option.map_eq_some_iff.1 h
      obtain ⟨rfl, rfl⟩ := Prod.mk.inj h
      rw [afterSummarizing_cacheWrites] at hr
      obtain ⟨other, hmem, hsnapshot⟩ := mem_snapshots_lookUps.1 hr
      rcases List.mem_or_eq_of_mem_set hmem with hold | rfl
      · exact .inl (mem_snapshots_lookUps.2 ⟨other, hold, hsnapshot⟩)
      · refine (snapshot_of_lookUp hstep hsnapshot).imp_left fun hheld => ?_
        exact mem_snapshots_lookUps.2 ⟨_, List.mem_of_getElem? hlookUp, hheld⟩
  | direct items total =>
    simp only [ActivePc.step] at h
    split at h
    · obtain ⟨rfl, rfl⟩ := Prod.mk.inj (Option.some.inj h)
      split at hr
      · rw [cacheWrites_afterDirect] at hr
        cases hr
      · cases hr
    · obtain ⟨rfl, rfl⟩ := Prod.mk.inj (Option.some.inj h)
      split at hr
      · rw [cacheWrites_afterDirect] at hr
        cases hr
      · cases hr
    · cases h
  | _ => cases h

lemma snapshots_afterCounts {counts : List CountPc}
    (hr : r ∈ (Task.updateWorkItems (.afterCounts counts)).snapshots) :
    r ∈ counts.filterMap (·.updated?) := by
  unfold UpdatePc.afterCounts at hr
  split_ifs at hr
  · exact hr
  · split at hr
    · rename_i updated hupdated
      obtain ⟨pc, hpc, hsnapshot⟩ := List.mem_filterMap.1 hr
      obtain ⟨workItem, hmem, rfl⟩ := List.mem_map.1 hpc
      obtain rfl := snapshot_upsertActiveIncident hsnapshot
      obtain ⟨count, hcount, hsome⟩ := exists_of_mem_mapM hupdated hmem
      exact List.mem_filterMap.2 ⟨count, hcount, hsome⟩
    · cases hr

lemma snapshots_of_update {prisma : PrismaClient} {pc pc' : UpdatePc}
    (h : pc.step prisma i io st = some (st', pc'))
    (hr : r ∈ (Task.updateWorkItems pc').snapshots) :
    r ∈ (Task.updateWorkItems pc).snapshots ∨ st'.postgres.row r.id = some r := by
  cases pc with
  | incrementing counts =>
    simp only [UpdatePc.step] at h
    split at h
    · rename_i workItemId amount attempt hcount
      obtain ⟨rfl, rfl⟩ := Prod.mk.inj (Option.some.inj h)
      obtain ⟨count, hmem, hsome⟩ := List.mem_filterMap.1 (snapshots_afterCounts hr)
      rcases List.mem_or_eq_of_mem_set hmem with hold | rfl
      · exact .inl (List.mem_filterMap.2 ⟨count, hold, hsome⟩)
      · simp only [CountPc.afterIncrement] at hsome
        split at hsome
        · cases hsome
        · cases hsome
        · -- the increment has returned the row as it left it
          rename_i updated hreturned
          obtain rfl := Option.some.inj hsome
          have hreply := (perform_ok (withPostgresRetry_returned hreturned)).2
          obtain ⟨r₀, hr₀, hupdated, hrows, -⟩ := Postgres.incrementSignalCount_ok hreply
          have hid : updated.id = r₀.id := hupdated ▸ rfl
          rw [Tables.row_id hr₀] at hid
          exact .inr ((hrows _).trans (if_pos hid))
    · cases h
  | upserting writes =>
    obtain ⟨⟨cache, writes'⟩, hstep, h⟩ := Option.map_eq_some_iff.1 h
    obtain ⟨rfl, rfl⟩ := Prod.mk.inj h
    exact .inl (snapshots_of_cacheStepAt hstep hr)
  | threw => cases h

/-- What a call holds behind a step it held before, or it is a row as it is now. -/
lemma snapshots_of_step {services : IncidentServices} {task : Task} {step : TaskStep}
    (h : task.step services i io st = some step) (hr : r ∈ step.task.snapshots) :
    r ∈ task.snapshots ∨ step.stores.postgres.row r.id = some r := by
  cases task with
  | workflow request pc =>
    obtain ⟨step, hstep, rfl⟩ := Option.map_eq_some_iff.1 h
    exact snapshots_of_workflow (workflowRuns_of_step hstep) hr
  | getIncidentDetail workItemId pc =>
    obtain ⟨⟨st', pc'⟩, hstep, rfl⟩ := Option.map_eq_some_iff.1 h
    have hbind : ∀ pc : LookUpPc, r ∈ (Task.getIncidentDetail workItemId pc).snapshots ↔
        pc.cacheWrite.bind (·.snapshot) = some r := by
      intro pc
      simp [Task.snapshots, Task.cacheWrites, Option.bind_eq_some_iff]
    exact (snapshot_of_lookUp hstep ((hbind pc').1 hr)).imp_left (hbind pc).2
  | getActiveIncidents limit offset pc =>
    obtain ⟨⟨st', pc'⟩, hstep, rfl⟩ := Option.map_eq_some_iff.1 h
    exact snapshots_of_active hstep hr
  | updateWorkItems pc =>
    obtain ⟨⟨st', pc'⟩, hstep, rfl⟩ := Option.map_eq_some_iff.1 h
    exact snapshots_of_update hstep hr

/-- The write whose command is next is one of the call. -/
lemma mem_snapshots_of_nextWrite {task : Task} {pc : CachePc} (h : task.nextWrite i = some pc)
    (hr : pc.snapshot = some r) : r ∈ task.snapshots := by
  have hmem : pc ∈ task.cacheWrites := by
    cases task with
    | workflow request wpc => cases wpc with
      | caching => exact Option.some.inj h ▸ List.mem_singleton_self _
      | _ => cases h
    | getIncidentDetail workItemId lpc => exact Option.mem_toList.2 h
    | getActiveIncidents limit offset apc => cases apc with
      | repopulating writes => exact List.mem_of_getElem? h
      | summarizing total lookUps =>
        obtain ⟨lookUp, hlookUp, hwrite⟩ := Option.bind_eq_some_iff.1 h
        exact List.mem_filterMap.2 ⟨lookUp, List.mem_of_getElem? hlookUp, hwrite⟩
      | _ => cases h
    | updateWorkItems upc => cases upc with
      | upserting writes => exact List.mem_of_getElem? h
      | _ => cases h
  have hheld := List.mem_filterMap.2 ⟨pc, hmem, hr⟩
  cases task with
  | updateWorkItems upc => cases upc with
    | upserting writes => exact hheld
    | _ => cases h
  | _ => exact hheld

end

namespace IncidentSystem

variable {services : IncidentServices} {s s' : IncidentSystem}

/-- What the calls and the cache hold agrees with the rows. -/
structure CachedInv (s : IncidentSystem) : Prop where
  snapshots : ∀ call ∈ s.calls, ∀ r ∈ call.task.snapshots,
    s.stores.postgres.originOf r.id = some r.origin
  scores : ∀ entry ∈ s.stores.cache.active.entries, ∃ origin,
    s.stores.postgres.originOf entry.1 = some origin ∧ entry.2 = origin.score
  named : s.stores.cache.Named

lemma originOf_of_step {e : IncidentEvent} (h : s.step services e = some s') {w : WorkItemId}
    {origin : Origin} (hw : s.stores.postgres.originOf w = some origin) :
    s'.stores.postgres.originOf w = some origin :=
  (postgresRuns_of_step h).originOf hw

/-- An event that changes neither the calls nor the cache, but maybe the tables. -/
lemma CachedInv.of_postgres (h : s.CachedInv) {e : IncidentEvent}
    (hstep : s.step services e = some s') (hcalls : s'.calls = s.calls)
    (hcache : s'.stores.cache = s.stores.cache) : s'.CachedInv := by
  refine ⟨?_, ?_, hcache ▸ h.named⟩
  · intro call hcall r hr
    exact originOf_of_step hstep (h.snapshots call (hcalls ▸ hcall) r hr)
  · intro entry hentry
    obtain ⟨origin, horigin, hscore⟩ := h.scores entry (hcache ▸ hentry)
    exact ⟨origin, originOf_of_step hstep horigin, hscore⟩

/-- Every event keeps the agreement. -/
lemma CachedInv.step (h : s.CachedInv) {e : IncidentEvent}
    (hstep : s.step services e = some s') : s'.CachedInv := by
  cases e with
  | start request =>
    cases hstep
    refine ⟨?_, h.scores, h.named⟩
    intro call hcall r hr
    rcases List.mem_append.1 hcall with hold | hnew
    · exact h.snapshots call hold r hr
    · -- a call that starts has read nothing
      obtain rfl := List.mem_singleton.1 hnew
      cases request with
      | updateWorkItems increments =>
        have hread := snapshots_afterCounts hr
        simp [CountPc.updated?] at hread
      | _ => cases hr
  | step k i io =>
    have horigin : ∀ w origin, s.stores.postgres.originOf w = some origin →
        s'.stores.postgres.originOf w = some origin := fun _ _ => originOf_of_step hstep
    obtain ⟨call, step, hcall, htask, rfl⟩ := step_step_inv hstep
    have hmem := List.mem_of_getElem? hcall
    refine ⟨?_, ?_, ?_⟩
    · intro call' hcall' r hr
      rcases List.mem_or_eq_of_mem_set hcall' with hold | rfl
      · exact horigin _ _ (h.snapshots call' hold r hr)
      · rcases snapshots_of_step htask hr with hheld | hrow
        · exact horigin _ _ (h.snapshots call hmem r hheld)
        · exact Postgres.originOf_of_row hrow
    · intro entry hentry
      have hruns := cacheRuns_of_step htask
      change entry ∈ step.stores.cache.active.entries at hentry
      generalize step.stores.cache = cache' at hruns hentry
      -- an entry is old, or made of a row that the call has read
      have hbefore : ∃ origin, s.stores.postgres.originOf entry.1 = some origin ∧
          entry.2 = origin.score := by
        cases hruns with
        | quiet kept => exact h.scores entry hentry
        | sent isNext kept goes_on =>
          rcases mem_entries_of_cacheStep hentry with hold | ⟨r, hr, rfl⟩
          · exact h.scores entry hold
          · exact ⟨r.origin, h.snapshots call hmem r (mem_snapshots_of_nextWrite isNext hr), rfl⟩
      obtain ⟨origin, hw, hscore⟩ := hbefore
      exact ⟨origin, horigin _ _ hw, hscore⟩
    · have hruns := cacheRuns_of_step htask
      show step.stores.cache.Named
      generalize step.stores.cache = cache' at hruns ⊢
      cases hruns with
      | quiet kept => exact h.named
      | sent isNext kept goes_on => exact h.named.cacheStep
  | createWorkItem input uuid io =>
    refine h.of_postgres hstep ?_ ?_ <;> (cases hstep; rfl)
  | recordEscalation workItemId actor io =>
    refine h.of_postgres hstep ?_ ?_ <;> (cases hstep; rfl)
  | summaryExpired workItemId =>
    cases hstep
    exact ⟨h.snapshots, h.scores, h.named.setIncident _ fun _ hx => (nomatch hx)⟩
  | cacheFlushed =>
    cases hstep
    exact ⟨h.snapshots, fun _ hentry => (nomatch hentry), fun _ _ hx => (nomatch hx)⟩

lemma cachedInv_empty : empty.CachedInv :=
  ⟨fun _ hcall => (nomatch hcall), fun _ hentry => (nomatch hentry), fun _ _ hx => (nomatch hx)⟩

/-- In every reachable state the cache says of a row what the row says. -/
theorem cachedInv_of_run {events : List IncidentEvent}
    (hrun : (lts services).run empty events = some s) : s.CachedInv :=
  Lts.run_invariant (fun _ _ _ h hstep => h.step hstep) hrun cachedInv_empty

end IncidentSystem

end InveniOps.Incidents
