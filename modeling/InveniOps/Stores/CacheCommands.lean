import InveniOps.Stores.Origins
import InveniOps.Stores.DashboardCache

/-!
# The commands of the cache writes

What one command of `upsertActiveIncident` or `removeIncident` does to the
summaries and to the entries of the active incidents.
-/

namespace InveniOps.Stores

/-- The score of the work items of an origin. -/
def Origin.score (origin : Origin) : ℤ :=
  origin.severity.rank * 10000000000000 + origin.firstSignalAt

/-- The row as the write has read it. -/
def CachePc.snapshot : CachePc → Option WorkItem
  | .set workItem | .zadd workItem _ => some workItem
  | _ => none

/-- A summary is one of the work item under whose key it is. -/
def DashboardCache.Named (cache : DashboardCache) : Prop :=
  ∀ w summary, cache.incidents w = some summary → summary.id = w

/-- The cache when the next command of a write is carried out. -/
def CachePc.applied (now : Instant) (cache : DashboardCache) : CachePc → DashboardCache
  | .set workItem => cache.setIncident workItem.id (some (cachedSummary workItem now))
  | .zadd workItem _ =>
    { cache with active := cache.active.add workItem.id (activeScore workItem) }
  | .del workItemId => cache.setIncident workItemId none
  | .zrem workItemId => { cache with active := cache.active.remove workItemId }
  | .done _ => cache

variable {outcome : Outcome} {now : Instant} {cache : DashboardCache} {pc : CachePc}

@[simp] lemma cacheStep_ok : (cacheStep .ok now cache pc).1 = pc.applied now cache := by
  cases pc <;> rfl

/-- A command leaves the cache as it is or is carried out. -/
lemma cacheStep_cases : (cacheStep outcome now cache pc).1 = cache ∨
    (cacheStep outcome now cache pc).1 = pc.applied now cache := by
  cases pc with
  | set workItem | zadd workItem summary | del workItemId | zrem workItemId =>
    refine (perform_snd _ outcome cache).imp_right ?_
    rintro ⟨_, h⟩
    exact (Prod.mk.inj (Except.ok.inj h)).2.symm
  | done summary => exact .inl rfl

lemma DashboardCache.Named.setIncident (h : cache.Named) (w : WorkItemId)
    {summary : Option IncidentSummary} (hsummary : ∀ x, summary = some x → x.id = w) :
    (cache.setIncident w summary).Named := by
  intro w' x hx
  dsimp only [DashboardCache.setIncident] at hx
  rw [Function.update_apply] at hx
  split_ifs at hx with hw
  · exact hw ▸ hsummary x hx
  · exact h w' x hx

lemma DashboardCache.Named.applied (h : cache.Named) : (pc.applied now cache).Named := by
  cases pc with
  | set workItem => exact h.setIncident _ fun x hx => Option.some.inj hx ▸ rfl
  | del workItemId => exact h.setIncident _ fun x hx => (nomatch hx)
  | _ => exact h

lemma DashboardCache.Named.cacheStep (h : cache.Named) :
    (cacheStep outcome now cache pc).1.Named := by
  rcases cacheStep_cases with heq | heq
  · exact heq.symm ▸ h
  · exact heq.symm ▸ h.applied

/-- A command makes no entry but that of its snapshot. -/
lemma mem_entries_of_cacheStep {entry : WorkItemId × ℤ}
    (h : entry ∈ (cacheStep outcome now cache pc).1.active.entries) :
    entry ∈ cache.active.entries ∨
      ∃ workItem, pc.snapshot = some workItem ∧ entry = (workItem.id, activeScore workItem) := by
  rcases cacheStep_cases with heq | heq <;> rw [heq] at h
  · exact .inl h
  cases pc with
  | zadd workItem summary =>
    refine (Lib.SortedSet.mem_entries_add.1 h).imp (·.1) ?_
    intro hnew
    exact ⟨workItem, rfl, hnew⟩
  | zrem workItemId => exact .inl (List.mem_filter.1 h).1
  | _ => exact .inl h

lemma snapshot_of_cacheStep {workItem : WorkItem}
    (h : (cacheStep outcome now cache pc).2.snapshot = some workItem) :
    pc.snapshot = some workItem := by
  cases pc with
  | set r => exact h
  | _ => cases h

lemma snapshot_upsertActiveIncident {workItem r : WorkItem}
    (h : (upsertActiveIncident workItem).snapshot = some r) : r = workItem := by
  unfold upsertActiveIncident at h
  split_ifs at h
  · cases h
  · exact (Option.some.inj h).symm

/-- The method of Postgres that every page of active incidents is read by. -/
lemma row_of_listActive {pg pg' : Postgres} {limit offset : ℕ} {active : List WorkItem}
    (h : Postgres.listActive limit offset pg = .ok (active, pg')) {r : WorkItem}
    (hr : r ∈ active) : pg.row r.id = some r ∧ r.state ≠ .CLOSED := by
  obtain ⟨rfl, -⟩ := Prod.mk.inj (Except.ok.inj h)
  have hmem := List.mem_of_mem_drop (List.mem_of_mem_take hr)
  rw [List.mem_insertionSort] at hmem
  simp only [Tables.active, List.mem_filter, decide_eq_true_eq] at hmem
  exact ⟨Postgres.row_eq_some_iff.2 ⟨hmem.1, rfl⟩, hmem.2⟩

/-! ### Members of the active incidents -/

/-- The member that the next command adds to the active incidents. -/
def CachePc.adds : CachePc → Option WorkItemId
  | .zadd workItem _ => some workItem.id
  | _ => none

/-- The member that the write is going to remove from them. -/
def CachePc.removes : CachePc → Option WorkItemId
  | .del workItemId | .zrem workItemId => some workItemId
  | _ => none

lemma upsertActiveIncident_removes {workItem : WorkItem} (h : workItem.state = .CLOSED) :
    (upsertActiveIncident workItem).removes = some workItem.id := by
  rw [upsertActiveIncident, if_pos h]
  rfl

/-- On a healthy cache a command makes no member but the one that it adds. -/
lemma mem_active_of_cacheStep {now : Instant} {cache : DashboardCache} {pc : CachePc}
    {w : WorkItemId} (h : w ∈ (cacheStep .ok now cache pc).1.active.members) :
    w ∈ cache.active.members ∨ pc.adds = some w := by
  cases pc with
  | zadd workItem summary =>
    rcases Lib.SortedSet.mem_members_add.1 h with hold | rfl
    · exact .inl hold
    · exact .inr rfl
  | zrem workItemId => exact .inl (Lib.SortedSet.mem_members_remove.1 h).1
  | _ => exact .inl h

/-- A write that removes a member still does so behind a command, or it is no member. -/
lemma removes_of_cacheStep {now : Instant} {cache : DashboardCache} {pc : CachePc}
    {w : WorkItemId} (h : pc.removes = some w) :
    (cacheStep .ok now cache pc).2.removes = some w ∨
      w ∉ (cacheStep .ok now cache pc).1.active.members := by
  cases pc with
  | del workItemId => exact .inl h
  | zrem workItemId =>
    obtain rfl := Option.some.inj h
    exact .inr fun hmem => (Lib.SortedSet.mem_members_remove.1 hmem).2 rfl
  | _ => cases h

lemma isDone_of_removes {pc : CachePc} {w : WorkItemId} (h : pc.removes = some w) :
    pc.isDone = false := by
  cases pc <;> first | rfl | cases h

lemma cacheStepAt_inv {outcome : Outcome} {now : Instant} {cache cache' : DashboardCache} {i : ℕ}
    {writes writes' : List CachePc}
    (h : cacheStepAt outcome now cache i writes = some (cache', writes')) :
    ∃ pc, writes[i]? = some pc ∧ cache' = (cacheStep outcome now cache pc).1 ∧
      writes' = writes.set i (cacheStep outcome now cache pc).2 := by
  simp only [cacheStepAt] at h
  split at h
  · cases h
  · cases h
  · rename_i pc _ hpc
    cases h
    exact ⟨pc, hpc, rfl, rfl⟩

end InveniOps.Stores
