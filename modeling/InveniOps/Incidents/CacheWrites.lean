import InveniOps.Stores.CacheCommands
import InveniOps.Incidents.IncidentRuns

/-!
# The cache writes of the calls

A call holds the cache writes that it has begun.  A step of the call sends the next
command of one of them, or none.
-/

namespace InveniOps.Dashboard

open Stores

/-- The cache write that a look-up has begun. -/
def LookUpPc.cacheWrite : LookUpPc → Option CachePc
  | .caching _ pc => some pc
  | _ => none

/-- The cache writes that a call of `getActiveIncidents` has begun. -/
def ActivePc.cacheWrites : ActivePc → List CachePc
  | .repopulating writes => writes
  | .summarizing _ lookUps => lookUps.filterMap (·.2.cacheWrite)
  | _ => []

/-- The one of them that is next in a step. -/
def ActivePc.nextWrite (i : ℕ) : ActivePc → Option CachePc
  | .repopulating writes => writes[i]?
  | .summarizing _ lookUps => lookUps[i]?.bind (·.2.cacheWrite)
  | _ => none

end InveniOps.Dashboard

namespace InveniOps.Incidents

open Lib Stores WorkItems Dashboard

namespace Task

/-- The cache writes that a call has begun. -/
def cacheWrites : Task → List CachePc
  | .workflow _ (.caching _ _ _ pc) => [pc]
  | .getIncidentDetail _ pc => pc.cacheWrite.toList
  | .getActiveIncidents _ _ pc => pc.cacheWrites
  | .updateWorkItems (.upserting writes) => writes
  | _ => []

/-- The one of them whose command is next in a step. -/
def nextWrite (i : ℕ) : Task → Option CachePc
  | .workflow _ (.caching _ _ _ pc) => some pc
  | .getIncidentDetail _ pc => pc.cacheWrite
  | .getActiveIncidents _ _ pc => pc.nextWrite i
  | .updateWorkItems (.upserting writes) => writes[i]?
  | _ => none

end Task

/-- How a step changes the cache and the begun writes: no command is sent, or that of
one write. -/
inductive CacheRuns (io : StepIo) (cache : DashboardCache) (writes : List CachePc)
    (next : Option CachePc) : DashboardCache → List CachePc → Prop
  | quiet {writes' : List CachePc} (kept : ∀ pc ∈ writes, pc ∈ writes' ∨ pc.isDone = true) :
    CacheRuns io cache writes next cache writes'
  | sent {pc : CachePc} {writes' : List CachePc} (isNext : next = some pc)
      (kept : ∀ pc' ∈ writes, pc' = pc ∨ pc' ∈ writes' ∨ pc'.isDone = true)
      (goes_on : (cacheStep io.outcome io.now cache pc).2 ∈ writes' ∨
        (cacheStep io.outcome io.now cache pc).2.isDone = true) :
    CacheRuns io cache writes next (cacheStep io.outcome io.now cache pc).1 writes'

lemma CacheRuns.of_nil {io : StepIo} {cache : DashboardCache} {writes writes' : List CachePc}
    {next : Option CachePc} (h : writes = []) : CacheRuns io cache writes next cache writes' := by
  subst h
  exact .quiet fun _ hmem => (List.not_mem_nil hmem).elim

section

variable {i : ℕ} {io : StepIo} {st st' : IncidentStores}

lemma cacheRuns_of_workflow {prisma : PrismaClient} {request : WorkflowRequest}
    {pc pc' : WorkflowPc} (h : WorkflowRuns prisma request io st pc st' pc') :
    CacheRuns io st.cache (Task.workflow request pc).cacheWrites
      ((Task.workflow request pc).nextWrite i) st'.cache
      (Task.workflow request pc').cacheWrites := by
  cases h with
  | caching more =>
    exact .sent rfl (fun pc' h => .inl (List.mem_singleton.1 h)) (.inl (List.mem_singleton_self _))
  | cached last => exact .sent rfl (fun pc' h => .inl (List.mem_singleton.1 h)) (.inr last)
  | _ => exact .of_nil rfl

lemma cacheRuns_of_lookUp {workItemId : WorkItemId} {pc pc' : LookUpPc}
    (h : pc.step workItemId io st = some (st', pc')) :
    CacheRuns io st.cache pc.cacheWrite.toList pc.cacheWrite st'.cache
      pc'.cacheWrite.toList := by
  cases pc with
  | get =>
    simp only [LookUpPc.step] at h
    split at h <;> cases h <;> exact .of_nil rfl
  | find attempt =>
    cases h
    exact .of_nil rfl
  | caching found pc =>
    cases h
    refine .sent rfl (fun pc' h => .inl (List.mem_singleton.1 h)) ?_
    cases hnext : (cacheStep io.outcome io.now st.cache pc).2 with
    | done summary => exact .inr rfl
    | _ => exact .inl (List.mem_singleton_self _)
  | _ => cases h

/-- Several writes that are awaited together. -/
lemma cacheRuns_of_cacheStepAt {cache cache' : DashboardCache} {writes writes' rest : List CachePc}
    (h : cacheStepAt io.outcome io.now cache i writes = some (cache', writes'))
    (hrest : ∀ pc ∈ writes', pc ∈ rest ∨ pc.isDone = true) :
    CacheRuns io cache writes writes[i]? cache' rest := by
  obtain ⟨pc, hpc, rfl, rfl⟩ := cacheStepAt_inv h
  refine .sent hpc ?_ (hrest _ (mem_set_self_of hpc _))
  intro pc' hmem
  exact (eq_or_mem_set_of_mem hpc hmem _).imp_right (hrest pc')

lemma afterRepopulating_cacheWrites {writes : List CachePc} {pc : CachePc} (h : pc ∈ writes) :
    pc ∈ (ActivePc.afterRepopulating writes).cacheWrites ∨ pc.isDone = true := by
  unfold ActivePc.afterRepopulating
  split_ifs with hall
  · exact .inr (List.all_eq_true.1 hall pc h)
  · exact .inl h

lemma afterSummarizing_cacheWrites (total : ℕ) (lookUps : List (WorkItemId × LookUpPc)) :
    (ActivePc.afterSummarizing total lookUps).cacheWrites
      = lookUps.filterMap (·.2.cacheWrite) := by
  unfold ActivePc.afterSummarizing
  split_ifs with hall
  · -- a look-up that is over has no write left
    have hnone : lookUps.filterMap (·.2.cacheWrite) = [] := by
      refine List.filterMap_eq_nil_iff.2 ?_
      intro lookUp hmem
      have hover := List.all_eq_true.1 hall lookUp hmem
      cases hpc : lookUp.2 <;> first | rfl | (rw [hpc] at hover; cases hover)
    rw [hnone]
    split <;> rfl
  · rfl

/-- What one of several look-ups does to the writes of all. -/
lemma CacheRuns.of_lookUp {cache cache' : DashboardCache} {lookUps : List (WorkItemId × LookUpPc)}
    {workItemId : WorkItemId} {pc pc' : LookUpPc} (hi : lookUps[i]? = some (workItemId, pc))
    (h : CacheRuns io cache pc.cacheWrite.toList pc.cacheWrite cache' pc'.cacheWrite.toList) :
    CacheRuns io cache (lookUps.filterMap (·.2.cacheWrite))
      (lookUps[i]?.bind (·.2.cacheWrite)) cache'
      ((lookUps.set i (workItemId, pc')).filterMap (·.2.cacheWrite)) := by
  have hnew : ∀ write ∈ pc'.cacheWrite.toList,
      write ∈ (lookUps.set i (workItemId, pc')).filterMap (·.2.cacheWrite) := by
    intro write hwrite
    exact List.mem_filterMap.2 ⟨_, mem_set_self_of hi _, Option.mem_toList.1 hwrite⟩
  have hold : ∀ write ∈ lookUps.filterMap (·.2.cacheWrite), write ∈ pc.cacheWrite.toList ∨
      write ∈ (lookUps.set i (workItemId, pc')).filterMap (·.2.cacheWrite) := by
    intro write hwrite
    obtain ⟨lookUp, hmem, heq⟩ := List.mem_filterMap.1 hwrite
    rcases eq_or_mem_set_of_mem hi hmem (workItemId, pc') with rfl | hset
    · exact .inl (Option.mem_toList.2 heq)
    · exact .inr (List.mem_filterMap.2 ⟨lookUp, hset, heq⟩)
  generalize hwrites : pc'.cacheWrite.toList = writes' at h
  rw [hwrites] at hnew
  cases h with
  | quiet kept =>
    refine .quiet ?_
    intro write hwrite
    rcases hold write hwrite with hpc | hother
    · exact (kept write hpc).imp_left (hnew write)
    · exact .inl hother
  | sent isNext kept goes_on =>
    refine .sent (by rw [hi]; exact isNext) ?_ (goes_on.imp_left (hnew _))
    intro write hwrite
    rcases hold write hwrite with hpc | hother
    · exact (kept write hpc).imp_right (·.imp_left (hnew write))
    · exact .inr (.inl hother)

lemma cacheRuns_of_active {options : DashboardProjectionOptions} {limit offset : ℕ}
    {pc pc' : ActivePc} (h : pc.step options limit offset i io st = some (st', pc')) :
    CacheRuns io st.cache pc.cacheWrites (pc.nextWrite i) st'.cache pc'.cacheWrites := by
  cases pc with
  | zcard repopulated =>
    cases h
    exact .of_nil rfl
  | zrange repopulated total =>
    cases h
    exact .of_nil rfl
  | listing =>
    cases h
    exact .of_nil rfl
  | repopulating writes =>
    obtain ⟨⟨cache, writes'⟩, hstep, h⟩ := Option.map_eq_some_iff.1 h
    cases h
    exact cacheRuns_of_cacheStepAt hstep fun _ => afterRepopulating_cacheWrites
  | summarizing total lookUps =>
    simp only [ActivePc.step] at h
    split at h
    · cases h
    · rename_i workItemId lookUp hlookUp
      obtain ⟨⟨st₁, lookUp'⟩, hstep, h⟩ := Option.map_eq_some_iff.1 h
      cases h
      rw [afterSummarizing_cacheWrites]
      exact .of_lookUp hlookUp (cacheRuns_of_lookUp hstep)
  | direct items total =>
    simp only [ActivePc.step] at h
    split at h
    · cases h
      exact .of_nil rfl
    · cases h
      exact .of_nil rfl
    · cases h
  | returned page => cases h
  | threw e => cases h

lemma cacheRuns_of_update {prisma : PrismaClient} {pc pc' : UpdatePc}
    (h : pc.step prisma i io st = some (st', pc')) :
    CacheRuns io st.cache (Task.updateWorkItems pc).cacheWrites
      ((Task.updateWorkItems pc).nextWrite i) st'.cache
      (Task.updateWorkItems pc').cacheWrites := by
  cases pc with
  | incrementing counts =>
    simp only [UpdatePc.step] at h
    split at h
    · cases h
      exact .of_nil rfl
    · cases h
  | upserting writes =>
    obtain ⟨⟨cache, writes'⟩, hstep, h⟩ := Option.map_eq_some_iff.1 h
    cases h
    exact cacheRuns_of_cacheStepAt hstep fun _ => .inl
  | threw => cases h

/-- Every step of a call sends at most the next command of one of its writes. -/
lemma cacheRuns_of_step {services : IncidentServices} {task : Task} {step : TaskStep}
    (h : task.step services i io st = some step) :
    CacheRuns io st.cache task.cacheWrites (task.nextWrite i) step.stores.cache
      step.task.cacheWrites := by
  cases task with
  | workflow request pc =>
    obtain ⟨step, hstep, rfl⟩ := Option.map_eq_some_iff.1 h
    exact cacheRuns_of_workflow (workflowRuns_of_step hstep)
  | getIncidentDetail workItemId pc =>
    obtain ⟨⟨st', pc'⟩, hstep, rfl⟩ := Option.map_eq_some_iff.1 h
    exact cacheRuns_of_lookUp hstep
  | getActiveIncidents limit offset pc =>
    obtain ⟨⟨st', pc'⟩, hstep, rfl⟩ := Option.map_eq_some_iff.1 h
    exact cacheRuns_of_active hstep
  | updateWorkItems pc =>
    obtain ⟨⟨st', pc'⟩, hstep, rfl⟩ := Option.map_eq_some_iff.1 h
    exact cacheRuns_of_update hstep

/-- A call that is over has no write left to send. -/
lemma isDone_of_isOver {task : Task} (h : task.isOver = true) {pc : CachePc}
    (hmem : pc ∈ task.cacheWrites) : pc.isDone = true := by
  cases task with
  | workflow request wpc => cases wpc with
    | caching => cases h
    | _ => cases hmem
  | getIncidentDetail workItemId lpc => cases lpc with
    | caching => cases h
    | _ => cases hmem
  | getActiveIncidents limit offset apc => cases apc with
    | repopulating | summarizing => cases h
    | _ => cases hmem
  | updateWorkItems upc => cases upc with
    | upserting writes => exact List.all_eq_true.1 h pc hmem
    | _ => cases hmem

end

end InveniOps.Incidents
