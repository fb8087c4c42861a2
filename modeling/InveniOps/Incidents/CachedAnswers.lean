import InveniOps.Incidents.CachedRows
import InveniOps.Incidents.GhostIncidents
import InveniOps.Incidents.Lifecycle

/-!
# Answers from the cache and from Postgres

A look-up of an incident is answered from its summary in the cache or, if that is
missing, from its row.  The summary is the row as the last `SET` wrote it, but for its
`updatedAt`: that is the clock reading of the write and not the instant at which the row
was last updated.  Where the two agree at every write, so do the two answers.
-/

namespace InveniOps.Stores

/-- A row as a `SET` wrote it, and the clock reading of its summary. -/
structure SummaryWrite where
  row : WorkItem
  now : Instant

lemma cacheStep_eq {outcome : Outcome} {now : Instant} {cache : DashboardCache} {pc : CachePc} :
    (cacheStep outcome now cache pc).1
      = if outcome.isApplied then pc.applied now cache else cache := by
  rcases outcome with _ | ⟨_ | _, e⟩ <;> cases pc <;> rfl

/-- What the next command of a write puts under a key, if it is carried out. -/
def CachePc.sets (io : StepIo) : CachePc → Option SummaryWrite
  | .set workItem => if io.outcome.isApplied then some ⟨workItem, io.now⟩ else none
  | _ => none

/-- A summary is dated with the instant of its row's last update. -/
def CachePc.OnTime (now : Instant) : CachePc → Prop
  | .set workItem => now = workItem.updatedAt
  | _ => True

instance (now : Instant) (pc : CachePc) : Decidable (pc.OnTime now) :=
  match pc with
  | .set workItem => inferInstanceAs (Decidable (now = workItem.updatedAt))
  | .zadd _ _ | .del _ | .zrem _ | .done _ => isTrue trivial

/-- A command leaves the summary of an item, or drops it, or makes it up. -/
lemma incidents_of_cacheStep {io : StepIo} {cache : DashboardCache} {pc : CachePc}
    {w : WorkItemId} {summary : IncidentSummary}
    (h : (cacheStep io.outcome io.now cache pc).1.incidents w = some summary) :
    (cache.incidents w = some summary ∧ ∀ write, pc.sets io = some write → write.row.id ≠ w) ∨
      ∃ write, pc.sets io = some write ∧ write.row.id = w ∧
        summary = cachedSummary write.row write.now := by
  rw [cacheStep_eq] at h
  split_ifs at h with happlied
  · cases pc with
    | set workItem =>
      simp only [CachePc.applied, DashboardCache.setIncident, Function.update_apply] at h
      simp only [CachePc.sets, if_pos happlied, Option.some.injEq, exists_eq_left', forall_eq']
      split_ifs at h with hid
      · exact .inr ⟨hid.symm, (Option.some.inj h).symm⟩
      · exact .inl ⟨h, Ne.symm hid⟩
    | del workItemId =>
      simp only [CachePc.applied, DashboardCache.setIncident, Function.update_apply] at h
      split_ifs at h
      exact .inl ⟨h, fun write hwrite => by cases hwrite⟩
    | _ => exact .inl ⟨h, fun write hwrite => by cases hwrite⟩
  · refine .inl ⟨h, ?_⟩
    intro write hwrite
    cases pc with
    | set workItem =>
      rw [CachePc.sets, if_neg happlied] at hwrite
      cases hwrite
    | _ => cases hwrite

end InveniOps.Stores

namespace InveniOps.Incidents

open Lib Stores WorkItems Dashboard

/-! ### What an event writes -/

section

variable {i : ℕ} {io : StepIo} {st st' : IncidentStores}

/-- A step sends the next command of its write. -/
lemma cache_of_lookUp {w : WorkItemId} {pc pc' : LookUpPc}
    (h : pc.step w io st = some (st', pc')) : st'.cache = match pc.cacheWrite with
      | some write => (cacheStep io.outcome io.now st.cache write).1
      | none => st.cache := by
  cases pc with
  | get =>
    simp only [LookUpPc.step] at h
    split at h <;> cases h <;> rfl
  | find attempt | caching found write =>
    cases h
    rfl
  | _ => cases h

lemma cache_of_active {options : DashboardProjectionOptions} {limit offset : ℕ}
    {pc pc' : ActivePc} (h : pc.step options limit offset i io st = some (st', pc')) :
    st'.cache = match pc.nextWrite i with
      | some write => (cacheStep io.outcome io.now st.cache write).1
      | none => st.cache := by
  cases pc with
  | zcard repopulated | zrange repopulated total | listing =>
    cases h
    rfl
  | repopulating writes =>
    obtain ⟨⟨cache, writes'⟩, hstep, h⟩ := Option.map_eq_some_iff.1 h
    cases h
    obtain ⟨write, hwrite, rfl, -⟩ := cacheStepAt_inv hstep
    simp only [ActivePc.nextWrite, hwrite]
  | summarizing total lookUps =>
    simp only [ActivePc.step] at h
    split at h
    · cases h
    · rename_i w lookUp hlookUp
      obtain ⟨⟨st₁, lookUp'⟩, hstep, h⟩ := Option.map_eq_some_iff.1 h
      cases h
      simp only [ActivePc.nextWrite, hlookUp, Option.bind_some]
      exact cache_of_lookUp hstep
  | direct items total =>
    simp only [ActivePc.step] at h
    split at h <;> cases h <;> rfl
  | returned page => cases h
  | threw e => cases h

lemma cache_of_step {services : IncidentServices} {task : Task} {step : TaskStep}
    (h : task.step services i io st = some step) : step.stores.cache = match task.nextWrite i with
      | some write => (cacheStep io.outcome io.now st.cache write).1
      | none => st.cache := by
  cases task with
  | workflow request pc =>
    obtain ⟨step, hstep, rfl⟩ := Option.map_eq_some_iff.1 h
    have hruns := workflowRuns_of_step hstep
    dsimp only
    generalize step.stores = st', step.pc = pc' at hruns
    cases hruns <;> rfl
  | getIncidentDetail workItemId pc =>
    obtain ⟨⟨st', pc'⟩, hstep, rfl⟩ := Option.map_eq_some_iff.1 h
    exact cache_of_lookUp hstep
  | getActiveIncidents limit offset pc =>
    obtain ⟨⟨st', pc'⟩, hstep, rfl⟩ := Option.map_eq_some_iff.1 h
    exact cache_of_active hstep
  | updateWorkItems pc =>
    obtain ⟨⟨st', pc'⟩, hstep, rfl⟩ := Option.map_eq_some_iff.1 h
    cases pc with
    | incrementing counts =>
      simp only [UpdatePc.step] at hstep
      split at hstep <;> cases hstep
      rfl
    | upserting writes =>
      obtain ⟨⟨cache, writes'⟩, hat, heq⟩ := Option.map_eq_some_iff.1 hstep
      cases heq
      obtain ⟨write, hwrite, rfl, -⟩ := cacheStepAt_inv hat
      simp only [Task.nextWrite, hwrite]
    | threw => cases hstep

end

/-! ### The two ways to an answer -/

/-- A look-up of one incident that runs alone. -/
def lookUp (w : WorkItemId) : Lts (IncidentStores × LookUpPc) StepIo :=
  ⟨fun s io => s.2.step w io s.1⟩

/-- The write of a look-up dates its summary with the last update of the row. -/
def LookUpOnTime (s : IncidentStores × LookUpPc) (io : StepIo) : Prop :=
  ∀ pc ∈ s.2.cacheWrite, pc.OnTime io.now

/-- With Redis healthy, the look-up hits the cache. -/
def FromCache (st : IncidentStores) (w : WorkItemId) (pc : LookUpPc) : Prop :=
  ∃ now summary, pc = .hit summary ∧ (lookUp w).run (st, .get) [⟨.ok, now⟩] = some (st, pc)

/-- The summary has expired and the look-up finds the row in Postgres. -/
def FromPostgres (st : IncidentStores) (w : WorkItemId) (ios : List StepIo) (pc : LookUpPc) :
    Prop :=
  ∃ st' found written, pc = .row found written ∧
    (lookUp w).run ({ st with cache := st.cache.setIncident w none }, .get) ios = some (st', pc)

/-- The answers from the cache are those from Postgres: the detail, the item of the list
and the item of the list that is read from Postgres alone. -/
structure AnswersAgree (P : IncidentStores × LookUpPc → StepIo → Prop) (st : IncidentStores)
    (w : WorkItemId) : Prop where
  detail : ∀ pc, FromCache st w pc → ∀ ios pc', FromPostgres st w ios pc' →
    pc.getIncidentDetail = pc'.getIncidentDetail
  item : ∀ pc, FromCache st w pc → ∀ ios pc', FromPostgres st w ios pc' →
    (lookUp w).Meets P ({ st with cache := st.cache.setIncident w none }, .get) ios →
    pc.getIncidentSummaryCacheAware = pc'.getIncidentSummaryCacheAware
  direct : ∀ pc, FromCache st w pc → ∀ r, st.postgres.row w = some r →
    pc.getIncidentSummaryCacheAware = some (.ok (some (toIncidentSummary r)))

section

variable {pg : Postgres} {st : IncidentStores} {w : WorkItemId} {r : WorkItem}
  {dated : Instant → Prop}

lemma incidents_of_cacheRead {outcome : Outcome} {cache : DashboardCache}
    {summary : IncidentSummary}
    (h : cacheRead (DashboardCache.get w) outcome cache = some (some summary)) :
    cache.incidents w = some summary := by
  unfold cacheRead at h
  split at h
  · rename_i hreply
    obtain rfl := Option.some.inj h
    have hcommand := (perform_ok hreply).2
    exact (Prod.mk.inj (Except.ok.inj hcommand)).1
  · cases h

lemma hit_of_fromCache {pc : LookUpPc} (h : FromCache st w pc) :
    ∃ summary, pc = .hit summary ∧ st.cache.incidents w = some summary := by
  obtain ⟨now, summary, rfl, hrun⟩ := h
  refine ⟨summary, rfl, ?_⟩
  obtain ⟨s, hget, hlast⟩ := Lts.run_cons_inv hrun
  obtain rfl := Option.some.inj hlast
  simp only [lookUp, LookUpPc.step] at hget
  split at hget
  · rename_i hread
    cases hget
    exact incidents_of_cacheRead hread
  · cases hget

lemma fromCache_of_summary {summary : IncidentSummary}
    (h : st.cache.incidents w = some summary) : FromCache st w (.hit summary) := by
  have hread : cacheRead (DashboardCache.get w) .ok st.cache = some (some summary) := by
    rw [← h]
    rfl
  refine ⟨0, summary, rfl, ?_⟩
  simp only [Lts.run_cons, lookUp, LookUpPc.step, hread]
  rfl

/-- A look-up that misses the cache comes to an answer from Postgres. -/
lemma fromPostgres_of_row (hr : st.postgres.row w = some r) (hactive : r.state ≠ .CLOSED)
    (now : Instant) : FromPostgres st w (List.replicate 4 ⟨.ok, now⟩)
      (.row (r, st.postgres.rca w) (some (cachedSummary r now))) := by
  have hread : cacheRead (DashboardCache.get w) .ok (st.cache.setIncident w none)
      = some none := congrArg some (Function.update_self ..)
  have hreply : perform (Postgres.findById w) .ok st.postgres
      = (.ok (some (r, st.postgres.rca w)), st.postgres) := by
    refine perform_ok_of ?_
    rw [Postgres.findById, hr, Option.map_some]
  have hrun : ∃ st', (lookUp w).run ({ st with cache := st.cache.setIncident w none }, .get)
      (List.replicate 4 ⟨.ok, now⟩)
        = some (st', .row (r, st.postgres.rca w) (some (cachedSummary r now))) := by
    simp only [List.replicate, Lts.run_cons, lookUp, LookUpPc.step, hread, hreply,
      LookUpPc.afterFind, withPostgresRetry_ok, if_neg hactive, upsertActiveIncident,
      Option.bind_some]
    exact ⟨_, rfl⟩
  obtain ⟨st', hrun⟩ := hrun
  exact ⟨st', _, _, rfl, hrun⟩

/-- A look-up that has missed the cache, with the row that it has found and the summary
that it has made up of it. -/
inductive Misses (r : WorkItem) (rca : Option RcaRecord) (dated : Instant → Prop) :
    LookUpPc → Prop
  | find {attempt : ℕ} : Misses r rca dated (.find attempt)
  | set : Misses r rca dated (.caching (r, rca) (.set r))
  | zadd {now : Instant} (on : dated now) :
    Misses r rca dated (.caching (r, rca) (.zadd r (cachedSummary r now)))
  | row {now : Instant} (on : dated now) :
    Misses r rca dated (.row (r, rca) (some (cachedSummary r now)))
  | threw {e : Thrown} : Misses r rca dated (.threw e)

/-- What `findById` leads to, the row being there and active. -/
lemma misses_afterFind {io : StepIo} (hr : pg.row w = some r) (hactive : r.state ≠ .CLOSED)
    (attempt : ℕ) : Misses r (pg.rca w) dated
      (.afterFind attempt (perform (Postgres.findById w) io.outcome pg).1) := by
  unfold LookUpPc.afterFind
  split
  · exact .find
  · exact .threw
  · rename_i hreturned
    have hreply := (perform_ok (withPostgresRetry_returned hreturned)).2
    rw [Postgres.findById, hr] at hreply
    cases hreply
  · rename_i found hreturned
    have hreply := (perform_ok (withPostgresRetry_returned hreturned)).2
    rw [Postgres.findById, hr] at hreply
    obtain ⟨hfound, -⟩ := Prod.mk.inj (Except.ok.inj hreply)
    obtain rfl := Option.some.inj hfound
    rw [if_neg hactive, upsertActiveIncident, if_neg hactive]
    exact .set

lemma Misses.step {pc pc' : LookUpPc} {st' : IncidentStores} {io : StepIo}
    (h : Misses r (pg.rca w) dated pc) (hr : pg.row w = some r) (hactive : r.state ≠ .CLOSED)
    (hpg : st.postgres = pg) (hdated : pc.cacheWrite = some (.set r) → dated io.now)
    (hstep : pc.step w io st = some (st', pc')) : Misses r (pg.rca w) dated pc' := by
  cases h with
  | find =>
    cases hstep
    exact hpg ▸ misses_afterFind (hpg ▸ hr) hactive _
  | set =>
    cases hstep
    exact .zadd (hdated rfl)
  | zadd on =>
    cases hstep
    exact .row on
  | _ => cases hstep

/-- A look-up whose summary has expired finds the row. -/
lemma misses_of_fromPostgres {ios : List StepIo} {pc : LookUpPc}
    (h : FromPostgres st w ios pc) (hr : st.postgres.row w = some r) (hactive : r.state ≠ .CLOSED)
    (hdated : (lookUp w).Meets (fun s io => s.2.cacheWrite = some (.set r) → dated io.now)
      ({ st with cache := st.cache.setIncident w none }, .get) ios) :
    Misses r (st.postgres.rca w) dated pc := by
  obtain ⟨st', found, written, rfl, hrun⟩ := h
  have hinv : st'.postgres = st.postgres ∧ (LookUpPc.row found written = .get ∧
      st'.cache.incidents w = none ∨ Misses r (st.postgres.rca w) dated (.row found written)) := by
    refine Lts.run_invariant_of_meets (A := lookUp w) (I := fun s => s.1.postgres = st.postgres ∧
      (s.2 = .get ∧ s.1.cache.incidents w = none ∨ Misses r (st.postgres.rca w) dated s.2))
      ?_ hrun hdated ⟨rfl, .inl ⟨rfl, Function.update_self ..⟩⟩
    rintro ⟨st₁, pc₁⟩ io ⟨st₂, pc₂⟩ ⟨hpg, hpc⟩ hnow hstep
    refine ⟨(postgres_of_lookUp hstep).trans hpg, .inr ?_⟩
    rcases hpc with ⟨rfl, hcold⟩ | hmisses
    · -- the summary is gone, so there is nothing to hit
      simp only [lookUp, LookUpPc.step] at hstep
      split at hstep
      · rename_i summary hread
        cases hcold.symm.trans (incidents_of_cacheRead hread)
      · cases hstep
        exact .find
    · exact hmisses.step hr hactive hpg hnow hstep
  rcases hinv.2 with ⟨hget, -⟩ | hmisses
  · cases hget
  · exact hmisses

end

namespace IncidentSystem

variable (s : IncidentSystem)

/-- The `SET` that an event carries out. -/
def setsOf : IncidentEvent → Option SummaryWrite
  | .step k i io => ((s.calls[k]?).bind (·.task.nextWrite i)).bind (·.sets io)
  | _ => none

/-- The history variable: the last `SET` of each summary. -/
def noteSet (e : IncidentEvent) (written : WorkItemId → Option SummaryWrite) :
    WorkItemId → Option SummaryWrite :=
  match s.setsOf e with
  | some write => Function.update written write.row.id (some write)
  | none => written

/-- The condition on an event: a summary that it writes is dated with the instant of its
row's last update. -/
def SetsOnTime : IncidentEvent → Prop
  | .step k i io => ∀ pc ∈ (s.calls[k]?).bind (·.task.nextWrite i), pc.OnTime io.now
  | _ => True

/-- The cache is coherent for the work item: the last `SET` of its summary wrote its row
as it is now. -/
def Coherent (written : WorkItemId → Option SummaryWrite) (w : WorkItemId) : Prop :=
  ∀ write, written w = some write → s.stores.postgres.row w = some write.row

instance (e : IncidentEvent) : Decidable (s.SetsOnTime e) :=
  match e with
  | .step k i io =>
    decidable_of_iff (((s.calls[k]?).bind (·.task.nextWrite i)).all
      fun pc => decide (pc.OnTime io.now)) (by simp [SetsOnTime, Option.all_eq_true])
  | .start _ | .createWorkItem _ _ _ | .recordEscalation _ _ _ | .summaryExpired _
  | .cacheFlushed => isTrue trivial

variable {s} {s' : IncidentSystem} {services : IncidentServices}
  {written : WorkItemId → Option SummaryWrite}

/-- A summary is the row that the last `SET` wrote, dated with its last update. -/
structure WrittenInv (s : IncidentSystem) (written : WorkItemId → Option SummaryWrite) :
    Prop where
  summaries : ∀ w summary, s.stores.cache.incidents w = some summary →
    ∃ write, written w = some write ∧ summary = cachedSummary write.row write.now
  dates : ∀ w write, written w = some write → write.now = write.row.updatedAt

lemma sets_onTime {io : StepIo} {pc : CachePc} {write : SummaryWrite} (h : pc.OnTime io.now)
    (hwrite : pc.sets io = some write) : write.now = write.row.updatedAt := by
  cases pc with
  | set workItem =>
    simp only [CachePc.sets, Option.ite_none_right_eq_some, Option.some.injEq] at hwrite
    obtain ⟨-, rfl⟩ := hwrite
    exact h
  | _ => cases hwrite

/-- A summary behind an event was there before, or a `SET` of the event wrote it. -/
lemma incidents_of_step {e : IncidentEvent} (hstep : s.step services e = some s')
    {w : WorkItemId} {summary : IncidentSummary}
    (h : s'.stores.cache.incidents w = some summary) :
    (s.stores.cache.incidents w = some summary ∧
        ∀ write, s.setsOf e = some write → write.row.id ≠ w) ∨
      ∃ write, s.setsOf e = some write ∧ write.row.id = w ∧
        summary = cachedSummary write.row write.now := by
  cases e with
  | step k i io =>
    obtain ⟨call, step, hcall, htask, rfl⟩ := step_step_inv hstep
    have hcache := cache_of_step htask
    change step.stores.cache.incidents w = some summary at h
    simp only [setsOf, hcall, Option.bind_some]
    rw [hcache] at h
    cases hnext : call.task.nextWrite i with
    | some pc =>
      rw [hnext] at h
      exact incidents_of_cacheStep h
    | none =>
      rw [hnext] at h
      exact .inl ⟨h, fun write hwrite => by cases hwrite⟩
  | summaryExpired workItemId =>
    cases hstep
    simp only [setCache, DashboardCache.setIncident, Function.update_apply] at h
    split_ifs at h
    exact .inl ⟨h, fun write hwrite => by cases hwrite⟩
  | cacheFlushed =>
    cases hstep
    cases h
  | _ =>
    cases hstep
    exact .inl ⟨h, fun write hwrite => by cases hwrite⟩

/-- Every event that meets the condition keeps the agreement with the last `SET`s. -/
lemma WrittenInv.step (h : s.WrittenInv written) {e : IncidentEvent} (he : s.SetsOnTime e)
    (hstep : s.step services e = some s') : s'.WrittenInv (s.noteSet e written) := by
  have hdate : ∀ write, s.setsOf e = some write → write.now = write.row.updatedAt := by
    intro write hwrite
    cases e with
    | step k i io =>
      obtain ⟨pc, hpc, hsets⟩ := Option.bind_eq_some_iff.1 hwrite
      exact sets_onTime (he pc hpc) hsets
    | _ => cases hwrite
  constructor
  · intro w summary hsummary
    rcases incidents_of_step hstep hsummary with ⟨hold, hother⟩ | ⟨write, hwrite, rfl, hnew⟩
    · obtain ⟨write, hwritten, heq⟩ := h.summaries w summary hold
      refine ⟨write, ?_, heq⟩
      unfold noteSet
      cases hsets : s.setsOf e with
      | some write' => exact (Function.update_of_ne (hother write' hsets).symm _ _).trans hwritten
      | none => exact hwritten
    · exact ⟨write, by simp [noteSet, hwrite], hnew⟩
  · intro w write hwrite
    unfold noteSet at hwrite
    cases hsets : s.setsOf e with
    | some write' =>
      simp only [hsets, Function.update_apply] at hwrite
      split_ifs at hwrite
      · exact Option.some.inj hwrite ▸ hdate write' hsets
      · exact h.dates w write hwrite
    | none =>
      rw [hsets] at hwrite
      exact h.dates w write hwrite

lemma writtenInv_empty : empty.WrittenInv (fun _ => none) := by
  constructor
  · intro w summary hsummary
    cases hsummary
  · intro w write hwrite
    cases hwrite

/-- An active work item has no RCA. -/
lemma rca_eq_none {events : List IncidentEvent} (hrun : (lts services).run empty events = some s)
    {w : WorkItemId} {r : WorkItem} (hr : s.stores.postgres.row w = some r)
    (hactive : r.state ≠ .CLOSED) : s.stores.postgres.rca w = none := by
  have hlife := lifecycle_of_run hrun hr
  rw [Tables.rca, List.find?_eq_none]
  intro rca hmem hid
  refine hactive (hlife.rca_iff.1 ⟨rca, List.mem_filter.2 ⟨hmem, ?_⟩⟩)
  rw [Tables.row_id hr]
  exact hid

/-- In every run whose summaries are dated with the last updates of their rows, the
answers from a coherent cache are those from Postgres. -/
theorem answersAgree_of_run {events : List IncidentEvent}
    (hrun : ((lts services).withHistory noteSet).run (empty, fun _ => none) events
      = some (s, written))
    (hmeets : (lts services).Meets SetsOnTime empty events) {w : WorkItemId}
    (hactive : s.IsActive w) (hcoherent : s.Coherent written w) :
    AnswersAgree LookUpOnTime s.stores w := by
  obtain ⟨r, hr, hopen⟩ := hactive
  have hrca := rca_eq_none (Lts.run_of_withHistory hrun) hr hopen
  have hinv : s.WrittenInv written :=
    Lts.run_withHistory_invariant (fun _ _ _ _ h he hstep => h.step he hstep) hrun hmeets
      writtenInv_empty
  have hhit : ∀ pc, FromCache s.stores w pc → pc = .hit (toIncidentSummary r) := by
    intro pc hpc
    obtain ⟨summary, rfl, hsummary⟩ := hit_of_fromCache hpc
    obtain ⟨write, hwrite, rfl⟩ := hinv.summaries w summary hsummary
    obtain rfl := Option.some.inj ((hcoherent write hwrite).symm.trans hr)
    rw [hinv.dates w write hwrite]
    rfl
  have hrow : ∀ (dated : Instant → Prop) ios pc, FromPostgres s.stores w ios pc →
      (lookUp w).Meets (fun s io => s.2.cacheWrite = some (.set r) → dated io.now)
        ({ s.stores with cache := s.stores.cache.setIncident w none }, .get) ios →
      ∃ now, dated now ∧ pc = .row (r, none) (some (cachedSummary r now)) := by
    intro dated ios pc hpc hdated
    have hmisses := misses_of_fromPostgres hpc hr hopen hdated
    obtain ⟨st', found, written, rfl, -⟩ := hpc
    rw [hrca] at hmisses
    cases hmisses with
    | row on => exact ⟨_, on, rfl⟩
  refine ⟨?_, ?_, ?_⟩
  · intro pc hpc ios pc' hpc'
    obtain ⟨now, -, rfl⟩ := hrow (fun _ => True) ios pc' hpc'
      (Lts.meets_of_forall (fun _ _ _ => trivial) _ _)
    rw [hhit pc hpc]
    rfl
  · intro pc hpc ios pc' hpc' honTime
    obtain ⟨now, rfl, rfl⟩ := hrow (· = r.updatedAt) ios pc' hpc'
      (honTime.imp fun _ _ h hset => h _ hset)
    rw [hhit pc hpc]
    rfl
  · intro pc hpc r' hr'
    obtain rfl := Option.some.inj (hr.symm.trans hr')
    rw [hhit pc hpc]
    rfl

/-- A work item is created at 1000 and looked up, and cached, at a given instant. -/
def lookedUpAt (now : Instant) : List IncidentEvent :=
  itemCreated :: callEvents 0 (.getIncidentDetail "w") now 4

/-- What the look-up leaves behind. -/
lemma exists_lookedUp (now : Instant) (hnow : now = 1000 ∨ now = 2000) : ∃ s written r,
    ((lts .standard).withHistory noteSet).run (empty, fun _ => none) (lookedUpAt now)
        = some (s, written) ∧
      s.stores.postgres.row "w" = some r ∧ r.state = .OPEN ∧ r.updatedAt = 1000 ∧
      s.stores.cache.incidents "w" = some (cachedSummary r now) ∧ s.Coherent written "w" := by
  have hobserved : ∀ now ∈ [1000, 2000],
      (((lts .standard).withHistory noteSet).run (empty, fun _ => none) (lookedUpAt now)).map
        (fun t => (t.1.stores.postgres.row "w").map fun r =>
          decide (r.state = .OPEN ∧ r.updatedAt = 1000 ∧
            t.1.stores.cache.incidents "w" = some (cachedSummary r now) ∧
            (t.2 "w").map (·.row) = some r)) = some (some true) := by
    decide +kernel
  obtain ⟨⟨s, written⟩, hrun, hs⟩ := Option.map_eq_some_iff.1 (hobserved now (by simpa using hnow))
  obtain ⟨r, hr, htrue⟩ := Option.map_eq_some_iff.1 hs
  obtain ⟨hstate, hdate, hsummary, hwritten⟩ := of_decide_eq_true htrue
  refine ⟨s, written, r, hrun, hr, hstate, hdate, hsummary, ?_⟩
  intro write hwrite
  have hrow : (written "w").map (·.row) = some r := hwritten
  rw [hwrite] at hrow
  exact hr.trans hrow.symm

theorem answersAgree_of_lookedUp : ∃ s written,
    ((lts .standard).withHistory noteSet).run (empty, fun _ => none) (lookedUpAt 1000)
        = some (s, written) ∧
      (s.stores.cache.incidents "w").isSome ∧ AnswersAgree LookUpOnTime s.stores "w" := by
  obtain ⟨s, written, r, hrun, hr, hstate, -, hsummary, hcoherent⟩ :=
    exists_lookedUp 1000 (.inl rfl)
  have hmeets : (lts .standard).Meets SetsOnTime empty (lookedUpAt 1000) := by
    decide +kernel
  have hactive : s.IsActive "w" := ⟨r, hr, by rw [hstate]; decide⟩
  exact ⟨s, written, hrun, Option.isSome_of_eq_some hsummary,
    answersAgree_of_run hrun hmeets hactive hcoherent⟩

/-- A look-up at 2000 returns the instant of the row's last update, and the next one, from
the cache, the instant of the first one's cache write. -/
theorem dates_differ : ¬ ∀ events s written w,
    ((lts .standard).withHistory noteSet).run (empty, fun _ => none) events = some (s, written) →
      s.IsActive w → s.Coherent written w → AnswersAgree (fun _ _ => True) s.stores w := by
  intro hclaim
  obtain ⟨s, written, r, hrun, hr, hstate, hdate, hsummary, hcoherent⟩ :=
    exists_lookedUp 2000 (.inr rfl)
  have hopen : r.state ≠ .CLOSED := by
    rw [hstate]
    decide
  have hagree := hclaim _ s written "w" hrun ⟨r, hr, hopen⟩ hcoherent
  have hdetail := hagree.detail _ (fromCache_of_summary hsummary) _ _
    (fromPostgres_of_row hr hopen 2000)
  have hdto := Option.some.inj (Except.ok.inj (Option.some.inj hdetail))
  have hsame : 2000 = r.updatedAt := congrArg (·.updatedAt) hdto
  rw [hdate] at hsame
  cases hsame

end IncidentSystem

end InveniOps.Incidents
