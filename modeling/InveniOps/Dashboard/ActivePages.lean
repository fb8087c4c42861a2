import InveniOps.Lib.ListFacts
import InveniOps.Stores.CacheCommands
import InveniOps.Dashboard.DashboardProjection

/-!
# One page of active incidents

A call of `getActiveIncidents` that runs alone on healthy stores.  The rows that it
shows are those whose entries the active incidents hold; if they hold none, it first
enters the rows that the repopulation lists.  Its own writes, of rows that it shows,
change no entry.
-/

namespace InveniOps.Dashboard

open Lib Stores

/-- The entry of a row among the active incidents. -/
def entryOf (r : WorkItem) : WorkItemId × ℤ := (r.id, activeScore r)

/-- Active rows, each once. -/
structure Listing (pg : Postgres) where
  rows : List WorkItem
  active : ∀ r ∈ rows, pg.row r.id = some r ∧ r.state ≠ .CLOSED
  nodup : (rows.map (·.id)).Nodup

/-- The active incidents hold the entries of the rows and no others. -/
def Holds (active : SortedSet WorkItemId) (rows : List WorkItem) : Prop :=
  ∀ entry, entry ∈ active.entries ↔ entry ∈ rows.map entryOf

namespace Listing

variable {pg : Postgres}

lemma nodup_active : (pg.active.map (·.id)).Nodup :=
  (List.filter_sublist.map _).nodup pg.constraints.work_items_pkey

variable (pg) in
/-- All active rows. -/
def all : Listing pg where
  rows := pg.active
  active := fun r hr => by
    simp only [Tables.active, List.mem_filter, decide_eq_true_eq] at hr
    exact ⟨Postgres.row_eq_some_iff.2 ⟨hr.1, rfl⟩, hr.2⟩
  nodup := nodup_active

variable (pg) in
/-- The rows that a repopulation enters: the first of `listActive`, up to the cap. -/
def first (options : DashboardProjectionOptions) : Listing pg where
  rows := (pg.active.insertionSort fun a b => a.severity.rank < b.severity.rank ∨
    a.severity.rank = b.severity.rank ∧ a.firstSignalAt ≤ b.firstSignalAt).take
      options.repopulateCap
  active := fun r => row_of_listActive
    (show Postgres.listActive options.repopulateCap 0 pg = .ok (_, pg) from rfl)
  nodup := by
    refine ((List.take_sublist _ _).map _).nodup ?_
    exact ((List.perm_insertionSort _ _).map _).nodup_iff.2 nodup_active

/-- One active row. -/
def single {r : WorkItem} (hr : pg.row r.id = some r) (hactive : r.state ≠ .CLOSED) :
    Listing pg where
  rows := [r]
  active := fun _ hmem => List.mem_singleton.1 hmem ▸ ⟨hr, hactive⟩
  nodup := List.nodup_singleton _

lemma listActive_eq (options : DashboardProjectionOptions) :
    Postgres.listActive options.repopulateCap 0 pg = .ok ((first pg options).rows, pg) := rfl

lemma length_first (options : DashboardProjectionOptions) :
    (first pg options).rows.length = min options.repopulateCap pg.active.length := by
  rw [first, List.length_take, List.length_insertionSort]

/-- All active rows are entered unless the cap leaves some out. -/
lemma first_perm {options : DashboardProjectionOptions}
    (hcap : pg.active.length ≤ options.repopulateCap) : (first pg options).rows.Perm pg.active := by
  refine (List.Perm.of_eq (List.take_of_length_le ?_)).trans (List.perm_insertionSort _ _)
  exact (List.length_insertionSort _ _).trans_le hcap

variable (l : Listing pg)

/-- The ids of the rows in the order of the active incidents. -/
def ids : List WorkItemId := (SortedSet.sorted (l.rows.map entryOf)).map (·.1)

lemma ids_perm : l.ids.Perm (l.rows.map (·.id)) := by
  have hperm := (SortedSet.sorted_perm (l.rows.map entryOf)).map (·.1)
  rwa [List.map_map] at hperm

lemma length_ids : l.ids.length = l.rows.length := by
  rw [l.ids_perm.length_eq, List.length_map]

/-- A page of them. -/
def page (limit offset : ℕ) : List WorkItemId := (l.ids.drop offset).take limit

lemma length_page_le (limit offset : ℕ) : (l.page limit offset).length ≤ l.rows.length := by
  rw [page, List.length_take, List.length_drop, length_ids]
  omega

variable {l}

lemma exists_row_of_mem_page {limit offset : ℕ} {w : WorkItemId} (h : w ∈ l.page limit offset) :
    ∃ r ∈ l.rows, r.id = w := by
  have hmem := l.ids_perm.mem_iff.1 (List.mem_of_mem_drop (List.mem_of_mem_take h))
  obtain ⟨r, hr, rfl⟩ := List.mem_map.1 hmem
  exact ⟨r, hr, rfl⟩

/-- Two rows of one id are the same. -/
lemma eq_of_id {r r' : WorkItem} (hr : r ∈ l.rows) (hr' : r' ∈ l.rows) (hid : r.id = r'.id) :
    r = r' :=
  List.inj_on_of_nodup_map l.nodup hr hr' hid

end Listing

namespace Holds

variable {pg : Postgres} {l : Listing pg} {active : SortedSet WorkItemId}

lemma perm (h : Holds active l.rows) : active.entries.Perm (l.rows.map entryOf) := by
  have hnodup : (l.rows.map entryOf).Nodup := by
    refine List.Nodup.of_map (·.1) ?_
    rw [List.map_map]
    exact l.nodup
  exact (List.perm_ext_iff_of_nodup (List.Nodup.of_map _ active.unique) hnodup).2 h

lemma card (h : Holds active l.rows) : active.card = l.rows.length := by
  rw [SortedSet.card, h.perm.length_eq, List.length_map]

lemma range (h : Holds active l.rows) {limit : ℕ} (hlimit : 0 < limit) (offset : ℕ) :
    active.range offset (offset + limit - 1) = l.page limit offset := by
  rw [SortedSet.range_eq _ _ hlimit, SortedSet.sorted_eq_of_perm h.perm]
  rfl

/-- Adding a row that is held changes no entry. -/
lemma add (h : Holds active l.rows) {r : WorkItem} (hr : r ∈ l.rows) :
    Holds (active.add r.id (activeScore r)) l.rows := fun entry =>
  (SortedSet.mem_entries_add_of_mem ((h _).2 (List.mem_map_of_mem hr))).trans (h entry)

end Holds

/-! ### Looking up an item of the page -/

section

variable {pg : Postgres} {l : Listing pg} {st st' : IncidentStores} {now : Instant}
  {w : WorkItemId}

/-- The look-up finds, or has found, a summary of the item. -/
def LookUpPc.Finds (l : Listing pg) (w : WorkItemId) : LookUpPc → Prop
  | .get | .find _ => True
  | .caching found pc => found.1 ∈ l.rows ∧ found.1.id = w ∧ (pc = .set found.1 ∨
      ∃ summary, pc = .zadd found.1 summary ∧ summary.id = w)
  | .hit summary => summary.id = w
  | .row _ written => ∃ summary, written = some summary ∧ summary.id = w
  | .missing | .threw _ => False

/-- A healthy step of a look-up keeps it on its way, and the entries as they are. -/
lemma LookUpPc.Finds.step {pc pc' : LookUpPc} (h : pc.Finds l w) (hpg : st.postgres = pg)
    (hw : ∃ r ∈ l.rows, r.id = w) (hnamed : st.cache.Named) (hholds : Holds st.cache.active l.rows)
    (hstep : pc.step w ⟨.ok, now⟩ st = some (st', pc')) :
    pc'.Finds l w ∧ Holds st'.cache.active l.rows := by
  cases pc with
  | get =>
    simp only [LookUpPc.step] at hstep
    split at hstep
    · -- a hit: under the key is a summary of the item
      rename_i summary hread
      cases hstep
      exact ⟨hnamed w summary (Option.some.inj hread), hholds⟩
    · cases hstep
      exact ⟨trivial, hholds⟩
  | find attempt =>
    obtain ⟨r, hr, rfl⟩ := hw
    obtain ⟨hrow, hactive⟩ := l.active r hr
    have hreply : perform (Postgres.findById r.id) .ok st.postgres
        = (.ok (some (r, st.postgres.rca r.id)), st.postgres) := by
      refine perform_ok_of ?_
      rw [Postgres.findById, hpg, hrow, Option.map_some]
    simp only [LookUpPc.step, hreply, LookUpPc.afterFind, withPostgresRetry_ok, if_neg hactive,
      upsertActiveIncident, Option.some.injEq, Prod.mk.injEq] at hstep
    obtain ⟨rfl, rfl⟩ := hstep
    exact ⟨⟨hr, rfl, .inl rfl⟩, hholds⟩
  | caching found pc =>
    obtain ⟨hrow, hid, rfl | ⟨summary, rfl, hsummary⟩⟩ := h
    · obtain ⟨rfl, rfl⟩ := Prod.mk.inj (Option.some.inj hstep)
      exact ⟨⟨hrow, hid, .inr ⟨_, rfl, hid⟩⟩, hholds⟩
    · obtain ⟨rfl, rfl⟩ := Prod.mk.inj (Option.some.inj hstep)
      exact ⟨⟨summary, rfl, hsummary⟩, hholds.add hrow⟩
  | _ => cases hstep

/-- Look-ups that are over have found one summary for each id. -/
lemma exists_summaries {lookUps : List (WorkItemId × LookUpPc)}
    (hfinds : ∀ lookUp ∈ lookUps, lookUp.2.Finds l lookUp.1)
    (hover : ∀ lookUp ∈ lookUps, lookUp.2.isOver = true) :
    ∃ summaries : List IncidentSummary, summaries.map (·.id) = lookUps.map (·.1) ∧
      (lookUps.filterMap (·.2.getIncidentSummaryCacheAware)).mapM id
        = .ok (summaries.map some) := by
  induction lookUps with
  | nil => exact ⟨[], rfl, rfl⟩
  | cons lookUp lookUps ih =>
    obtain ⟨summaries, hids, hresults⟩ := ih
      (fun other hother => hfinds other (List.mem_cons_of_mem _ hother))
      (fun other hother => hover other (List.mem_cons_of_mem _ hother))
    obtain ⟨summary, hid, hresult⟩ : ∃ summary : IncidentSummary, summary.id = lookUp.1 ∧
        lookUp.2.getIncidentSummaryCacheAware = some (.ok (some summary)) := by
      -- a look-up that is over and on its way has hit the cache or found a row
      have hfound := hfinds lookUp List.mem_cons_self
      have hdone := hover lookUp List.mem_cons_self
      obtain ⟨w, pc⟩ := lookUp
      cases pc with
      | hit summary => exact ⟨summary, hfound, rfl⟩
      | row found written =>
        obtain ⟨summary, rfl, hid⟩ := hfound
        exact ⟨summary, hid, rfl⟩
      | missing | threw e => exact hfound.elim
      | get | find attempt | caching found pc => cases hdone
    refine ⟨summary :: summaries, by rw [List.map_cons, List.map_cons, hid, hids], ?_⟩
    have hcons : (lookUp :: lookUps).filterMap (·.2.getIncidentSummaryCacheAware)
        = .ok (some summary) :: lookUps.filterMap (·.2.getIncidentSummaryCacheAware) :=
      List.filterMap_cons_some hresult
    rw [hcons, List.mapM_cons, hresults]
    rfl

end

/-! ### Entering the rows -/

section

variable {pg : Postgres} {l : Listing pg} {cache cache' : DashboardCache} {now : Instant}
  {i : ℕ} {writes writes' : List CachePc}

/-- The writes are entering the rows. -/
structure Filling (l : Listing pg) (active : SortedSet WorkItemId) (writes : List CachePc) :
    Prop where
  entries : ∀ entry ∈ active.entries, entry ∈ l.rows.map entryOf
  rows : ∀ r ∈ l.rows,
    entryOf r ∈ active.entries ∨ ∃ pc ∈ writes, pc.snapshot = some r
  writes : ∀ pc ∈ writes, pc.isDone = true ∨ ∃ r ∈ l.rows, pc.snapshot = some r

lemma isDone_of_snapshot {pc : CachePc} {r : WorkItem} (h : pc.snapshot = some r) :
    pc.isDone = false := by
  cases pc with
  | set r | zadd r summary => rfl
  | _ => cases h

/-- When all writes are done the rows are held. -/
lemma Filling.holds {active : SortedSet WorkItemId} (h : Filling l active writes)
    (hdone : writes.all (·.isDone) = true) : Holds active l.rows := by
  intro entry
  refine ⟨h.entries entry, ?_⟩
  intro hmem
  obtain ⟨r, hr, rfl⟩ := List.mem_map.1 hmem
  rcases h.rows r hr with hentry | ⟨pc, hpc, hsnapshot⟩
  · exact hentry
  · have hpcDone := List.all_eq_true.1 hdone pc hpc
    rw [isDone_of_snapshot hsnapshot] at hpcDone
    cases hpcDone

lemma filling_start (hempty : cache.active.entries = []) :
    Filling l cache.active (l.rows.map upsertActiveIncident) := by
  have hset : ∀ r ∈ l.rows, upsertActiveIncident r = .set r := fun r hr =>
    if_neg (l.active r hr).2
  refine ⟨?_, ?_, ?_⟩
  · intro entry hentry
    rw [hempty] at hentry
    cases hentry
  · intro r hr
    exact .inr ⟨_, List.mem_map_of_mem hr, by rw [hset r hr]; rfl⟩
  · intro pc hpc
    obtain ⟨r, hr, rfl⟩ := List.mem_map.1 hpc
    exact .inr ⟨r, hr, by rw [hset r hr]; rfl⟩

/-- A command of the writes leaves the entry of a row in its place. -/
lemma Filling.mem_entries (h : Filling l cache.active writes) {pc : CachePc} (hpc : pc ∈ writes)
    {r : WorkItem} (hr : r ∈ l.rows) (hentry : entryOf r ∈ cache.active.entries) :
    entryOf r ∈ (cacheStep .ok now cache pc).1.active.entries := by
  rw [cacheStep_ok]
  cases pc with
  | zadd r' summary =>
    rcases h.writes _ hpc with hdone | ⟨r'', hr'', hsnapshot⟩
    · cases hdone
    obtain rfl := Option.some.inj hsnapshot
    refine SortedSet.mem_entries_add.2 ?_
    by_cases hid : r.id = r'.id
    · exact .inr (by rw [l.eq_of_id hr hr'' hid]; rfl)
    · exact .inl ⟨hentry, hid⟩
  | zrem workItemId =>
    rcases h.writes _ hpc with hdone | ⟨r', -, hsnapshot⟩
    · cases hdone
    · cases hsnapshot
  | _ => exact hentry

/-- A healthy command keeps the entering on its way. -/
lemma Filling.step (h : Filling l cache.active writes)
    (hstep : cacheStepAt .ok now cache i writes = some (cache', writes')) :
    Filling l cache'.active writes' := by
  obtain ⟨pc, hpc, rfl, rfl⟩ := cacheStepAt_inv hstep
  have hmem := List.mem_of_getElem? hpc
  have hnext : (cacheStep .ok now cache pc).2.isDone = true ∨
      ∃ r ∈ l.rows, (cacheStep .ok now cache pc).2.snapshot = some r := by
    rcases h.writes pc hmem with hdone | ⟨r, hr, hsnapshot⟩
    · cases pc with
      | done summary => exact .inl rfl
      | _ => cases hdone
    · cases pc with
      | set r' => exact .inr ⟨r, hr, hsnapshot⟩
      | zadd r' summary => exact .inl rfl
      | _ => cases hsnapshot
  refine ⟨?_, ?_, ?_⟩
  · intro entry hentry
    rcases mem_entries_of_cacheStep hentry with hold | ⟨r, hsnapshot, rfl⟩
    · exact h.entries entry hold
    · rcases h.writes pc hmem with hdone | ⟨r', hr', hsnapshot'⟩
      · rw [isDone_of_snapshot hsnapshot] at hdone
        cases hdone
      · obtain rfl := Option.some.inj (hsnapshot.symm.trans hsnapshot')
        exact List.mem_map_of_mem hr'
  · intro r hr
    rcases h.rows r hr with hentry | ⟨pc', hpc', hsnapshot⟩
    · exact .inl (h.mem_entries hmem hr hentry)
    · -- the entry is still to come: from another write, or from this one
      rcases eq_or_mem_set_of_mem hpc hpc' (cacheStep .ok now cache pc).2 with rfl | hother
      · cases pc' with
        | set r' => exact .inr ⟨_, mem_set_self_of hpc _, hsnapshot⟩
        | zadd r' summary =>
          obtain rfl := Option.some.inj hsnapshot
          exact .inl (SortedSet.mem_entries_add.2 (.inr rfl))
        | _ => cases hsnapshot
      · exact .inr ⟨pc', hother, hsnapshot⟩
  · intro pc' hpc'
    rcases List.mem_or_eq_of_mem_set hpc' with hold | rfl
    · exact h.writes pc' hold
    · exact hnext

end

/-! ### Steps that are left -/

/-- The commands that a write is still to send. -/
def CachePc.left : CachePc → ℕ
  | .set _ | .del _ => 2
  | .zadd _ _ | .zrem _ => 1
  | .done _ => 0

/-- The steps that a look-up takes at most on healthy stores. -/
def LookUpPc.left : LookUpPc → ℕ
  | .get => 5
  | .find _ => 4
  | .caching _ pc => CachePc.left pc + 1
  | _ => 0

/-- The steps that the call takes at most on healthy stores, for a number of rows. -/
def ActivePc.left (rows : ℕ) : ActivePc → ℕ
  | .zcard false => 7 * rows + 6
  | .zrange false _ => 7 * rows + 5
  | .listing => 7 * rows + 4
  | .repopulating writes => 5 * rows + 3 + (writes.map CachePc.left).sum
  | .zcard true => 5 * rows + 2
  | .zrange true _ => 5 * rows + 1
  | .summarizing _ lookUps => (lookUps.map (·.2.left)).sum
  | .direct _ _ | .returned _ | .threw _ => 0

section

variable {outcome : Outcome} {now : Instant} {cache cache' : DashboardCache} {i : ℕ}

lemma left_cacheStep {pc : CachePc} (h : pc.isDone = false) :
    CachePc.left (cacheStep outcome now cache pc).2 < CachePc.left pc := by
  cases pc with
  | done summary => cases h
  | _ => exact Nat.lt_succ_self _

lemma left_cacheStepAt {writes writes' : List CachePc}
    (h : cacheStepAt outcome now cache i writes = some (cache', writes')) :
    (writes'.map CachePc.left).sum < (writes.map CachePc.left).sum := by
  simp only [cacheStepAt] at h
  split at h
  · cases h
  · cases h
  · rename_i pc hdone hpc
    obtain ⟨-, rfl⟩ := Prod.mk.inj (Option.some.inj h)
    have hnotDone : pc.isDone = false := by
      cases pc with
      | done summary => exact absurd rfl (hdone summary)
      | _ => rfl
    have hsum := sum_map_set hpc (cacheStep outcome now cache pc).2 CachePc.left
    have hless := @left_cacheStep outcome now cache pc hnotDone
    omega

lemma left_lookUp {st st' : IncidentStores} {w : WorkItemId} {pc pc' : LookUpPc}
    (h : pc.step w ⟨.ok, now⟩ st = some (st', pc')) : pc'.left < pc.left := by
  cases pc with
  | get =>
    simp only [LookUpPc.step] at h
    split at h <;> cases h
    · exact Nat.succ_pos _
    · exact Nat.lt_succ_self _
  | find attempt =>
    obtain ⟨rfl, rfl⟩ := Prod.mk.inj (Option.some.inj h)
    simp only [perform, Postgres.findById, LookUpPc.afterFind, withPostgresRetry_ok]
    cases (st.postgres.row w).map fun r => (r, st.postgres.rca w) with
    | none => exact Nat.succ_pos _
    | some found =>
      dsimp only
      split_ifs with hclosed
      · exact Nat.succ_pos _
      · rw [upsertActiveIncident, if_neg hclosed]
        exact Nat.lt_succ_self _
  | caching found pc =>
    obtain ⟨rfl, rfl⟩ := Prod.mk.inj (Option.some.inj h)
    cases pc with
    | set r => exact Nat.lt_succ_self _
    | del w => exact Nat.lt_succ_self _
    | _ => exact Nat.succ_pos _
  | _ => cases h

lemma left_afterRepopulating (rows : ℕ) (writes : List CachePc) :
    (ActivePc.afterRepopulating writes).left rows
      ≤ 5 * rows + 3 + (writes.map CachePc.left).sum := by
  unfold ActivePc.afterRepopulating
  split_ifs
  · simp only [ActivePc.left]
    omega
  · exact le_rfl

lemma left_afterSummarizing (rows total : ℕ) (lookUps : List (WorkItemId × LookUpPc)) :
    (ActivePc.afterSummarizing total lookUps).left rows ≤ (lookUps.map (·.2.left)).sum := by
  unfold ActivePc.afterSummarizing
  split_ifs
  · split <;> exact Nat.zero_le _
  · exact le_rfl

end

/-! ### The call -/

section

variable {pg : Postgres} {l : Listing pg} {options : DashboardProjectionOptions}
  {limit offset i : ℕ} {st st' : IncidentStores} {now : Instant} {pc pc' : ActivePc}

/-- The active incidents hold nothing, and the rows are those that a repopulation enters. -/
structure Cold (l : Listing pg) (options : DashboardProjectionOptions)
    (active : SortedSet WorkItemId) : Prop where
  empty : active.entries = []
  rows : l.rows = (Listing.first pg options).rows

/-- The active incidents hold the rows, or nothing and the rows will be entered. -/
def Ready (l : Listing pg) (options : DashboardProjectionOptions)
    (active : SortedSet WorkItemId) : Prop :=
  Cold l options active ∨ l.rows ≠ [] ∧ Holds active l.rows

/-- While the active incidents hold the rows they stay ready to show them. -/
lemma Ready.of_holds {active active' : SortedSet WorkItemId} (h : Ready l options active)
    (holds : Holds active' l.rows) : Ready l options active' := by
  by_cases hne : l.rows = []
  · rcases h with cold | ⟨hne', -⟩
    · refine .inl ⟨List.eq_nil_iff_forall_not_mem.2 ?_, cold.rows⟩
      intro entry hentry
      have hmem := (holds entry).1 hentry
      rw [hne] at hmem
      cases hmem
    · exact absurd hne hne'
  · exact .inr ⟨hne, holds⟩

/-- The call is on its way to a page of the rows. -/
inductive Serves (l : Listing pg) (options : DashboardProjectionOptions) (limit offset : ℕ)
    (active : SortedSet WorkItemId) : ActivePc → Prop
  | zcard (ready : Ready l options active) : Serves l options limit offset active (.zcard false)
  | zrangeCold (cold : Cold l options active) :
    Serves l options limit offset active (.zrange false (some 0))
  | zrange (nonempty : l.rows ≠ []) (holds : Holds active l.rows) :
    Serves l options limit offset active (.zrange false (some l.rows.length))
  | listing (cold : Cold l options active) : Serves l options limit offset active .listing
  | repopulating {writes : List CachePc} (filling : Filling l active writes)
      (more : writes.all (·.isDone) = false) :
    Serves l options limit offset active (.repopulating writes)
  | zcardAgain (holds : Holds active l.rows) : Serves l options limit offset active (.zcard true)
  | zrangeAgain (holds : Holds active l.rows) :
    Serves l options limit offset active (.zrange true (some l.rows.length))
  | summarizing {lookUps : List (WorkItemId × LookUpPc)} (holds : Holds active l.rows)
      (ids : lookUps.map (·.1) = l.page limit offset)
      (finds : ∀ lookUp ∈ lookUps, lookUp.2.Finds l lookUp.1)
      (more : lookUps.all (·.2.isOver) = false) :
    Serves l options limit offset active (.summarizing l.rows.length lookUps)
  | returned {page : IncidentPage} (holds : Holds active l.rows)
      (total : page.total = l.rows.length)
      (ids : page.items.map (·.id) = l.page limit offset) :
    Serves l options limit offset active (.returned page)

lemma Listing.left_upserts (l : Listing pg) :
    ((l.rows.map upsertActiveIncident).map CachePc.left).sum = 2 * l.rows.length := by
  have htwo : ∀ r ∈ l.rows, (CachePc.left ∘ upsertActiveIncident) r = 2 := by
    intro r hr
    rw [Function.comp_apply, upsertActiveIncident, if_neg (l.active r hr).2]
    rfl
  rw [List.map_map, List.map_congr_left htwo, List.map_const', List.sum_replicate_nat, mul_comm]

lemma serves_afterRepopulating {active : SortedSet WorkItemId} {writes : List CachePc}
    (h : Filling l active writes) :
    Serves l options limit offset active (.afterRepopulating writes) := by
  unfold ActivePc.afterRepopulating
  split_ifs with hdone
  · exact .zcardAgain (h.holds hdone)
  · exact .repopulating h (Bool.eq_false_iff.2 hdone)

lemma serves_afterSummarizing {active : SortedSet WorkItemId}
    {lookUps : List (WorkItemId × LookUpPc)} (holds : Holds active l.rows)
    (ids : lookUps.map (·.1) = l.page limit offset)
    (finds : ∀ lookUp ∈ lookUps, lookUp.2.Finds l lookUp.1) :
    Serves l options limit offset active (.afterSummarizing l.rows.length lookUps) := by
  unfold ActivePc.afterSummarizing
  split_ifs with hover
  · obtain ⟨summaries, hids, hresults⟩ := exists_summaries finds (List.all_eq_true.1 hover)
    rw [hresults]
    have hitems : (summaries.map some).filterMap id = summaries := by
      rw [List.filterMap_map]
      exact List.filterMap_some
    exact .returned holds rfl ((congrArg _ hitems).trans (hids.trans ids))
  · exact .summarizing holds ids finds (Bool.eq_false_iff.2 hover)

lemma serves_page {active : SortedSet WorkItemId} (holds : Holds active l.rows) :
    Serves l options limit offset active
      (.afterSummarizing l.rows.length ((l.page limit offset).map (·, .get))) := by
  refine serves_afterSummarizing holds ?_ ?_
  · rw [List.map_map]
    exact List.map_id _
  · intro lookUp hmem
    obtain ⟨w, -, rfl⟩ := List.mem_map.1 hmem
    trivial

lemma left_page (l : Listing pg) (limit offset : ℕ) :
    (ActivePc.afterSummarizing l.rows.length ((l.page limit offset).map (·, .get))).left
      l.rows.length ≤ 5 * l.rows.length := by
  refine (left_afterSummarizing _ _ _).trans ?_
  have hfive : ∀ w ∈ l.page limit offset,
      ((fun lookUp : WorkItemId × LookUpPc => lookUp.2.left) ∘ (·, .get)) w = 5 := fun _ _ => rfl
  rw [List.map_map, List.map_congr_left hfive, List.map_const', List.sum_replicate_nat, mul_comm]
  exact Nat.mul_le_mul_left 5 (l.length_page_le limit offset)

/-- Behind a range of the rows the page begins, with one look-up for each of its ids. -/
lemma afterRange_eq {cache : DashboardCache} {repopulated : Bool}
    (holds : Holds cache.active l.rows) (hlimit : 0 < limit)
    (hserve : repopulated = true ∨ l.rows ≠ []) :
    ActivePc.afterRange repopulated (some l.rows.length)
        (cacheRead (DashboardCache.zrange limit offset) .ok cache)
      = .afterSummarizing l.rows.length ((l.page limit offset).map (·, .get)) := by
  have hread : cacheRead (DashboardCache.zrange limit offset) .ok cache
      = some (l.page limit offset) := congrArg some (holds.range hlimit offset)
  have hcond : ¬ (l.rows.length = 0 ∧ repopulated = false) := by
    rintro ⟨hzero, hfirst⟩
    rcases hserve with htrue | hne
    · cases htrue.symm.trans hfirst
    · exact hne (List.length_eq_zero_iff.1 hzero)
  simp only [hread, ActivePc.afterRange, if_neg hcond]

/-- A step of one look-up keeps the ids of the page: its item is on it, so its row is there
and active. -/
lemma serves_lookUp {lookUps : List (WorkItemId × LookUpPc)} {w : WorkItemId}
    {lookUp lookUp' : LookUpPc} (hpg : st.postgres = pg) (hnamed : st.cache.Named)
    (holds : Holds st.cache.active l.rows) (ids : lookUps.map (·.1) = l.page limit offset)
    (finds : ∀ lookUp ∈ lookUps, lookUp.2.Finds l lookUp.1)
    (hlookUp : lookUps[i]? = some (w, lookUp))
    (hfind : lookUp.step w ⟨.ok, now⟩ st = some (st', lookUp')) :
    Serves l options limit offset st'.cache.active
      (.afterSummarizing l.rows.length (lookUps.set i (w, lookUp'))) := by
  have hmem := List.mem_of_getElem? hlookUp
  have hw : w ∈ l.page limit offset := ids ▸ List.mem_map_of_mem hmem
  obtain ⟨hfinds, hholds⟩ := (finds _ hmem).step hpg (Listing.exists_row_of_mem_page hw) hnamed
    holds hfind
  refine serves_afterSummarizing hholds ?_ ?_
  · refine (map_set_of_eq hlookUp ?_).trans ids
    rfl
  · intro other hother
    rcases List.mem_or_eq_of_mem_set hother with hold | rfl
    · exact finds other hold
    · exact hfinds

lemma left_set_lookUp {lookUps : List (WorkItemId × LookUpPc)} {w : WorkItemId}
    {lookUp lookUp' : LookUpPc} {rows total : ℕ} (hlookUp : lookUps[i]? = some (w, lookUp))
    (hfind : lookUp.step w ⟨.ok, now⟩ st = some (st', lookUp')) :
    (ActivePc.afterSummarizing total (lookUps.set i (w, lookUp'))).left rows
      < (ActivePc.summarizing total lookUps).left rows := by
  refine (left_afterSummarizing _ _ _).trans_lt ?_
  have hsum := sum_map_set hlookUp (w, lookUp') (·.2.left)
  have hless := left_lookUp hfind
  dsimp only [ActivePc.left] at hsum ⊢
  omega

/-- A healthy step brings the call nearer to a page of the rows. -/
lemma Serves.step (h : Serves l options limit offset st.cache.active pc) (hpg : st.postgres = pg)
    (hnamed : st.cache.Named) (hlimit : 0 < limit)
    (hstep : pc.step options limit offset i ⟨.ok, now⟩ st = some (st', pc')) :
    Serves l options limit offset st'.cache.active pc' ∧
      pc'.left l.rows.length < pc.left l.rows.length := by
  cases h with
  | zcard ready =>
    obtain ⟨rfl, rfl⟩ := Prod.mk.inj (Option.some.inj hstep)
    refine ⟨?_, Nat.lt_succ_self _⟩
    show Serves _ _ _ _ _ (.zrange false (some st.cache.active.card))
    rcases ready with cold | ⟨hne, holds⟩
    · rw [SortedSet.card, cold.empty]
      exact .zrangeCold cold
    · rw [holds.card]
      exact .zrange hne holds
  | zrangeCold cold =>
    obtain ⟨rfl, rfl⟩ := Prod.mk.inj (Option.some.inj hstep)
    exact ⟨.listing cold, Nat.lt_succ_self _⟩
  | zrange hne holds =>
    obtain ⟨rfl, rfl⟩ := Prod.mk.inj (Option.some.inj hstep)
    dsimp only
    -- the set is not empty, so its members are taken as they are
    rw [afterRange_eq holds hlimit (.inr hne)]
    refine ⟨serves_page holds, (left_page l limit offset).trans_lt ?_⟩
    simp only [ActivePc.left]
    omega
  | listing cold =>
    subst hpg
    have hreply := perform_ok_of (@Listing.listActive_eq st.postgres options)
    simp only [ActivePc.step, hreply] at hstep
    obtain ⟨rfl, rfl⟩ := Prod.mk.inj (Option.some.inj hstep)
    rw [← cold.rows]
    refine ⟨serves_afterRepopulating (filling_start cold.empty),
      (left_afterRepopulating _ _).trans_lt ?_⟩
    -- two commands for each row
    rw [l.left_upserts]
    simp only [ActivePc.left]
    omega
  | repopulating filling more =>
    obtain ⟨⟨cache, writes'⟩, hat, heq⟩ := Option.map_eq_some_iff.1 hstep
    obtain ⟨rfl, rfl⟩ := Prod.mk.inj heq
    refine ⟨serves_afterRepopulating (filling.step hat),
      (left_afterRepopulating _ _).trans_lt ?_⟩
    exact Nat.add_lt_add_left (left_cacheStepAt hat) _
  | zcardAgain holds =>
    obtain ⟨rfl, rfl⟩ := Prod.mk.inj (Option.some.inj hstep)
    refine ⟨?_, Nat.lt_succ_self _⟩
    show Serves _ _ _ _ _ (.zrange true (some st.cache.active.card))
    rw [holds.card]
    exact .zrangeAgain holds
  | zrangeAgain holds =>
    obtain ⟨rfl, rfl⟩ := Prod.mk.inj (Option.some.inj hstep)
    dsimp only
    rw [afterRange_eq holds hlimit (.inl rfl)]
    exact ⟨serves_page holds, Nat.lt_succ_of_le (left_page l limit offset)⟩
  | summarizing holds ids finds more =>
    simp only [ActivePc.step] at hstep
    split at hstep
    · cases hstep
    rename_i lookUps w lookUp hlookUp
    obtain ⟨⟨st₁, lookUp'⟩, hfind, heq⟩ := Option.map_eq_some_iff.1 hstep
    obtain ⟨rfl, rfl⟩ := Prod.mk.inj heq
    exact ⟨serves_lookUp hpg hnamed holds ids finds hlookUp hfind, left_set_lookUp hlookUp hfind⟩
  | returned holds total ids => cases hstep

/-- A call that is not over can take a step, whatever the clock shows. -/
lemma Serves.progress (h : Serves l options limit offset st.cache.active pc)
    (hover : pc.isOver = false) :
    ∃ i, ∀ now, (pc.step options limit offset i ⟨.ok, now⟩ st).isSome = true := by
  cases h with
  | repopulating filling more =>
    rename_i writes
    obtain ⟨pc, hmem, hdone⟩ := List.all_eq_false.1 more
    obtain ⟨i, hi⟩ := List.getElem?_of_mem hmem
    refine ⟨i, ?_⟩
    intro now
    have hat : (cacheStepAt .ok now st.cache i writes).isSome = true := by
      unfold cacheStepAt
      rw [hi]
      cases pc with
      | done summary => exact absurd rfl hdone
      | _ => rfl
    simpa [ActivePc.step] using hat
  | summarizing holds ids finds more =>
    rename_i lookUps
    obtain ⟨⟨w, lookUp⟩, hmem, hdone⟩ := List.all_eq_false.1 more
    obtain ⟨i, hi⟩ := List.getElem?_of_mem hmem
    refine ⟨i, ?_⟩
    intro now
    have hfind : (lookUp.step w ⟨.ok, now⟩ st).isSome = true := by
      cases lookUp with
      | get =>
        simp only [LookUpPc.step]
        split <;> rfl
      | find attempt | caching found pc => rfl
      | _ => exact absurd rfl hdone
    simpa [ActivePc.step, hi] using hfind
  | returned holds total ids => cases hover
  | _ => exact ⟨0, fun _ => rfl⟩

/-- A call that is over has returned. -/
lemma Serves.exists_page {active : SortedSet WorkItemId}
    (h : Serves l options limit offset active pc) (hover : pc.isOver = true) :
    ∃ page, pc = .returned page := by
  cases h with
  | returned holds total ids => exact ⟨_, rfl⟩
  | _ => cases hover

/-- A returned page is one of the rows. -/
lemma Serves.page {active : SortedSet WorkItemId} {page : IncidentPage}
    (h : Serves l options limit offset active (.returned page)) :
    Holds active l.rows ∧ page.total = l.rows.length ∧
      page.items.map (·.id) = l.page limit offset := by
  cases h with
  | returned holds total ids => exact ⟨holds, total, ids⟩

end

end InveniOps.Dashboard
