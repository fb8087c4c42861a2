import Mathlib.Data.List.Count
import InveniOps.Incidents.Lifecycle
import InveniOps.Lib.PagedWalk

/-!
# Walking the closed incidents

`getClosedIncidents` reads Postgres alone: a page of `listClosed`, last closed first, and the
number of closed work items, which another statement counts.  Incidents are closed between one
page and the next and push the others back, so a reader sees some twice.  A closed row keeps
its `closedAt`, so it never comes forward and no reader misses it.
-/

namespace InveniOps.Incidents

open Lib Stores WorkItems Dashboard

/-! ### The listing -/

/-- The closed work items. -/
def closedRows (t : Tables) : List WorkItem := t.workItems.filter (·.state = .CLOSED)

/-- Closed later than; in a descending order Postgres puts nulls first. -/
def ClosedLater : Option Instant → Option Instant → Prop
  | some a, some b => b < a
  | none, some _ => True
  | _, none => False

instance : DecidableRel ClosedLater
  | some a, some b => inferInstanceAs (Decidable (b < a))
  | none, some _ => .isTrue trivial
  | some _, none => .isFalse not_false
  | none, none => .isFalse not_false

lemma closedLater_irrefl (a : Option Instant) : ¬ClosedLater a a := by
  cases a with
  | none => exact not_false
  | some a => exact lt_irrefl a

lemma ClosedLater.asymm {a b : Option Instant} (h : ClosedLater a b) : ¬ClosedLater b a := by
  cases a <;> cases b
  · exact h.elim
  · exact not_false
  · exact h.elim
  · exact lt_asymm h

/-- The `orderBy` of `listClosed`. -/
def ClosedFirst (a b : WorkItem) : Prop :=
  ClosedLater a.closedAt b.closedAt ∨
    a.closedAt = b.closedAt ∧ b.updatedAt ≤ a.updatedAt

/-- The closed rows in an order that `orderBy` allows. -/
structure ListsClosed (t : Tables) (rows : List WorkItem) : Prop where
  perm : rows.Perm (closedRows t)
  sorted : rows.Pairwise ClosedFirst

/-- `getClosedIncidents`, from what its two statements read. -/
def getClosedIncidents (limit offset : ℕ) (rows : List WorkItem) (total : ℕ) : IncidentPage :=
  ⟨((rows.drop offset).take limit).map toIncidentSummary, total⟩

/-! ### Entries -/

/-- The closed work items with the instants at which they were closed. -/
def closedEntries (t : Tables) : List (WorkItemId × Option Instant) :=
  (closedRows t).map fun r => (r.id, r.closedAt)

lemma mem_closedEntries {pg : Postgres} {x : WorkItemId} {c : Option Instant} :
    (x, c) ∈ closedEntries pg.toTables ↔
      ∃ r, pg.row x = some r ∧ r.state = .CLOSED ∧ r.closedAt = c := by
  simp only [closedEntries, closedRows, List.mem_map, List.mem_filter, decide_eq_true_eq,
    Prod.mk.injEq, Postgres.row_eq_some_iff]
  constructor
  · rintro ⟨r, ⟨hmem, hclosed⟩, rfl, rfl⟩
    exact ⟨r, ⟨hmem, rfl⟩, hclosed, rfl⟩
  · rintro ⟨r, ⟨hmem, rfl⟩, hclosed, rfl⟩
    exact ⟨r, ⟨hmem, hclosed⟩, rfl, rfl⟩

lemma nodup_closedRows_ids (pg : Postgres) : ((closedRows pg.toTables).map (·.id)).Nodup :=
  pg.constraints.work_items_pkey.sublist (List.filter_sublist.map _)

lemma nodup_closedEntries (pg : Postgres) : (closedEntries pg.toTables).Nodup := by
  refine List.Nodup.of_map Prod.fst ?_
  rw [closedEntries, List.map_map]
  exact nodup_closedRows_ids pg

/-- How many closed work items were closed later than `c`. -/
def closedAfter (c : Option Instant) (t : Tables) : ℕ :=
  (closedEntries t).countP fun entry => decide (ClosedLater entry.2 c)

namespace IncidentSystem

variable {services : IncidentServices} {s s' t : IncidentSystem} {x : WorkItemId}
  {c : Option Instant}

/-- A closed work item stays closed, and stays closed at that instant. -/
lemma LifecycleInv.closedEntries_of_step (h : s.LifecycleInv) {e : IncidentEvent}
    (hstep : s.step services e = some s')
    (hmem : (x, c) ∈ closedEntries s.stores.postgres.toTables) :
    (x, c) ∈ closedEntries s'.stores.postgres.toTables := by
  obtain ⟨r, hr, hclosed, hclosedAt⟩ := mem_closedEntries.1 hmem
  rw [mem_closedEntries]
  cases postgresRuns_of_step hstep with
  | plain runs =>
    obtain ⟨signalCount, updatedAt, hr'⟩ := runs.counted hr
    exact ⟨_, hr', hclosed, hclosedAt⟩
  | @wrote call request found updated write attempt clock hcall htask commits =>
    obtain ⟨hdecided, -⟩ := h.calls call hcall request found write attempt htask
    obtain ⟨r₁, hmoved, -, -⟩ := GuardedWrite.command_ok commits
    refine ⟨r, ?_, hclosed, hclosedAt⟩
    rw [hmoved.row, if_neg, hr]
    rintro rfl
    -- no write leads away from a closed work item
    obtain rfl := Option.some.inj (hmoved.before.symm.trans hr)
    have hguard := hmoved.guard
    rw [hclosed] at hguard
    cases hdecided with
    | transition edge =>
      have hfound : found.state = .CLOSED := hguard.symm
      rw [hfound] at edge
      cases edge
    | rca => cases hguard

lemma lifecycleInv_of_run {events : List IncidentEvent} (h : s.LifecycleInv)
    (hrun : (lts services).run s events = some s') : s'.LifecycleInv :=
  Lts.run_invariant (fun _ _ _ h hstep => h.step hstep) hrun h

lemma LifecycleInv.closedEntries_of_run (h : s.LifecycleInv) {events : List IncidentEvent}
    (hrun : (lts services).run s events = some s') :
    closedEntries s.stores.postgres.toTables ⊆ closedEntries s'.stores.postgres.toTables := by
  rintro ⟨x, c⟩ hmem
  have hboth : s'.LifecycleInv ∧ (x, c) ∈ closedEntries s'.stores.postgres.toTables := by
    refine Lts.run_invariant (I := fun s => s.LifecycleInv ∧
      (x, c) ∈ closedEntries s.stores.postgres.toTables) ?_ hrun ⟨h, hmem⟩
    rintro s e s' ⟨h, hmem⟩ hstep
    exact ⟨h.step hstep, h.closedEntries_of_step hstep hmem⟩
  exact hboth.2

/-- The others are closed later and later. -/
lemma LifecycleInv.closedAfter_le (h : s.LifecycleInv) {events : List IncidentEvent}
    (hrun : (lts services).run s events = some s') (c : Option Instant) :
    closedAfter c s.stores.postgres.toTables ≤ closedAfter c s'.stores.postgres.toTables := by
  have hsubperm := (nodup_closedEntries s.stores.postgres).subperm (h.closedEntries_of_run hrun)
  exact hsubperm.countP_le fun entry => decide (ClosedLater entry.2 c)

/-! ### Positions -/

/-- A listing has a closed work item, if no other was closed at that instant, behind those
that were closed later. -/
lemma getElem?_listing {pg : Postgres} {rows : List WorkItem}
    (hlists : ListsClosed pg.toTables rows)
    (hmem : (x, c) ∈ closedEntries pg.toTables)
    (halone : ∀ entry ∈ closedEntries pg.toTables, entry.2 = c → entry = (x, c)) :
    (rows.map (·.id))[closedAfter c pg.toTables]? = some x := by
  obtain ⟨r, hr, hclosed, rfl⟩ := mem_closedEntries.1 hmem
  have hrow : r ∈ rows := by
    rw [hlists.perm.mem_iff, closedRows, List.mem_filter]
    exact ⟨Tables.row_mem hr, decide_eq_true hclosed⟩
  have hid : ∀ y ∈ rows, y.closedAt = r.closedAt → y = r := by
    intro y hy heq
    have hentry : (y.id, y.closedAt) ∈ closedEntries pg.toTables :=
      List.mem_map_of_mem (hlists.perm.mem_iff.1 hy)
    have hsame := (Prod.mk.inj (halone _ hentry heq)).1
    have hlisted := List.mem_filter.1 (hlists.perm.mem_iff.1 hy)
    have hy' : pg.row x = some y := Postgres.row_eq_some_iff.2 ⟨hlisted.1, hsame⟩
    exact Option.some.inj (hy'.symm.trans hr)
  have hnodup : rows.Nodup := by
    refine List.Nodup.of_map (·.id) ?_
    exact ((hlists.perm.map (·.id)).nodup_iff).2 (nodup_closedRows_ids pg)
  have hcount : closedAfter r.closedAt pg.toTables
      = rows.countP fun y => decide (ClosedLater y.closedAt r.closedAt) := by
    rw [closedAfter, closedEntries, List.countP_map, hlists.perm.countP_eq]
    rfl
  rw [hcount, List.getElem?_map, getElem?_countP_of_pairwise hnodup hlists.sorted hrow]
  · rw [Option.map_some, Tables.row_id hr]
  · rintro y hy hne (hlater | ⟨htie, -⟩)
    · exact decide_eq_true hlater
    · exact absurd (hid y hy htie) hne
  · rintro y hy (hearlier | ⟨htie, -⟩)
    · exact decide_eq_false hearlier.asymm
    · rw [htie]
      exact decide_eq_false (closedLater_irrefl _)
  · exact decide_eq_false (closedLater_irrefl _)

/-! ### The walk -/

/-- An answer of `getClosedIncidents`, between two states of the system.  Its `Promise.all` sends
two statements; Postgres may carry out either of them first. -/
inductive ClosedAnswer (services : IncidentServices) (limit offset : ℕ) (s : IncidentSystem) :
    IncidentPage → IncidentSystem → Prop
  | listingFirst {s₁ t : IncidentSystem} {es fs : List IncidentEvent} {rows : List WorkItem}
      (runs : (lts services).run s es = some s₁)
      (lists : ListsClosed s₁.stores.postgres.toTables rows)
      (counts : (lts services).run s₁ fs = some t) :
    ClosedAnswer services limit offset s
      (getClosedIncidents limit offset rows (closedRows t.stores.postgres.toTables).length) t
  | countFirst {s₁ t : IncidentSystem} {es fs : List IncidentEvent} {rows : List WorkItem}
      (counts : (lts services).run s es = some s₁)
      (runs : (lts services).run s₁ fs = some t)
      (lists : ListsClosed t.stores.postgres.toTables rows) :
    ClosedAnswer services limit offset s
      (getClosedIncidents limit offset rows (closedRows s₁.stores.postgres.toTables).length) t

/-- A reader of the history takes page after page; the answer whose total does not go beyond its
page is the last one. -/
inductive HistoryWalk (services : IncidentServices) (limit : ℕ) :
    ℕ → IncidentSystem → List IncidentPage → IncidentSystem → Prop
  | last {offset : ℕ} {s t : IncidentSystem} {page : IncidentPage}
      (answer : ClosedAnswer services limit offset s page t)
      (ends : page.total ≤ offset + limit) :
    HistoryWalk services limit offset s [page] t
  | more {offset : ℕ} {s s₁ t : IncidentSystem} {page : IncidentPage} {pages : List IncidentPage}
      (answer : ClosedAnswer services limit offset s page s₁)
      (rest : HistoryWalk services limit (offset + limit) s₁ pages t) :
    HistoryWalk services limit offset s (page :: pages) t

lemma ids_getClosedIncidents (limit offset : ℕ) (rows : List WorkItem) (total : ℕ) :
    (getClosedIncidents limit offset rows total).items.map (·.id)
      = ((rows.map (·.id)).drop offset).take limit := by
  rw [getClosedIncidents, List.map_map, ← List.map_drop, ← List.map_take]
  rfl

/-- The page of an answer is cut from a listing on the way. -/
lemma ClosedAnswer.listing {limit offset : ℕ} {page : IncidentPage}
    (h : ClosedAnswer services limit offset s page t) :
    ∃ s₁ es fs rows, (lts services).run s es = some s₁ ∧
      ListsClosed s₁.stores.postgres.toTables rows ∧ (lts services).run s₁ fs = some t ∧
      page.items.map (·.id) = ((rows.map (·.id)).drop offset).take limit := by
  cases h with
  | listingFirst runs lists counts =>
    exact ⟨_, _, _, _, runs, lists, counts, ids_getClosedIncidents _ _ _ _⟩
  | @countFirst _ _ es fs _ counts runs lists =>
    refine ⟨t, es ++ fs, [], _, ?_, lists, rfl, ids_getClosedIncidents _ _ _ _⟩
    rw [Lts.run_append, counts, Option.bind_some, runs]

/-- By the ids of its pages it is a walk over the closed work items, if its last total counts
all of them. -/
lemma HistoryWalk.pagedWalk {limit offset : ℕ} {pages : List IncidentPage}
    (h : HistoryWalk services limit offset s pages t)
    (hcounted : ∀ page ∈ pages.getLast?,
      (closedRows t.stores.postgres.toTables).length ≤ page.total) :
    PagedWalk (lts services)
      (fun s ids => ∃ rows, ListsClosed s.stores.postgres.toTables rows ∧ ids = rows.map (·.id))
      (fun s => (closedRows s.stores.postgres.toTables).length) limit offset s
      (pages.map fun page => page.items.map (·.id)) t := by
  induction h with
  | last answer ends =>
    obtain ⟨s₁, es, fs, rows, runs, lists, counts, hids⟩ := answer.listing
    have hall := hcounted _ (by rw [List.getLast?_singleton, Option.mem_some])
    rw [List.map_cons, List.map_nil, hids]
    exact .last runs ⟨rows, lists, rfl⟩ counts (hall.trans ends)
  | @more offset s s₁ t page pages answer rest ih =>
    obtain ⟨s₂, es, fs, rows, runs, lists, counts, hids⟩ := answer.listing
    have hcounted' : ∀ page ∈ pages.getLast?,
        (closedRows t.stores.postgres.toTables).length ≤ page.total := by
      intro last hlast
      refine hcounted last ?_
      rw [List.getLast?_cons, Option.mem_def.1 hlast]
      rfl
    rw [List.map_cons, hids]
    exact .more runs ⟨rows, lists, rfl⟩ counts (ih hcounted')

/-- In every run of the incident services, whatever is created, moved, counted and closed
between the pages and however ties are ordered, a reader who goes on until the total is
reached sees every incident that was closed when the walk began, unless another one was closed
in the same millisecond, if the last total was not counted before yet another one was closed. -/
theorem history_complete {events : List IncidentEvent} {limit : ℕ} {pages : List IncidentPage}
    (hrun : (lts services).run empty events = some s)
    (hwalk : HistoryWalk services limit 0 s pages t)
    (hcounted : ∀ page ∈ pages.getLast?,
      (closedRows t.stores.postgres.toTables).length ≤ page.total)
    (hclosed : (x, c) ∈ closedEntries s.stores.postgres.toTables)
    (halone : ∀ entry ∈ closedEntries t.stores.postgres.toTables, entry.2 = c → entry = (x, c)) :
    ∃ page ∈ pages, x ∈ page.items.map (·.id) := by
  have hs : s.LifecycleInv := lifecycleInv_of_run lifecycleInv_empty hrun
  have hlasts : ∀ s' es fs, (lts services).run s es = some s' → (lts services).run s' fs = some t →
      PagedWalk.Lasts (lts services) (fun s ids => ∃ rows,
        ListsClosed s.stores.postgres.toTables rows ∧ ids = rows.map (·.id))
        (fun s => (closedRows s.stores.postgres.toTables).length)
        (fun s => closedAfter c s.stores.postgres.toTables) x t s' := by
    intro s' es fs hes hfs
    have hs' := lifecycleInv_of_run hs hes
    have hmem := hs.closedEntries_of_run hes hclosed
    have halone' : ∀ entry ∈ closedEntries s'.stores.postgres.toTables, entry.2 = c →
        entry = (x, c) :=
      fun entry hentry => halone entry (hs'.closedEntries_of_run hfs hentry)
    constructor
    · rintro l ⟨rows, hlists, rfl⟩
      exact getElem?_listing hlists hmem halone'
    · -- the entry itself was not closed later
      have hlength : (closedEntries s'.stores.postgres.toTables).length
          = (closedRows s'.stores.postgres.toTables).length := List.length_map _
      rw [← hlength, closedAfter, List.countP_lt_length_iff]
      exact ⟨(x, c), hmem, decide_eq_false (closedLater_irrefl _)⟩
    · rintro es s'' hes'' -
      exact hs'.closedAfter_le hes'' c
  obtain ⟨ids, hids, hx⟩ := PagedWalk.exists_mem hlasts (hwalk.pagedWalk hcounted) (Nat.zero_le _)
  obtain ⟨page, hpage, rfl⟩ := List.mem_map.1 hids
  exact ⟨page, hpage, hx⟩

/-- `w` has been closed, and a reader asks for its page. -/
theorem history_complete_of_closedEvents : ∃ (s : IncidentSystem) (pages : List IncidentPage),
    (lts .standard).run empty closedEvents = some s ∧
      HistoryWalk .standard 25 0 s pages s ∧ ∃ page ∈ pages, "w" ∈ page.items.map (·.id) := by
  have hentries : ((lts .standard).run empty closedEvents).map
      (fun s => closedEntries s.stores.postgres.toTables) = some [("w", some 5000)] := by
    decide +kernel
  obtain ⟨s, hrun, hs⟩ := Option.map_eq_some_iff.1 hentries
  obtain ⟨r, hr⟩ : ∃ r, closedRows s.stores.postgres.toTables = [r] := by
    rw [← List.length_eq_one_iff, ← List.length_map (f := fun r => (r.id, r.closedAt))]
    exact congrArg List.length hs
  have hlists : ListsClosed s.stores.postgres.toTables [r] :=
    ⟨by rw [hr], List.pairwise_singleton _ _⟩
  have hquiet : (lts .standard).run s [] = some s := rfl
  have hanswer : ClosedAnswer .standard 25 0 s _ s := .listingFirst hquiet hlists hquiet
  have hwalk : HistoryWalk .standard 25 0 s _ s :=
    .last hanswer (by simp [getClosedIncidents, hr])
  refine ⟨s, _, hrun, hwalk, history_complete (c := some 5000) hrun hwalk ?_ ?_ ?_⟩
  · rintro page hpage
    rw [← Option.some.inj hpage]
    exact le_rfl
  · rw [hs]
    exact List.mem_singleton_self _
  · intro entry hentry _
    rw [hs] at hentry
    exact List.mem_singleton.1 hentry

/-- A second work item `v` lives from its creation to its closing. -/
def otherClosedEvents : List IncidentEvent :=
  .createWorkItem ⟨none, "cache-2", .CACHE, .P1, "cache-2 is failing", 1000, some 0⟩ "v"
      ⟨.ok, 5100⟩ ::
    callEvents 4 (.workflow (.transitionWorkItem "v" .INVESTIGATING "operator" 5200)) 5200 5
    ++ callEvents 5 (.workflow (.transitionWorkItem "v" .RESOLVED "operator" 5300)) 5300 5
    ++ callEvents 6 (.workflow (.submitIncidentRca "v" rcaBody "operator" 6000)) 6000 5

/-- Where `v` is closed behind the count of the only page, which has room for one row, the
reader stops and never sees `w`. -/
theorem closed_incident_missed : ∃ (s t : IncidentSystem) (pages : List IncidentPage),
    (lts .standard).run empty closedEvents = some s ∧ HistoryWalk .standard 1 0 s pages t ∧
      ("w", some 5000) ∈ closedEntries s.stores.postgres.toTables ∧
      (∀ entry ∈ closedEntries t.stores.postgres.toTables, entry.2 = some 5000 →
        entry = ("w", some 5000)) ∧
      ∀ page ∈ pages, "w" ∉ page.items.map (·.id) := by
  have hobserved : ((lts .standard).run empty closedEvents).bind (fun s =>
      ((lts .standard).run s otherClosedEvents).map fun t =>
        (closedEntries s.stores.postgres.toTables, closedEntries t.stores.postgres.toTables))
      = some ([("w", some 5000)], [("w", some 5000), ("v", some 6000)]) := by
    decide +kernel
  obtain ⟨s, hrun, hs⟩ := Option.bind_eq_some_iff.1 hobserved
  obtain ⟨t, hother, hboth⟩ := Option.map_eq_some_iff.1 hs
  obtain ⟨hbefore, hafter⟩ := Prod.mk.inj hboth
  obtain ⟨w, v, hrows, hw, hv⟩ : ∃ w v, closedRows t.stores.postgres.toTables = [w, v] ∧
      (w.id, w.closedAt) = ("w", some 5000) ∧ (v.id, v.closedAt) = ("v", some 6000) := by
    obtain ⟨w, rest, hrows, hw, hrest⟩ := List.map_eq_cons_iff.1 hafter
    obtain ⟨v, none, rfl, hv, hnone⟩ := List.map_eq_cons_iff.1 hrest
    rw [List.map_eq_nil_iff.1 hnone] at hrows
    exact ⟨w, v, hrows, hw, hv⟩
  have hlists : ListsClosed t.stores.postgres.toTables [v, w] := by
    constructor
    · rw [hrows]
      exact .swap w v []
    · rw [List.pairwise_pair]
      left
      rw [(Prod.mk.inj hv).2, (Prod.mk.inj hw).2]
      show (5000 : ℤ) < 6000
      omega
  have hlength : (closedRows s.stores.postgres.toTables).length = 1 := by
    rw [← List.length_map (f := fun r => (r.id, r.closedAt))]
    exact congrArg List.length hbefore
  have hquiet : (lts .standard).run s [] = some s := rfl
  refine ⟨s, t, _, hrun, .last (.countFirst hquiet hother hlists) hlength.le, ?_, ?_, ?_⟩
  · rw [hbefore]
    exact List.mem_singleton_self _
  · rw [hafter]
    simp
  · rintro page hpage
    obtain rfl := List.mem_singleton.1 hpage
    rw [ids_getClosedIncidents]
    simp [(Prod.mk.inj hv).1]

end IncidentSystem

end InveniOps.Incidents
