import InveniOps.Dashboard.ActivePages
import InveniOps.Incidents.CachedRows
import InveniOps.Incidents.GhostIncidents

/-!
# Walking the pages of active incidents

A reader fetches one page after another while nothing is written: neither Postgres
nor the active incidents in the cache change but by the reader's own calls.  If the
active incidents are empty when the walk begins, its pages are those of the rows
that the repopulation enters, at most as many as the cap; if they are the active
work items, its pages are those of all of them.
-/

namespace InveniOps.Incidents

open Lib Stores WorkItems Dashboard

namespace IncidentSystem

variable (services : IncidentServices) (limit : ℕ)

/-- The event changes neither Postgres nor the active incidents. -/
def WritesNothing (s : IncidentSystem) (e : IncidentEvent) : Prop :=
  ∀ s', s.step services e = some s' →
    s'.stores.postgres = s.stores.postgres ∧ s'.stores.cache.active = s.stores.cache.active

/-- The `k`-th call takes a step on healthy stores, or nothing is written. -/
def Undisturbed (k : ℕ) (s : IncidentSystem) (e : IncidentEvent) : Prop :=
  if e.isStepOf k then e.Healthy else s.WritesNothing services e

/-- A call of `getActiveIncidents` starts and runs undisturbed. -/
def Fetching (offset : ℕ) (s : IncidentSystem) (events : List IncidentEvent)
    (s' : IncidentSystem) : Prop :=
  ∃ s₁, s.step services (.start (.getActiveIncidents limit offset)) = some s₁ ∧
    (lts services).Meets (Undisturbed services s.calls.length) s₁ events ∧
    (lts services).run s₁ events = some s'

/-- The `k`-th call is one of `getActiveIncidents`, at `pc`. -/
def CallAt (s : IncidentSystem) (k offset : ℕ) (pc : ActivePc) : Prop :=
  ∃ effects, s.calls[k]? = some ⟨.getActiveIncidents limit offset pc, effects⟩

/-- The pages from an offset on, each fetched by an undisturbed call. -/
inductive Walk : ℕ → IncidentSystem → List IncidentPage → IncidentSystem → Prop
  | nil {offset : ℕ} {s : IncidentSystem} : Walk offset s [] s
  | cons {offset : ℕ} {s s₁ s' : IncidentSystem} {events : List IncidentEvent}
      {page : IncidentPage} {pages : List IncidentPage}
      (fetching : Fetching services limit offset s events s₁)
      (returned : CallAt limit s₁ s.calls.length offset (.returned page))
      (rest : Walk (offset + limit) s₁ pages s') : Walk offset s (page :: pages) s'

/-- However the commands of an undisturbed call follow each other, it returns a page
behind a bounded number of steps. -/
def Returns (offset : ℕ) (s : IncidentSystem) : Prop :=
  ∃ bound, ∀ events s', Fetching services limit offset s events s' →
    events.countP (·.isStepOf s.calls.length) ≤ bound ∧
      ((∃ page, CallAt limit s' s.calls.length offset (.returned page)) ∨
        ∃ i, ∀ now, (s'.step services (.step s.calls.length i ⟨.ok, now⟩)).isSome = true)

/-- A walk shows the rows: every page reports their number, and enough pages contain
each of them once. -/
structure WalksOver (s : IncidentSystem) (rows : List WorkItem) : Prop where
  returns : ∀ pages s₁, Walk services limit 0 s pages s₁ →
    Returns services limit (pages.length * limit) s₁
  walks : ∀ n, ∃ pages s₁, Walk services limit 0 s pages s₁ ∧ pages.length = n
  total : ∀ pages s₁, Walk services limit 0 s pages s₁ → ∀ page ∈ pages,
    page.total = rows.length
  once : ∀ pages s₁, Walk services limit 0 s pages s₁ → rows.length ≤ pages.length * limit →
    (pages.flatMap fun page => page.items.map (·.id)).Nodup ∧
      (pages.flatMap fun page => page.items.map (·.id)).Perm (rows.map (·.id))

variable {services limit} {s s' : IncidentSystem} {pg : Postgres} {l : Listing pg}
  {offset k : ℕ} {pc : ActivePc}

/-! ### One call -/

/-- The call is on its way to a page of the rows. -/
structure Serving (services : IncidentServices) (limit : ℕ) (l : Listing pg) (k offset : ℕ)
    (s : IncidentSystem) (pc : ActivePc) : Prop where
  postgres : s.stores.postgres = pg
  cached : s.CachedInv
  call : CallAt limit s k offset pc
  serves : Serves l services.projection limit offset s.stores.cache.active pc

/-- A call stays as it is while others take steps. -/
lemma CallAt.of_step (h : CallAt limit s k offset pc) {e : IncidentEvent}
    (he : e.isStepOf k = false) (hstep : s.step services e = some s') :
    CallAt limit s' k offset pc := by
  obtain ⟨effects, hcall⟩ := h
  exact ⟨effects, calls_of_other he hcall hstep⟩

/-- An undisturbed event keeps the call on its way; its own steps bring it nearer. -/
lemma Serving.step (h : Serving services limit l k offset s pc) (hlimit : 0 < limit)
    {e : IncidentEvent} (he : s.Undisturbed services k e) (hstep : s.step services e = some s') :
    ∃ pc', Serving services limit l k offset s' pc' ∧
      pc'.left l.rows.length + (if e.isStepOf k then 1 else 0) ≤ pc.left l.rows.length := by
  have hcached := h.cached.step hstep
  unfold Undisturbed at he
  split_ifs at he ⊢ with hown
  · cases e with
    | step j i io =>
      obtain rfl : j = k := by simpa [IncidentEvent.isStepOf] using hown
      obtain ⟨effects, hcall⟩ := h.call
      obtain ⟨call, step, hcall', htask, rfl⟩ := step_step_inv hstep
      obtain rfl := Option.some.inj (hcall.symm.trans hcall')
      obtain ⟨⟨st, pc'⟩, hpc, rfl⟩ := Option.map_eq_some_iff.1 htask
      obtain ⟨outcome, now⟩ := io
      obtain rfl : outcome = .ok := he
      -- a step of the call itself
      obtain ⟨hserves, hleft⟩ := h.serves.step h.postgres h.cached.named hlimit hpc
      have hcallAt : CallAt limit (s.onStep j ⟨.getActiveIncidents limit offset pc, effects⟩
          ⟨st, .getActiveIncidents limit offset pc', []⟩) j offset pc' :=
        ⟨_, getElem?_set_self_of hcall _⟩
      exact ⟨pc', ⟨(postgres_of_active hpc).trans h.postgres, hcached, hcallAt, hserves⟩, hleft⟩
    | _ => cases hown
  · -- another call, or an event of the stores, that writes nothing
    obtain ⟨hpg, hactive⟩ := he s' hstep
    have hcallAt := h.call.of_step (Bool.eq_false_iff.2 hown) hstep
    exact ⟨pc, ⟨hpg.trans h.postgres, hcached, hcallAt, hactive ▸ h.serves⟩, le_rfl⟩

/-- A call that has not returned can take a step. -/
lemma Serving.progress (h : Serving services limit l k offset s pc) :
    (∃ page, pc = .returned page) ∨
      ∃ i, ∀ now, (s.step services (.step k i ⟨.ok, now⟩)).isSome = true := by
  cases hover : pc.isOver with
  | true => exact .inl (h.serves.exists_page hover)
  | false =>
    obtain ⟨i, hi⟩ := h.serves.progress hover
    obtain ⟨effects, hcall⟩ := h.call
    refine .inr ⟨i, ?_⟩
    intro now
    simpa [IncidentSystem.step, hcall, Task.step] using hi now

/-- The call is on its way, and has so many steps left at most. -/
def Nearing (services : IncidentServices) (limit : ℕ) (l : Listing pg) (k offset n : ℕ)
    (s : IncidentSystem) : Prop :=
  ∃ pc, Serving services limit l k offset s pc ∧ pc.left l.rows.length ≤ n

lemma Nearing.step {n : ℕ} (hlimit : 0 < limit) (h : Nearing services limit l k offset n s)
    {e : IncidentEvent} (he : s.Undisturbed services k e) (hstep : s.step services e = some s') :
    ∃ m, Nearing services limit l k offset m s' ∧ m + (if e.isStepOf k then 1 else 0) ≤ n := by
  obtain ⟨pc, hserving, hleft⟩ := h
  obtain ⟨pc', hserving', hle⟩ := hserving.step hlimit he hstep
  exact ⟨_, ⟨pc', hserving', le_rfl⟩, hle.trans hleft⟩

/-- Outside of its goal a call can take a step of its own. -/
lemma Nearing.progress {n : ℕ} (hlimit : 0 < limit) (h : Nearing services limit l k offset n s) :
    (∃ page, CallAt limit s k offset (.returned page)) ∨
      ∃ e s' m, s.Undisturbed services k e ∧ (lts services).step s e = some s' ∧
        Nearing services limit l k offset m s' ∧ m < n := by
  obtain ⟨pc, hserving, hleft⟩ := h
  rcases hserving.progress with ⟨page, rfl⟩ | ⟨i, hi⟩
  · exact .inl ⟨page, hserving.call⟩
  · obtain ⟨s', hs'⟩ := Option.isSome_iff_exists.1 (hi 0)
    have hown : (IncidentEvent.step k i ⟨.ok, 0⟩).isStepOf k = true := beq_self_eq_true k
    have he : s.Undisturbed services k (.step k i ⟨.ok, 0⟩) := by
      rw [Undisturbed, if_pos hown]
      rfl
    obtain ⟨m, hm, hle⟩ := Nearing.step hlimit ⟨pc, hserving, hleft⟩ he hs'
    rw [if_pos hown] at hle
    exact .inr ⟨_, s', m, he, hs', hm, hle⟩

/-! ### One page after another -/

/-- Between two pages. -/
structure Walking (services : IncidentServices) (l : Listing pg) (s : IncidentSystem) :
    Prop where
  postgres : s.stores.postgres = pg
  cached : s.CachedInv
  ready : Ready l services.projection s.stores.cache.active

namespace Walking

lemma start (h : Walking services l s)
    (hstart : s.step services (.start (.getActiveIncidents limit offset)) = some s') :
    Nearing services limit l s.calls.length offset (7 * l.rows.length + 6) s' := by
  have hcached := h.cached.step hstart
  obtain rfl := Option.some.inj hstart
  refine ⟨.zcard false, ⟨h.postgres, hcached, ⟨[], ?_⟩, .zcard h.ready⟩, le_rfl⟩
  exact List.getElem?_concat_length

/-- The call that fetches a page is on its way to it. -/
lemma nearing (h : Walking services l s) (hlimit : 0 < limit) {events : List IncidentEvent}
    (hfetching : Fetching services limit offset s events s') :
    ∃ n, Nearing services limit l s.calls.length offset n s' ∧
      n + events.countP (·.isStepOf s.calls.length) ≤ 7 * l.rows.length + 6 := by
  obtain ⟨s₁, hstart, hmeets, hrun⟩ := hfetching
  exact Lts.countP_le_variant (fun _ _ _ _ hn he hstep => hn.step hlimit he hstep) hrun hmeets
    (h.start hstart)

lemma returns (h : Walking services l s) (hlimit : 0 < limit) (offset : ℕ) :
    Returns services limit offset s := by
  refine ⟨7 * l.rows.length + 6, ?_⟩
  intro events s' hfetching
  obtain ⟨n, ⟨pc, hserving, -⟩, hle⟩ := h.nearing hlimit hfetching
  refine ⟨le_trans (Nat.le_add_left _ _) hle, hserving.progress.imp_left ?_⟩
  rintro ⟨page, rfl⟩
  exact ⟨page, hserving.call⟩

lemma exists_fetching (h : Walking services l s) (hlimit : 0 < limit) (offset : ℕ) :
    ∃ events s' page, Fetching services limit offset s events s' ∧
      CallAt limit s' s.calls.length offset (.returned page) := by
  obtain ⟨s₁, hstart⟩ : ∃ s₁, s.step services (.start (.getActiveIncidents limit offset))
      = some s₁ := ⟨_, rfl⟩
  obtain ⟨events, s', -, hrun, hmeets, -, page, hpage⟩ :=
    Lts.exists_run_of_variant (fun _ _ hn => hn.progress hlimit) (h.start hstart)
  exact ⟨events, s', page, ⟨s₁, hstart, hmeets, hrun⟩, hpage⟩

/-- A fetched page is one of the rows, and the walk can go on. -/
lemma page (h : Walking services l s) (hlimit : 0 < limit) {events : List IncidentEvent}
    (hfetching : Fetching services limit offset s events s') {page : IncidentPage}
    (hpage : CallAt limit s' s.calls.length offset (.returned page)) :
    page.total = l.rows.length ∧ page.items.map (·.id) = l.page limit offset ∧
      Walking services l s' := by
  obtain ⟨n, ⟨pc, hserving, -⟩, -⟩ := h.nearing hlimit hfetching
  obtain ⟨effects, hcall⟩ := hpage
  obtain ⟨effects', hcall'⟩ := hserving.call
  -- the call is at one point only
  obtain rfl : pc = .returned page := by
    have hsame := Option.some.inj (hcall'.symm.trans hcall)
    cases hsame
    rfl
  obtain ⟨hholds, htotal, hids⟩ := hserving.serves.page
  exact ⟨htotal, hids, hserving.postgres, hserving.cached, h.ready.of_holds hholds⟩

end Walking

/-- The pages of a walk are consecutive parts of the rows. -/
lemma Walk.pages {pages : List IncidentPage} (h : Walk services limit offset s pages s')
    (hwalking : Walking services l s) (hlimit : 0 < limit) :
    Walking services l s' ∧ (∀ page ∈ pages, page.total = l.rows.length) ∧
      (pages.flatMap fun page => page.items.map (·.id))
        = (l.ids.drop offset).take (pages.length * limit) := by
  induction h with
  | nil =>
    refine ⟨hwalking, fun page hpage => (nomatch hpage), ?_⟩
    rw [List.length_nil, Nat.zero_mul]
    rfl
  | @cons offset s s₁ s' events page pages fetching returned rest ih =>
    obtain ⟨htotal, hids, hnext⟩ := hwalking.page hlimit fetching returned
    obtain ⟨hlast, htotals, hrest⟩ := ih hnext
    refine ⟨hlast, List.forall_mem_cons.2 ⟨htotal, htotals⟩, ?_⟩
    rw [List.flatMap_cons, hids, hrest, Listing.page, List.length_cons, Nat.add_one_mul,
      Nat.add_comm (pages.length * limit) limit, List.take_add, List.drop_drop]

lemma Walking.exists_walk (h : Walking services l s) (hlimit : 0 < limit) (n offset : ℕ) :
    ∃ pages s', Walk services limit offset s pages s' ∧ pages.length = n := by
  induction n generalizing s offset with
  | zero => exact ⟨[], s, .nil, rfl⟩
  | succ n ih =>
    obtain ⟨events, s₁, page, hfetching, hpage⟩ := h.exists_fetching hlimit offset
    obtain ⟨-, -, hnext⟩ := h.page hlimit hfetching hpage
    obtain ⟨pages, s', hrest, hlength⟩ := ih hnext (offset + limit)
    exact ⟨page :: pages, s', .cons hfetching hpage hrest, congrArg (· + 1) hlength⟩

lemma Walking.walksOver (h : Walking services l s) (hlimit : 0 < limit) :
    WalksOver services limit s l.rows where
  returns pages s₁ hwalk := (hwalk.pages h hlimit).1.returns hlimit _
  walks n := h.exists_walk hlimit n 0
  total pages s₁ hwalk := (hwalk.pages h hlimit).2.1
  once pages s₁ hwalk hlength := by
    obtain ⟨-, -, hids⟩ := hwalk.pages h hlimit
    have hall : (pages.flatMap fun page => page.items.map (·.id)) = l.ids := by
      rw [hids, List.drop_zero, List.take_of_length_le (l.length_ids.trans_le hlength)]
    rw [hall]
    exact ⟨l.ids_perm.nodup_iff.2 l.nodup, l.ids_perm⟩

/-! ### Reachable states -/

lemma WalksOver.of_perm {rows rows' : List WorkItem} (h : WalksOver services limit s rows)
    (hperm : rows.Perm rows') : WalksOver services limit s rows' where
  returns := h.returns
  walks := h.walks
  total pages s₁ hwalk page hpage := (h.total pages s₁ hwalk page hpage).trans hperm.length_eq
  once pages s₁ hwalk hlength := by
    obtain ⟨hnodup, hids⟩ := h.once pages s₁ hwalk (hperm.length_eq.trans_le hlength)
    exact ⟨hnodup, hids.trans (hperm.map _)⟩

/-- A walk reports one number of rows. -/
lemma WalksOver.length_eq {rows rows' : List WorkItem} (h : WalksOver services limit s rows)
    (h' : WalksOver services limit s rows') : rows.length = rows'.length := by
  obtain ⟨pages, s₁, hwalk, hlength⟩ := h.walks 1
  obtain ⟨page, rfl⟩ := List.length_eq_one_iff.1 hlength
  have hpage := List.mem_singleton_self page
  exact (h.total _ s₁ hwalk page hpage).symm.trans (h'.total _ s₁ hwalk page hpage)

lemma isActive_iff {w : WorkItemId} :
    s.IsActive w ↔ ∃ r ∈ s.stores.postgres.active, r.id = w := by
  simp only [IsActive, Postgres.row_eq_some_iff, Tables.active, List.mem_filter,
    decide_eq_true_eq]
  constructor
  · rintro ⟨r, ⟨hmem, hid⟩, hactive⟩
    exact ⟨r, ⟨hmem, hactive⟩, hid⟩
  · rintro ⟨r, ⟨hmem, hactive⟩, hid⟩
    exact ⟨r, ⟨hmem, hid⟩, hactive⟩

/-- The score of a member is that of its row. -/
lemma CachedInv.entry_eq (h : s.CachedInv) {entry : WorkItemId × ℤ}
    (hentry : entry ∈ s.stores.cache.active.entries) {r : WorkItem}
    (hr : s.stores.postgres.row entry.1 = some r) : entry = entryOf r := by
  obtain ⟨origin, horigin, hscore⟩ := h.scores entry hentry
  obtain rfl := Option.some.inj ((Postgres.originOf_of_row hr).symm.trans horigin)
  exact Prod.ext (Tables.row_id hr).symm hscore

/-- If the members are the active work items, the entries are those of their rows. -/
lemma CachedInv.holds (h : s.CachedInv)
    (hmembers : ∀ w, w ∈ s.stores.cache.active.members ↔ s.IsActive w) :
    Holds s.stores.cache.active s.stores.postgres.active := by
  have hrow : ∀ r ∈ s.stores.postgres.active, s.stores.postgres.row r.id = some r :=
    fun r hr => ((Listing.all s.stores.postgres).active r hr).1
  intro entry
  constructor
  · intro hentry
    obtain ⟨r, hr, hid⟩ := isActive_iff.1 ((hmembers _).1 (List.mem_map_of_mem hentry))
    rw [h.entry_eq hentry (hid ▸ hrow r hr)]
    exact List.mem_map_of_mem hr
  · intro hentry
    obtain ⟨r, hr, rfl⟩ := List.mem_map.1 hentry
    obtain ⟨entry, hentry, hid⟩ := List.mem_map.1 ((hmembers r.id).2 (isActive_iff.2 ⟨r, hr, rfl⟩))
    have hsame : entry = entryOf r := h.entry_eq hentry (hid ▸ hrow r hr)
    exact hsame ▸ hentry

/-- When the walk begins with no active incident cached it is over the rows that the
repopulation enters; these are all, unless the cap leaves some out.  When it begins
with the active work items cached it is over all of them. -/
theorem walks_of_run {events : List IncidentEvent}
    (hrun : (lts services).run empty events = some s) (hlimit : 0 < limit) :
    (s.stores.cache.active.members = [] → ∃ rows,
      Postgres.listActive services.projection.repopulateCap 0 s.stores.postgres
          = .ok (rows, s.stores.postgres) ∧
        rows.length = min services.projection.repopulateCap s.stores.postgres.active.length ∧
        WalksOver services limit s rows) ∧
      (s.stores.cache.active.members = [] ∧
          s.stores.postgres.active.length ≤ services.projection.repopulateCap ∨
        (∀ w, w ∈ s.stores.cache.active.members ↔ s.IsActive w) →
      WalksOver services limit s s.stores.postgres.active) := by
  have hcached := cachedInv_of_run hrun
  have hcold : s.stores.cache.active.members = [] →
      WalksOver services limit s (Listing.first s.stores.postgres services.projection).rows :=
    fun hempty => Walking.walksOver ⟨rfl, hcached, .inl ⟨List.map_eq_nil_iff.1 hempty, rfl⟩⟩ hlimit
  refine ⟨fun hempty => ⟨_, Listing.listActive_eq _, Listing.length_first _, hcold hempty⟩, ?_⟩
  have hall : s.stores.cache.active.members = [] ∧
      s.stores.postgres.active.length ≤ services.projection.repopulateCap →
      WalksOver services limit s s.stores.postgres.active :=
    fun ⟨hempty, hcap⟩ => (hcold hempty).of_perm (Listing.first_perm hcap)
  rintro (hfits | hmembers)
  · exact hall hfits
  · by_cases hnone : s.stores.postgres.active = []
    · -- nothing is active, so nothing is cached
      refine hall ⟨List.eq_nil_iff_forall_not_mem.2 ?_, ?_⟩
      · intro w hw
        obtain ⟨r, hr, -⟩ := isActive_iff.1 ((hmembers w).1 hw)
        rw [hnone] at hr
        cases hr
      · rw [hnone]
        exact Nat.zero_le _
    · have hwalking : Walking services (Listing.all s.stores.postgres) s :=
        ⟨rfl, hcached, .inr ⟨hnone, hcached.holds hmembers⟩⟩
      exact hwalking.walksOver hlimit

/-- Two work items appear. -/
def createdEvents : List IncidentEvent := [itemCreated, otherCreated]

/-- The dashboard enters both work items. -/
def enteredEvents : List IncidentEvent :=
  createdEvents ++ callEvents 0 (.getActiveIncidents 10 0) 2000 5
    ++ List.replicate 2 (.step 0 1 ⟨.ok, 2000⟩)

theorem walks_of_createdEvents :
    (∃ s, (lts .standard).run empty createdEvents = some s ∧
      WalksOver .standard 1 s s.stores.postgres.active) ∧
    ∃ s, (lts .standard).run empty enteredEvents = some s ∧
      s.stores.cache.active.members = ["w", "v"] ∧
      WalksOver .standard 1 s s.stores.postgres.active := by
  have hcold : ((lts .standard).run empty createdEvents).map
      (fun s => decide (s.stores.cache.active.members = [] ∧
        s.stores.postgres.active.length ≤ 1000)) = some true := by
    decide +kernel
  have hwarm : ((lts .standard).run empty enteredEvents).map
      (fun s => decide (s.stores.cache.active.members = ["w", "v"] ∧
        s.stores.postgres.active.map (·.id) = ["w", "v"])) = some true := by
    decide +kernel
  constructor
  · obtain ⟨s, hrun, hs⟩ := Option.map_eq_some_iff.1 hcold
    exact ⟨s, hrun, (walks_of_run hrun one_pos).2 (.inl (of_decide_eq_true hs))⟩
  · obtain ⟨s, hrun, hs⟩ := Option.map_eq_some_iff.1 hwarm
    obtain ⟨hmembers, hids⟩ := of_decide_eq_true hs
    refine ⟨s, hrun, hmembers, (walks_of_run hrun one_pos).2 (.inr ?_)⟩
    intro w
    rw [hmembers, ← hids, List.mem_map, isActive_iff]

/-- Behind a flush one item is looked up, and cached. -/
def lookedUpEvents : List IncidentEvent :=
  createdEvents ++ .cacheFlushed :: callEvents 0 (.getIncidentDetail "w") 2000 4

/-- A walk misses an active work item beyond the cap, and one that another look-up has
left the only one that is not cached. -/
theorem active_item_missed :
    (¬ ∀ events s limit, (lts ⟨IncidentServices.standard.workflow, ⟨1⟩⟩).run empty events = some s →
      0 < limit → WalksOver ⟨IncidentServices.standard.workflow, ⟨1⟩⟩ limit s
        s.stores.postgres.active) ∧
    ¬ ∀ events s limit, (lts .standard).run empty events = some s → 0 < limit →
      WalksOver .standard limit s s.stores.postgres.active := by
  constructor
  · intro hclaim
    have hobserved : ((lts ⟨IncidentServices.standard.workflow, ⟨1⟩⟩).run empty createdEvents).map
        (fun s => decide (s.stores.cache.active.entries = [] ∧
          s.stores.postgres.active.length = 2)) = some true := by
      decide +kernel
    obtain ⟨s, hrun, hs⟩ := Option.map_eq_some_iff.1 hobserved
    obtain ⟨hempty, htwo⟩ := of_decide_eq_true hs
    have hwalking : Walking ⟨IncidentServices.standard.workflow, ⟨1⟩⟩
        (Listing.first s.stores.postgres ⟨1⟩) s := ⟨rfl, cachedInv_of_run hrun, .inl ⟨hempty, rfl⟩⟩
    have hlength := (hwalking.walksOver one_pos).length_eq (hclaim _ s 1 hrun one_pos)
    rw [Listing.length_first, htwo] at hlength
    cases hlength
  · intro hclaim
    have hobserved : ((lts .standard).run empty lookedUpEvents).map
        (fun s => decide (s.stores.cache.active.members = ["w"] ∧ s.IsActive "w" ∧
          s.stores.postgres.active.length = 2)) = some true := by
      decide +kernel
    obtain ⟨s, hrun, hs⟩ := Option.map_eq_some_iff.1 hobserved
    obtain ⟨hmembers, ⟨r, hr, hactive⟩, htwo⟩ := of_decide_eq_true hs
    have hcached := cachedInv_of_run hrun
    -- the only entry is that of the row that was looked up
    obtain ⟨entry, hentries, hid⟩ := List.map_eq_singleton_iff.1 hmembers
    obtain rfl : entry = entryOf r :=
      hcached.entry_eq (hentries ▸ List.mem_singleton_self entry) (hid.symm ▸ hr)
    have hholds : Holds s.stores.cache.active [r] := fun entry => by
      rw [hentries]
      exact Iff.rfl
    have hwalking : Walking .standard (Listing.single (hid.symm ▸ hr) hactive) s :=
      ⟨rfl, hcached, .inr ⟨List.cons_ne_nil _ _, hholds⟩⟩
    have hlength := (hwalking.walksOver one_pos).length_eq (hclaim _ s 1 hrun one_pos)
    rw [htwo] at hlength
    cases hlength

end IncidentSystem

end InveniOps.Incidents
