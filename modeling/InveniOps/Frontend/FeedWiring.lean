import InveniOps.Frontend.LiveFeed

/-!
# What the refs of the live feed point at

The provider forgets every timer, event source and read that no ref points at.
These are the invariants that make this safe: whatever is armed, open or in
flight is the one behind its ref.
-/

namespace InveniOps.Frontend

open Lib

/-! ### Timers -/

/-- The ref that holds the id of a timer. -/
inductive Owner (reconnect refetch poll : Option ℕ) (x : Timer FeedTask) : Prop
  | reconnect (task : x.task = .connectSse) (every : x.every = none) (id : reconnect = some x.id)
  | refetch (task : x.task = .fetchList) (every : x.every = none) (id : refetch = some x.id)
  | poll (task : x.task = .fetchList) (every : x.every = some POLL_INTERVAL_MS)
      (id : poll = some x.id)

/-- Every timer that is armed has its id in the ref of its kind. -/
structure Owned (T : Timers FeedTask) (reconnect refetch poll : Option ℕ) : Prop where
  fresh : T.Fresh
  lt_next : ∀ i, reconnect = some i ∨ refetch = some i ∨ poll = some i → i < T.next
  apart : ∀ i, (reconnect = some i → refetch ≠ some i ∧ poll ≠ some i) ∧
    (refetch = some i → poll ≠ some i)
  owner : ∀ x ∈ T.pending, Owner reconnect refetch poll x
  polls : ∀ i, poll = some i → ∃ x ∈ T.pending, x.id = i ∧ x.every = some POLL_INTERVAL_MS

namespace Owned

variable {T : Timers FeedTask} {reconnect refetch poll : Option ℕ}

lemma start : Owned .start none none none := by
  refine ⟨Timers.Fresh.start, ?_, ?_, ?_, ?_⟩ <;> simp [Timers.start]

lemma pass (h : Owned T reconnect refetch poll) (ms : ℕ) :
    Owned (T.pass ms) reconnect refetch poll :=
  ⟨h.fresh.pass ms, h.lt_next, h.apart, h.owner, h.polls⟩

lemma clear_reconnect (h : Owned T reconnect refetch poll) :
    Owned (T.clear reconnect) reconnect refetch poll := by
  refine ⟨h.fresh.clear _, h.lt_next, h.apart, ?_, ?_⟩
  · intro x hx
    exact h.owner x (Timers.mem_clear.1 hx).1
  · intro i hi
    obtain ⟨x, hx, rfl, hevery⟩ := h.polls i hi
    refine ⟨x, Timers.mem_clear.2 ⟨hx, fun hid => ?_⟩, rfl, hevery⟩
    exact ((h.apart x.id).1 hid.symm).2 hi

lemma clear_refetch (h : Owned T reconnect refetch poll) :
    Owned (T.clear refetch) reconnect refetch poll := by
  refine ⟨h.fresh.clear _, h.lt_next, h.apart, ?_, ?_⟩
  · intro x hx
    exact h.owner x (Timers.mem_clear.1 hx).1
  · intro i hi
    obtain ⟨x, hx, rfl, hevery⟩ := h.polls i hi
    refine ⟨x, Timers.mem_clear.2 ⟨hx, fun hid => ?_⟩, rfl, hevery⟩
    exact (h.apart x.id).2 hid.symm hi

lemma clear_poll (h : Owned T reconnect refetch poll) :
    Owned (T.clear poll) reconnect refetch none := by
  refine ⟨h.fresh.clear _, ?_, ?_, ?_, by simp⟩
  · intro i hi
    exact h.lt_next i (by tauto)
  · intro i
    exact ⟨fun hi => ⟨((h.apart i).1 hi).1, by simp⟩, by simp⟩
  · intro x hx
    obtain ⟨hx, hid⟩ := Timers.mem_clear.1 hx
    cases h.owner x hx with
    | reconnect task every id => exact .reconnect task every id
    | refetch task every id => exact .refetch task every id
    | poll task every id => exact absurd id.symm hid

/-- No ref has the next id. -/
lemma unused (h : Owned T reconnect refetch poll) :
    reconnect ≠ some T.next ∧ refetch ≠ some T.next ∧ poll ≠ some T.next := by
  refine ⟨fun hid => ?_, fun hid => ?_, fun hid => ?_⟩
  · exact absurd (h.lt_next _ (.inl hid)) (Nat.lt_irrefl _)
  · exact absurd (h.lt_next _ (.inr (.inl hid))) (Nat.lt_irrefl _)
  · exact absurd (h.lt_next _ (.inr (.inr hid))) (Nat.lt_irrefl _)

/-- The next id and those in the refs are below the one after it. -/
lemma lt_next_succ (h : Owned T reconnect refetch poll) {i : ℕ}
    (hi : i = T.next ∨ reconnect = some i ∨ refetch = some i ∨ poll = some i) :
    i < T.next + 1 := by
  rcases hi with rfl | hi
  · exact Nat.lt_succ_self _
  · exact Nat.lt_succ_of_lt (h.lt_next i hi)

lemma set_reconnect (h : Owned T reconnect refetch poll)
    (hnone : ∀ x ∈ T.pending, x.task ≠ .connectSse) (ms : ℕ) :
    Owned (T.setTimeout .connectSse ms) (some T.next) refetch poll := by
  refine ⟨h.fresh.arm _ _ _, ?_, ?_, ?_, ?_⟩
  · rintro i (hi | hi | hi)
    · exact h.lt_next_succ (.inl (Option.some.inj hi).symm)
    · exact h.lt_next_succ (.inr (.inr (.inl hi)))
    · exact h.lt_next_succ (.inr (.inr (.inr hi)))
  · intro i
    refine ⟨?_, (h.apart i).2⟩
    rintro hi
    obtain rfl := Option.some.inj hi
    exact h.unused.2
  · intro x hx
    rcases Timers.mem_arm.1 hx with hx | rfl
    · cases h.owner x hx with
      | reconnect task every id => exact absurd task (hnone x hx)
      | refetch task every id => exact .refetch task every id
      | poll task every id => exact .poll task every id
    · exact .reconnect rfl rfl rfl
  · intro i hi
    obtain ⟨x, hx, hid, hevery⟩ := h.polls i hi
    exact ⟨x, Timers.mem_arm.2 (.inl hx), hid, hevery⟩

lemma set_refetch (h : Owned T reconnect refetch poll) (ms : ℕ) :
    Owned ((T.clear refetch).setTimeout .fetchList ms) reconnect (some T.next) poll := by
  have hclear := h.clear_refetch
  refine ⟨hclear.fresh.arm _ _ _, ?_, ?_, ?_, ?_⟩
  · rintro i (hi | hi | hi)
    · exact h.lt_next_succ (.inr (.inl hi))
    · exact h.lt_next_succ (.inl (Option.some.inj hi).symm)
    · exact h.lt_next_succ (.inr (.inr (.inr hi)))
  · intro i
    refine ⟨fun hi => ⟨?_, ((h.apart i).1 hi).2⟩, ?_⟩
    · rintro hid
      obtain rfl := Option.some.inj hid
      exact h.unused.1 hi
    · rintro hid
      obtain rfl := Option.some.inj hid
      exact h.unused.2.2
  · intro x hx
    rcases Timers.mem_arm.1 hx with hx | rfl
    · obtain ⟨hx, hid⟩ := Timers.mem_clear.1 hx
      cases h.owner x hx with
      | reconnect task every id => exact .reconnect task every id
      | refetch task every id => exact absurd id.symm hid
      | poll task every id => exact .poll task every id
    · exact .refetch rfl rfl rfl
  · intro i hi
    obtain ⟨x, hx, hid, hevery⟩ := hclear.polls i hi
    exact ⟨x, Timers.mem_arm.2 (.inl hx), hid, hevery⟩

lemma set_poll (h : Owned T reconnect refetch none) :
    Owned (T.setInterval .fetchList POLL_INTERVAL_MS) reconnect refetch (some T.next) := by
  refine ⟨h.fresh.arm _ _ _, ?_, ?_, ?_, ?_⟩
  · rintro i (hi | hi | hi)
    · exact h.lt_next_succ (.inr (.inl hi))
    · exact h.lt_next_succ (.inr (.inr (.inl hi)))
    · exact h.lt_next_succ (.inl (Option.some.inj hi).symm)
  · intro i
    refine ⟨fun hi => ⟨((h.apart i).1 hi).1, ?_⟩, ?_⟩
    · rintro hid
      obtain rfl := Option.some.inj hid
      exact h.unused.1 hi
    · rintro hi hid
      obtain rfl := Option.some.inj hid
      exact h.unused.2.1 hi
  · intro x hx
    rcases Timers.mem_arm.1 hx with hx | rfl
    · cases h.owner x hx with
      | reconnect task every id => exact .reconnect task every id
      | refetch task every id => exact .refetch task every id
      | poll task every id => cases id
    · exact .poll rfl rfl rfl
  · rintro i hi
    obtain rfl := Option.some.inj hi
    exact ⟨_, Timers.mem_arm.2 (.inr rfl), rfl, rfl⟩

lemma fired (h : Owned T reconnect refetch poll) {x : Timer FeedTask} (hx : x ∈ T.pending) :
    Owned (T.fired x) reconnect refetch poll := by
  refine ⟨h.fresh.fired hx, h.lt_next, h.apart, ?_, ?_⟩
  · intro y hy
    rcases Timers.mem_fired.1 hy with ⟨hy, -⟩ | ⟨ms, hevery, rfl⟩
    · exact h.owner y hy
    · cases h.owner x hx with
      | reconnect task every id => exact .reconnect task every id
      | refetch task every id => exact .refetch task every id
      | poll task every id => exact .poll task every id
  · intro i hi
    obtain ⟨y, hy, hid, hevery⟩ := h.polls i hi
    by_cases hyx : y.id = x.id
    · obtain rfl := h.fresh.eq_of_id hy hx hyx
      exact ⟨_, Timers.mem_fired.2 (.inr ⟨_, hevery, rfl⟩), hid, hevery⟩
    · exact ⟨y, Timers.mem_fired.2 (.inl ⟨hy, hyx⟩), hid, hevery⟩

/-- The ref of the next connection attempt is the attempt's. -/
lemma ref_of_connectSse (h : Owned T reconnect refetch poll) {x : Timer FeedTask}
    (hx : x ∈ T.pending) (htask : x.task = .connectSse) : reconnect = some x.id := by
  cases h.owner x hx with
  | reconnect _ _ id => exact id
  | refetch task _ _ | poll task _ _ => rw [htask] at task; cases task

/-- An attempt to connect is armed once. -/
lemma every_of_connectSse (h : Owned T reconnect refetch poll) {x : Timer FeedTask}
    (hx : x ∈ T.pending) (htask : x.task = .connectSse) : x.every = none := by
  cases h.owner x hx with
  | reconnect _ every _ => exact every
  | refetch task _ _ | poll task _ _ => rw [htask] at task; cases task

/-- Behind the firing of the attempt none is armed. -/
lemma fired_connectSse (h : Owned T reconnect refetch poll) {x : Timer FeedTask}
    (hx : x ∈ T.pending) (htask : x.task = .connectSse) :
    ∀ y ∈ (T.fired x).pending, y.task ≠ .connectSse := by
  intro y hy htask'
  rcases Timers.mem_fired.1 hy with ⟨hy, hne⟩ | ⟨ms, hms, -⟩
  · exact hne (Option.some.inj
      ((h.ref_of_connectSse hy htask').symm.trans (h.ref_of_connectSse hx htask)))
  · rw [h.every_of_connectSse hx htask] at hms
    cases hms

/-- Any other firing leaves the attempt as it is. -/
lemma fired_fetchList (h : Owned T reconnect refetch poll) {x : Timer FeedTask}
    (hx : x ∈ T.pending) (htask : x.task = .fetchList) (d : ℕ) :
    (∃ y ∈ (T.fired x).pending, y.task = .connectSse ∧ y.due = d) ↔
      ∃ y ∈ T.pending, y.task = .connectSse ∧ y.due = d := by
  constructor
  · rintro ⟨y, hy, hconnect, hdue⟩
    rcases Timers.mem_fired.1 hy with ⟨hy, -⟩ | ⟨ms, -, rfl⟩
    · exact ⟨y, hy, hconnect, hdue⟩
    · rw [htask] at hconnect
      cases hconnect
  · rintro ⟨y, hy, hconnect, hdue⟩
    refine ⟨y, Timers.mem_fired.2 (.inl ⟨hy, fun hid => ?_⟩), hconnect, hdue⟩
    rw [h.fresh.eq_of_id hy hx hid, htask] at hconnect
    cases hconnect

end Owned

/-! ### Reads -/

/-- Only the read behind the controller ref may be under way without being aborted. -/
structure Reading (reads : List ListRead) (nextRead : ℕ) (controller : Option ℕ) : Prop where
  nodup : (reads.map ListRead.id).Nodup
  lt_next : ∀ r ∈ reads, r.id < nextRead
  current : ∀ r ∈ reads, r.aborted = false → controller = some r.id

namespace Reading

variable {reads : List ListRead} {nextRead : ℕ} {controller : Option ℕ}

lemma nil : Reading [] 0 none := ⟨by simp, by simp, by simp⟩

lemma eq_of_id (h : Reading reads nextRead controller) {r r' : ListRead} (hr : r ∈ reads)
    (hr' : r' ∈ reads) (hid : r.id = r'.id) : r = r' :=
  List.inj_on_of_nodup_map h.nodup hr hr' hid

lemma map_id_abortRead (ref : Option ℕ) (reads : List ListRead) :
    (abortRead ref reads).map ListRead.id = reads.map ListRead.id := by
  rw [abortRead, List.map_map]
  refine List.map_congr_left fun r _ => ?_
  by_cases hid : some r.id = ref <;> simp [hid]

/-- An abort of the controller leaves no read that is not aborted. -/
lemma aborted (h : Reading reads nextRead controller) :
    ∀ r ∈ abortRead controller reads, r.aborted = true := by
  intro r hr
  obtain ⟨r', hr', rfl⟩ := List.mem_map.1 hr
  by_cases hid : some r'.id = controller
  · simp [hid]
  · have hne : r'.aborted ≠ false := fun hfalse => hid (h.current r' hr' hfalse).symm
    simpa [hid] using hne

lemma abort (h : Reading reads nextRead controller) :
    Reading (abortRead controller reads) nextRead controller := by
  refine ⟨?_, ?_, ?_⟩
  · rw [map_id_abortRead]
    exact h.nodup
  · intro r hr
    obtain ⟨r', hr', hid⟩ : ∃ r' ∈ reads, r'.id = r.id := by
      simpa [map_id_abortRead] using List.mem_map_of_mem (f := ListRead.id) hr
    exact hid ▸ h.lt_next r' hr'
  · intro r hr hfalse
    rw [h.aborted r hr] at hfalse
    cases hfalse

lemma ask (h : Reading reads nextRead controller) :
    Reading (abortRead controller reads ++ [⟨nextRead, false⟩]) (nextRead + 1) (some nextRead) := by
  have habort := h.abort
  refine ⟨?_, ?_, ?_⟩
  · rw [List.map_append, List.nodup_append]
    refine ⟨habort.nodup, List.nodup_singleton _, ?_⟩
    rintro i hi j hj rfl
    obtain ⟨r, hr, rfl⟩ := List.mem_map.1 hi
    have hlt := habort.lt_next r hr
    simp only [List.map_cons, List.map_nil, List.mem_singleton] at hj
    omega
  · intro r hr
    rcases List.mem_append.1 hr with hr | hr
    · exact Nat.lt_succ_of_lt (habort.lt_next r hr)
    · rw [List.mem_singleton.1 hr]
      exact Nat.lt_succ_self _
  · intro r hr hfalse
    rcases List.mem_append.1 hr with hr | hr
    · rw [h.aborted r hr] at hfalse
      cases hfalse
    · rw [List.mem_singleton.1 hr]

lemma take (h : Reading reads nextRead controller) (read : ℕ) :
    Reading (reads.filter fun r => r.id ≠ read) nextRead controller :=
  ⟨h.nodup.sublist (List.filter_sublist.map _),
    fun r hr => h.lt_next r (List.mem_filter.1 hr).1,
    fun r hr => h.current r (List.mem_filter.1 hr).1⟩

/-- At most one read is not aborted. -/
lemma countP_le_one (h : Reading reads nextRead controller) :
    reads.countP (·.aborted = false) ≤ 1 := by
  refine countP_le_one_of_nodup_map h.nodup fun x hx y hy hx' hy' => ?_
  have hx' := h.current x hx (by simpa using hx')
  have hy' := h.current y hy (by simpa using hy')
  exact Option.some.inj (hx'.symm.trans hy')

end Reading

/-! ### The provider -/

/-- The invariant of the provider. -/
structure Wired {WorkItem : Type} (s : Feed WorkItem) : Prop where
  timers : Owned s.timers s.reconnectTimerRef s.refetchDebounceRef s.pollTimerRef
  reading : Reading s.reads s.nextRead s.listControllerRef
  sources : s.sources.map Source.id = s.eventSourceRef.toList
  mounted : s.effect = true → s.mountedRef = true
  /-- Before the effect is set up, and behind its cleanup, nothing is armed or open. -/
  down : s.effect = false → s.timers.pending = [] ∧ s.sources = [] ∧ s.pollTimerRef = none
  /-- The provider is connected, or about to reconnect, or polling. -/
  up : s.effect = true → s.sources ≠ [] ∨ (∃ x ∈ s.timers.pending, x.task = .connectSse) ∨
    s.pollTimerRef ≠ none
  /-- No two of these at a time. -/
  waiting : ∀ x ∈ s.timers.pending, x.task = .connectSse → s.sources = [] ∧ s.pollTimerRef = none
  polling : s.pollTimerRef ≠ none → s.sources = []

namespace Wired

variable {WorkItem : Type} {s s' : Feed WorkItem}

lemma rendered : Wired (Feed.rendered : Feed WorkItem) where
  timers := .start
  reading := .nil
  sources := rfl
  mounted := by simp [Feed.rendered]
  down := fun _ => ⟨rfl, rfl, rfl⟩
  up := by simp [Feed.rendered]
  waiting := by simp [Feed.rendered, Timers.start]
  polling := by simp [Feed.rendered]

lemma fetchList (h : Wired s) : Wired s.fetchList :=
  { h with reading := h.reading.ask }

/-- An event source that is not closed is the one in the ref. -/
lemma sources_eq (h : Wired s) {x : Source} (hx : x ∈ s.sources) :
    s.sources = [x] ∧ s.eventSourceRef = some x.id := by
  have hsources := h.sources
  cases hlist : s.sources with
  | nil => simp [hlist] at hx
  | cons y ys =>
    rw [hlist] at hx hsources
    cases href : s.eventSourceRef with
    | none => simp [href] at hsources
    | some i =>
      simp only [href, List.map_cons, Option.toList_some, List.cons.injEq,
        List.map_eq_nil_iff] at hsources
      obtain ⟨rfl, rfl⟩ := hsources
      obtain rfl := List.mem_singleton.1 hx
      exact ⟨rfl, rfl⟩

/-- A timer is armed only while the provider is mounted. -/
lemma effect_of_pending (h : Wired s) {x : Timer FeedTask} (hx : x ∈ s.timers.pending) :
    s.effect = true := by
  by_contra hfalse
  have hnil := (h.down (by simpa using hfalse)).1
  simp [hnil] at hx

lemma ref_eq_none (h : Wired s) (hnil : s.sources = []) : s.eventSourceRef = none := by
  have hsources := h.sources
  rw [hnil] at hsources
  cases href : s.eventSourceRef with
  | none => rfl
  | some i => simp [href] at hsources

/-- Behind an event source that is not closed the provider is mounted and does not poll. -/
lemma of_source (h : Wired s) {x : Source} (hx : x ∈ s.sources) :
    s.effect = true ∧ s.mountedRef = true ∧ s.pollTimerRef = none ∧
      ∀ y ∈ s.timers.pending, y.task ≠ .connectSse := by
  have hne : s.sources ≠ [] := List.ne_nil_of_mem hx
  have heffect : s.effect = true := by
    by_contra hfalse
    exact hne (h.down (by simpa using hfalse)).2.1
  refine ⟨heffect, h.mounted heffect, ?_, fun y hy htask => hne (h.waiting y hy htask).1⟩
  by_contra hpoll
  exact hne (h.polling hpoll)

end Wired

/-! ### What the events do -/

namespace Feed

variable {WorkItem : Type} {s s' : Feed WorkItem}

lemma connectSse_eq (h : s.eventSourceRef = none) (hnil : s.sources = []) :
    s.connectSse =
      { s with
        eventSourceRef := some s.nextSource
        sources := [⟨s.nextSource, false⟩]
        nextSource := s.nextSource + 1 } := by
  simp only [connectSse, h, hnil, List.nil_append]

lemma stopPolling_eq (h : s.pollTimerRef = none) : s.stopPolling = s := by
  simp only [stopPolling, h]

/-- `stopPolling` clears the timer behind the ref. -/
lemma stopPolling_spec :
    s.stopPolling = { s with timers := s.timers.clear s.pollTimerRef, pollTimerRef := none } := by
  cases h : s.pollTimerRef with
  | none =>
    rw [stopPolling_eq h, Timers.clear_none]
    cases s
    cases h
    rfl
  | some timer => simp only [stopPolling, h, clearTimer]

/-- The connection is established: the retries are forgotten. -/
lemma step_opened_inv (h : Wired s) {i : ℕ} (hstep : s.step (.opened i) = some s') :
    s.sources = [⟨i, false⟩] ∧ s.pollTimerRef = none ∧
      s' = { s with sources := [⟨i, true⟩], retryCountRef := 0, connectionStatus := .live } := by
  simp only [step] at hstep
  split_ifs at hstep with hmem
  obtain ⟨-, hmounted, hpoll, -⟩ := h.of_source hmem
  obtain ⟨hsources, -⟩ := h.sources_eq hmem
  refine ⟨hsources, hpoll, ?_⟩
  obtain rfl := Option.some.inj hstep
  simp only [onOpen, markOpen, hmounted, if_true, hsources]
  rw [stopPolling_eq (by exact hpoll)]
  simp

/-- An incident event arms the refetch anew. -/
lemma step_incidentEvent_inv {i : ℕ} (hstep : s.step (.incidentEvent i) = some s') :
    ⟨i, true⟩ ∈ s.sources ∧ s' = s.scheduleRefetch := by
  simp only [step] at hstep
  split_ifs at hstep with hmem
  exact ⟨hmem, (Option.some.inj hstep).symm⟩

/-- The connection fails: the provider waits for the next attempt, or starts to poll. -/
lemma step_failed_inv (h : Wired s) {i : ℕ} (hstep : s.step (.failed i) = some s') :
    (∃ opened, s.sources = [⟨i, opened⟩]) ∧
      if MAX_SSE_RETRIES < s.retryCountRef + 1 then
        s' = { s with
          sources := []
          eventSourceRef := none
          retryCountRef := s.retryCountRef + 1
          connectionStatus := .polling
          pollTimerRef := some s.timers.next
          timers := s.timers.setInterval .fetchList POLL_INTERVAL_MS }
      else
        s' = { s with
          sources := []
          eventSourceRef := none
          retryCountRef := s.retryCountRef + 1
          connectionStatus := .connecting
          reconnectTimerRef := some s.timers.next
          timers := s.timers.setTimeout .connectSse (backoffDelayMs (s.retryCountRef + 1)) } := by
  simp only [step] at hstep
  split_ifs at hstep with hmem
  obtain ⟨x, hx, rfl⟩ := List.mem_map.1 hmem
  obtain ⟨-, hmounted, hpoll, -⟩ := h.of_source hx
  obtain ⟨hsources, -⟩ := h.sources_eq hx
  refine ⟨⟨x.opened, hsources⟩, ?_⟩
  obtain rfl := Option.some.inj hstep
  have hclosed : s.sources.filter (fun y => some y.id ≠ some x.id) = [] := by simp [hsources]
  simp only [onError, close, hclosed, hmounted, if_true]
  split_ifs with hretries
  · simp only [startPolling, hpoll]
  · rfl

/-- A timer of the provider fires: it reconnects, or asks for the list. -/
lemma step_fire_inv (h : Wired s) {i : ℕ} (hstep : s.step (.fire i) = some s') :
    ∃ x ∈ s.timers.pending, x.id = i ∧ x.due ≤ s.timers.now ∧
      (x.task = .connectSse ∧ s.sources = [] ∧ s.pollTimerRef = none ∧
          s' = { s with
            timers := s.timers.fired x
            eventSourceRef := some s.nextSource
            sources := [⟨s.nextSource, false⟩]
            nextSource := s.nextSource + 1 } ∨
        x.task = .fetchList ∧ s' = fetchList { s with timers := s.timers.fired x }) := by
  simp only [step, Option.map_eq_some_iff, Prod.exists] at hstep
  obtain ⟨task, timers, hfire, rfl⟩ := hstep
  obtain ⟨x, hx, hid, hdue, rfl, rfl⟩ := Timers.fire_inv hfire
  refine ⟨x, hx, hid, hdue, ?_⟩
  cases htask : x.task with
  | connectSse =>
    left
    obtain ⟨hsources, hpoll⟩ := h.waiting x hx htask
    have href : s.eventSourceRef = none := h.ref_eq_none hsources
    refine ⟨rfl, hsources, hpoll, ?_⟩
    exact connectSse_eq (s := { s with timers := s.timers.fired x }) href hsources
  | fetchList => exact .inr ⟨rfl, rfl⟩

lemma takeRead_inv {i : ℕ} {r : ListRead} (htake : s.takeRead i = some (r, s')) :
    r ∈ s.reads ∧ r.id = i ∧ s' = { s with reads := s.reads.filter fun r => r.id ≠ i } := by
  simp only [takeRead, Option.map_eq_some_iff, Prod.mk.injEq] at htake
  obtain ⟨r', hfind, rfl, rfl⟩ := htake
  exact ⟨List.mem_of_find?_eq_some hfind, by simpa using List.find?_some hfind, rfl⟩

/-- A read that settles touches only the display. -/
lemma settle_spec (s : Feed WorkItem) (aborted : Bool)
    (outcome : Except Rejection (List WorkItem)) : ∃ data loading error,
      s.settle aborted outcome =
        { s with data := data, loading := loading, error := error } := by
  cases outcome <;> simp only [settle] <;> split_ifs <;> exact ⟨_, _, _, rfl⟩

lemma step_page_inv {i : ℕ} {items : List WorkItem}
    (hstep : s.step (.page i items) = some s') : ∃ r s₁, s.takeRead i = some (r, s₁) ∧
      s' = s₁.settle r.aborted (.ok items) := by
  simp only [step, Option.map_eq_some_iff, Prod.exists] at hstep
  obtain ⟨r, s₁, htake, rfl⟩ := hstep
  exact ⟨r, s₁, htake, rfl⟩

lemma step_rejected_inv {i : ℕ} {err : Rejection}
    (hstep : s.step (.rejected i err) = some s') : ∃ r s₁, s.takeRead i = some (r, s₁) ∧
      s' = s₁.settle r.aborted (.error err) := by
  simp only [step, Option.map_eq_some_iff, Prod.exists] at hstep
  obtain ⟨r, s₁, htake, rfl⟩ := hstep
  exact ⟨r, s₁, htake, rfl⟩

/-- Whatever a read settles with, it is gone and at most the display differs. -/
lemma step_settled_inv {i : ℕ} {e : FeedEvent WorkItem}
    (he : (∃ items, e = .page i items) ∨ ∃ err, e = .rejected i err)
    (hstep : s.step e = some s') : ∃ data loading error,
      s' = { s with
        data := data
        loading := loading
        error := error
        reads := s.reads.filter fun r => r.id ≠ i } := by
  obtain ⟨r, s₁, htake, outcome, rfl⟩ : ∃ r s₁, s.takeRead i = some (r, s₁) ∧
      ∃ outcome, s' = s₁.settle r.aborted outcome := by
    rcases he with ⟨items, rfl⟩ | ⟨err, rfl⟩
    · obtain ⟨r, s₁, htake, rfl⟩ := step_page_inv hstep
      exact ⟨r, s₁, htake, _, rfl⟩
    · obtain ⟨r, s₁, htake, rfl⟩ := step_rejected_inv hstep
      exact ⟨r, s₁, htake, _, rfl⟩
  obtain ⟨-, -, rfl⟩ := takeRead_inv htake
  obtain ⟨data, loading, error, hsettle⟩ :=
    settle_spec { s with reads := s.reads.filter fun r => r.id ≠ i } r.aborted outcome
  exact ⟨data, loading, error, hsettle⟩

lemma step_mount_inv (h : Wired s) (hstep : s.step .mount = some s') :
    s.effect = false ∧
      s' = { fetchList s with
        mountedRef := true
        eventSourceRef := some s.nextSource
        sources := [⟨s.nextSource, false⟩]
        nextSource := s.nextSource + 1
        effect := true } := by
  simp only [step] at hstep
  split_ifs at hstep with heffect
  have hfalse : s.effect = false := by simpa using heffect
  have hnil := (h.down hfalse).2.1
  refine ⟨hfalse, ?_⟩
  obtain rfl := Option.some.inj hstep
  have hconnect := connectSse_eq (s := { s with mountedRef := true }.fetchList)
    (h.ref_eq_none hnil) hnil
  simp only [setup]
  rw [hconnect]
  rfl

/-- The cleanup aborts the read under way, closes the event source and clears every timer. -/
lemma step_unmount_inv (h : Wired s) (hstep : s.step .unmount = some s') :
    s.effect = true ∧ ∃ timers, timers.pending = [] ∧ timers.now = s.timers.now ∧
      Owned timers s.reconnectTimerRef s.refetchDebounceRef none ∧
      s' = { s with
        mountedRef := false
        eventSourceRef := none
        pollTimerRef := none
        effect := false
        timers := timers
        sources := []
        reads := abortRead s.listControllerRef s.reads } := by
  simp only [step] at hstep
  split_ifs at hstep with heffect
  refine ⟨heffect, ((s.timers.clear s.reconnectTimerRef).clear s.refetchDebounceRef).clear
    s.pollTimerRef, ?_, rfl, h.timers.clear_reconnect.clear_refetch.clear_poll, ?_⟩
  · refine List.eq_nil_iff_forall_not_mem.2 fun x hx => ?_
    simp only [Timers.mem_clear] at hx
    obtain ⟨⟨⟨hx, hreconnect⟩, hrefetch⟩, hpoll⟩ := hx
    cases h.timers.owner x hx with
    | reconnect _ _ id => exact hreconnect id.symm
    | refetch _ _ id => exact hrefetch id.symm
    | poll _ _ id => exact hpoll id.symm
  · obtain rfl := Option.some.inj hstep
    simp only [cleanup, stopPolling_spec, clearTimer, close, abort]
    congr 1
    refine List.filter_eq_nil_iff.2 fun x hx => ?_
    simp [(h.sources_eq hx).2]

end Feed

/-! ### The invariant is kept -/

namespace Wired

variable {WorkItem : Type} {s s' : Feed WorkItem}

lemma scheduleRefetch (h : Wired s) {x : Source} (hx : x ∈ s.sources) :
    Wired s.scheduleRefetch := by
  obtain ⟨heffect, -, -, hnone⟩ := h.of_source hx
  refine ⟨h.timers.set_refetch _, h.reading, h.sources, h.mounted, ?_, ?_, ?_, h.polling⟩
  · intro hfalse
    rw [show s.scheduleRefetch.effect = s.effect from rfl, heffect] at hfalse
    cases hfalse
  · exact fun _ => .inl (List.ne_nil_of_mem hx)
  · intro y hy htask
    rcases Timers.mem_arm.1 hy with hy | rfl
    · exact absurd htask (hnone y (Timers.mem_clear.1 hy).1)
    · cases htask

/-- Only the timers of a state differ, and those for the next connection attempt do not. -/
lemma with_timers (h : Wired s) {timers : Timers FeedTask}
    (howned : Owned timers s.reconnectTimerRef s.refetchDebounceRef s.pollTimerRef)
    (hnil : s.timers.pending = [] → timers.pending = [])
    (hsame : ∀ d, (∃ x ∈ timers.pending, x.task = .connectSse ∧ x.due = d) ↔
      ∃ x ∈ s.timers.pending, x.task = .connectSse ∧ x.due = d) :
    Wired { s with timers := timers } := by
  refine ⟨howned, h.reading, h.sources, h.mounted, ?_, ?_, ?_, h.polling⟩
  · intro hfalse
    obtain ⟨hpending, hrest⟩ := h.down hfalse
    exact ⟨hnil hpending, hrest⟩
  · intro heffect
    rcases h.up heffect with hup | ⟨x, hx, htask⟩ | hup
    · exact .inl hup
    · obtain ⟨y, hy, htask', -⟩ := (hsame x.due).2 ⟨x, hx, htask, rfl⟩
      exact .inr (.inl ⟨y, hy, htask'⟩)
    · exact .inr (.inr hup)
  · intro x hx htask
    obtain ⟨y, hy, htask', -⟩ := (hsame x.due).1 ⟨x, hx, htask, rfl⟩
    exact h.waiting y hy htask'

/-- A timer that asks for the list leaves the next connection attempt alone. -/
lemma fired_fetchList (h : Wired s) {x : Timer FeedTask} (hx : x ∈ s.timers.pending)
    (htask : x.task = .fetchList) : Wired { s with timers := s.timers.fired x } := by
  refine h.with_timers (h.timers.fired hx) ?_ (h.timers.fired_fetchList hx htask)
  intro hnil
  rw [hnil] at hx
  cases hx

theorem step (h : Wired s) {e : FeedEvent WorkItem} (hstep : s.step e = some s') : Wired s' := by
  cases e with
  | mount =>
    obtain ⟨heffect, rfl⟩ := Feed.step_mount_inv h hstep
    obtain ⟨hpending, -, hpoll⟩ := h.down heffect
    refine ⟨h.timers, h.fetchList.reading, rfl, fun _ => rfl, ?_, ?_, ?_, ?_⟩
    · intro hfalse
      cases hfalse
    · exact fun _ => .inl (List.cons_ne_nil _ _)
    · intro x hx
      have hx : x ∈ s.timers.pending := hx
      simp [hpending] at hx
    · exact fun hne => absurd hpoll hne
  | unmount =>
    obtain ⟨-, timers, hpending, -, howned, rfl⟩ := Feed.step_unmount_inv h hstep
    refine ⟨howned, h.reading.abort, rfl, ?_, fun _ => ⟨hpending, rfl, rfl⟩, ?_, ?_, fun _ => rfl⟩
    · intro htrue
      cases htrue
    · intro htrue
      cases htrue
    · exact fun _ _ _ => ⟨rfl, rfl⟩
  | pass ms =>
    obtain rfl := Option.some.inj hstep
    exact h.with_timers (h.timers.pass ms) id fun _ => Iff.rfl
  | fire i =>
    obtain ⟨x, hx, -, -, ⟨htask, hsources, hpoll, rfl⟩ | ⟨htask, rfl⟩⟩ :=
      Feed.step_fire_inv h hstep
    · have heffect := h.effect_of_pending hx
      refine ⟨h.timers.fired hx, h.reading, rfl, h.mounted, ?_, ?_, ?_, ?_⟩
      · intro hfalse
        rw [heffect] at hfalse
        cases hfalse
      · exact fun _ => .inl (List.cons_ne_nil _ _)
      · exact fun y hy htask' => absurd htask' (h.timers.fired_connectSse hx htask y hy)
      · exact fun hne => absurd hpoll hne
    · exact (h.fired_fetchList hx htask).fetchList
  | opened i =>
    obtain ⟨hsources, hpoll, rfl⟩ := Feed.step_opened_inv h hstep
    have hmem : ⟨i, false⟩ ∈ s.sources := by simp [hsources]
    obtain ⟨heffect, -, -, hnone⟩ := h.of_source hmem
    refine ⟨h.timers, h.reading, ?_, h.mounted, ?_, ?_, ?_, ?_⟩
    · rw [← h.sources, hsources]
      rfl
    · intro hfalse
      rw [heffect] at hfalse
      cases hfalse
    · exact fun _ => .inl (List.cons_ne_nil _ _)
    · exact fun y hy htask => absurd htask (hnone y hy)
    · exact fun hne => absurd hpoll hne
  | incidentEvent i =>
    obtain ⟨hmem, rfl⟩ := Feed.step_incidentEvent_inv hstep
    exact h.scheduleRefetch hmem
  | failed i =>
    obtain ⟨⟨opened, hsources⟩, hnext⟩ := Feed.step_failed_inv h hstep
    have hmem : ⟨i, opened⟩ ∈ s.sources := by simp [hsources]
    obtain ⟨heffect, -, hpoll, hnone⟩ := h.of_source hmem
    split_ifs at hnext with hretries
    · subst hnext
      have hpolls := (hpoll ▸ h.timers).set_poll
      refine ⟨hpolls, h.reading, rfl, h.mounted, ?_, ?_, ?_, fun _ => rfl⟩
      · intro hfalse
        rw [heffect] at hfalse
        cases hfalse
      · exact fun _ => .inr (.inr (Option.some_ne_none _))
      · intro y hy htask
        rcases Timers.mem_arm.1 hy with hy | rfl
        · exact absurd htask (hnone y hy)
        · cases htask
    · subst hnext
      refine ⟨h.timers.set_reconnect hnone _, h.reading, rfl, h.mounted, ?_, ?_, ?_, fun _ => rfl⟩
      · intro hfalse
        rw [heffect] at hfalse
        cases hfalse
      · exact fun _ => .inr (.inl ⟨_, Timers.mem_arm.2 (.inr rfl), rfl⟩)
      · exact fun _ _ _ => ⟨rfl, hpoll⟩
  | page i items | rejected i err =>
    obtain ⟨data, loading, error, rfl⟩ := Feed.step_settled_inv (i := i) (by simp) hstep
    exact ⟨h.timers, h.reading.take i, h.sources, h.mounted, h.down, h.up, h.waiting, h.polling⟩
  | refresh =>
    obtain rfl := Option.some.inj hstep
    exact h.fetchList

/-- The refs point at everything that is armed, open or under way after every run. -/
theorem run {es : List (FeedEvent WorkItem)} (hrun : Feed.lts.run s es = some s') (h : Wired s) :
    Wired s' :=
  Lts.run_invariant (fun _ _ _ hs he => hs.step he) hrun h

end Wired

end InveniOps.Frontend
