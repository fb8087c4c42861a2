import InveniOps.Lib.Reconnect
import InveniOps.Frontend.FeedWiring

/-!
# The transport of the live feed

The event sources, the reconnect timer and the poll timer of the provider
together are one connection that is re-established with backoff and falls back to
polling.  What the operator is shown about it is true in every run.
-/

namespace InveniOps.Frontend

open Lib
open Reconnect (Link Connection)

variable {WorkItem : Type}

/-- The limits of the provider. -/
def sse : Reconnect := ⟨MAX_SSE_RETRIES, backoffDelayMs⟩

namespace Feed

/-- The connection that the sources and timers make up. -/
def link (s : Feed WorkItem) : Link :=
  match s.sources with
  | x :: _ => if x.opened then .live else .dialling
  | [] =>
    match s.timers.pending.find? (·.task = .connectSse) with
    | some x => .waiting x.due
    | none => if s.pollTimerRef.isSome then .fallback else .off

/-- The connection, the failures in a row and the clock. -/
def connection (s : Feed WorkItem) : Connection := ⟨s.link, s.retryCountRef, s.timers.now⟩

/-- What an event of the provider does to its connection. -/
def connects (s : Feed WorkItem) : FeedEvent WorkItem → List Reconnect.Event
  | .mount => [.up]
  | .unmount => [.down]
  | .pass ms => [.pass ms]
  | .fire i =>
    match s.timers.fire i with
    | some (.connectSse, _) => [.redial]
    | _ => []
  | .opened _ => [.opened]
  | .failed _ => [.failed]
  | .incidentEvent _ | .page _ _ | .rejected _ _ | .refresh => []

variable {s s' : Feed WorkItem}

lemma link_of_source {x : Source} (h : s.sources = [x]) :
    s.link = if x.opened then .live else .dialling := by
  simp only [link, h]

lemma find_connectSse (h : ∀ x ∈ s.timers.pending, x.task ≠ .connectSse) :
    s.timers.pending.find? (·.task = .connectSse) = none :=
  List.find?_eq_none.2 fun x hx => by simpa using h x hx

lemma link_of_waiting (h : Wired s) {x : Timer FeedTask} (hx : x ∈ s.timers.pending)
    (htask : x.task = .connectSse) : s.link = .waiting x.due := by
  obtain ⟨hsources, -⟩ := h.waiting x hx htask
  cases hfind : s.timers.pending.find? (·.task = .connectSse) with
  | none => exact absurd (List.find?_eq_none.1 hfind x hx) (by simp [htask])
  | some y =>
    have hy := List.mem_of_find?_eq_some hfind
    have htask' : y.task = .connectSse := by simpa using List.find?_some hfind
    have hid : y.id = x.id := Option.some.inj
      ((h.timers.ref_of_connectSse hy htask').symm.trans (h.timers.ref_of_connectSse hx htask))
    obtain rfl := h.timers.fresh.eq_of_id hy hx hid
    simp only [link, hsources, hfind]

lemma link_of_poll (h : Wired s) (hpoll : s.pollTimerRef ≠ none) : s.link = .fallback := by
  have hnone : ∀ x ∈ s.timers.pending, x.task ≠ .connectSse :=
    fun x hx htask => hpoll (h.waiting x hx htask).2
  simp only [link, h.polling hpoll, find_connectSse hnone]
  simp [Option.isSome_iff_ne_none, hpoll]

lemma link_of_down (h : Wired s) (hdown : s.effect = false) : s.link = .off := by
  obtain ⟨hpending, hsources, hpoll⟩ := h.down hdown
  simp [link, hpending, hsources, hpoll]

/-- While it is mounted the provider has a connection, or is about to have one. -/
lemma link_ne_off (h : Wired s) (hup : s.effect = true) : s.link ≠ .off := by
  rcases h.up hup with hsources | ⟨x, hx, htask⟩ | hpoll
  · obtain ⟨x, hx⟩ := List.exists_mem_of_ne_nil _ hsources
    rw [link_of_source (h.sources_eq hx).1]
    split_ifs <;> simp
  · simp [link_of_waiting h hx htask]
  · simp [link_of_poll h hpoll]

lemma link_congr (hsources : s'.sources = s.sources) (hpoll : s'.pollTimerRef = s.pollTimerRef)
    (h : Wired s) (h' : Wired s')
    (hsame : ∀ d, (∃ x ∈ s'.timers.pending, x.task = .connectSse ∧ x.due = d) ↔
      ∃ x ∈ s.timers.pending, x.task = .connectSse ∧ x.due = d) : s'.link = s.link := by
  by_cases hwait : ∃ x ∈ s.timers.pending, x.task = .connectSse
  · obtain ⟨x, hx, htask⟩ := hwait
    obtain ⟨y, hy, htask', hdue⟩ := (hsame x.due).2 ⟨x, hx, htask, rfl⟩
    rw [link_of_waiting h hx htask, link_of_waiting h' hy htask', hdue]
  · have hnone : ∀ x ∈ s.timers.pending, x.task ≠ .connectSse :=
      fun x hx htask => hwait ⟨x, hx, htask⟩
    have hnone' : ∀ x ∈ s'.timers.pending, x.task ≠ .connectSse := by
      intro x hx htask
      obtain ⟨y, hy, htask', -⟩ := (hsame x.due).1 ⟨x, hx, htask, rfl⟩
      exact hnone y hy htask'
    simp only [link, hsources, hpoll, find_connectSse hnone, find_connectSse hnone']

/-- Each step of the provider is matched by its connection. -/
lemma connection_step (h : Wired s) {e : FeedEvent WorkItem} (hstep : s.step e = some s') :
    sse.lts.run s.connection (s.connects e) = some s'.connection := by
  have h' := h.step hstep
  cases e with
  | mount =>
    obtain ⟨hdown, rfl⟩ := step_mount_inv h hstep
    rw [connects, Lts.run_singleton]
    simp only [Reconnect.lts, Reconnect.step, connection, link_of_down h hdown, if_true]
    rfl
  | unmount =>
    obtain ⟨hup, timers, hpending, hnow, howned, rfl⟩ := step_unmount_inv h hstep
    rw [connects, Lts.run_singleton]
    simp [Reconnect.lts, Reconnect.step, connection, link_ne_off h hup, link_of_down h' rfl, hnow]
  | pass ms =>
    obtain rfl := Option.some.inj hstep
    rfl
  | fire i =>
    obtain ⟨x, hx, rfl, hdue, ⟨htask, hsources, hpoll, rfl⟩ | ⟨htask, rfl⟩⟩ := step_fire_inv h hstep
    · rw [connects, Timers.fire_of_due h.timers.fresh hx hdue, htask, Lts.run_singleton]
      simp only [Reconnect.lts, Reconnect.step, connection, link_of_waiting h hx htask, if_pos hdue]
      rfl
    · rw [connects, Timers.fire_of_due h.timers.fresh hx hdue, htask]
      have hlink : (fetchList { s with timers := s.timers.fired x }).link = s.link :=
        link_congr rfl rfl h h' (h.timers.fired_fetchList hx htask)
      simp only [Lts.run_nil, connection, hlink]
      rfl
  | opened i =>
    obtain ⟨hsources, hpoll, rfl⟩ := step_opened_inv h hstep
    rw [connects, Lts.run_singleton]
    simp only [Reconnect.lts, Reconnect.step, connection, link_of_source hsources,
      Bool.false_eq_true, if_false, if_true]
    rfl
  | incidentEvent i =>
    obtain ⟨hmem, rfl⟩ := step_incidentEvent_inv hstep
    obtain ⟨-, -, -, hnone⟩ := h.of_source hmem
    have hlink : s.scheduleRefetch.link = s.link := by
      refine link_congr rfl rfl h h' fun d => ⟨?_, ?_⟩
      · rintro ⟨y, hy, htask, -⟩
        rcases Timers.mem_arm.1 hy with hy | rfl
        · exact absurd htask (hnone y (Timers.mem_clear.1 hy).1)
        · cases htask
      · rintro ⟨y, hy, htask, -⟩
        exact absurd htask (hnone y hy)
    simp only [connects, Lts.run_nil, connection, hlink]
    rfl
  | failed i =>
    obtain ⟨⟨opened, hsources⟩, hnext⟩ := step_failed_inv h hstep
    have hmem : ⟨i, opened⟩ ∈ s.sources := by simp [hsources]
    have hdials : s.link = .dialling ∨ s.link = .live := by
      rw [link_of_source hsources]
      cases opened <;> simp
    rw [connects, Lts.run_singleton]
    simp only [Reconnect.lts, Reconnect.step, connection, if_pos hdials, Reconnect.afterFailure,
      sse]
    split_ifs at hnext ⊢ with hretries
    · have hlink := link_of_poll h' (by rw [hnext]; simp)
      rw [hlink, hnext]
      rfl
    · have hlink := link_of_waiting h' (x := ⟨s.timers.next, s.timers.now +
        backoffDelayMs (s.retryCountRef + 1), none, .connectSse⟩) (by
          rw [hnext]
          exact Timers.mem_arm.2 (.inr rfl)) rfl
      rw [hlink, hnext]
      rfl
  | page i items | rejected i err =>
    obtain ⟨data, loading, error, rfl⟩ := step_settled_inv (i := i) (by simp) hstep
    rfl
  | refresh =>
    obtain rfl := Option.some.inj hstep
    rfl

end Feed

/-! ### One transport -/

/-- The event sources that are not closed, the reconnects and the polls that are armed. -/
def Feed.transports (s : Feed WorkItem) : ℕ :=
  s.sources.length + s.timers.pending.countP (·.task = .connectSse) +
    s.timers.pending.countP (·.every.isSome)

/-- The refetches that are armed. -/
def Feed.refetches (s : Feed WorkItem) : ℕ :=
  s.timers.pending.countP fun x => x.task = .fetchList ∧ x.every = none

namespace Wired

variable {s s' : Feed WorkItem}

lemma countP_polls (h : Wired s) :
    s.timers.pending.countP (·.every.isSome) = if s.pollTimerRef = none then 0 else 1 := by
  have hpolls : ∀ y ∈ s.timers.pending, y.every.isSome = true → s.pollTimerRef = some y.id := by
    intro y hy hevery
    cases h.timers.owner y hy with
    | reconnect _ every _ | refetch _ every _ => rw [every] at hevery; cases hevery
    | poll _ _ id => exact id
  cases hpoll : s.pollTimerRef with
  | none =>
    rw [if_pos rfl, List.countP_eq_zero]
    intro y hy hevery
    rw [hpolls y hy hevery] at hpoll
    cases hpoll
  | some i =>
    obtain ⟨x, hx, rfl, hevery⟩ := h.timers.polls i hpoll
    rw [if_neg (Option.some_ne_none _)]
    refine h.timers.fresh.countP_eq_one hx (by rw [hevery]; rfl) fun y hy hy' => ?_
    exact Option.some.inj ((hpolls y hy hy').symm.trans hpoll)

lemma countP_reconnects (h : Wired s) :
    (s.timers.pending.countP (·.task = .connectSse) = 0 ∧
      ∀ x ∈ s.timers.pending, x.task ≠ .connectSse) ∨
    (s.timers.pending.countP (·.task = .connectSse) = 1 ∧ s.sources = [] ∧
      s.pollTimerRef = none) := by
  by_cases hwait : ∃ x ∈ s.timers.pending, x.task = .connectSse
  · obtain ⟨x, hx, htask⟩ := hwait
    refine .inr ⟨h.timers.fresh.countP_eq_one hx (by simpa using htask) fun y hy hy' => ?_,
      h.waiting x hx htask⟩
    have htask' : y.task = .connectSse := by simpa using hy'
    exact Option.some.inj
      ((h.timers.ref_of_connectSse hy htask').symm.trans (h.timers.ref_of_connectSse hx htask))
  · have hnone : ∀ x ∈ s.timers.pending, x.task ≠ .connectSse :=
      fun x hx htask => hwait ⟨x, hx, htask⟩
    refine .inl ⟨List.countP_eq_zero.2 fun x hx => ?_, hnone⟩
    simpa using hnone x hx

lemma refetches_le_one (h : Wired s) : s.refetches ≤ 1 := by
  by_cases hwait : ∃ x ∈ s.timers.pending, x.task = .fetchList ∧ x.every = none
  · obtain ⟨x, hx, htask⟩ := hwait
    have hrefetch : ∀ y ∈ s.timers.pending, y.task = .fetchList ∧ y.every = none →
        s.refetchDebounceRef = some y.id := by
      rintro y hy ⟨htask, hevery⟩
      cases h.timers.owner y hy with
      | reconnect task _ _ => rw [htask] at task; cases task
      | refetch _ _ id => exact id
      | poll _ every _ => rw [hevery] at every; cases every
    refine (h.timers.fresh.countP_eq_one hx (by simpa using htask) fun y hy hy' => ?_).le
    exact Option.some.inj ((hrefetch y hy (by simpa using hy')).symm.trans (hrefetch x hx htask))
  · refine (List.countP_eq_zero.2 fun x hx htask => hwait ⟨x, hx, ?_⟩).le.trans (Nat.zero_le 1)
    simpa using htask

/-- Mounted, the provider has one transport; otherwise none. -/
lemma transports_eq (h : Wired s) : s.transports = if s.effect then 1 else 0 := by
  rw [Feed.transports, h.countP_polls]
  cases heffect : s.effect with
  | false =>
    obtain ⟨hpending, hsources, hpoll⟩ := h.down heffect
    simp [hpending, hsources, hpoll]
  | true =>
    rcases h.countP_reconnects with ⟨hzero, hnone⟩ | ⟨hone, hsources, hpoll⟩
    · rw [hzero]
      rcases h.up heffect with hsources | ⟨x, hx, htask⟩ | hpoll
      · obtain ⟨x, hx⟩ := List.exists_mem_of_ne_nil _ hsources
        simp [(h.sources_eq hx).1, (h.of_source hx).2.2.1]
      · exact absurd htask (hnone x hx)
      · simp [h.polling hpoll, hpoll]
    · simp [hone, hsources, hpoll]

end Wired

/-- However the network, the backend, the operator and React's mounting interleave, a mounted
provider has exactly one of an event source that is not closed, an armed reconnect and an armed
poll, at most one armed refetch and at most one list read that is not aborted; an unmounted one
has no timer and no event source left. -/
theorem one_transport {t : Feed WorkItem} {es : List (FeedEvent WorkItem)}
    (hrun : Feed.lts.run Feed.rendered es = some t) :
    t.transports = (if t.effect then 1 else 0) ∧ t.refetches ≤ 1 ∧
      (t.effect = false → t.timers.pending = []) ∧
      t.reads.countP (·.aborted = false) ≤ 1 := by
  have h := Wired.rendered.run hrun
  refine ⟨h.transports_eq, h.refetches_le_one, fun hdown => (h.down hdown).1, ?_⟩
  exact h.reading.countP_le_one

/-- The connection drops with a refetch armed, and the provider dials again. -/
def droppedEvents : List (FeedEvent Unit) :=
  [.mount, .opened 0, .incidentEvent 0, .failed 0, .pass 2000, .fire 1]

theorem one_transport_of_droppedEvents : ∃ t, Feed.lts.run Feed.rendered droppedEvents = some t ∧
    t.transports = 1 ∧ t.refetches = 1 ∧ t.reads.countP (·.aborted = false) ≤ 1 := by
  have hobserved : (Feed.lts.run Feed.rendered droppedEvents).map
      (fun t => (t.effect, t.refetches)) = some (true, 1) := by decide
  obtain ⟨t, hrun, ht⟩ := Option.map_eq_some_iff.1 hobserved
  obtain ⟨heffect, hrefetches⟩ := Prod.mk.inj ht
  obtain ⟨htransports, -, -, hreads⟩ := one_transport hrun
  exact ⟨t, hrun, by rw [htransports, heffect]; rfl, hrefetches, hreads⟩

/-! ### What is shown about it -/

namespace Feed

variable {s s' t : Feed WorkItem} {es : List (FeedEvent WorkItem)}

lemma run_connection (h : Wired s) (hrun : lts.run s es = some t) :
    sse.lts.run s.connection (lts.emitted connects s es) = some t.connection :=
  (Lts.run_refines (B := sse.lts) (g := fun _ _ => ([] : List ℕ)) (I := Wired)
    (fun _ _ _ hs he => hs.step he) (fun _ _ _ hs he => connection_step hs he) hrun h).1

lemma not_down_of_connects (hes : ∀ e ∈ es, e ≠ .unmount) :
    ∀ e ∈ lts.emitted connects s es, e ≠ .down := by
  refine Lts.forall_mem_emitted fun s e he b hb => ?_
  have hne := hes e he
  cases e with
  | unmount => exact absurd rfl hne
  | fire i =>
    simp only [connects] at hb
    split at hb
    · rw [List.mem_singleton.1 hb]
      simp
    · cases hb
  | mount | pass ms | opened i | failed i =>
    rw [List.mem_singleton.1 hb]
    simp
  | incidentEvent i | page i items | rejected i err | refresh => cases hb

/-- The failures of event sources behind the last one that opened. -/
def failuresInRow (es : List (FeedEvent WorkItem)) : ℕ :=
  es.foldl (fun n e =>
    match e with
    | .opened _ => 0
    | .failed _ => n + 1
    | _ => n) 0

lemma failuresInRow_connects (hrun : lts.run s es = some t) :
    Reconnect.failuresInRow (lts.emitted connects s es) = failuresInRow es := by
  induction es using List.reverseRecOn generalizing t with
  | nil => rfl
  | append_singleton es e ih =>
    obtain ⟨s', hrun', hstep⟩ := Lts.run_concat_inv hrun
    have ih := ih hrun'
    rw [Lts.emitted_concat hrun' hstep, failuresInRow, List.foldl_append, ← failuresInRow, ← ih]
    cases e with
    | fire i =>
      simp only [connects]
      split
      · rw [Reconnect.failuresInRow_concat]
        rfl
      · rw [List.append_nil]
        rfl
    | mount | unmount | pass ms | opened i | failed i =>
      rw [connects, Reconnect.failuresInRow_concat]
      rfl
    | incidentEvent i | page i items | rejected i err | refresh =>
      rw [connects, List.append_nil]
      rfl

/-- What a connection is shown as. -/
def shownAs : Link → IncidentsConnectionStatus
  | .off | .dialling | .waiting _ => .connecting
  | .live => .live
  | .fallback => .polling

/-- An event that leaves the connection as it is does not change what is shown. -/
lemma connectionStatus_of_connects {e : FeedEvent WorkItem} (hnil : s.connects e = [])
    (h : Wired s) (hstep : s.step e = some s') :
    s'.link = s.link ∧ s'.connectionStatus = s.connectionStatus := by
  have hconnection := connection_step h hstep
  rw [hnil, Lts.run_nil] at hconnection
  refine ⟨congrArg Connection.link (Option.some.inj hconnection).symm, ?_⟩
  cases e with
  | mount | unmount | pass ms | opened i | failed i => cases hnil
  | fire i =>
    obtain ⟨x, hx, rfl, hdue, ⟨htask, -⟩ | ⟨-, rfl⟩⟩ := step_fire_inv h hstep
    · rw [connects, Timers.fire_of_due h.timers.fresh hx hdue, htask] at hnil
      cases hnil
    · rfl
  | incidentEvent i =>
    obtain ⟨-, rfl⟩ := step_incidentEvent_inv hstep
    rfl
  | page i items | rejected i err =>
    obtain ⟨data, loading, error, rfl⟩ := step_settled_inv (i := i) (by simp) hstep
    rfl
  | refresh =>
    obtain rfl := Option.some.inj hstep
    rfl

/-- What is shown follows the connection. -/
lemma shownAs_step (h : Wired s) {e : FeedEvent WorkItem} (he : e ≠ .unmount)
    (hstep : s.step e = some s') (hs : s.connectionStatus = shownAs s.link) :
    s'.connectionStatus = shownAs s'.link := by
  by_cases hnil : s.connects e = []
  · obtain ⟨hlink, hstatus⟩ := connectionStatus_of_connects hnil h hstep
    rw [hstatus, hlink, hs]
  have h' := h.step hstep
  cases e with
  | unmount => exact absurd rfl he
  | incidentEvent i | page i items | rejected i err | refresh => exact absurd rfl hnil
  | mount =>
    obtain ⟨hdown, rfl⟩ := step_mount_inv h hstep
    rw [link_of_down h hdown] at hs
    exact hs
  | pass ms =>
    obtain rfl := Option.some.inj hstep
    exact hs
  | fire i =>
    obtain ⟨x, hx, rfl, hdue, ⟨htask, -, -, rfl⟩ | ⟨htask, -⟩⟩ := step_fire_inv h hstep
    · rw [link_of_waiting h hx htask] at hs
      exact hs
    · rw [connects, Timers.fire_of_due h.timers.fresh hx hdue, htask] at hnil
      exact absurd rfl hnil
  | opened i =>
    obtain ⟨-, -, rfl⟩ := step_opened_inv h hstep
    rfl
  | failed i =>
    obtain ⟨-, hnext⟩ := step_failed_inv h hstep
    split_ifs at hnext with hretries
    · rw [link_of_poll h' (by rw [hnext]; simp), hnext]
      rfl
    · rw [link_of_waiting h' (x := ⟨s.timers.next, s.timers.now +
        backoffDelayMs (s.retryCountRef + 1), none, .connectSse⟩) (by
          rw [hnext]
          exact Timers.mem_arm.2 (.inr rfl)) rfl, hnext]
      rfl

lemma shownAs_run (h : Wired s) (hs : s.connectionStatus = shownAs s.link)
    (hrun : lts.run s es = some t) (hes : ∀ e ∈ es, e ≠ .unmount) :
    t.connectionStatus = shownAs t.link := by
  have hinv := Lts.run_invariant_of_events
    (I := fun s : Feed WorkItem => Wired s ∧ s.connectionStatus = shownAs s.link)
    (fun s e s' hs he hstep => ⟨hs.1.step hstep, shownAs_step hs.1 he hstep hs.2⟩) hrun hes ⟨h, hs⟩
  exact hinv.2

/-- It is shown as polling exactly when it polls. -/
lemma polling_iff_link (h : t.connectionStatus = shownAs t.link) :
    t.connectionStatus = .polling ↔ t.link = .fallback := by
  rw [h]
  cases t.link <;> simp [shownAs]

lemma live_iff_link (h : t.connectionStatus = shownAs t.link) :
    t.connectionStatus = .live ↔ t.link = .live := by
  rw [h]
  cases t.link <;> simp [shownAs]

/-- A connection is live exactly when an event source is connected. -/
lemma link_eq_live_iff (h : Wired t) : t.link = .live ↔ ∃ i, ⟨i, true⟩ ∈ t.sources := by
  constructor
  · intro hlink
    cases hsources : t.sources with
    | nil =>
      simp only [link, hsources] at hlink
      split at hlink
      · cases hlink
      · split at hlink <;> cases hlink
    | cons x xs =>
      simp only [link, hsources] at hlink
      split_ifs at hlink with hopened
      exact ⟨x.id, by rw [← hopened]; simp⟩
  · rintro ⟨i, hi⟩
    rw [link_of_source (h.sources_eq hi).1]
    rfl

lemma link_eq_fallback_iff (h : Wired t) : t.link = .fallback ↔ t.pollTimerRef ≠ none := by
  refine ⟨fun hlink hpoll => ?_, link_of_poll h⟩
  simp only [link, hpoll] at hlink
  split at hlink
  · split_ifs at hlink
  · split at hlink <;> cases hlink

/-- Behind a poll timer nothing connects. -/
lemma polls_step (h : Wired s) {e : FeedEvent WorkItem} (he : e ≠ .unmount)
    (hstep : s.step e = some s') (hpoll : s.pollTimerRef ≠ none) {n : ℕ} (hn : s.nextSource = n) :
    s'.pollTimerRef ≠ none ∧ s'.nextSource = n := by
  have hnil := h.polling hpoll
  cases e with
  | unmount => exact absurd rfl he
  | mount =>
    obtain ⟨hdown, -⟩ := step_mount_inv h hstep
    exact absurd (h.down hdown).2.2 hpoll
  | pass ms =>
    obtain rfl := Option.some.inj hstep
    exact ⟨hpoll, hn⟩
  | fire i =>
    obtain ⟨x, -, -, -, ⟨-, -, hnone, -⟩ | ⟨-, rfl⟩⟩ := step_fire_inv h hstep
    · exact absurd hnone hpoll
    · exact ⟨hpoll, hn⟩
  | opened i =>
    obtain ⟨-, hnone, -⟩ := step_opened_inv h hstep
    exact absurd hnone hpoll
  | incidentEvent i =>
    obtain ⟨hmem, -⟩ := step_incidentEvent_inv hstep
    simp [hnil] at hmem
  | failed i =>
    obtain ⟨⟨opened, hsources⟩, -⟩ := step_failed_inv h hstep
    simp [hnil] at hsources
  | page i items | rejected i err =>
    obtain ⟨data, loading, error, rfl⟩ := step_settled_inv (i := i) (by simp) hstep
    exact ⟨hpoll, hn⟩
  | refresh =>
    obtain rfl := Option.some.inj hstep
    exact ⟨hpoll, hn⟩

end Feed

section Lifetime

variable {s t : Feed WorkItem} {es fs : List (FeedEvent WorkItem)}

/-- While the provider stays mounted, it shows `live` if and only if an event source is connected,
and `polling` if and only if more than `MAX_SSE_RETRIES` event sources failed in a row. -/
theorem connectionStatus_iff (hrun : Feed.lts.run Feed.rendered es = some t)
    (hes : ∀ e ∈ es, e ≠ .unmount) :
    (t.connectionStatus = .live ↔ ∃ i, ⟨i, true⟩ ∈ t.sources) ∧
      (t.connectionStatus = .polling ↔ MAX_SSE_RETRIES < Feed.failuresInRow es) := by
  have hshown := Feed.shownAs_run Wired.rendered rfl hrun hes
  refine ⟨?_, ?_⟩
  · rw [Feed.live_iff_link hshown, Feed.link_eq_live_iff (Wired.rendered.run hrun)]
  · have hconnection := Feed.run_connection Wired.rendered hrun
    have hiff := (Reconnect.fallback_iff hconnection (Feed.not_down_of_connects hes)).2
    rw [Feed.failuresInRow_connects hrun] at hiff
    rw [Feed.polling_iff_link hshown]
    exact hiff

/-- As many failures in a row as lead to polling. -/
def outage : List (FeedEvent Unit) :=
  ((List.range MAX_SSE_RETRIES).flatMap fun k =>
    [.failed k, .pass (backoffDelayMs (k + 1)), .fire k]) ++ [.failed MAX_SSE_RETRIES]

theorem connectionStatus_iff_of_outage : ∃ t,
    Feed.lts.run Feed.rendered (.mount :: outage) = some t ∧ t.connectionStatus = .polling := by
  have hobserved : (Feed.lts.run Feed.rendered (.mount :: outage)).isSome = true := by decide
  obtain ⟨t, hrun⟩ := Option.isSome_iff_exists.1 hobserved
  exact ⟨t, hrun, (connectionStatus_iff hrun (by decide)).2.2 (by decide)⟩

/-- A provider that polls never opens an event source again while it stays mounted. -/
theorem polling_stays (hrun : Feed.lts.run Feed.rendered es = some s)
    (hes : ∀ e ∈ es, e ≠ .unmount) (hrun' : Feed.lts.run s fs = some t)
    (hfs : ∀ e ∈ fs, e ≠ .unmount) (hs : s.connectionStatus = .polling) :
    t.connectionStatus = .polling ∧ t.sources = [] ∧ t.pollTimerRef ≠ none ∧
      t.nextSource = s.nextSource := by
  have hwired := Wired.rendered.run hrun
  have hshown := Feed.shownAs_run Wired.rendered rfl hrun hes
  have hpoll : s.pollTimerRef ≠ none :=
    (Feed.link_eq_fallback_iff hwired).1 ((Feed.polling_iff_link hshown).1 hs)
  have hinv := Lts.run_invariant_of_events
    (I := fun u : Feed WorkItem =>
      Wired u ∧ u.pollTimerRef ≠ none ∧ u.nextSource = s.nextSource)
    (fun u e u' hu he hstep => ⟨hu.1.step hstep, Feed.polls_step hu.1 he hstep hu.2.1 hu.2.2⟩)
    hrun' hfs ⟨hwired, hpoll, rfl⟩
  obtain ⟨hwired', hpoll', hnext⟩ := hinv
  have hshown' := Feed.shownAs_run hwired hshown hrun' hfs
  exact ⟨(Feed.polling_iff_link hshown').2 ((Feed.link_eq_fallback_iff hwired').2 hpoll'),
    hwired'.polling hpoll', hpoll', hnext⟩

theorem polling_stays_of_outage : ∃ s t,
    Feed.lts.run Feed.rendered (.mount :: outage) = some s ∧
      Feed.lts.run s [.pass 5000, .fire 5, .page 1 []] = some t ∧
      t.connectionStatus = .polling ∧ t.nextSource = s.nextSource := by
  have hobserved : (Feed.lts.run Feed.rendered (.mount :: outage)).map (fun s =>
      (s.connectionStatus, (Feed.lts.run s [.pass 5000, .fire 5, .page 1 []]).isSome)) =
        some (.polling, true) := by decide
  obtain ⟨s, hrun, hs⟩ := Option.map_eq_some_iff.1 hobserved
  obtain ⟨hstatus, hsome⟩ := Prod.mk.inj hs
  obtain ⟨t, hrun'⟩ := Option.isSome_iff_exists.1 hsome
  have h := polling_stays hrun (by decide) hrun' (by decide) hstatus
  exact ⟨s, t, hrun, hrun', h.1, h.2.2.2⟩

/-- From the first mount, and from a connected event source, to polling it takes a minute. -/
theorem polling_after_a_minute (hrun : Feed.lts.run Feed.rendered es = some s)
    (hes : ∀ e ∈ es, e ≠ .unmount) (hrun' : Feed.lts.run s fs = some t)
    (hfs : ∀ e ∈ fs, e ≠ .unmount) (hs : s.effect = false ∨ s.connectionStatus = .live)
    (ht : t.connectionStatus = .polling) : s.timers.now + 60000 ≤ t.timers.now := by
  have hwired := Wired.rendered.run hrun
  have hshown := Feed.shownAs_run Wired.rendered rfl hrun hes
  have hlink : s.link = .off ∨ s.link = .live :=
    hs.imp (Feed.link_of_down hwired) (Feed.live_iff_link hshown).1
  have hfallback : t.link = .fallback :=
    (Feed.polling_iff_link (Feed.shownAs_run hwired hshown hrun' hfs)).1 ht
  have hwaits : sse.waits sse.limit = 60000 := by decide
  have h := Reconnect.waits_le_of_fallback (Feed.run_connection Wired.rendered hrun)
    (Feed.not_down_of_connects hes) (Feed.run_connection hwired hrun')
    (Feed.not_down_of_connects hfs) hlink hfallback
  rw [hwaits] at h
  exact h

theorem polling_after_a_minute_of_outage : ∃ s t,
    Feed.lts.run (Feed.rendered : Feed Unit) [.mount, .pass 700, .opened 0] = some s ∧
      Feed.lts.run s outage = some t ∧ s.timers.now + 60000 ≤ t.timers.now := by
  have hobserved : (Feed.lts.run (Feed.rendered : Feed Unit) [.mount, .pass 700, .opened 0]).map
      (fun s => (s.connectionStatus, (Feed.lts.run s outage).map (·.connectionStatus))) =
        some (.live, some .polling) := by decide
  obtain ⟨s, hrun, hs⟩ := Option.map_eq_some_iff.1 hobserved
  obtain ⟨hlive, ht⟩ := Prod.mk.inj hs
  obtain ⟨t, hrun', hpolling⟩ := Option.map_eq_some_iff.1 ht
  exact ⟨s, t, hrun, hrun',
    polling_after_a_minute hrun (by decide) hrun' (by decide) (.inr hlive) hpolling⟩

end Lifetime

end InveniOps.Frontend
