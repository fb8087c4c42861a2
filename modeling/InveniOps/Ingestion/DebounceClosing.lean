import InveniOps.Ingestion.DebounceRuns

/-!
# Callers of the debouncer against closings

A `resolve` call answers either with an item that was active at some instant of
the call itself, or with the item of a session that it judged valid: the session
was then seeded by a call during which the item was active.  A session is not
dropped when its item is closed, so the second answer may be a `CLOSED` item.
-/

namespace InveniOps.Ingestion

open Lib Stores

namespace DebounceSystem

variable (d : SignalDebouncer) (s₀ : DebounceSystem) (es : List DebounceEvent)

/-- The `k`-th call has started and has not returned. -/
def InProgress (s : DebounceSystem) (k : ℕ) : Prop :=
  ∃ signal pc, s.calls k = .started signal pc ∧ pc.isDone = false

/-- At some instant between the start and the return of the `k`-th call, `w` was
an item of the component that was not `CLOSED`. -/
def OpenDuring (k : ℕ) (c : ComponentId) (w : WorkItemId) : Prop :=
  (lts d).Passed s₀ es fun _ t => t.InProgress k ∧ ActiveItem t.world.postgres c w

/-- A call for the component wrote a session with `w` and the given start, and
`w` was not `CLOSED` at some instant of that call. -/
def SeededOpen (c : ComponentId) (w : WorkItemId) (startedAtMs : Option Instant) : Prop :=
  ∃ j started, startedAtMs = some started ∧ OpenDuring d s₀ es j c w ∧
    (lts d).Passed s₀ es fun _ t => ∃ signal locked created,
      t.calls j = .started signal (.seed locked ⟨w, created⟩ started) ∧ signal.componentId = c

/-- The `k`-th call judged a session of its component valid that names `w`:
below the threshold, its start less than the window before the clock reading,
and seeded while `w` was open. -/
def Trusted (k : ℕ) (c : ComponentId) (w : WorkItemId) : Prop :=
  ∃ pre io post t signal pc raw, es = pre ++ .step k io :: post ∧ (lts d).run s₀ pre = some t ∧
    t.calls k = .started signal pc ∧ pc.Judges raw ∧ raw.workItemId = some w ∧
    raw.count.getD 0 < d.threshold ∧
    io.now - raw.startedAtMs.getD 0 < d.windowSeconds * 1000 ∧
    SeededOpen d s₀ pre c w raw.startedAtMs

variable {d s₀ es} {s s' : DebounceSystem}

lemma OpenDuring.mono {k : ℕ} {c : ComponentId} {w : WorkItemId} (h : OpenDuring d s₀ es k c w)
    (fs : List DebounceEvent) : OpenDuring d s₀ (es ++ fs) k c w :=
  Lts.Passed.mono h fs

lemma SeededOpen.mono {c : ComponentId} {w : WorkItemId} {startedAtMs : Option Instant}
    (h : SeededOpen d s₀ es c w startedAtMs) (fs : List DebounceEvent) :
    SeededOpen d s₀ (es ++ fs) c w startedAtMs := by
  obtain ⟨j, started, hstarted, hopen, hseed⟩ := h
  exact ⟨j, started, hstarted, hopen.mono fs, hseed.mono fs⟩

lemma Trusted.mono {k : ℕ} {c : ComponentId} {w : WorkItemId} (h : Trusted d s₀ es k c w)
    (fs : List DebounceEvent) : Trusted d s₀ (es ++ fs) k c w := by
  obtain ⟨pre, io, post, t, signal, pc, raw, rfl, h⟩ := h
  exact ⟨pre, io, post ++ fs, t, signal, pc, raw, by simp, h⟩

variable (d s₀ es) in
/-- What the runs keep: every session was seeded while its item was open, and
every call can account for its answer. -/
structure ClosingInv (s : DebounceSystem) : Prop where
  session : ∀ c w, (s.world.redis.session c).workItemId = some w →
    SeededOpen d s₀ es c w (s.world.redis.session c).startedAtMs
  calls : ∀ k signal pc, s.calls k = .started signal pc →
    pc.Justified (SeededOpen d s₀ es signal.componentId) (OpenDuring d s₀ es k signal.componentId)
      fun w => OpenDuring d s₀ es k signal.componentId w ∨ Trusted d s₀ es k signal.componentId w

lemma ClosingInv.call_mono (h : ClosingInv d s₀ es s) (fs : List DebounceEvent) {k : ℕ}
    {signal : IngestionSignal} {pc : ResolvePc} (hk : s.calls k = .started signal pc) :
    pc.Justified (SeededOpen d s₀ (es ++ fs) signal.componentId)
      (OpenDuring d s₀ (es ++ fs) k signal.componentId) fun w =>
        OpenDuring d s₀ (es ++ fs) k signal.componentId w ∨
          Trusted d s₀ (es ++ fs) k signal.componentId w :=
  (h.calls k signal pc hk).imp (fun _ _ hs => hs.mono fs) (fun _ ho => ho.mono fs)
    fun _ ha => ha.imp (·.mono fs) (·.mono fs)

/-- A step of a call keeps the invariant. -/
lemma ClosingInv.stepCall (h : ClosingInv d s₀ es s) (hrun : (lts d).run s₀ es = some s) {k : ℕ}
    {io : Io} (hstep : s.step d (.step k io) = some s') :
    ClosingInv d s₀ (es ++ [.step k io]) s' := by
  have hrun' : (lts d).run s₀ (es ++ [.step k io]) = some s' := Lts.run_concat hrun hstep
  obtain ⟨signal, pc, hk, hdone, -, rfl⟩ := step_step_inv hstep
  have hown := (h.calls k signal pc hk).imp (fun _ _ hs => hs)
    (fun _ ho => OpenDuring.mono ho [.step k io])
    (fun _ ha => ha.imp (OpenDuring.mono · [.step k io]) (Trusted.mono · [.step k io]))
  constructor
  · intro c x hx
    dsimp only at hx ⊢
    rcases SignalDebouncer.resolveStep_session pc c with ⟨hname, hstart⟩ |
      ⟨_, result, t, hpc, hc, hset⟩
    · rw [hname] at hx
      rw [hstart]
      exact (h.session c x hx).mono _
    · -- the call writes the item that it found or created itself
      rw [hset] at hx ⊢
      obtain rfl := Option.some.inj hx
      subst hc hpc
      exact ⟨k, t, rfl, hown, (Lts.Passed.now hrun ⟨signal, _, result.created, hk, rfl⟩).mono _⟩
  · intro j signal' pc' hj
    by_cases hjk : j = k
    · subst hjk
      dsimp only at hj
      rw [Function.update_self] at hj
      cases hj
      refine ((SignalDebouncer.resolveRuns _).justified hown (fun _ => .inl) ?_ ?_ ?_).imp
        (fun _ _ hs => hs.mono _) (fun _ => id) fun _ => id
      · exact h.session signal.componentId
      · intro raw x hjudges hvalid hseeded
        obtain ⟨hx, hcount, hwindow⟩ := SignalDebouncer.validSession_some hvalid
        exact .inr ⟨es, io, [], s, signal, pc, raw, rfl, hrun, hk, hjudges, hx, hcount, hwindow,
          hseeded⟩
      · intro locked result hseeding
        refine Lts.Passed.now hrun' ⟨⟨signal, _, Function.update_self .., ?_⟩,
          SignalDebouncer.active_of_seeding hseeding⟩
        rw [hseeding]
        rfl
    · dsimp only at hj
      rw [Function.update_of_ne hjk] at hj
      exact h.call_mono _ hj

/-- Every event keeps the invariant. -/
lemma ClosingInv.step (h : ClosingInv d s₀ es s) (hrun : (lts d).run s₀ es = some s)
    {e : DebounceEvent} (hstep : s.step d e = some s') : ClosingInv d s₀ (es ++ [e]) s' := by
  cases e with
  | start k signal =>
    obtain ⟨hk, rfl⟩ := step_start_inv hstep
    refine ⟨fun c x hx => (h.session c x hx).mono _, ?_⟩
    intro j signal' pc hj
    dsimp only at hj
    by_cases hjk : j = k
    · subst hjk
      rw [Function.update_self] at hj
      cases hj
      trivial
    · rw [Function.update_of_ne hjk] at hj
      exact h.call_mono _ hj
  | step k io => exact h.stepCall hrun hstep
  | write write clock =>
    obtain ⟨postgres, -, rfl⟩ := step_write_inv hstep
    exact ⟨fun c x hx => (h.session c x hx).mono _, fun k signal pc hk => h.call_mono _ hk⟩
  | sessionLost c' =>
    obtain rfl := Option.some.inj hstep
    refine ⟨?_, fun k signal pc hk => h.call_mono _ hk⟩
    intro c x hx
    rw [Redis.session_setSession] at hx ⊢
    split_ifs at hx ⊢
    · cases hx
    · exact (h.session c x hx).mono _
  | lockLost c' =>
    obtain rfl := Option.some.inj hstep
    exact ⟨fun c x hx => (h.session c x hx).mono _, fun k signal pc hk => h.call_mono _ hk⟩

/-- Whatever closes in between: a call returns an item that was not `CLOSED` at
some instant of the call, or one whose session it judged valid and that was not
`CLOSED` at some instant of the call that seeded the session. -/
theorem open_or_trusted_of_run (hidle : ∀ k, s₀.calls k = .idle)
    (hcold : ∀ c, s₀.world.redis.session c = .absent) (hrun : (lts d).run s₀ es = some s)
    {k : ℕ} {signal : IngestionSignal} {result : DebounceResult}
    (hk : s.calls k = .started signal (.done (.ok result))) :
    OpenDuring d s₀ es k signal.componentId result.workItemId ∨
      Trusted d s₀ es k signal.componentId result.workItemId := by
  have h₀ : ClosingInv d s₀ [] s₀ := by
    constructor
    · intro c x hx
      rw [hcold c] at hx
      cases hx
    · intro k signal pc hk
      rw [hidle k] at hk
      cases hk
  have hstep : ∀ es s e s', (lts d).run s₀ es = some s → ClosingInv d s₀ es s →
      (lts d).step s e = some s' → ClosingInv d s₀ (es ++ [e]) s' :=
    fun _ _ _ _ hrun h hstep => h.step hrun hstep
  exact (Lts.run_invariant_history h₀ hstep hrun).calls k signal _ hk

/-! ### A session that outlives its item -/

/-- A call creates an item, which is then worked off and closed; a second call
starts only afterwards. -/
def closedEvents : List DebounceEvent :=
  let signal := cacheSignal "a" "c" .P1
  let rca : RcaFields := ⟨5, 6, "NETWORK", "A switch rebooted.", "Replaced the switch.", "Spares."⟩
  .start 0 signal :: List.replicate 5 (.step 0 ⟨.ok, "w", 5⟩) ++
    List.replicate 4 (.step 0 ⟨.ok, "v", 5⟩) ++
    [.write (.transitionState ⟨"w", .OPEN, .INVESTIGATING, "ops", none, none⟩) 6,
      .write (.transitionState ⟨"w", .INVESTIGATING, .RESOLVED, "ops", some 6, none⟩) 6,
      .write (.submitRca ⟨"w", "ops", rca, 0, 7⟩) 7] ++
    .start 1 signal :: List.replicate 3 (.step 1 ⟨.ok, "v", 8⟩)

/-- The test that `not_passed_of_visited` runs on each state: the second call in
progress and the item open. -/
def openInSecondCall (s : DebounceSystem) : Bool :=
  (match s.calls 1 with
    | .started _ pc => !pc.isDone
    | .idle => false) &&
  match s.world.postgres.row "w" with
    | some r => r.state ≠ .CLOSED
    | none => false

/-- The second call returns an item that was `CLOSED` from before its start. -/
theorem closed_item_returned :
    ¬ ∀ es s, (lts .standard).run quiet es = some s → ∀ k signal result,
      s.calls k = .started signal (.done (.ok result)) →
        OpenDuring .standard quiet es k signal.componentId result.workItemId := by
  intro hclaim
  have hobserved : ((lts .standard).run quiet closedEvents).map (fun s => (s.calls 1).result)
      = some (some ⟨"w", false⟩) := by
    decide +kernel
  obtain ⟨s, hrun, hs⟩ := Option.map_eq_some_iff.1 hobserved
  obtain ⟨signal, hk⟩ := Call.of_result hs
  refine Lts.not_passed_of_visited openInSecondCall ?_ ?_ (hclaim _ s hrun 1 signal _ hk)
  · rintro pre t ⟨⟨signal', pc, hpc, hdone⟩, r, hr, -, hopen⟩
    simp [openInSecondCall, hpc, hdone, hr, hopen]
  · decide +kernel

/-- The same run, in which the answer comes from the session. -/
theorem open_or_trusted_of_closedEvents : ∃ s signal,
    (lts .standard).run quiet closedEvents = some s ∧
      s.calls 1 = .started signal (.done (.ok ⟨"w", false⟩)) ∧
      (OpenDuring .standard quiet closedEvents 1 signal.componentId "w" ∨
        Trusted .standard quiet closedEvents 1 signal.componentId "w") := by
  have hobserved : ((lts .standard).run quiet closedEvents).map (fun s => (s.calls 1).result)
      = some (some ⟨"w", false⟩) := by
    decide +kernel
  obtain ⟨s, hrun, hs⟩ := Option.map_eq_some_iff.1 hobserved
  obtain ⟨signal, hk⟩ := Call.of_result hs
  exact ⟨s, signal, hrun, hk, open_or_trusted_of_run (fun _ => rfl) (fun _ => rfl) hrun hk⟩

end DebounceSystem

end InveniOps.Ingestion
