import InveniOps.Ingestion.DebounceRuns

/-!
# The time-to-live of the session keys

`seedSession` gives the key its time-to-live with an `EXPIRE` of its own, behind the `HSET`.
`HINCRBY` gives none: on a session that has expired since the call read it, it makes a key
that stays until the next seeding of the component.
-/

namespace InveniOps.Ingestion

open Lib Stores

namespace SignalDebouncer

variable {d : SignalDebouncer} {signal : IngestionSignal} {io : Io} {w : World}

lemma leave_ne_expire {locked : Bool} {result : DebounceResult} (locked' : Bool)
    (outcome : Except Thrown DebounceResult) : leave locked' outcome ≠ .expire locked result := by
  cases locked' <;> simp [leave]

lemma caught_ne_expire {locked : Bool} {result : DebounceResult} (locked' created : Bool)
    (e : Thrown) : d.caught locked' created e ≠ .expire locked result := by
  unfold caught
  split_ifs
  · simp
  · exact leave_ne_expire _ _

/-- A call gets to the `EXPIRE` from its answered `HSET` only. -/
lemma resolveStep_expire_iff (pc : ResolvePc) :
    (∃ locked result, (d.resolveStep signal io w pc).2 = .expire locked result) ↔
      (∃ locked result startedAtMs, pc = .seed locked result startedAtMs) ∧ io.outcome = .ok := by
  constructor
  · rintro ⟨locked, result, h⟩
    have hruns : ResolveRuns d signal io w pc (.expire locked result) := h ▸ resolveRuns pc
    generalize hpc : ResolvePc.expire locked result = pc' at hruns
    cases hruns with
    | seeded answered => exact ⟨⟨_, _, _, rfl⟩, answered⟩
    | noWinner => exact absurd hpc.symm (leave_ne_expire _ _)
    | expires => exact absurd hpc.symm (leave_ne_expire _ _)
    | left locked' e => exact absurd hpc.symm (leave_ne_expire _ _)
    | createThrew e => exact absurd hpc.symm (caught_ne_expire _ _ _)
    | seedThrew locked' created e => exact absurd hpc.symm (caught_ne_expire _ _ _)
    | _ => cases hpc
  · rintro ⟨⟨locked, result, startedAtMs, rfl⟩, hok⟩
    refine ⟨locked, result, ?_⟩
    simp only [resolveStep, onRedis, hok]
    rfl

end SignalDebouncer

namespace DebounceSystem

/-- The call is between the `HSET` and the `EXPIRE` of `seedSession`. -/
def Expiring (s : DebounceSystem) (c : ComponentId) (k : ℕ) : Prop :=
  ∃ signal locked result, s.calls k = .started signal (.expire locked result) ∧
    signal.componentId = c

/-- The session key of the component, if there is one, has a time-to-live. -/
def Timed (s : DebounceSystem) (c : ComponentId) : Prop :=
  ∀ key, s.world.redis.sessions c = some key → key.ttl ≠ none

/-- Every session key has a time-to-live, but for those that are just getting one. -/
def SessionsExpire (s : DebounceSystem) : Prop :=
  ∀ c, s.Timed c ∨ ∃ k, s.Expiring c k

/-- The step of a call leaves no session without a time-to-live, unless another call is
about to set it. -/
def KeepsExpiry (s : DebounceSystem) (k : ℕ) (io : Io) (c : ComponentId) : ResolvePc → Prop
  | .bump _ => io.outcome.isApplied = true →
    s.world.redis.sessions c ≠ none ∨ ∃ l, s.Expiring c l
  -- the reply to the `HSET` is lost, and the `EXPIRE` is not sent
  | .seed _ _ _ => io.outcome.isApplied = true → io.outcome = .ok ∨
    (s.world.redis.sessions c ≠ none ∧ s.Timed c) ∨ ∃ l, s.Expiring c l
  | .expire _ _ => io.outcome.isApplied = true ∨ s.Timed c ∨ ∃ l, l ≠ k ∧ s.Expiring c l
  | _ => True

/-- The event executes no command that leaves a session without its expiry. -/
def Harmless (s : DebounceSystem) : DebounceEvent → Prop
  | .step k io =>
    match s.calls k with
    | .started signal pc => s.KeepsExpiry k io signal.componentId pc
    | .idle => True
  | _ => True

variable {d : SignalDebouncer} {s s' : DebounceSystem} {c : ComponentId} {k : ℕ}
  {signal : IngestionSignal} {pc : ResolvePc} {io : Io}

lemma expiring_stepped (hk : s.calls k = .started signal pc) (l : ℕ) :
    (stepped d s k signal io pc).Expiring c l ↔ (l ≠ k ∧ s.Expiring c l) ∨
      l = k ∧ signal.componentId = c ∧
        ∃ locked result, (d.resolveStep signal io s.world pc).2 = .expire locked result := by
  simp only [Expiring, stepped]
  rcases eq_or_ne l k with rfl | hne
  · simp only [Function.update_self, Call.started.injEq, ne_eq, not_true_eq_false, false_and,
      true_and, false_or]
    constructor
    · rintro ⟨_, locked, result, ⟨rfl, hpc⟩, hc⟩
      exact ⟨hc, locked, result, hpc⟩
    · rintro ⟨hc, locked, result, hpc⟩
      exact ⟨signal, locked, result, ⟨rfl, hpc⟩, hc⟩
  · simp [hne]

/-- A step of a call changes the session and the seedings of its own component only. -/
lemma sessionsExpire_stepped (h : s.SessionsExpire) (hk : s.calls k = .started signal pc) :
    (stepped d s k signal io pc).SessionsExpire ↔
      (stepped d s k signal io pc).Timed signal.componentId ∨
        ∃ l, (stepped d s k signal io pc).Expiring signal.componentId l := by
  refine ⟨fun hall => hall signal.componentId, fun hown c => ?_⟩
  rcases eq_or_ne c signal.componentId with rfl | hne
  · exact hown
  · refine (h c).imp ?_ ?_
    · intro htimed key hkey
      refine htimed key ?_
      rw [← hkey]
      simp only [stepped, SignalDebouncer.sessions_resolveStep]
      rw [if_neg fun hcond => hne hcond.1]
    · rintro ⟨l, hl⟩
      refine ⟨l, (expiring_stepped hk l).2 (.inl ⟨?_, hl⟩)⟩
      rintro rfl
      obtain ⟨signal', locked, result, hcall, hc⟩ := hl
      rw [hk] at hcall
      cases hcall
      exact hne hc.symm

/-- Behind a step another call is still seeding, or the one that has just written its hash. -/
lemma exists_expiring_stepped (hk : s.calls k = .started signal pc) :
    (∃ l, (stepped d s k signal io pc).Expiring signal.componentId l) ↔
      (∃ l, l ≠ k ∧ s.Expiring signal.componentId l) ∨
        (∃ locked result startedAtMs, pc = .seed locked result startedAtMs) ∧
          io.outcome = .ok := by
  simp only [expiring_stepped hk, SignalDebouncer.resolveStep_expire_iff, true_and]
  constructor
  · rintro ⟨l, hl | ⟨-, hseed⟩⟩
    · exact .inl ⟨l, hl⟩
    · exact .inr hseed
  · rintro (⟨l, hl⟩ | hseed)
    · exact ⟨l, .inl hl⟩
    · exact ⟨k, .inr ⟨rfl, hseed⟩⟩

lemma timed_stepped : (stepped d s k signal io pc).Timed signal.componentId ↔
    ∀ key, (if io.outcome.isApplied = true then
        d.sessionAfter (s.world.redis.sessions signal.componentId) pc
      else s.world.redis.sessions signal.componentId) = some key → key.ttl ≠ none := by
  simp only [Timed, stepped, SignalDebouncer.sessions_resolveStep, true_and]

/-- A call elsewhere is not among those that are about to set a time-to-live. -/
lemma exists_expiring_ne_iff (hk : s.calls k = .started signal pc)
    (hpc : ∀ locked result, pc ≠ .expire locked result) :
    (∃ l, l ≠ k ∧ s.Expiring c l) ↔ ∃ l, s.Expiring c l := by
  constructor
  · rintro ⟨l, -, hl⟩
    exact ⟨l, hl⟩
  · rintro ⟨l, hl⟩
    refine ⟨l, ?_, hl⟩
    rintro rfl
    obtain ⟨signal', locked, result, hcall, -⟩ := hl
    rw [hk] at hcall
    cases hcall
    exact hpc locked result rfl

/-- The sessions behind a step keep their time-to-live exactly if the step is harmless. -/
lemma keepsExpiry_iff (h : s.SessionsExpire) (hk : s.calls k = .started signal pc) :
    s.KeepsExpiry k io signal.componentId pc ↔ (stepped d s k signal io pc).SessionsExpire := by
  rw [sessionsExpire_stepped h hk, exists_expiring_stepped hk, timed_stepped]
  have hbefore : (∀ key, s.world.redis.sessions signal.componentId = some key → key.ttl ≠ none) ∨
      ∃ l, s.Expiring signal.componentId l := h signal.componentId
  cases pc with
  | bump x =>
    rw [exists_expiring_ne_iff hk (by simp)]
    simp only [KeepsExpiry, SignalDebouncer.sessionAfter, reduceCtorEq, exists_false, false_and,
      or_false]
    cases happlied : io.outcome.isApplied with
    | false => simpa using hbefore
    | true =>
      cases hkey : s.world.redis.sessions signal.componentId with
      | none => simp
      | some key =>
        simp only [hkey, Option.some.injEq, forall_eq'] at hbefore
        simpa using hbefore
  | seed locked result startedAtMs =>
    rw [exists_expiring_ne_iff hk (by simp)]
    simp only [KeepsExpiry, SignalDebouncer.sessionAfter, ResolvePc.seed.injEq]
    cases happlied : io.outcome.isApplied with
    | false =>
      have hno : io.outcome ≠ .ok := by
        rintro heq
        rw [heq] at happlied
        cases happlied
      simpa [hno] using hbefore
    | true =>
      cases hkey : s.world.redis.sessions signal.componentId with
      | none => simp [or_comm]
      | some key => simp [Timed, hkey, or_comm, or_left_comm]
  | expire locked result =>
    simp only [KeepsExpiry, SignalDebouncer.sessionAfter, reduceCtorEq, exists_false, false_and,
      or_false]
    cases happlied : io.outcome.isApplied with
    | false => simp [Timed]
    | true =>
      cases hkey : s.world.redis.sessions signal.componentId <;> simp
  | _ =>
    rw [exists_expiring_ne_iff hk (by simp)]
    simp only [KeepsExpiry, SignalDebouncer.sessionAfter, ite_self, reduceCtorEq, exists_false,
      false_and, or_false, true_iff]
    exact hbefore

/-- An event that is harmless is exactly one behind which every session expires. -/
lemma harmless_iff {e : DebounceEvent} (h : s.SessionsExpire) (hstep : s.step d e = some s') :
    s.Harmless e ↔ s'.SessionsExpire := by
  cases e with
  | start k signal =>
    obtain ⟨hk, rfl⟩ := step_start_inv hstep
    refine iff_of_true trivial fun c => (h c).imp id ?_
    rintro ⟨l, signal', locked, result, hl, hc⟩
    have hne : l ≠ k := by
      rintro rfl
      rw [hk] at hl
      cases hl
    exact ⟨l, signal', locked, result, (Function.update_of_ne hne _ _).trans hl, hc⟩
  | step k io =>
    obtain ⟨signal, pc, hk, -, -, rfl⟩ := step_step_inv hstep
    simp only [Harmless, hk]
    exact keepsExpiry_iff h hk
  | write write clock =>
    obtain ⟨postgres, -, rfl⟩ := step_write_inv hstep
    exact iff_of_true trivial h
  | sessionLost c' =>
    obtain rfl := Option.some.inj hstep
    refine iff_of_true trivial fun c => (h c).imp ?_ id
    intro htimed key hkey
    refine htimed key ?_
    rcases eq_or_ne c c' with rfl | hne
    · simp [Redis.setSession] at hkey
    · simpa [Redis.setSession, hne] using hkey
  | lockLost c' =>
    obtain rfl := Option.some.inj hstep
    exact iff_of_true trivial h

/-- In a run every session key has a time-to-live at any moment, but for those that a
`seedSession` is giving one, exactly if no step of the run leaves a key without it. -/
theorem sessions_expire_iff {es : List DebounceEvent} (hrun : (lts d).run quiet es = some s) :
    (lts d).Meets Harmless quiet es ↔ ∀ t ∈ (lts d).visited quiet es, t.SessionsExpire := by
  refine Lts.meets_iff_visited (fun _ _ _ h hstep => harmless_iff h hstep) hrun ?_
  intro c
  left
  intro key hkey
  cases hkey

/-- A session expires between its judgement and the bump of its count. -/
def leakEvents : List DebounceEvent :=
  let signal := cacheSignal "a" "c" .P1
  .start 0 signal :: List.replicate 5 (.step 0 ⟨.ok, "w", 5⟩) ++
    List.replicate 4 (.step 0 ⟨.ok, "v", 5⟩) ++
    [.start 1 signal, .step 1 ⟨.ok, "v", 6⟩, .step 1 ⟨.ok, "v", 6⟩, .sessionLost "c",
      .step 1 ⟨.ok, "v", 6⟩]

/-- The key that the bump makes has no time-to-live, and nobody is about to set it. -/
lemma not_sessionsExpire_of_leakEvents : ∃ s,
    (lts .standard).run quiet leakEvents = some s ∧ ¬ s.SessionsExpire := by
  have hobserved : ((lts .standard).run quiet leakEvents).map (fun s =>
      (s.world.redis.sessions "c", (s.calls 0).result.isSome, (s.calls 1).result.isSome))
        = some (some ⟨⟨none, some 1, none⟩, none⟩, true, true) := by
    decide +kernel
  obtain ⟨s, hrun, hs⟩ := Option.map_eq_some_iff.1 hobserved
  simp only [Prod.mk.injEq] at hs
  obtain ⟨hkey, hdone₀, hdone₁⟩ := hs
  have hidle : ∀ k, 2 ≤ k → s.calls k = .idle := idle_of_run hrun (by decide) fun _ _ => rfl
  refine ⟨s, hrun, fun hexpire => ?_⟩
  rcases hexpire "c" with htimed | ⟨k, signal, locked, result, hk, -⟩
  · exact htimed _ hkey rfl
  · match k with
    | 0 => simp [hk, Call.result] at hdone₀
    | 1 => simp [hk, Call.result] at hdone₁
    | k + 2 =>
      rw [hidle (k + 2) (by omega)] at hk
      cases hk

theorem session_leaks : ¬ ∀ es s, (lts .standard).run quiet es = some s → s.SessionsExpire := by
  intro hclaim
  obtain ⟨s, hrun, hleak⟩ := not_sessionsExpire_of_leakEvents
  exact hleak (hclaim _ s hrun)

theorem sessions_expire_iff_of_leakEvents :
    ¬ (lts .standard).Meets Harmless quiet leakEvents := by
  obtain ⟨s, hrun, hleak⟩ := not_sessionsExpire_of_leakEvents
  intro hmeets
  have hlast : s ∈ (lts .standard).visited quiet (leakEvents ++ []) := Lts.mem_visited hrun
  exact hleak ((sessions_expire_iff hrun).1 hmeets s (List.append_nil leakEvents ▸ hlast))

end DebounceSystem

end InveniOps.Ingestion
