import InveniOps.Lib.ListFacts
import InveniOps.Ingestion.DebounceClosing

/-!
# How many calls one seeding of a session answers

A call that reads a session and finds it valid bumps its count only later, and may bump the
count of another seeding then.  The runs are recorded: each seeding with its start, the
seeding that every call has read last, and the calls that have returned through a session.
While a seeding is in place its count is at least the number of the calls that have
returned through it; the calls that have read it by then are all in progress.
-/

namespace InveniOps.Ingestion

open Lib Stores

/-- A call that has returned through a session: the seeding that it read, and the clock
reading at which it judged it valid. -/
structure SessionReturn where
  call : ℕ
  seeding : Option ℕ
  judgedAt : Instant
deriving DecidableEq

/-- What a recorded run remembers of the sessions. -/
structure SessionLog where
  /-- Each `HSET` that was carried out, with its component and its `startedAtMs`. -/
  seedings : List (ComponentId × Instant)
  /-- The seeding that the session of a component goes back to. -/
  current : ComponentId → Option ℕ
  /-- The seeding of the session that a call has read last. -/
  read : ℕ → Option ℕ
  /-- The clock reading at which a call has judged a session last. -/
  judgedAt : ℕ → Instant
  returns : List SessionReturn

namespace SessionLog

/-- The log before any signal was resolved. -/
def empty : SessionLog := ⟨[], fun _ => none, fun _ => none, fun _ => 0, []⟩

/-- The record of one step of a call. -/
def onStep (log : SessionLog) (k : ℕ) (c : ComponentId) (io : Io) : ResolvePc → SessionLog
  | .readSession | .pollRead _ => { log with read := Function.update log.read k (log.current c) }
  | .judgeSession _ | .pollJudge _ _ =>
    { log with judgedAt := Function.update log.judgedAt k io.now }
  | .bump _ =>
    if io.outcome = .ok then
      { log with returns := log.returns ++ [⟨k, log.read k, log.judgedAt k⟩] }
    else log
  | .seed _ _ startedAtMs =>
    if io.outcome.isApplied then
      { log with
        seedings := log.seedings ++ [(c, startedAtMs)]
        current := Function.update log.current c (some log.seedings.length) }
    else log
  | _ => log

/-- The number of the calls that have returned through a seeding. -/
def returned (log : SessionLog) (j : ℕ) : ℕ := log.returns.countP (·.seeding = some j)

/-- The session that a call has judged valid was a seeding of its component in its window. -/
def InWindow (d : SignalDebouncer) (log : SessionLog) (c : ComponentId) (seeding : Option ℕ)
    (judgedAt : Instant) : Prop :=
  ∃ j startedAtMs, seeding = some j ∧ log.seedings[j]? = some (c, startedAtMs) ∧
    judgedAt - startedAtMs < d.windowSeconds * 1000

variable {d : SignalDebouncer} {log log' : SessionLog} {k : ℕ} {c : ComponentId} {io : Io}
  {pc : ResolvePc}

lemma InWindow.mono {seeding : Option ℕ} {judgedAt : Instant}
    (h : log.InWindow d c seeding judgedAt) (hinitial : log.seedings <+: log'.seedings) :
    log'.InWindow d c seeding judgedAt := by
  obtain ⟨j, startedAtMs, hj, hseeding, hwindow⟩ := h
  exact ⟨j, startedAtMs, hj, getElem?_of_prefix hinitial hseeding, hwindow⟩

lemma seedings_onStep : log.seedings <+: (log.onStep k c io pc).seedings := by
  cases pc with
  | seed locked result startedAtMs =>
    simp only [onStep]
    split_ifs
    · exact List.prefix_append _ _
    · exact List.prefix_rfl
  | bump x =>
    simp only [onStep]
    split_ifs <;> exact List.prefix_rfl
  | _ => exact List.prefix_rfl

lemma read_onStep (l : ℕ) : (log.onStep k c io pc).read l
    = if l = k ∧ pc.reads then log.current c else log.read l := by
  cases pc with
  | readSession | pollRead deadline => simp [onStep, ResolvePc.reads, Function.update_apply]
  | bump x | seed locked result startedAtMs =>
    simp only [onStep, ResolvePc.reads, and_false, if_false, Bool.false_eq_true]
    split_ifs <;> rfl
  | _ => simp [onStep, ResolvePc.reads]

lemma judgedAt_onStep_of_ne {l : ℕ} (hl : l ≠ k) :
    (log.onStep k c io pc).judgedAt l = log.judgedAt l := by
  cases pc with
  | judgeSession raw | pollJudge deadline raw => exact Function.update_of_ne hl _ _
  | bump x | seed locked result startedAtMs =>
    simp only [onStep]
    split_ifs <;> rfl
  | _ => rfl

lemma judgedAt_onStep {raw : SessionHash} (h : pc.Judges raw) :
    (log.onStep k c io pc).judgedAt k = io.now := by
  rcases h with rfl | ⟨deadline, rfl⟩ <;> exact Function.update_self ..

/-- Only `HSET` makes a seeding. -/
lemma onStep_of_ne_seed (log : SessionLog) (k : ℕ) (c : ComponentId) (io : Io)
    (hpc : ∀ locked result t, pc ≠ .seed locked result t) :
    (log.onStep k c io pc).current = log.current ∧
      (log.onStep k c io pc).seedings = log.seedings := by
  cases pc with
  | seed locked result t => exact absurd rfl (hpc locked result t)
  | bump x =>
    simp only [onStep]
    split_ifs <;> exact ⟨rfl, rfl⟩
  | _ => exact ⟨rfl, rfl⟩

/-- A call that bumps the count returns through the session that it has read. -/
lemma returns_onStep (log : SessionLog) (k : ℕ) (c : ComponentId) (io : Io) (pc : ResolvePc) :
    (log.onStep k c io pc).returns = log.returns ∨
      ∃ x, pc = .bump x ∧ io.outcome = .ok ∧ (log.onStep k c io pc).returns
        = log.returns ++ [⟨k, log.read k, log.judgedAt k⟩] := by
  cases pc with
  | bump x =>
    simp only [onStep]
    split_ifs with hok
    · exact .inr ⟨x, rfl, hok, rfl⟩
    · exact .inl rfl
  | seed locked result startedAtMs =>
    simp only [onStep]
    split_ifs <;> exact .inl rfl
  | _ => exact .inl rfl

lemma returned_onStep (log : SessionLog) (k : ℕ) (c : ComponentId) (io : Io) (pc : ResolvePc)
    (j : ℕ) : (log.onStep k c io pc).returned j = log.returned j ∨
      ∃ x, pc = .bump x ∧ io.outcome = .ok ∧ log.read k = some j ∧
        (log.onStep k c io pc).returned j = log.returned j + 1 := by
  rcases log.returns_onStep k c io pc with hsame | ⟨x, rfl, hok, hnew⟩
  · exact .inl (congrArg (List.countP _) hsame)
  · unfold returned
    rw [hnew, List.countP_append, List.countP_singleton]
    by_cases hread : log.read k = some j
    · exact .inr ⟨x, rfl, hok, hread, by simp [hread]⟩
    · exact .inl (by simp [hread])

end SessionLog

namespace DebounceSystem

/-- The record of one event. -/
def record (s : DebounceSystem) : DebounceEvent → SessionLog → SessionLog
  | .step k io, log =>
    match s.calls k with
    | .started signal pc => log.onStep k signal.componentId io pc
    | .idle => log
  | .sessionLost c, log => { log with current := Function.update log.current c none }
  | _, log => log

/-- The callers of a debouncer with the record of their sessions. -/
def recorded (d : SignalDebouncer) : Lts (DebounceSystem × SessionLog) DebounceEvent :=
  (lts d).withHistory record

/-- What a session says is what its last seeding wrote, but for the count. -/
def Attributed (redis : Redis) (log : SessionLog) (c : ComponentId) : Prop :=
  match log.current c with
  | none => (redis.session c).workItemId = none
  | some j => ∃ w n t, redis.session c = ⟨some w, some n, some t⟩ ∧ log.seedings[j]? = some (c, t)

/-- Every call can account for the session that it holds. -/
structure WindowInv (d : SignalDebouncer) (s : DebounceSystem) (log : SessionLog) : Prop where
  sessions : ∀ c, Attributed s.world.redis log c
  judging : ∀ k signal pc raw, s.calls k = .started signal pc → pc.Judges raw →
    (log.read k = none ∧ raw.workItemId = none) ∨ ∃ j t, log.read k = some j ∧
      log.seedings[j]? = some (signal.componentId, t) ∧ raw.startedAtMs = some t
  bumping : ∀ k signal x, s.calls k = .started signal (.bump x) →
    log.InWindow d signal.componentId (log.read k) (log.judgedAt k)
  returns : ∀ r ∈ log.returns, ∃ signal w,
    s.calls r.call = .started signal (.done (.ok ⟨w, false⟩)) ∧
      log.InWindow d signal.componentId r.seeding r.judgedAt

variable {d : SignalDebouncer} {s s' : DebounceSystem} {log : SessionLog}

lemma Attributed.onStep {w : World} {signal : IngestionSignal} {c : ComponentId} {io : Io}
    {pc : ResolvePc} {k : ℕ} (h : Attributed w.redis log c) :
    Attributed (d.resolveStep signal io w pc).1.redis (log.onStep k signal.componentId io pc)
      c := by
  unfold Attributed at h ⊢
  rw [SignalDebouncer.session_resolveStep]
  by_cases hseed : ∃ locked result t, pc = .seed locked result t
  · obtain ⟨locked, result, t, rfl⟩ := hseed
    simp only [SessionLog.onStep]
    by_cases happlied : io.outcome.isApplied = true
    · simp only [happlied, and_true, if_true]
      rcases eq_or_ne c signal.componentId with rfl | hne
      · simp only [if_true, Function.update_self]
        exact ⟨result.workItemId, 0, t, rfl, by simp⟩
      · simp only [if_neg hne, Function.update_of_ne hne]
        cases hcurrent : log.current c with
        | none =>
          rw [hcurrent] at h
          exact h
        | some j =>
          rw [hcurrent] at h
          obtain ⟨x, n, t', hsession, hseeding⟩ := h
          exact ⟨x, n, t', hsession, getElem?_of_prefix (List.prefix_append _ _) hseeding⟩
    · simp only [happlied, Bool.false_eq_true, and_false, if_false]
      exact h
  · have hne : ∀ locked result t, pc ≠ .seed locked result t := fun locked result t hpc =>
      hseed ⟨locked, result, t, hpc⟩
    obtain ⟨hcurrent, hseedings⟩ := log.onStep_of_ne_seed k signal.componentId io hne
    rw [hcurrent, hseedings]
    split_ifs with hcond
    · cases pc with
      | seed locked result t => exact absurd rfl (hne locked result t)
      | bump x =>
        -- `HINCRBY` on an absent session makes one without a work item
        cases hj : log.current c with
        | none =>
          rw [hj] at h
          exact h
        | some j =>
          rw [hj] at h
          obtain ⟨y, n, t, hsession, hseeding⟩ := h
          exact ⟨y, n + 1, t, by simp [hsession], hseeding⟩
      | _ => exact h
    · exact h

section OnStep

variable {io : Io} {signal : IngestionSignal} {pc : ResolvePc} {k l : ℕ}

/-- The session that a call holds behind a step has just been read, or was held before. -/
lemma WindowInv.judging_onStep (h : WindowInv d s log) {signal' : IngestionSignal}
    {pc' : ResolvePc} {raw : SessionHash}
    (hl : (stepped d s k signal io pc).calls l = .started signal' pc') (hjudges : pc'.Judges raw) :
    ((log.onStep k signal.componentId io pc).read l = none ∧ raw.workItemId = none) ∨
      ∃ j t, (log.onStep k signal.componentId io pc).read l = some j ∧
        (log.onStep k signal.componentId io pc).seedings[j]? = some (signal'.componentId, t) ∧
        raw.startedAtMs = some t := by
  have hinitial : log.seedings <+: (log.onStep k signal.componentId io pc).seedings :=
    SessionLog.seedings_onStep
  have htakes : SignalDebouncer.TakesSession d io.now
      (s.world.redis.session signal.componentId) pc (d.resolveStep signal io s.world pc).2 :=
    (SignalDebouncer.resolveRuns pc).takesSession
  dsimp only [stepped] at hl
  rcases eq_or_ne l k with rfl | hne
  · rw [Function.update_self] at hl
    cases hl
    generalize (d.resolveStep signal io s.world pc).2 = pc' at htakes hjudges
    cases htakes with
    | read hreads hsession =>
      have hraw : raw = s.world.redis.session signal.componentId := by
        rcases hjudges with rfl | ⟨deadline, rfl⟩ <;> rcases hsession with heq | ⟨_, heq⟩ <;>
          cases heq <;> rfl
      have hattributed := h.sessions signal.componentId
      unfold Attributed at hattributed
      rw [SessionLog.read_onStep, if_pos ⟨rfl, hreads⟩]
      cases hcurrent : log.current signal.componentId with
      | none =>
        rw [hcurrent, ← hraw] at hattributed
        exact .inl ⟨rfl, hattributed⟩
      | some j =>
        rw [hcurrent, ← hraw] at hattributed
        obtain ⟨x, n, t, rfl, hseeding⟩ := hattributed
        exact .inr ⟨j, t, rfl, getElem?_of_prefix hinitial hseeding, rfl⟩
    | judged => rcases hjudges with heq | ⟨_, heq⟩ <;> cases heq
    | none hholds => rcases hjudges with rfl | ⟨_, rfl⟩ <;> cases hholds
  · rw [Function.update_of_ne hne] at hl
    rw [SessionLog.read_onStep, if_neg (fun hcond => hne hcond.1)]
    refine (h.judging l signal' pc' raw hl hjudges).imp_right ?_
    rintro ⟨j, t, hread, hseeding, ht⟩
    exact ⟨j, t, hread, getElem?_of_prefix hinitial hseeding, ht⟩

/-- A call that comes to its bump has just judged the seeding that it read. -/
lemma WindowInv.bumping_onStep (h : WindowInv d s log) (hk : s.calls k = .started signal pc)
    {signal' : IngestionSignal} {x : WorkItemId}
    (hl : (stepped d s k signal io pc).calls l = .started signal' (.bump x)) :
    (log.onStep k signal.componentId io pc).InWindow d signal'.componentId
      ((log.onStep k signal.componentId io pc).read l)
      ((log.onStep k signal.componentId io pc).judgedAt l) := by
  have hinitial : log.seedings <+: (log.onStep k signal.componentId io pc).seedings :=
    SessionLog.seedings_onStep
  have htakes : SignalDebouncer.TakesSession d io.now
      (s.world.redis.session signal.componentId) pc (d.resolveStep signal io s.world pc).2 :=
    (SignalDebouncer.resolveRuns pc).takesSession
  dsimp only [stepped] at hl
  rcases eq_or_ne l k with rfl | hne
  · rw [Function.update_self] at hl
    obtain ⟨rfl, hbump⟩ := Call.started.inj hl
    rw [hbump] at htakes
    cases htakes with
    | read hreads hsession => rcases hsession with heq | ⟨_, heq⟩ <;> cases heq
    | @judged raw _ hjudges hvalid =>
      obtain ⟨hx, -, hwindow⟩ := SignalDebouncer.validSession_some hvalid
      have hreads : pc.reads = false := by rcases hjudges with rfl | ⟨_, rfl⟩ <;> rfl
      rw [SessionLog.read_onStep, SessionLog.judgedAt_onStep hjudges, hreads]
      rcases h.judging l signal pc raw hk hjudges with ⟨-, hnone⟩ | ⟨j, t, hread, hseeding, ht⟩
      · rw [hnone] at hx
        cases hx
      · rw [ht] at hwindow
        exact ⟨j, t, by simpa using hread, getElem?_of_prefix hinitial hseeding, hwindow⟩
    | none hholds => cases hholds
  · rw [Function.update_of_ne hne] at hl
    rw [SessionLog.read_onStep, if_neg (fun hcond => hne hcond.1),
      SessionLog.judgedAt_onStep_of_ne hne]
    exact (h.bumping l signal' x hl).mono hinitial

/-- A call that returns through a session has bumped it just now, or had returned before. -/
lemma WindowInv.returns_onStep (h : WindowInv d s log) (hk : s.calls k = .started signal pc)
    (hdone : pc.isDone = false) {r : SessionReturn}
    (hr : r ∈ (log.onStep k signal.componentId io pc).returns) :
    ∃ signal' w, (stepped d s k signal io pc).calls r.call
        = .started signal' (.done (.ok ⟨w, false⟩)) ∧
      (log.onStep k signal.componentId io pc).InWindow d signal'.componentId r.seeding
        r.judgedAt := by
  have hinitial : log.seedings <+: (log.onStep k signal.componentId io pc).seedings :=
    SessionLog.seedings_onStep
  have hold : r ∈ log.returns → ∃ signal' w, (stepped d s k signal io pc).calls r.call
      = .started signal' (.done (.ok ⟨w, false⟩)) ∧
      (log.onStep k signal.componentId io pc).InWindow d signal'.componentId r.seeding
        r.judgedAt := by
    intro hmem
    obtain ⟨signal', w, hcall, hwindow⟩ := h.returns r hmem
    refine ⟨signal', w, ?_, hwindow.mono hinitial⟩
    have hne : r.call ≠ k := by
      rintro heq
      rw [heq, hk] at hcall
      cases hcall
      cases hdone
    simpa only [stepped, Function.update_of_ne hne] using hcall
  rcases log.returns_onStep k signal.componentId io pc with hsame | ⟨x, rfl, hok, hnew⟩
  · exact hold (hsame ▸ hr)
  · rw [hnew] at hr
    rcases List.mem_append.1 hr with hmem | hlast
    · exact hold hmem
    · obtain rfl := List.mem_singleton.1 hlast
      refine ⟨signal, x, ?_, (h.bumping k signal x hk).mono hinitial⟩
      simp only [stepped, Function.update_self, SignalDebouncer.resolveStep,
        SignalDebouncer.onRedis, hok]
      rfl

/-- A step of a call keeps the account. -/
lemma WindowInv.onStep (h : WindowInv d s log) (hk : s.calls k = .started signal pc)
    (hdone : pc.isDone = false) :
    WindowInv d (stepped d s k signal io pc) (log.onStep k signal.componentId io pc) where
  sessions c := (h.sessions c).onStep
  judging _ _ _ _ hl hjudges := h.judging_onStep hl hjudges
  bumping _ _ _ hl := h.bumping_onStep hk hl
  returns _ hr := h.returns_onStep hk hdone hr

end OnStep

lemma WindowInv.step (h : WindowInv d s log) {e : DebounceEvent} (hstep : s.step d e = some s') :
    WindowInv d s' (record s e log) := by
  cases e with
  | start k signal =>
    obtain ⟨hidle, rfl⟩ := step_start_inv hstep
    refine ⟨h.sessions, ?_, ?_, ?_⟩
    · intro l signal' pc raw hl hjudges
      dsimp only at hl
      rcases eq_or_ne l k with rfl | hne
      · rw [Function.update_self] at hl
        cases hl
        rcases hjudges with heq | ⟨_, heq⟩ <;> cases heq
      · rw [Function.update_of_ne hne] at hl
        exact h.judging l signal' pc raw hl hjudges
    · intro l signal' x hl
      dsimp only at hl
      rcases eq_or_ne l k with rfl | hne
      · rw [Function.update_self] at hl
        cases hl
      · rw [Function.update_of_ne hne] at hl
        exact h.bumping l signal' x hl
    · intro r hr
      obtain ⟨signal', w, hcall, hwindow⟩ := h.returns r hr
      have hne : r.call ≠ k := by
        rintro heq
        rw [heq, hidle] at hcall
        cases hcall
      exact ⟨signal', w, by simpa only [Function.update_of_ne hne] using hcall, hwindow⟩
  | step k io =>
    obtain ⟨signal, pc, hk, hdone, -, rfl⟩ := step_step_inv hstep
    simp only [record, hk]
    exact h.onStep hk hdone
  | write write clock =>
    obtain ⟨postgres, -, rfl⟩ := step_write_inv hstep
    exact ⟨h.sessions, h.judging, h.bumping, h.returns⟩
  | sessionLost c' =>
    obtain rfl := Option.some.inj hstep
    refine ⟨?_, h.judging, h.bumping, h.returns⟩
    intro c
    have hattributed := h.sessions c
    simp only [Attributed, record, Redis.session_setSession] at hattributed ⊢
    rcases eq_or_ne c c' with rfl | hne
    · simp [SessionHash.absent]
    · simpa only [Function.update_of_ne hne, if_neg hne] using hattributed
  | lockLost c' =>
    obtain rfl := Option.some.inj hstep
    exact ⟨h.sessions, h.judging, h.bumping, h.returns⟩

/-! ### The calls that may still return through a seeding -/

/-- The call holds the seeding and has not found it used up. -/
def MayReturn (d : SignalDebouncer) (s : DebounceSystem) (log : SessionLog) (c : ComponentId)
    (j k : ℕ) : Prop :=
  log.read k = some j ∧ ∃ signal pc, s.calls k = .started signal pc ∧ signal.componentId = c ∧
    ((∃ raw, pc.Judges raw ∧ raw.count.getD 0 < d.threshold) ∨ ∃ x, pc = .bump x)

/-- A call for the component is in progress. -/
def InProgressFor (s : DebounceSystem) (c : ComponentId) (k : ℕ) : Prop :=
  ∃ signal pc, s.calls k = .started signal pc ∧ signal.componentId = c ∧ pc.isDone = false

/-- At most `n` calls for the component are in progress. -/
def AtMost (n : ℕ) (c : ComponentId) (s : DebounceSystem) (_ : DebounceEvent) : Prop :=
  ∀ ks : List ℕ, ks.Nodup → (∀ k ∈ ks, s.InProgressFor c k) → ks.length ≤ n

/-- The count of a session in place covers the returns through it, and with the calls that
may still return through a seeding these stay below the bound. -/
structure CountInv (d : SignalDebouncer) (n : ℕ) (c : ComponentId) (s : DebounceSystem)
    (log : SessionLog) : Prop where
  count : ∀ j, log.current c = some j →
    (log.returned j : ℤ) ≤ (s.world.redis.session c).count.getD 0
  bound : ∀ j t, log.seedings[j]? = some (c, t) → ∀ ks : List ℕ, ks.Nodup →
    (∀ k ∈ ks, MayReturn d s log c j k) → log.returned j + ks.length ≤ d.threshold + n - 1

variable {n : ℕ} {c : ComponentId} {j k : ℕ}

lemma MayReturn.inProgressFor (h : MayReturn d s log c j k) : s.InProgressFor c k := by
  obtain ⟨-, signal, pc, hk, hc, hholds⟩ := h
  refine ⟨signal, pc, hk, hc, ?_⟩
  rcases hholds with ⟨raw, rfl | ⟨deadline, rfl⟩, -⟩ | ⟨x, rfl⟩ <;> rfl

/-- What a call holds is a seeding of its component. -/
lemma MayReturn.seeding (h : MayReturn d s log c j k) (hs : WindowInv d s log) :
    ∃ t, log.seedings[j]? = some (c, t) := by
  obtain ⟨hread, signal, pc, hk, rfl, hholds⟩ := h
  rcases hholds with ⟨raw, hjudges, -⟩ | ⟨x, rfl⟩
  · rcases hs.judging k signal pc raw hk hjudges with ⟨hnone, -⟩ | ⟨j', t, hj', hseeding, -⟩
    · rw [hread] at hnone
      cases hnone
    · rw [hread] at hj'
      obtain rfl := Option.some.inj hj'
      exact ⟨t, hseeding⟩
  · obtain ⟨j', t, hj', hseeding, -⟩ := hs.bumping k signal x hk
    rw [hread] at hj'
    obtain rfl := Option.some.inj hj'
    exact ⟨t, hseeding⟩

/-- The seeding of a return is one of those made so far. -/
lemma WindowInv.returned_eq_zero (h : WindowInv d s log) (hj : log.seedings.length ≤ j) :
    log.returned j = 0 := by
  refine List.countP_eq_zero.2 ?_
  intro r hr
  obtain ⟨signal, w, -, j', t, hseeding, hget, -⟩ := h.returns r hr
  have hlt := (List.getElem?_eq_some_iff.1 hget).1
  simp only [hseeding, Option.some.injEq, decide_eq_true_eq]
  omega

section

variable {signal : IngestionSignal} {pc : ResolvePc} {io : Io}

/-- Only a read of the session adds a call to those that may return through its seeding. -/
lemma MayReturn.of_stepped (hk : s.calls k = .started signal pc) {i : ℕ}
    (h : MayReturn d (stepped d s k signal io pc) (log.onStep k signal.componentId io pc) c j i) :
    (i = k ∧ pc.reads = true ∧ signal.componentId = c ∧ log.current c = some j ∧
        (s.world.redis.session c).count.getD 0 < d.threshold) ∨
      MayReturn d s log c j i ∧ ¬ (i = k ∧ ∃ x, pc = .bump x) := by
  obtain ⟨hread, signal', pc', hi, hc, hholds⟩ := h
  dsimp only [stepped] at hi
  rcases eq_or_ne i k with rfl | hne
  · rw [Function.update_self] at hi
    cases hi
    have htakes : SignalDebouncer.TakesSession d io.now
        (s.world.redis.session signal.componentId) pc (d.resolveStep signal io s.world pc).2 :=
      (SignalDebouncer.resolveRuns pc).takesSession
    generalize (d.resolveStep signal io s.world pc).2 = pc' at htakes hholds
    cases htakes with
    | read hreads hsession =>
      rw [SessionLog.read_onStep, if_pos ⟨rfl, hreads⟩] at hread
      subst hc
      refine .inl ⟨rfl, hreads, rfl, hread, ?_⟩
      rcases hholds with ⟨raw, hjudges, hcount⟩ | ⟨x, rfl⟩
      · have hraw : raw = s.world.redis.session signal.componentId := by
          rcases hjudges with rfl | ⟨deadline, rfl⟩ <;> rcases hsession with heq | ⟨_, heq⟩ <;>
            cases heq <;> rfl
        exact hraw ▸ hcount
      · rcases hsession with heq | ⟨_, heq⟩ <;> cases heq
    | @judged raw x hjudges hvalid =>
      obtain ⟨-, hcount, -⟩ := SignalDebouncer.validSession_some hvalid
      have hreads : pc.reads = false := by rcases hjudges with rfl | ⟨_, rfl⟩ <;> rfl
      rw [SessionLog.read_onStep, hreads] at hread
      refine .inr ⟨⟨by simpa using hread, signal, pc, hk, hc, .inl ⟨raw, hjudges, hcount⟩⟩, ?_⟩
      rintro ⟨-, x, rfl⟩
      rcases hjudges with heq | ⟨_, heq⟩ <;> cases heq
    | none hnone =>
      rcases hholds with ⟨raw, rfl | ⟨deadline, rfl⟩, -⟩ | ⟨x, rfl⟩ <;> cases hnone
  · rw [Function.update_of_ne hne] at hi
    rw [SessionLog.read_onStep, if_neg (fun hcond => hne hcond.1)] at hread
    exact .inr ⟨⟨hread, signal', pc', hi, hc, hholds⟩, fun hcond => hne hcond.1⟩

lemma CountInv.count_stepped (h : CountInv d n c s log) (hs : WindowInv d s log)
    (hk : s.calls k = .started signal pc)
    (hj : (log.onStep k signal.componentId io pc).current c = some j) :
    ((log.onStep k signal.componentId io pc).returned j : ℤ)
      ≤ ((stepped d s k signal io pc).world.redis.session c).count.getD 0 := by
  dsimp only [stepped]
  rw [SignalDebouncer.session_resolveStep]
  by_cases hseed : ∃ locked result t, pc = .seed locked result t
  · obtain ⟨locked, result, t, rfl⟩ := hseed
    have hreturned : ∀ j, (log.onStep k signal.componentId io (.seed locked result t)).returned j
        = log.returned j := by
      intro j
      rcases log.returned_onStep k signal.componentId io (.seed locked result t) j with
        hsame | ⟨x, heq, -⟩
      · exact hsame
      · cases heq
    rw [hreturned]
    simp only [SessionLog.onStep] at hj
    by_cases happlied : io.outcome.isApplied = true
    · simp only [happlied, and_true, if_true] at hj ⊢
      rcases eq_or_ne c signal.componentId with rfl | hne
      · rw [Function.update_self] at hj
        obtain rfl := Option.some.inj hj
        simp [hs.returned_eq_zero le_rfl]
      · rw [Function.update_of_ne hne] at hj
        rw [if_neg hne]
        exact h.count j hj
    · simp only [happlied, Bool.false_eq_true, and_false, if_false] at hj ⊢
      exact h.count j hj
  · have hne : ∀ locked result t, pc ≠ .seed locked result t := fun locked result t hpc =>
      hseed ⟨locked, result, t, hpc⟩
    rw [(log.onStep_of_ne_seed k signal.componentId io hne).1] at hj
    have hcount := h.count j hj
    rcases log.returned_onStep k signal.componentId io pc j with hsame | ⟨x, rfl, hok, hread, hnew⟩
    · rw [hsame]
      split_ifs
      · cases pc with
        | bump x => exact hcount.trans (by simp)
        | seed locked result t => exact absurd rfl (hne locked result t)
        | _ => exact hcount
      · exact hcount
    · -- the call has bumped the count of the seeding that it returns through
      have hown : c = signal.componentId := by
        have hattributed := hs.sessions c
        obtain ⟨j', t, hj', hseeding, -⟩ := hs.bumping k signal x hk
        rw [hread] at hj'
        obtain rfl := Option.some.inj hj'
        unfold Attributed at hattributed
        rw [hj] at hattributed
        obtain ⟨_, _, t', -, hseeding'⟩ := hattributed
        rw [hseeding] at hseeding'
        exact (Prod.mk.inj (Option.some.inj hseeding')).1.symm
      rw [hnew, if_pos ⟨hown, by rw [hok]; rfl⟩]
      simpa using hcount

lemma CountInv.bound_stepped (h : CountInv d n c s log) (hs : WindowInv d s log)
    (hmost : s.AtMost n c (.step k io)) (hk : s.calls k = .started signal pc)
    (hdone : pc.isDone = false) {t : Instant}
    (hj : (log.onStep k signal.componentId io pc).seedings[j]? = some (c, t)) {ks : List ℕ}
    (hnodup : ks.Nodup) (hks : ∀ i ∈ ks, MayReturn d (stepped d s k signal io pc)
      (log.onStep k signal.componentId io pc) c j i) :
    (log.onStep k signal.componentId io pc).returned j + ks.length ≤ d.threshold + n - 1 := by
  have hcases := fun i hi => (hks i hi).of_stepped hk
  by_cases hnew : ∃ i ∈ ks, i = k ∧ pc.reads = true ∧ signal.componentId = c ∧
      log.current c = some j ∧ (s.world.redis.session c).count.getD 0 < d.threshold
  · -- the call has read the seeding in place: all that may return are in progress
    obtain ⟨_, -, rfl, hreads, hc, hcurrent, hcount⟩ := hnew
    have hlength : ks.length ≤ n := by
      refine hmost ks hnodup ?_
      intro i hi
      rcases hcases i hi with ⟨rfl, -⟩ | ⟨hmay, -⟩
      · exact ⟨signal, pc, hk, hc, hdone⟩
      · exact hmay.inProgressFor
    have hreturned := h.count j hcurrent
    rcases log.returned_onStep _ signal.componentId io pc j with hsame | ⟨x, rfl, -⟩
    · rw [hsame]
      omega
    · cases hreads
  · have hold : ∀ i ∈ ks, MayReturn d s log c j i ∧ ¬ (i = k ∧ ∃ x, pc = .bump x) := by
      intro i hi
      exact (hcases i hi).resolve_left fun hleft => hnew ⟨i, hi, hleft⟩
    rcases log.returned_onStep k signal.componentId io pc j with hsame | ⟨x, rfl, -, hread, hreturn⟩
    · rw [hsame]
      cases ks with
      | nil =>
        rcases Nat.lt_or_ge j log.seedings.length with hlt | hge
        · have hget : log.seedings[j]? = some (c, t) := by
            obtain ⟨rest, hrest⟩ : log.seedings
                <+: (log.onStep k signal.componentId io pc).seedings :=
              SessionLog.seedings_onStep
            rwa [← hrest, List.getElem?_append_left hlt] at hj
          exact h.bound j t hget [] List.nodup_nil (fun _ hi => by cases hi)
        · simp [hs.returned_eq_zero hge]
      | cons i ks =>
        obtain ⟨t', hget⟩ := (hold i List.mem_cons_self).1.seeding hs
        exact h.bound j t' hget _ hnodup fun i hi => (hold i hi).1
    · -- the returning call was one of those that might return
      obtain ⟨j', t', hj', hget, -⟩ := hs.bumping k signal x hk
      rw [hread] at hj'
      obtain rfl := Option.some.inj hj'
      have hc : signal.componentId = c := by
        have hsame : (log.onStep k signal.componentId io (.bump x)).seedings[j]?
            = some (signal.componentId, t') :=
          getElem?_of_prefix SessionLog.seedings_onStep hget
        rw [hj] at hsame
        exact (Prod.mk.inj (Option.some.inj hsame)).1.symm
      have hbound := h.bound j t' (hc ▸ hget) (k :: ks) ?_ ?_
      · rw [List.length_cons] at hbound
        omega
      · exact List.nodup_cons.2 ⟨fun hmem => (hold k hmem).2 ⟨rfl, x, rfl⟩, hnodup⟩
      · intro i hi
        rcases List.mem_cons.1 hi with rfl | hmem
        · exact ⟨hread, signal, _, hk, hc, .inr ⟨x, rfl⟩⟩
        · exact (hold i hmem).1

end

/-- What changes no seeding, no return and no call that may return keeps the account. -/
lemma CountInv.congr (h : CountInv d n c s log) {log' : SessionLog}
    (hcount : ∀ j, log'.current c = some j → log.current c = some j ∧
      (s'.world.redis.session c).count = (s.world.redis.session c).count)
    (hseedings : log'.seedings = log.seedings) (hreturns : log'.returns = log.returns)
    (hmay : ∀ j k, MayReturn d s' log' c j k → MayReturn d s log c j k) :
    CountInv d n c s' log' := by
  have hreturned : ∀ j, log'.returned j = log.returned j := fun j =>
    congrArg (List.countP _) hreturns
  constructor
  · intro j hj
    obtain ⟨hcurrent, hsame⟩ := hcount j hj
    rw [hsame, hreturned]
    exact h.count j hcurrent
  · intro j t hj ks hnodup hks
    rw [hreturned]
    exact h.bound j t (hseedings ▸ hj) ks hnodup fun k hk => hmay j k (hks k hk)

lemma CountInv.step (h : CountInv d n c s log) (hs : WindowInv d s log) {e : DebounceEvent}
    (hmost : s.AtMost n c e) (hstep : s.step d e = some s') :
    CountInv d n c s' (record s e log) := by
  cases e with
  | start k signal =>
    obtain ⟨-, rfl⟩ := step_start_inv hstep
    refine h.congr (fun j hj => ⟨hj, rfl⟩) rfl rfl ?_
    rintro j i ⟨hread, signal', pc, hi, hc, hholds⟩
    dsimp only at hi
    rcases eq_or_ne i k with rfl | hne
    · rw [Function.update_self] at hi
      cases hi
      rcases hholds with ⟨raw, heq | ⟨_, heq⟩, -⟩ | ⟨x, heq⟩ <;> cases heq
    · rw [Function.update_of_ne hne] at hi
      exact ⟨hread, signal', pc, hi, hc, hholds⟩
  | step k io =>
    obtain ⟨signal, pc, hk, hdone, -, rfl⟩ := step_step_inv hstep
    simp only [record, hk]
    exact ⟨fun j hj => h.count_stepped hs hk hj, fun j t hj ks hnodup hks =>
      h.bound_stepped hs hmost hk hdone hj hnodup hks⟩
  | write write clock =>
    obtain ⟨postgres, -, rfl⟩ := step_write_inv hstep
    exact h.congr (fun j hj => ⟨hj, rfl⟩) rfl rfl fun j k hmay => hmay
  | sessionLost c' =>
    obtain rfl := Option.some.inj hstep
    refine h.congr ?_ rfl rfl fun j k hmay => hmay
    intro j hj
    simp only [record, Redis.session_setSession] at hj ⊢
    rcases eq_or_ne c c' with rfl | hne
    · rw [Function.update_self] at hj
      cases hj
    · rw [Function.update_of_ne hne] at hj
      exact ⟨hj, by rw [if_neg hne]⟩
  | lockLost c' =>
    obtain rfl := Option.some.inj hstep
    exact h.congr (fun j hj => ⟨hj, rfl⟩) rfl rfl fun j k hmay => hmay

lemma windowInv_quiet (d : SignalDebouncer) : WindowInv d quiet .empty := by
  refine ⟨fun c => rfl, ?_, ?_, ?_⟩
  · intro k signal pc raw hk
    cases hk
  · intro k signal x hk
    cases hk
  · intro r hr
    cases hr

lemma countInv_quiet (d : SignalDebouncer) (n : ℕ) (c : ComponentId) :
    CountInv d n c quiet .empty := by
  constructor
  · intro j hj
    cases hj
  · intro j t hj
    cases hj

/-- Whatever the order of the reads, seedings and bumps, a call that returns through a
session has judged its seeding valid within the window, and of the component of whose calls
never more than `n` are in progress at most `threshold + n - 1` return through one seeding. -/
theorem returns_within_window {es : List DebounceEvent}
    (hrun : (recorded d).run (quiet, .empty) es = some (s, log)) :
    (∀ r ∈ log.returns, ∃ signal w,
      s.calls r.call = .started signal (.done (.ok ⟨w, false⟩)) ∧
        log.InWindow d signal.componentId r.seeding r.judgedAt) ∧
      ∀ n c, (lts d).Meets (AtMost n c) quiet es → ∀ j t, log.seedings[j]? = some (c, t) →
        log.returned j ≤ d.threshold + n - 1 := by
  have hwindow : WindowInv d s log := Lts.run_withHistory_invariant
    (P := fun _ _ => True) (fun _ _ _ _ h _ hstep => h.step hstep) hrun
    (Lts.meets_of_forall (fun _ _ => trivial) _ _) (windowInv_quiet d)
  refine ⟨hwindow.returns, ?_⟩
  intro n c hmost j t hj
  have hstep : ∀ s e s' log, WindowInv d s log ∧ CountInv d n c s log → AtMost n c s e →
      (lts d).step s e = some s' →
      WindowInv d s' (record s e log) ∧ CountInv d n c s' (record s e log) :=
    fun s e s' log h hmost hstep => ⟨h.1.step hstep, h.2.step h.1 hmost hstep⟩
  have hcount : WindowInv d s log ∧ CountInv d n c s log :=
    Lts.run_withHistory_invariant hstep hrun hmost ⟨windowInv_quiet d, countInv_quiet d n c⟩
  exact hcount.2.bound j t hj [] List.nodup_nil fun _ hi => by cases hi

/-- Calls with numbers below `n` are at most `n` calls. -/
lemma meets_atMost {n : ℕ} {es : List DebounceEvent} (hes : ∀ e ∈ es, ∀ k ∈ e.started, k < n)
    {s : DebounceSystem} (hidle : ∀ k, n ≤ k → s.calls k = .idle) (c : ComponentId) :
    (lts d).Meets (AtMost n c) s es := by
  induction es generalizing s with
  | nil => trivial
  | cons e es ih =>
    refine ⟨?_, fun s' hstep => ih (fun e' he' => hes e' (List.mem_cons_of_mem _ he')) ?_⟩
    · intro ks hnodup hks
      have hsubset : ks ⊆ List.range n := by
        intro k hk
        obtain ⟨signal, pc, hcall, -⟩ := hks k hk
        rw [List.mem_range]
        by_contra hge
        rw [hidle k (not_lt.1 hge)] at hcall
        cases hcall
      simpa using (hnodup.subperm hsubset).length_le
    · exact idle_of_step hstep (hes e List.mem_cons_self) hidle

/-- A debouncer whose sessions answer one call. -/
def singleUse : SignalDebouncer := { SignalDebouncer.standard with threshold := 1 }

/-- A call seeds the session; two others read it before one of them bumps its count. -/
def overshootEvents : List DebounceEvent :=
  let signal := cacheSignal "a" "c" .P1
  .start 0 signal :: List.replicate 5 (.step 0 ⟨.ok, "w", 5⟩) ++
    List.replicate 4 (.step 0 ⟨.ok, "v", 5⟩) ++
    [.start 1 signal, .start 2 signal, .step 1 ⟨.ok, "v", 6⟩, .step 2 ⟨.ok, "v", 6⟩] ++
    List.replicate 2 (.step 1 ⟨.ok, "v", 7⟩) ++ List.replicate 2 (.step 2 ⟨.ok, "v", 8⟩)

theorem returns_within_window_of_overshoot : ∃ s log,
    (recorded singleUse).run (quiet, .empty) overshootEvents = some (s, log) ∧
      log.returns = [⟨1, some 0, 7⟩, ⟨2, some 0, 8⟩] ∧
      (∀ r ∈ log.returns, ∃ signal w,
        s.calls r.call = .started signal (.done (.ok ⟨w, false⟩)) ∧
          log.InWindow singleUse signal.componentId r.seeding r.judgedAt) ∧
      log.returned 0 ≤ 1 + 3 - 1 := by
  have hobserved : ((recorded singleUse).run (quiet, .empty) overshootEvents).map
      (fun s => (s.2.returns, s.2.seedings))
        = some ([⟨1, some 0, 7⟩, ⟨2, some 0, 8⟩], [("c", 5)]) := by
    decide +kernel
  obtain ⟨⟨s, log⟩, hrun, hs⟩ := Option.map_eq_some_iff.1 hobserved
  obtain ⟨hreturns, hseedings⟩ := Prod.mk.inj hs
  have hbound := returns_within_window hrun
  have hmost : (lts singleUse).Meets (AtMost 3 "c") quiet overshootEvents :=
    meets_atMost (by decide) (fun _ _ => rfl) "c"
  refine ⟨s, log, hrun, hreturns, hbound.1, hbound.2 3 "c" hmost 0 5 ?_⟩
  have hseedings : log.seedings = [("c", 5)] := hseedings
  rw [hseedings]
  rfl

end DebounceSystem

end InveniOps.Ingestion
