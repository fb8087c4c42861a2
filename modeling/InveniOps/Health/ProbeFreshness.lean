import Mathlib.Data.List.ReduceOption
import InveniOps.Health.ProbeTimeouts

/-!
# How old the answers of `GET /health` are

Between boot and shutdown the loop of the probe never overlaps itself: a tick is through
before the next one starts, as the timeout of a check is shorter than the interval.  So the
snapshot that is served is that of the last tick or, while that one waits, of the one before.
How far the host falls behind its timers is a parameter.
-/

namespace InveniOps.Health

open Lib

namespace HealthProbe

variable {cfg : HealthConfig} {lateness : ℕ} {s s' : HealthProbe} {e : ProbeEvent}
  {es : List ProbeEvent} {older : List Tick} {x y : Tick}

/-- When the timers that are armed are due. -/
def deadlines (s : HealthProbe) : List ℕ := s.timeouts.map Prod.fst ++ s.intervals.reduceOption

/-- Time passes no timer by more than the lateness, and the probe is neither started again nor
stopped. -/
def Punctual (lateness : ℕ) (s : HealthProbe) : ProbeEvent → Prop
  | .pass ms => ∀ due ∈ s.deadlines, s.now + ms ≤ due + lateness
  | .start => False
  | .stop => False
  | _ => True

instance : ∀ e, Decidable (Punctual lateness s e)
  | .pass ms => inferInstanceAs (Decidable (∀ due ∈ s.deadlines, s.now + ms ≤ due + lateness))
  | .start => inferInstanceAs (Decidable False)
  | .stop => inferInstanceAs (Decidable False)
  | .interval _ => inferInstanceAs (Decidable True)
  | .answered .. => inferInstanceAs (Decidable True)
  | .timeout => inferInstanceAs (Decidable True)

/-! ### The loop -/

/-- The loop between boot and shutdown. -/
inductive Paced (cfg : HealthConfig) (lateness : ℕ) (s : HealthProbe) : Prop
  /-- `start` awaits the first tick. -/
  | booting (x : Tick) (ticks : s.ticks = [] ++ [x]) (settled : x.settled = false)
      (awaited : x.awaited = true) (startedAt : x.startedAt = 0) (intervals : s.intervals = [])
      (snapshot : s.snapshot = HEALTH_FALLBACK)
      (now : s.now ≤ x.startedAt + cfg.probeTimeoutMs + lateness)
  /-- All ticks are settled. -/
  | resting (older : List Tick) (x : Tick) (due : ℕ) (ticks : s.ticks = older ++ [x])
      (settled : ∀ z ∈ s.ticks, z.settled = true) (fetched : x.fetched = some s.snapshot)
      (intervals : s.intervals = [some due])
      (due_le : due ≤ x.startedAt + cfg.probeTimeoutMs + cfg.probeIntervalMs + lateness)
      (now : s.now ≤ due + lateness)
  /-- The interval has started the tick `y`. -/
  | probing (older : List Tick) (x y : Tick) (ticks : s.ticks = (older ++ [x]) ++ [y])
      (settled : ∀ z ∈ older ++ [x], z.settled = true) (fetched : x.fetched = some s.snapshot)
      (opened : y.settled = false) (awaited : y.awaited = false)
      (intervals : s.intervals = [some (y.startedAt + cfg.probeIntervalMs)])
      (startedAt : y.startedAt ≤
        x.startedAt + cfg.probeTimeoutMs + cfg.probeIntervalMs + 2 * lateness)
      (now : s.now ≤ y.startedAt + cfg.probeTimeoutMs + lateness)

/-- A check that a tick waits for has a timeout. -/
lemma Guarded.exists_deadline (h : s.Guarded cfg) {i : ℕ} {d : Dependency}
    (hx : s.ticks[i]? = some x) (hd : x.results d = none) :
    ∃ z ∈ s.timeouts, z.1 = x.startedAt + cfg.probeTimeoutMs := by
  obtain ⟨z, hz, hraced⟩ := List.mem_map.1 (h.waiting i x d hx hd).1
  obtain ⟨x', hx', hdue⟩ := h.racing z hz
  rw [hraced] at hx'
  obtain rfl := Option.some.inj (hx.symm.trans hx')
  exact ⟨z, hz, hdue⟩

/-- An open tick waits for a check. -/
lemma Guarded.exists_waiting (h : s.Guarded cfg) (hx : x ∈ s.ticks) (hopen : x.settled = false) :
    ∃ d, x.results d = none := by
  have hfetched := h.settled x hx
  rw [hopen] at hfetched
  exact Tick.fetched_eq_none_iff.1 (by simpa using hfetched)

/-- A settled tick waits for none. -/
lemma Guarded.results_ne_none (h : s.Guarded cfg) (hx : x ∈ s.ticks) (hsettled : x.settled = true)
    (d : Dependency) : x.results d ≠ none := by
  intro hd
  have hfetched := h.settled x hx
  rw [hsettled, Tick.fetched_eq_none_iff.2 ⟨d, hd⟩] at hfetched
  cases hfetched

/-- As long as a tick is open, time does not pass its timeouts by more than the lateness. -/
lemma Guarded.now_add_le (h : s.Guarded cfg) (hx : x ∈ s.ticks) (hopen : x.settled = false)
    {ms : ℕ} (hpunctual : Punctual lateness s (.pass ms)) :
    s.now + ms ≤ x.startedAt + cfg.probeTimeoutMs + lateness := by
  obtain ⟨i, hi⟩ := List.mem_iff_getElem?.1 hx
  obtain ⟨d, hd⟩ := h.exists_waiting hx hopen
  obtain ⟨z, hz, hdue⟩ := h.exists_deadline hi hd
  have hle := hpunctual z.1 (List.mem_append_left _ (List.mem_map_of_mem hz))
  rwa [hdue] at hle

/-- Where only the last tick is open, an outcome of a check changes no other. -/
lemma record_last (h : s.Guarded cfg) (hticks : s.ticks = older ++ [y])
    (hsettled : ∀ z ∈ older, z.settled = true) (i : ℕ) (d : Dependency)
    (status : DependencyStatus) :
    s.record cfg i d status = s ∨ (y.settled = false ∧
      (s.record cfg i d status = { s with ticks := older ++ [y.record d status s.now] } ∨
        ∃ snapshot, (y.record d status s.now).fetched = some snapshot ∧
          s.record cfg i d status =
            s.conclude cfg older.length (y.record d status s.now) (some snapshot))) := by
  rcases record_cases cfg s i d status with ⟨heq, -⟩ | ⟨x, hx, hd, hcases⟩
  · exact .inl heq
  · have hopen : x.settled = false := by
      by_contra hne
      exact h.results_ne_none (List.mem_of_getElem? hx) (by simpa using hne) d hd
    have hlast : i = older.length ∧ x = y := by
      rw [hticks] at hx
      rcases getElem?_concat_cases hx with hlast | hold
      · exact hlast
      · rw [hsettled x (List.mem_of_getElem? hold)] at hopen
        cases hopen
    obtain ⟨rfl, rfl⟩ := hlast
    refine .inr ⟨hopen, ?_⟩
    rcases hcases with ⟨-, heq⟩ | ⟨snapshot, hfetched, -, heq⟩
    · rw [heq, hticks]
      simp
    · exact .inr ⟨snapshot, hfetched, heq⟩

lemma ticks_conclude_last (hticks : s.ticks = older ++ [y]) (x : Tick)
    (outcome : Option HealthSnapshot) :
    (s.conclude cfg older.length x outcome).ticks = older ++ [{ x with settled := true }] := by
  simp [conclude, hticks]

namespace Paced

/-- An outcome of a check keeps the loop. -/
lemma record (h : s.Paced cfg lateness) (hguarded : s.Guarded cfg)
    (hshorter : cfg.probeTimeoutMs < cfg.probeIntervalMs) (i : ℕ) (d : Dependency)
    (status : DependencyStatus) : (s.record cfg i d status).Paced cfg lateness := by
  cases h with
  | booting x ticks settled awaited startedAt intervals snapshot now =>
    rcases record_last hguarded ticks (by simp) i d status with
      heq | ⟨-, heq | ⟨result, hfetched, heq⟩⟩
    · rw [heq]
      exact .booting x ticks settled awaited startedAt intervals snapshot now
    · rw [heq]
      exact .booting _ rfl settled awaited startedAt intervals snapshot now
    · rw [heq]
      refine .resting [] { x.record d status s.now with settled := true }
        (s.now + cfg.probeIntervalMs) (ticks_conclude_last ticks _ _) ?_ hfetched ?_ ?_ ?_
      · rw [ticks_conclude_last ticks]
        simp
      · simp [conclude, Tick.record, awaited, intervals]
      · show s.now + cfg.probeIntervalMs ≤ x.startedAt + cfg.probeTimeoutMs + _ + lateness
        omega
      · show s.now ≤ s.now + cfg.probeIntervalMs + lateness
        omega
  | resting older x due ticks settled fetched intervals due_le now =>
    rcases record_last hguarded ticks (fun z hz => settled z (by simp [ticks, hz])) i d status with
      heq | ⟨hopen, -⟩
    · rw [heq]
      exact .resting older x due ticks settled fetched intervals due_le now
    · rw [settled x (by simp [ticks])] at hopen
      cases hopen
  | probing older x y ticks settled fetched opened awaited intervals startedAt now =>
    rcases record_last hguarded ticks settled i d status with
      heq | ⟨-, heq | ⟨result, hfetched, heq⟩⟩
    · rw [heq]
      exact .probing older x y ticks settled fetched opened awaited intervals startedAt now
    · rw [heq]
      exact .probing older x _ rfl settled fetched opened awaited intervals startedAt now
    · rw [heq]
      refine .resting (older ++ [x]) { y.record d status s.now with settled := true }
        (y.startedAt + cfg.probeIntervalMs) (ticks_conclude_last ticks _ _) ?_ hfetched ?_ ?_ ?_
      · rw [ticks_conclude_last ticks]
        intro z hz
        rcases List.mem_append.1 hz with hz | hz
        · exact settled z hz
        · rw [List.mem_singleton.1 hz]
      · simp [conclude, Tick.record, awaited, intervals]
      · show y.startedAt + cfg.probeIntervalMs ≤ y.startedAt + cfg.probeTimeoutMs + _ + lateness
        omega
      · show s.now ≤ y.startedAt + cfg.probeIntervalMs + lateness
        omega

/-- The loop does not depend on what is armed for the checks. -/
lemma of_timeouts (h : s.Paced cfg lateness) (timeouts : List (ℕ × Raced)) :
    ({ s with timeouts := timeouts } : HealthProbe).Paced cfg lateness := by
  cases h with
  | booting x ticks settled awaited startedAt intervals snapshot now =>
    exact .booting x ticks settled awaited startedAt intervals snapshot now
  | resting older x due ticks settled fetched intervals due_le now =>
    exact .resting older x due ticks settled fetched intervals due_le now
  | probing older x y ticks settled fetched opened awaited intervals startedAt now =>
    exact .probing older x y ticks settled fetched opened awaited intervals startedAt now

lemma pass (h : s.Paced cfg lateness) (hguarded : s.Guarded cfg) {ms : ℕ}
    (hpunctual : Punctual lateness s (.pass ms)) :
    ({ s with now := s.now + ms } : HealthProbe).Paced cfg lateness := by
  cases h with
  | booting x ticks settled awaited startedAt intervals snapshot now =>
    exact .booting x ticks settled awaited startedAt intervals snapshot
      (hguarded.now_add_le (by simp [ticks]) settled hpunctual)
  | resting older x due ticks settled fetched intervals due_le now =>
    refine .resting older x due ticks settled fetched intervals due_le (hpunctual due ?_)
    simp [deadlines, intervals]
  | probing older x y ticks settled fetched opened awaited intervals startedAt now =>
    exact .probing older x y ticks settled fetched opened awaited intervals startedAt
      (hguarded.now_add_le (by simp [ticks]) opened hpunctual)

lemma eq_of_armed {k due other : ℕ} (hintervals : s.intervals = [some other])
    (hk : s.intervals[k]? = some (some due)) : k = 0 ∧ due = other := by
  rw [hintervals, List.getElem?_singleton] at hk
  split_ifs at hk with hzero
  exact ⟨hzero, by simpa using hk.symm⟩

/-- The interval fires only when all ticks are settled. -/
lemma interval (h : s.Paced cfg lateness) (hguarded : s.Guarded cfg)
    (hshorter : cfg.probeTimeoutMs < cfg.probeIntervalMs) {k : ℕ}
    (he : s.step cfg (.interval k) = some s') : s'.Paced cfg lateness := by
  obtain ⟨due, hk, hdue, hfirst, rfl⟩ := interval_inv he
  cases h with
  | booting x ticks settled awaited startedAt intervals snapshot now =>
    rw [intervals] at hk
    cases hk
  | resting older x due' ticks settled fetched intervals due_le now =>
    obtain ⟨rfl, rfl⟩ := eq_of_armed intervals hk
    refine .probing older x ⟨s.now, fun _ => none, false, false⟩ ?_ ?_ fetched rfl rfl ?_ ?_ ?_
    · rw [ticks_tick, ← ticks]
    · rw [← ticks]
      exact settled
    · simp [HealthProbe.tick, intervals]
    · show s.now ≤ x.startedAt + cfg.probeTimeoutMs + cfg.probeIntervalMs + 2 * lateness
      omega
    · show s.now ≤ s.now + cfg.probeTimeoutMs + lateness
      omega
  | probing older x y ticks settled fetched opened awaited intervals startedAt now =>
    -- A check of the open tick has a timeout that is due earlier.
    have hy : y ∈ s.ticks := by simp [ticks]
    obtain ⟨i, hi⟩ := List.mem_iff_getElem?.1 hy
    obtain ⟨d, hd⟩ := hguarded.exists_waiting hy opened
    obtain ⟨z, hz, hdeadline⟩ := hguarded.exists_deadline hi hd
    have hle := hfirst z hz
    obtain ⟨-, rfl⟩ := eq_of_armed intervals hk
    omega

/-- Every step of a punctual run keeps the loop. -/
lemma step (h : s.Paced cfg lateness) (hguarded : s.Guarded cfg)
    (hshorter : cfg.probeTimeoutMs < cfg.probeIntervalMs) (hpunctual : Punctual lateness s e)
    (he : s.step cfg e = some s') : s'.Paced cfg lateness := by
  cases e with
  | start => cases hpunctual
  | stop => cases hpunctual
  | pass ms =>
    obtain rfl := Option.some.inj he
    exact h.pass hguarded hpunctual
  | interval k => exact h.interval hguarded hshorter he
  | answered i d ok =>
    obtain ⟨-, rfl⟩ := answered_inv he
    exact h.record hguarded hshorter i d _
  | timeout =>
    obtain ⟨due, raced, rest, htimeouts, -, rfl⟩ := timeout_inv he
    rw [hguarded.expire_eq htimeouts]
    cases raced with
    | check i d => exact (h.record hguarded hshorter i d .down).of_timeouts rest
    | tick i => exact h.of_timeouts rest

lemma init : (HealthProbe.init cfg).Paced cfg lateness := by
  refine .booting ⟨0, fun _ => none, false, true⟩ rfl rfl rfl rfl rfl rfl ?_
  exact Nat.zero_le _

/-- The snapshot that is served is that of a recent tick, or no tick is through yet. -/
lemma served (h : s.Paced cfg lateness) :
    (s.snapshot = HEALTH_FALLBACK ∧ (∀ x ∈ s.ticks, x.settled = false) ∧
        s.now ≤ cfg.probeTimeoutMs + lateness) ∨
      ∃ (i : ℕ) (x : Tick), s.ticks[i]? = some x ∧ x.fetched = some s.snapshot ∧
        s.now ≤ x.startedAt + cfg.probeIntervalMs + 2 * cfg.probeTimeoutMs + 3 * lateness := by
  cases h with
  | booting x ticks settled awaited startedAt intervals snapshot now =>
    left
    refine ⟨snapshot, ?_, by omega⟩
    rw [ticks]
    simpa using settled
  | resting older x due ticks settled fetched intervals due_le now =>
    right
    refine ⟨older.length, x, ?_, fetched, by omega⟩
    rw [ticks, List.getElem?_concat_length]
  | probing older x y ticks settled fetched opened awaited intervals startedAt now =>
    right
    refine ⟨older.length, x, ?_, fetched, by omega⟩
    rw [ticks]
    exact getElem?_concat_of List.getElem?_concat_length y

end Paced

/-! ### What the results are based on -/

/-- The check answered so, or did not answer in time. -/
def Based (cfg : HealthConfig) (es : List ProbeEvent) (i : ℕ) (d : Dependency)
    (r : ProbeResult) : Prop :=
  match r.status with
  | .up => .answered i d true ∈ es
  | .down => .answered i d false ∈ es ∨ cfg.probeTimeoutMs ≤ r.latencyMs

lemma Based.mono {i : ℕ} {d : Dependency} {r : ProbeResult} (h : Based cfg es i d r)
    (fs : List ProbeEvent) : Based cfg (es ++ fs) i d r := by
  unfold Based at h ⊢
  split at h
  · exact List.mem_append_left _ h
  · exact h.imp_left (List.mem_append_left _)

/-- Every result of a tick is based on what its check did. -/
def Honest (cfg : HealthConfig) (es : List ProbeEvent) (s : HealthProbe) : Prop :=
  ∀ i x d r, s.ticks[i]? = some x → x.results d = some r → Based cfg es i d r

lemma Honest.record (h : Honest cfg es s) {i : ℕ} {d : Dependency} {status : DependencyStatus}
    (hnew : ∀ x, s.ticks[i]? = some x → Based cfg es i d ⟨status, s.now - x.startedAt⟩) :
    Honest cfg es (s.record cfg i d status) := by
  have hset : ∀ x b, s.ticks[i]? = some x → ∀ j z d' r,
      (s.ticks.set i { x.record d status s.now with settled := b })[j]? = some z →
        z.results d' = some r → Based cfg es j d' r := by
    intro x b hx j z d' r hz hr
    rcases getElem?_set_cases hz with ⟨rfl, rfl⟩ | ⟨-, hold⟩
    · by_cases hd : d' = d
      · subst hd
        have hr : some (⟨status, s.now - x.startedAt⟩ : ProbeResult) = some r := by
          simpa [Tick.record] using hr
        obtain rfl := Option.some.inj hr
        exact hnew x hx
      · exact h j x d' r hx (by simpa [Tick.record, hd] using hr)
    · exact h j z d' r hold hr
  rcases record_cases cfg s i d status with ⟨heq, -⟩ | ⟨x, hx, -, ⟨-, heq⟩ | ⟨_, -, -, heq⟩⟩
  · rw [heq]
    exact h
  · rw [heq]
    exact hset x x.settled hx
  · rw [heq]
    exact hset x true hx

lemma Honest.tick (h : Honest cfg es s) (b : Bool) : Honest cfg es (s.tick cfg b) := by
  intro i x d r hx hr
  rw [ticks_tick] at hx
  rcases getElem?_concat_cases hx with ⟨-, rfl⟩ | hold
  · cases hr
  · exact h i x d r hold hr

lemma Honest.step (h : Honest cfg es s) (hguarded : s.Guarded cfg)
    (he : s.step cfg e = some s') : Honest cfg (es ++ [e]) s' := by
  have hlater : Honest cfg (es ++ [e]) s := fun i x d r hx hr => (h i x d r hx hr).mono [e]
  cases e with
  | start =>
    obtain rfl := Option.some.inj he
    unfold start
    split_ifs
    · exact hlater
    · exact hlater.tick true
  | stop =>
    obtain rfl := Option.some.inj he
    unfold stop
    split
    · exact hlater
    · exact hlater
  | pass ms =>
    obtain rfl := Option.some.inj he
    exact hlater
  | interval k =>
    obtain ⟨due, -, -, -, rfl⟩ := interval_inv he
    have hrearmed : Honest cfg (es ++ [.interval k]) ({ s with
        intervals := s.intervals.set k (some (s.now + cfg.probeIntervalMs)) } : HealthProbe) :=
      hlater
    exact hrearmed.tick false
  | answered i d ok =>
    obtain ⟨-, rfl⟩ := answered_inv he
    refine hlater.record ?_
    rintro x -
    cases ok <;> simp [Based]
  | timeout =>
    obtain ⟨due, raced, rest, htimeouts, hdue, rfl⟩ := timeout_inv he
    rw [hguarded.expire_eq htimeouts]
    cases raced with
    | tick i => exact hlater
    | check i d =>
      refine hlater.record ?_
      intro x hx
      obtain ⟨z, hz, hstarted⟩ := hguarded.racing (due, .check i d) (by simp [htimeouts])
      obtain rfl := Option.some.inj (hx.symm.trans hz)
      have hstarted : due = x.startedAt + cfg.probeTimeoutMs := hstarted
      right
      show cfg.probeTimeoutMs ≤ s.now - x.startedAt
      omega

lemma honest_of_run {t : HealthProbe} (hrun : (lts cfg).run (init cfg) es = some t) :
    Honest cfg es t := by
  refine Lts.run_invariant_history (I := Honest cfg) ?_ ?_ hrun
  · intro i x d r hx hr
    have hnew : Honest cfg [] new := by
      intro i x d r hx
      cases hx
    exact (hnew.tick true) i x d r hx hr
  · intro es s e s' hrun hhonest he
    exact hhonest.step (guarded_of_run hrun) he

lemma paced_of_run (hshorter : cfg.probeTimeoutMs < cfg.probeIntervalMs) {t : HealthProbe}
    (hrun : (lts cfg).run (init cfg) es = some t)
    (hpunctual : (lts cfg).Meets (Punctual lateness) (init cfg) es) : t.Paced cfg lateness := by
  have hboth : t.Guarded cfg ∧ t.Paced cfg lateness := by
    refine Lts.run_invariant_of_meets (I := fun s => s.Guarded cfg ∧ s.Paced cfg lateness) ?_ hrun
      hpunctual ⟨Guarded.init cfg, Paced.init⟩
    rintro s e s' ⟨hguarded, hpaced⟩ hpunctual he
    exact ⟨hguarded.step he, hpaced.step hguarded hshorter hpunctual he⟩
  exact hboth.2

/-! ### Answers -/

section

variable {t : HealthProbe} (queueDepth : QueueDepthSnapshot)
  (bufferStats : Ingestion.SignalBuffer.Stats) (uptimeSeconds : ℚ) (version : String)
  (signalsPerSecond : ℚ)

/-- A 200 says that each dependency answered its check of one and the same tick, which
started at most an interval, two timeouts and three times the lateness ago. -/
theorem healthy_is_recent (hshorter : cfg.probeTimeoutMs < cfg.probeIntervalMs)
    (hrun : (lts cfg).run (init cfg) es = some t)
    (hpunctual : (lts cfg).Meets (Punctual lateness) (init cfg) es)
    (hhealthy : (handleHealthCheck t queueDepth bufferStats uptimeSeconds version
      signalsPerSecond).httpStatus = 200) :
    ∃ (i : ℕ) (x : Tick), t.ticks[i]? = some x ∧
      t.now ≤ x.startedAt + cfg.probeIntervalMs + 2 * cfg.probeTimeoutMs + 3 * lateness ∧
      ∀ d, x.results d = some (t.snapshot d) ∧ (t.snapshot d).status = .up ∧
        .answered i d true ∈ es := by
  rcases httpStatus_cases ⟨t.snapshot, queueDepth, bufferStats, uptimeSeconds, version,
    signalsPerSecond⟩ with ⟨-, hup⟩ | ⟨h503, -⟩
  · have hup : ∀ d, (t.snapshot d).status = .up := hup
    rcases (paced_of_run hshorter hrun hpunctual).served with
      ⟨hfallback, -⟩ | ⟨i, x, hx, hfetched, hrecent⟩
    · have hdown := hup .postgres
      rw [hfallback] at hdown
      cases hdown
    · refine ⟨i, x, hx, hrecent, fun d => ?_⟩
      have hresult := Tick.fetched_eq_some_iff.1 hfetched d
      have hbased := honest_of_run hrun i x d _ hx hresult
      rw [Based, hup d] at hbased
      exact ⟨hresult, hup d, hbased⟩
  · have h200 : _ = 503 := hhealthy.symm.trans h503
    cases h200

/-- What the other sources of an answer report. -/
def idle : Ingestion.SignalBuffer.Stats :=
  ⟨10, 0, 0, .normal, fun _ => 0, fun _ => 0, fun _ => 0, fun _ _ => 0⟩

/-- All dependencies answer the first tick; the second one waits. -/
def answering : List ProbeEvent :=
  [.answered 0 .redis true, .answered 0 .queue true, .pass 3, .answered 0 .mongo true,
    .answered 0 .postgres true, .pass 1998, .timeout, .timeout, .timeout, .timeout, .timeout,
    .pass 3003, .interval 0, .pass 40]

theorem healthy_is_recent_of_answering :
    ∃ t, (lts .standard).run (init .standard) answering = some t ∧
      ∃ (i : ℕ) (x : Tick), t.ticks[i]? = some x ∧
        t.now ≤ x.startedAt + 5000 + 2 * 2000 + 3 * 2 ∧
        ∀ d, x.results d = some (t.snapshot d) ∧ (t.snapshot d).status = .up ∧
          .answered i d true ∈ answering := by
  have hsome : ((lts .standard).run (init .standard) answering).map
      (fun t => (handleHealthCheck t ⟨0, 0, 0⟩ idle 5 "1.0.0" 0).httpStatus) = some 200 := by
    decide
  obtain ⟨t, hrun, h200⟩ := Option.map_eq_some_iff.1 hsome
  have hpunctual : (lts .standard).Meets (Punctual 2) (init .standard) answering := by
    decide
  exact ⟨t, hrun, healthy_is_recent ⟨0, 0, 0⟩ idle 5 "1.0.0" 0 (by decide) hrun hpunctual h200⟩

/-- A 503 says that the first tick waits, in the first moments of the service, or that some
dependency failed its check of a tick which started so recently, or did not answer it in
time. -/
theorem unhealthy_is_recent (hshorter : cfg.probeTimeoutMs < cfg.probeIntervalMs)
    (hrun : (lts cfg).run (init cfg) es = some t)
    (hpunctual : (lts cfg).Meets (Punctual lateness) (init cfg) es)
    (hunhealthy : (handleHealthCheck t queueDepth bufferStats uptimeSeconds version
      signalsPerSecond).httpStatus = 503) :
    (t.now ≤ cfg.probeTimeoutMs + lateness ∧ ∀ x ∈ t.ticks, x.settled = false) ∨
      ∃ (i : ℕ) (x : Tick) (d : Dependency), t.ticks[i]? = some x ∧
        t.now ≤ x.startedAt + cfg.probeIntervalMs + 2 * cfg.probeTimeoutMs + 3 * lateness ∧
        x.results d = some (t.snapshot d) ∧
        (.answered i d false ∈ es ∨ cfg.probeTimeoutMs ≤ (t.snapshot d).latencyMs) := by
  rcases httpStatus_cases ⟨t.snapshot, queueDepth, bufferStats, uptimeSeconds, version,
    signalsPerSecond⟩ with ⟨h200, -⟩ | ⟨-, d, hdown⟩
  · have h503 : _ = 503 := h200.symm.trans hunhealthy
    cases h503
  · have hdown : (t.snapshot d).status = .down := hdown
    rcases (paced_of_run hshorter hrun hpunctual).served with
      ⟨-, hopen, hnow⟩ | ⟨i, x, hx, hfetched, hrecent⟩
    · exact .inl ⟨hnow, hopen⟩
    · have hresult := Tick.fetched_eq_some_iff.1 hfetched d
      have hbased := honest_of_run hrun i x d _ hx hresult
      rw [Based, hdown] at hbased
      exact .inr ⟨i, x, d, hx, hrecent, hresult, hbased⟩

/-- MongoDB hangs. -/
def halfAnswering : List ProbeEvent :=
  [.answered 0 .redis true, .answered 0 .queue true, .answered 0 .postgres true, .pass 2001,
    .timeout, .timeout, .timeout, .timeout, .timeout, .pass 100]

theorem unhealthy_is_recent_of_halfAnswering :
    ∃ t, (lts .standard).run (init .standard) halfAnswering = some t ∧
      ((t.now ≤ 2000 + 2 ∧ ∀ x ∈ t.ticks, x.settled = false) ∨
        ∃ (i : ℕ) (x : Tick) (d : Dependency), t.ticks[i]? = some x ∧
          t.now ≤ x.startedAt + 5000 + 2 * 2000 + 3 * 2 ∧ x.results d = some (t.snapshot d) ∧
          (.answered i d false ∈ halfAnswering ∨ 2000 ≤ (t.snapshot d).latencyMs)) := by
  have hsome : ((lts .standard).run (init .standard) halfAnswering).map
      (fun t => (handleHealthCheck t ⟨0, 0, 0⟩ idle 2 "1.0.0" 0).httpStatus) = some 503 := by
    decide
  obtain ⟨t, hrun, h503⟩ := Option.map_eq_some_iff.1 hsome
  have hpunctual : (lts .standard).Meets (Punctual 2) (init .standard) halfAnswering := by
    decide
  exact ⟨t, hrun, unhealthy_is_recent ⟨0, 0, 0⟩ idle 2 "1.0.0" 0 (by decide) hrun hpunctual h503⟩

end

end HealthProbe

end InveniOps.Health
