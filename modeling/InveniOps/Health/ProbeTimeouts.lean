import InveniOps.Health.HealthProbe
import InveniOps.Lib.ListFacts

/-!
# No tick of the health probe fails

A tick of the probe arms four timeouts for its checks and then one for itself, all of one
duration.  They fire in this order, so a tick has its four results before its own timeout
fires: its race is never lost, whatever the dependencies do.
-/

namespace InveniOps.Health

open Lib

/-- The tick for which a timeout is armed. -/
def Raced.index : Raced → ℕ
  | .check i _ => i
  | .tick i => i

namespace HealthProbe

variable {cfg : HealthConfig} {s s' : HealthProbe} {e : ProbeEvent} {i : ℕ}

/-! ### What a step does to the ticks -/

/-- A first outcome of a check is recorded, and the last of them concludes the tick. -/
lemma record_cases (cfg : HealthConfig) (s : HealthProbe) (i : ℕ) (d : Dependency)
    (status : DependencyStatus) :
    (s.record cfg i d status = s ∧ ∀ x, s.ticks[i]? = some x → x.results d ≠ none) ∨
      ∃ x, s.ticks[i]? = some x ∧ x.results d = none ∧
        ((((x.record d status s.now).fetched = none ∨ x.settled = true) ∧
            s.record cfg i d status =
              { s with ticks := s.ticks.set i (x.record d status s.now) }) ∨
          ∃ snapshot, (x.record d status s.now).fetched = some snapshot ∧ x.settled = false ∧
            s.record cfg i d status =
              s.conclude cfg i (x.record d status s.now) (some snapshot)) := by
  unfold record
  cases hx : s.ticks[i]? with
  | none => exact .inl ⟨rfl, by simp⟩
  | some x =>
    dsimp only
    by_cases hd : (x.results d).isSome = true
    · rw [if_pos hd]
      refine .inl ⟨rfl, ?_⟩
      rintro y heq
      obtain rfl := Option.some.inj heq
      exact Option.isSome_iff_ne_none.1 hd
    · rw [if_neg hd]
      refine .inr ⟨x, rfl, by simpa using hd, ?_⟩
      cases hfetched : (x.record d status s.now).fetched with
      | none => exact .inl ⟨.inl rfl, rfl⟩
      | some snapshot =>
        cases hsettled : x.settled with
        | true => exact .inl ⟨.inr rfl, rfl⟩
        | false => exact .inr ⟨snapshot, rfl, rfl, by simp [conclude]⟩

/-- The timeouts that a new tick arms. -/
def armed (cfg : HealthConfig) (s : HealthProbe) : List (ℕ × Raced) :=
  (Dependency.all.map fun d => (s.now + cfg.probeTimeoutMs, .check s.ticks.length d)) ++
    [(s.now + cfg.probeTimeoutMs, .tick s.ticks.length)]

lemma mem_armed {x : ℕ × Raced} (h : x ∈ s.armed cfg) :
    x.1 = s.now + cfg.probeTimeoutMs ∧ x.2.index = s.ticks.length := by
  simp only [armed, List.mem_append, List.mem_map, List.mem_singleton] at h
  rcases h with ⟨d, -, rfl⟩ | rfl
  · exact ⟨rfl, rfl⟩
  · exact ⟨rfl, rfl⟩

lemma check_mem_armed (d : Dependency) :
    (s.now + cfg.probeTimeoutMs, .check s.ticks.length d) ∈ s.armed cfg := by
  simp [armed, Dependency.mem_all]

lemma timeouts_tick (b : Bool) : (s.tick cfg b).timeouts = s.timeouts ++ s.armed cfg := by
  simp [tick, armed]

lemma ticks_tick (b : Bool) :
    (s.tick cfg b).ticks = s.ticks ++ [⟨s.now, fun _ => none, false, b⟩] := rfl

lemma check_before_tick (d : Dependency) :
    Before (.check s.ticks.length d) (.tick s.ticks.length) ((s.armed cfg).map Prod.snd) := by
  cases d <;> simp [armed, Dependency.all, Before]

lemma record_timeouts (cfg : HealthConfig) (s : HealthProbe) (i : ℕ) (d : Dependency)
    (status : DependencyStatus) (timeouts : List (ℕ × Raced)) :
    ({ s with timeouts := timeouts } : HealthProbe).record cfg i d status =
      { s.record cfg i d status with timeouts := timeouts } := by
  unfold record
  cases s.ticks[i]? with
  | none => rfl
  | some x =>
    dsimp only
    by_cases hd : (x.results d).isSome = true
    · rw [if_pos hd, if_pos hd]
    · rw [if_neg hd, if_neg hd]
      cases (x.record d status s.now).fetched with
      | none => rfl
      | some snapshot => cases x.settled <;> rfl

lemma timeouts_record (d : Dependency) (status : DependencyStatus) :
    (s.record cfg i d status).timeouts = s.timeouts := by
  rcases record_cases cfg s i d status with ⟨heq, -⟩ | ⟨x, -, -, ⟨-, heq⟩ | ⟨_, -, -, heq⟩⟩ <;>
    rw [heq]
  rfl

/-- Behind an outcome a check has a result. -/
lemma results_record {d : Dependency} {status : DependencyStatus} {x : Tick}
    (hx : (s.record cfg i d status).ticks[i]? = some x) : x.results d ≠ none := by
  rcases record_cases cfg s i d status with ⟨heq, hsome⟩ | ⟨y, hy, -, ⟨-, heq⟩ | ⟨_, -, -, heq⟩⟩
  · rw [heq] at hx
    exact hsome x hx
  · have hx : (s.ticks.set i _)[i]? = some x := heq ▸ hx
    rw [getElem?_set_self_of hy] at hx
    obtain rfl := Option.some.inj hx
    simp [Tick.record]
  · have hx : (s.ticks.set i _)[i]? = some x := heq ▸ hx
    rw [getElem?_set_self_of hy] at hx
    obtain rfl := Option.some.inj hx
    simp [Tick.record]

lemma interval_inv {k : ℕ} (h : s.step cfg (.interval k) = some s') :
    ∃ due, s.intervals[k]? = some (some due) ∧ due ≤ s.now ∧ (∀ y ∈ s.timeouts, due ≤ y.1) ∧
      s' = ({ s with intervals := s.intervals.set k (some (s.now + cfg.probeIntervalMs)) } :
        HealthProbe).tick cfg false := by
  simp only [step] at h
  split at h
  · rename_i due hdue
    split_ifs at h with hnow
    exact ⟨due, hdue, hnow.1, hnow.2, (Option.some.inj h).symm⟩
  · cases h

lemma answered_inv {d : Dependency} {ok : Bool} (h : s.step cfg (.answered i d ok) = some s') :
    i < s.ticks.length ∧ s' = s.record cfg i d (if ok then .up else .down) := by
  simp only [step] at h
  by_cases hi : i < s.ticks.length
  · rw [if_pos hi] at h
    exact ⟨hi, (Option.some.inj h).symm⟩
  · rw [if_neg hi] at h
    cases h

lemma timeout_inv (h : s.step cfg .timeout = some s') :
    ∃ due raced rest, s.timeouts = (due, raced) :: rest ∧ due ≤ s.now ∧
      s' = ({ s with timeouts := rest } : HealthProbe).expire cfg raced := by
  simp only [step] at h
  split at h
  · rename_i due raced rest htimeouts
    split_ifs at h with hdue
    exact ⟨due, raced, rest, htimeouts, hdue, (Option.some.inj h).symm⟩
  · cases h

/-! ### The order of the timeouts -/

/-- What the probe relies on: a tick is open as long as it waits for a check, and the timeout
of a check that it waits for is armed, and comes before that of the tick. -/
structure Guarded (cfg : HealthConfig) (s : HealthProbe) : Prop where
  racing : ∀ y ∈ s.timeouts, ∃ x, s.ticks[y.2.index]? = some x ∧
    y.1 = x.startedAt + cfg.probeTimeoutMs
  waiting : ∀ i x d, s.ticks[i]? = some x → x.results d = none →
    .check i d ∈ s.timeouts.map Prod.snd ∧
      Before (.check i d) (.tick i) (s.timeouts.map Prod.snd)
  settled : ∀ x ∈ s.ticks, x.settled = x.fetched.isSome
  failures : s.failures = 0

namespace Guarded

lemma tick (h : s.Guarded cfg) (b : Bool) : (s.tick cfg b).Guarded cfg := by
  constructor
  · intro y hy
    rw [timeouts_tick, List.mem_append] at hy
    rcases hy with hy | hy
    · obtain ⟨x, hx, hdue⟩ := h.racing y hy
      exact ⟨x, getElem?_concat_of hx _, hdue⟩
    · obtain ⟨hdue, hindex⟩ := mem_armed hy
      refine ⟨⟨s.now, fun _ => none, false, b⟩, ?_, hdue⟩
      rw [hindex, ticks_tick, List.getElem?_concat_length]
  · intro i x d hx hd
    rw [timeouts_tick, List.map_append, before_append, List.mem_append]
    rw [ticks_tick] at hx
    rcases getElem?_concat_cases hx with ⟨rfl, rfl⟩ | hold
    · refine ⟨.inr (List.mem_map_of_mem (check_mem_armed d)), ?_, .inr (check_before_tick d)⟩
      -- no timeout of the new tick was armed before
      apply Before.of_not_mem
      intro hmem
      obtain ⟨y, hy, hraced⟩ := List.mem_map.1 hmem
      obtain ⟨x, hx, -⟩ := h.racing y hy
      rw [hraced] at hx
      have hlt := (exists_lt_of_getElem? hx).1
      exact Nat.lt_irrefl _ hlt
    · obtain ⟨hmem, hbefore⟩ := h.waiting i x d hold hd
      exact ⟨.inl hmem, hbefore, .inl hmem⟩
  · intro x hx
    rw [ticks_tick, List.mem_append, List.mem_singleton] at hx
    rcases hx with hx | rfl
    · exact h.settled x hx
    · rw [Tick.fetched_eq_none_iff.2 ⟨.postgres, rfl⟩]
      rfl
  · exact h.failures

/-- A tick may be replaced by one that has started at the same time, waits for no check that
it did not wait for, and is closed if and only if it waits for none. -/
lemma set (h : s.Guarded cfg) {x : Tick} (x' : Tick) (hx : s.ticks[i]? = some x)
    (hstarted : x'.startedAt = x.startedAt)
    (hsettled : x'.settled = x'.fetched.isSome)
    (hresults : ∀ d, x'.results d = none → x.results d = none)
    (ht : s'.ticks = s.ticks.set i x') (htimeouts : s'.timeouts = s.timeouts)
    (hfailures : s'.failures = s.failures) : s'.Guarded cfg := by
  constructor
  · intro y hy
    rw [htimeouts] at hy
    obtain ⟨z, hz, hdue⟩ := h.racing y hy
    rw [ht]
    by_cases hi : y.2.index = i
    · rw [hi] at hz ⊢
      obtain rfl := Option.some.inj (hx.symm.trans hz)
      exact ⟨x', getElem?_set_self_of hx x', by rw [hdue, hstarted]⟩
    · refine ⟨z, ?_, hdue⟩
      rw [List.getElem?_set_ne fun heq => hi heq.symm]
      exact hz
  · intro j z d hz hd
    rw [ht] at hz
    rw [htimeouts]
    rcases getElem?_set_cases hz with ⟨rfl, rfl⟩ | ⟨-, hold⟩
    · exact h.waiting j x d hx (hresults d hd)
    · exact h.waiting j z d hold hd
  · intro z hz
    rw [ht] at hz
    rcases List.mem_or_eq_of_mem_set hz with hz | rfl
    · exact h.settled z hz
    · exact hsettled
  · rw [hfailures, h.failures]

lemma record (h : s.Guarded cfg) (i : ℕ) (d : Dependency) (status : DependencyStatus) :
    (s.record cfg i d status).Guarded cfg := by
  have hkeeps : ∀ x : Tick, ∀ d', (x.record d status s.now).results d' = none →
      x.results d' = none := by
    intro x d' hd'
    by_cases heq : d' = d
    · simp [Tick.record, heq] at hd'
    · simpa [Tick.record, heq] using hd'
  rcases record_cases cfg s i d status with
    ⟨heq, -⟩ | ⟨x, hx, hd, ⟨hwaits, heq⟩ | ⟨_, hfetched, -, heq⟩⟩
  · rw [heq]
    exact h
  · have hold := h.settled x (List.mem_of_getElem? hx)
    rw [Tick.fetched_eq_none_iff.2 ⟨d, hd⟩] at hold
    have hopen : x.settled = false := hold
    rw [heq]
    refine h.set (x.record d status s.now) hx rfl ?_ (hkeeps x) rfl rfl rfl
    rw [hwaits.resolve_right (by simp [hopen])]
    exact hopen
  · rw [heq]
    refine h.set { x.record d status s.now with settled := true } hx rfl ?_ (hkeeps x) rfl rfl rfl
    show true = (x.record d status s.now).fetched.isSome
    rw [hfetched]
    rfl

/-- The first timeout may go if it is not that of a check which its tick waits for. -/
lemma pop (h : s.Guarded cfg) {due : ℕ} {raced : Raced} {rest : List (ℕ × Raced)}
    (htimeouts : s.timeouts = (due, raced) :: rest)
    (hdone : ∀ i d x, raced = .check i d → s.ticks[i]? = some x → x.results d ≠ none) :
    ({ s with timeouts := rest } : HealthProbe).Guarded cfg := by
  constructor
  · intro y hy
    refine h.racing y ?_
    rw [htimeouts]
    exact List.mem_cons_of_mem _ hy
  · intro i x d hx hd
    obtain ⟨hmem, hbefore⟩ := h.waiting i x d hx hd
    rw [htimeouts] at hmem hbefore
    have hother : raced ≠ .check i d := fun heq => hdone i d x heq hx hd
    constructor
    · exact (List.mem_cons.1 hmem).resolve_left fun heq => hother heq.symm
    · exact (hbefore.resolve_left hother).2
  · exact h.settled
  · exact h.failures

/-- When the timeout of a tick fires, the tick is settled. -/
lemma settled_of_tick_due (h : s.Guarded cfg) {due : ℕ} {rest : List (ℕ × Raced)}
    (htimeouts : s.timeouts = (due, .tick i) :: rest) {x : Tick} (hx : s.ticks[i]? = some x) :
    x.settled = true := by
  by_contra hopen
  rw [Bool.not_eq_true] at hopen
  have hfetched := h.settled x (List.mem_of_getElem? hx)
  rw [hopen] at hfetched
  have hnone : x.fetched = none := by simpa using hfetched
  obtain ⟨d, hd⟩ := Tick.fetched_eq_none_iff.1 hnone
  obtain ⟨-, hbefore⟩ := h.waiting i x d hx hd
  rw [htimeouts] at hbefore
  rcases hbefore with heq | ⟨hne, -⟩
  · cases heq
  · exact hne rfl

/-- The timeout of a tick changes nothing; that of a check is an outcome of the check. -/
lemma expire_eq (h : s.Guarded cfg) {due : ℕ} {raced : Raced} {rest : List (ℕ × Raced)}
    (htimeouts : s.timeouts = (due, raced) :: rest) :
    ({ s with timeouts := rest } : HealthProbe).expire cfg raced =
      match raced with
      | .check i d => { s.record cfg i d .down with timeouts := rest }
      | .tick _ => { s with timeouts := rest } := by
  cases raced with
  | check i d => exact record_timeouts cfg s i d .down rest
  | tick i =>
    obtain ⟨x, hx, -⟩ := h.racing (due, .tick i) (by simp [htimeouts])
    have hx : s.ticks[i]? = some x := hx
    simp [HealthProbe.expire, hx, h.settled_of_tick_due htimeouts hx]

lemma expire (h : s.Guarded cfg) {due : ℕ} {raced : Raced} {rest : List (ℕ × Raced)}
    (htimeouts : s.timeouts = (due, raced) :: rest) :
    (({ s with timeouts := rest } : HealthProbe).expire cfg raced).Guarded cfg := by
  rw [h.expire_eq htimeouts]
  cases raced with
  | tick i =>
    refine h.pop htimeouts ?_
    intro j d x heq
    cases heq
  | check i d =>
    have hfirst : (s.record cfg i d .down).timeouts = (due, .check i d) :: rest := by
      rw [timeouts_record, htimeouts]
    refine (h.record i d .down).pop hfirst ?_
    intro j d' x heq hx
    cases heq
    exact results_record hx

/-- Every step keeps the order. -/
lemma step (h : s.Guarded cfg) (he : s.step cfg e = some s') : s'.Guarded cfg := by
  cases e with
  | start =>
    obtain rfl := Option.some.inj he
    unfold start
    split_ifs
    · exact h
    · exact h.tick true
  | stop =>
    obtain rfl := Option.some.inj he
    unfold stop
    split
    · exact h
    · exact ⟨h.racing, h.waiting, h.settled, h.failures⟩
  | pass ms =>
    obtain rfl := Option.some.inj he
    exact ⟨h.racing, h.waiting, h.settled, h.failures⟩
  | interval k =>
    obtain ⟨due, -, -, -, rfl⟩ := interval_inv he
    have hrearmed : ({ s with
        intervals := s.intervals.set k (some (s.now + cfg.probeIntervalMs)) } : HealthProbe).Guarded
          cfg := ⟨h.racing, h.waiting, h.settled, h.failures⟩
    exact hrearmed.tick false
  | answered i d ok =>
    obtain ⟨-, rfl⟩ := answered_inv he
    exact h.record i d _
  | timeout =>
    obtain ⟨due, raced, rest, htimeouts, -, rfl⟩ := timeout_inv he
    exact h.expire htimeouts

lemma init (cfg : HealthConfig) : (HealthProbe.init cfg).Guarded cfg := by
  have hnew : new.Guarded cfg := by
    constructor <;> simp [new]
  exact hnew.tick true

end Guarded

lemma guarded_of_run {t : HealthProbe} {es : List ProbeEvent}
    (hrun : (lts cfg).run (init cfg) es = some t) : t.Guarded cfg :=
  Lts.run_invariant (fun _ _ _ hs he => hs.step he) hrun (Guarded.init cfg)

/-- Behind the last timeout every tick is settled. -/
lemma Guarded.settled_of_timeouts_nil (h : s.Guarded cfg) (hnil : s.timeouts = []) {x : Tick}
    (hx : x ∈ s.ticks) : x.settled = true := by
  rw [h.settled x hx]
  cases hfetched : x.fetched with
  | some snapshot => rfl
  | none =>
    obtain ⟨d, hd⟩ := Tick.fetched_eq_none_iff.1 hfetched
    obtain ⟨i, hi⟩ := List.mem_iff_getElem?.1 hx
    have hmem := (h.waiting i x d hi hd).1
    rw [hnil] at hmem
    cases hmem

/-- However the dependencies answer or hang, whenever the timers fire and however often the
probe is started and stopped, no tick is logged as failed: a tick is settled by its four
results and by nothing else, and all are once no timeout is left to fire. -/
theorem no_tick_fails (cfg : HealthConfig) {t : HealthProbe} {es : List ProbeEvent}
    (hrun : (lts cfg).run (init cfg) es = some t) :
    t.failures = 0 ∧ (∀ x ∈ t.ticks, x.settled = true ↔ ∀ d, x.results d ≠ none) ∧
      (t.timeouts = [] → ∀ x ∈ t.ticks, x.settled = true) := by
  have h := guarded_of_run hrun
  refine ⟨h.failures, ?_, fun hnil x hx => h.settled_of_timeouts_nil hnil hx⟩
  intro x hx
  rw [h.settled x hx, Option.isSome_iff_ne_none, Ne, Tick.fetched_eq_none_iff, not_exists]

/-- Three dependencies hang. -/
def hanging : List ProbeEvent :=
  [.answered 0 .mongo true, .pass 2000, .timeout, .timeout, .timeout, .timeout, .timeout]

theorem no_tick_fails_of_hanging :
    ∃ t, (lts .standard).run (init .standard) hanging = some t ∧ t.timeouts = [] ∧
      t.failures = 0 ∧ ∀ x ∈ t.ticks, x.settled = true := by
  have hsome : ((lts .standard).run (init .standard) hanging).map (·.timeouts) = some [] := by
    decide
  obtain ⟨t, hrun, htimeouts⟩ := Option.map_eq_some_iff.1 hsome
  obtain ⟨hfailures, -, hsettled⟩ := no_tick_fails .standard hrun
  exact ⟨t, hrun, htimeouts, hfailures, hsettled htimeouts⟩

end HealthProbe

end InveniOps.Health
