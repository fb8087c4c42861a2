import Mathlib.Tactic.Linarith
import InveniOps.Ingestion.BufferQueues

/-!
# Watermarks and ceilings

The mode of the buffer is recomputed wherever the fill level changes, so it is the
side of the mark that the fill level has crossed last.  While the buffer sheds, the
ceilings of the severities decide what is rejected.
-/

namespace InveniOps.Ingestion

open Lib

/-- What the config loader demands of the fractions. -/
structure SignalBufferOptions.Admitted (options : SignalBufferOptions) : Prop where
  highWaterMarkFraction : 0 < options.highWaterMarkFraction ∧ options.highWaterMarkFraction ≤ 1
  lowWaterMarkFraction : 0 ≤ options.lowWaterMarkFraction ∧ options.lowWaterMarkFraction < 1
  shedCeilingFractions : ∀ severity,
    0 < options.shedCeilingFractions severity ∧ options.shedCeilingFractions severity ≤ 1
  marks : options.lowWaterMarkFraction < options.highWaterMarkFraction
  ceilings : options.shedCeilingFractions ⟨.P3, by decide⟩
      < options.shedCeilingFractions ⟨.P2, by decide⟩ ∧
    options.shedCeilingFractions ⟨.P2, by decide⟩ < options.shedCeilingFractions ⟨.P1, by decide⟩

namespace SignalBuffer

variable {options : SignalBufferOptions} {b : SignalBuffer options}

/-! ### The recomputed mode -/

variable (options) in
/-- The mode that `recomputeState` makes of a mode and a fill level. -/
def nextState (state : BufferState) (fill : ℚ) : BufferState :=
  match state with
  | .normal => if options.highWaterMarkFraction ≤ fill then .shedding else .normal
  | .shedding => if fill ≤ options.lowWaterMarkFraction then .normal else .shedding

variable (options) in
/-- The side of the mark that the fill level is at or beyond, if it is at any. -/
def crossed (fill : ℚ) : Option BufferState :=
  if options.highWaterMarkFraction ≤ fill then some .shedding
  else if fill ≤ options.lowWaterMarkFraction then some .normal
  else none

lemma state_recomputeState : b.recomputeState.state = nextState options b.state b.fillFraction := by
  unfold recomputeState nextState
  cases hstate : b.state <;>
    simp only [reduceCtorEq, false_and, true_and, if_false] <;> split_ifs <;>
    first | rfl | exact hstate

/-- The fill level is that of the queues. -/
lemma fillFraction_congr {b' : SignalBuffer options} (h : b'.totalSize = b.totalSize) :
    b'.fillFraction = b.fillFraction := by
  simp [fillFraction, h]

@[simp] lemma fillFraction_recomputeState : b.recomputeState.fillFraction = b.fillFraction :=
  fillFraction_congr (totalSize_congr queues_recomputeState)

lemma state_evict : b.evictToMakeRoomForP0.2.state = b.state := by
  unfold evictToMakeRoomForP0
  split
  · rfl
  · split <;> rfl

lemma state_popLoop (maxItems : ℕ) (severities : List Severity) (result : List IngestionSignal)
    (b : SignalBuffer options) : (popLoop maxItems severities result b).2.state = b.state := by
  induction severities generalizing result b with
  | nil => rfl
  | cons severity rest ih =>
    unfold popLoop
    split_ifs
    · rfl
    · exact ih _ _

@[simp] lemma state_recordSinkFailure (batch : List IngestionSignal) :
    (b.recordSinkFailure batch).state = b.state := by
  induction batch generalizing b with
  | nil => rfl
  | cons signal batch ih => exact ih.trans rfl

variable (b) in
/-- The mode agrees with the marks: neither is it normal at the high mark nor is it
shedding at the low one. -/
def Agrees : Prop :=
  (b.state = .normal → b.fillFraction < options.highWaterMarkFraction) ∧
    (b.state = .shedding → options.lowWaterMarkFraction < b.fillFraction)

/-- The mode is recomputed behind a change, or neither it nor the fill level changes. -/
def Follows (b b' : SignalBuffer options) : Prop :=
  b'.state = nextState options b.state b'.fillFraction ∨
    b'.state = b.state ∧ b'.fillFraction = b.fillFraction

section

variable {b' : SignalBuffer options}

lemma Follows.next (hf : Follows b b') (h : b.Agrees) :
    b'.state = nextState options b.state b'.fillFraction := by
  rcases hf with hnext | ⟨hstate, hfill⟩
  · exact hnext
  · rw [hstate, hfill]
    unfold nextState
    cases hb : b.state with
    | normal => exact (if_neg (not_le.2 (h.1 hb))).symm
    | shedding => exact (if_neg (not_le.2 (h.2 hb))).symm

lemma Follows.agrees (hmarks : options.lowWaterMarkFraction < options.highWaterMarkFraction)
    (hf : Follows b b') (h : b.Agrees) : b'.Agrees := by
  have hnext := hf.next h
  unfold nextState at hnext
  cases hb : b.state with
  | normal =>
    rw [hb] at hnext
    dsimp only at hnext
    split_ifs at hnext with hhigh
    · exact ⟨fun hn => by simp [hnext] at hn, fun _ => hmarks.trans_le hhigh⟩
    · exact ⟨fun _ => not_le.1 hhigh, fun hs => by simp [hnext] at hs⟩
  | shedding =>
    rw [hb] at hnext
    dsimp only at hnext
    split_ifs at hnext with hlow
    · exact ⟨fun _ => hlow.trans_lt hmarks, fun hs => by simp [hnext] at hs⟩
    · exact ⟨fun hn => by simp [hnext] at hn, fun _ => not_le.1 hlow⟩

/-- The mode is the side of the mark that is crossed, if one is. -/
lemma Follows.crossed (hmarks : options.lowWaterMarkFraction < options.highWaterMarkFraction)
    (hf : Follows b b') (h : b.Agrees) :
    b'.state = (SignalBuffer.crossed options b'.fillFraction).getD b.state := by
  rw [hf.next h]
  unfold nextState SignalBuffer.crossed
  cases b.state with
  | normal =>
    dsimp only
    split_ifs <;> rfl
  | shedding =>
    dsimp only
    split_ifs with hlow hhigh
    · exact absurd (hhigh.trans hlow) (not_le.2 hmarks)
    all_goals rfl

/-- The mode changes only behind a crossing of its mark. -/
lemma Follows.mark_of_ne (hf : Follows b b') (hne : b.state ≠ b'.state) :
    (b'.state = .shedding → options.highWaterMarkFraction ≤ b'.fillFraction) ∧
      (b'.state = .normal → b'.fillFraction ≤ options.lowWaterMarkFraction) := by
  rcases hf with hnext | ⟨hstate, -⟩
  · unfold nextState at hnext
    cases hb : b.state with
    | normal =>
      rw [hb] at hnext hne
      dsimp only at hnext
      split_ifs at hnext with hhigh
      · exact ⟨fun _ => hhigh, fun hn => by simp [hnext] at hn⟩
      · exact absurd hnext.symm hne
    | shedding =>
      rw [hb] at hnext hne
      dsimp only at hnext
      split_ifs at hnext with hlow
      · exact ⟨fun hs => by simp [hnext] at hs, fun _ => hlow⟩
      · exact absurd hnext.symm hne
  · exact absurd hstate.symm hne

end

lemma follows_recomputeState {b' : SignalBuffer options} (h : b'.state = b.state) :
    Follows b b'.recomputeState := by
  left
  rw [state_recomputeState, fillFraction_recomputeState, h]

lemma follows_submit (b : SignalBuffer options) (signal : IngestionSignal) :
    Follows b (b.submit signal).2.2 := by
  unfold submit
  split_ifs
  · exact .inr ⟨rfl, rfl⟩
  · exact follows_recomputeState state_evict
  · exact .inr ⟨rfl, rfl⟩
  · exact follows_recomputeState rfl

end SignalBuffer

/-! ### Runs -/

namespace BufferSystem

open SignalBuffer

variable {options : SignalBufferOptions} {s s' : BufferSystem options}

lemma follows_drainToSink (s : BufferSystem options) (caller : DrainCaller) :
    Follows s.buffer (s.drainToSink caller).buffer := by
  have hstate : (s.buffer.popPriorityBatch options.drainBatchSize).2.state = s.buffer.state :=
    state_popLoop _ _ _ _
  dsimp only [drainToSink]
  split_ifs with hempty
  · -- an empty batch leaves the queues as they are
    obtain ⟨hbatch, hrest, -⟩ := s.buffer.popPriorityBatch_spec options.drainBatchSize
    have htotal : (s.buffer.popPriorityBatch options.drainBatchSize).2.totalSize
        = s.buffer.totalSize := by
      rw [← length_queued, ← length_queued, hrest, List.length_drop]
      rw [hbatch, List.length_take] at hempty
      omega
    exact .inr ⟨hstate, fillFraction_congr htotal⟩
  · exact follows_recomputeState hstate

lemma follows_drainAllLoop (s : BufferSystem options) (deadline : Instant)
    (succeeded failed : ℕ) (now : Instant) :
    Follows s.buffer (s.drainAllLoop deadline succeeded failed now).buffer := by
  unfold drainAllLoop
  split_ifs
  · exact follows_drainToSink s _
  · exact .inr ⟨rfl, rfl⟩

/-- Every path that changes the fill level recomputes the mode. -/
lemma follows_of_step {e : BufferEvent} (hstep : s.step e = some s') :
    Follows s.buffer s'.buffer := by
  cases e with
  | submit signal =>
    obtain rfl := Option.some.inj hstep
    exact follows_submit s.buffer signal
  | start | stop =>
    obtain rfl := Option.some.inj hstep
    exact .inr ⟨rfl, rfl⟩
  | tick =>
    simp only [step, Option.ite_none_right_eq_some, Option.some.injEq] at hstep
    obtain ⟨-, rfl⟩ := hstep
    unfold onTick
    split_ifs
    · exact .inr ⟨rfl, rfl⟩
    · exact follows_drainToSink { s with buffer := { s.buffer with draining := true } } .tick
  | drainAll timeoutMs now now' =>
    obtain rfl := Option.some.inj hstep
    exact follows_drainAllLoop s _ _ _ _
  | settle k ok =>
    simp only [step] at hstep
    split at hstep
    · rename_i caller batch hk
      obtain rfl := Option.some.inj hstep
      cases ok with
      | true => exact .inr ⟨rfl, rfl⟩
      | false =>
        exact .inr ⟨state_recordSinkFailure batch,
          fillFraction_congr (totalSize_congr (queues_recordSinkFailure batch))⟩
    · cases hstep
  | resume k now =>
    simp only [step] at hstep
    split at hstep
    · rename_i caller batch drained failed hk
      obtain rfl := Option.some.inj hstep
      cases caller with
      | tick => exact .inr ⟨rfl, rfl⟩
      | drainAll deadline succeeded failed' =>
        exact follows_drainAllLoop { s with drains := s.drains.eraseIdx k } _ _ _ _
    · cases hstep

variable (options) in
/-- The mark that was crossed last on the way through some fill levels. -/
def lastCrossed (fills : List ℚ) : Option BufferState :=
  (fills.filterMap (crossed options)).getLast?

variable (options) in
/-- The fill levels of a run. -/
def fills (es : List BufferEvent) : List ℚ :=
  ((lts options).visited (init options) es).map (·.buffer.fillFraction)

lemma lastCrossed_concat (levels : List ℚ) (fill : ℚ) :
    lastCrossed options (levels ++ [fill])
      = (crossed options fill).or (lastCrossed options levels) := by
  -- a level between the marks crosses neither
  rw [lastCrossed, List.filterMap_append, lastCrossed]
  cases hcrossed : crossed options fill with
  | none => simp [hcrossed]
  | some state => simp [hcrossed]

/-- The mode keeps to the marks, is the side of the mark that was crossed last, and
changes only with movements of the fill level from one mark to the other. -/
structure Hysteresis (es : List BufferEvent) (s : BufferSystem options) : Prop where
  normal : s.buffer.state = .normal → s.buffer.fillFraction < options.highWaterMarkFraction
  shedding : s.buffer.state = .shedding → options.lowWaterMarkFraction < s.buffer.fillFraction
  side : lastCrossed options (fills options es) = some s.buffer.state
  gap : ∀ pre e mid e' post (s₁ s₂ s₃ s₄ : BufferSystem options),
    es = pre ++ e :: (mid ++ e' :: post) → (lts options).run (init options) pre = some s₁ →
    s₁.step e = some s₂ → (lts options).run s₂ mid = some s₃ → s₃.step e' = some s₄ →
    s₁.buffer.state ≠ s₂.buffer.state → s₂.buffer.state = s₃.buffer.state →
    s₃.buffer.state ≠ s₄.buffer.state →
    options.highWaterMarkFraction - options.lowWaterMarkFraction
      ≤ |s₄.buffer.fillFraction - s₂.buffer.fillFraction|

/-- Two changes of the mode, one after the other, are at opposite marks. -/
lemma gap_of_changes {s₁ s₂ s₃ s₄ : BufferSystem options} {e e' : BufferEvent}
    (h₁₂ : s₁.step e = some s₂) (h₃₄ : s₃.step e' = some s₄)
    (hfirst : s₁.buffer.state ≠ s₂.buffer.state) (hsame : s₂.buffer.state = s₃.buffer.state)
    (hsecond : s₃.buffer.state ≠ s₄.buffer.state) :
    options.highWaterMarkFraction - options.lowWaterMarkFraction
      ≤ |s₄.buffer.fillFraction - s₂.buffer.fillFraction| := by
  obtain ⟨hshed₂, hnormal₂⟩ := (follows_of_step h₁₂).mark_of_ne hfirst
  obtain ⟨hshed₄, hnormal₄⟩ := (follows_of_step h₃₄).mark_of_ne hsecond
  rw [← hsame] at hsecond
  cases h₂ : s₂.buffer.state with
  | normal =>
    have h₄ : s₄.buffer.state = .shedding := by
      cases h₄ : s₄.buffer.state with
      | normal => exact absurd (h₂.trans h₄.symm) hsecond
      | shedding => rfl
    have hlow := hnormal₂ h₂
    have hhigh := hshed₄ h₄
    exact le_trans (by linarith) (le_abs_self _)
  | shedding =>
    have h₄ : s₄.buffer.state = .normal := by
      cases h₄ : s₄.buffer.state with
      | normal => rfl
      | shedding => exact absurd (h₂.trans h₄.symm) hsecond
    have hhigh := hshed₂ h₂
    have hlow := hnormal₄ h₄
    exact le_trans (by linarith) (neg_le_abs _)

/-- At the start nothing is queued, and the low mark counts as crossed. -/
lemma fillFraction_init : (init options).buffer.fillFraction = 0 := by
  have hzero : (init options).buffer.totalSize = 0 := rfl
  simp [fillFraction, hzero]

/-- The mode shows hysteresis in every run, for all marks `0 ≤ low < high ≤ 1`. -/
theorem hysteresis_of_run (hlow : 0 ≤ options.lowWaterMarkFraction)
    (hmarks : options.lowWaterMarkFraction < options.highWaterMarkFraction)
    {es : List BufferEvent} (hrun : (lts options).run (init options) es = some s) :
    s.Hysteresis es := by
  have h₀ : (init options).buffer.Agrees :=
    ⟨fun _ => fillFraction_init.trans_lt (hlow.trans_lt hmarks), fun h => nomatch h⟩
  have hstart : crossed options (init options).buffer.fillFraction = some .normal := by
    rw [fillFraction_init, crossed, if_neg (not_le.2 (hlow.trans_lt hmarks)), if_pos hlow]
  have hinv : s.buffer.Agrees ∧
      lastCrossed options (fills options es) = some s.buffer.state := by
    refine Lts.run_invariant_history
      (I := fun es s => s.buffer.Agrees ∧
        lastCrossed options (fills options es) = some s.buffer.state)
      ⟨h₀, ?_⟩ ?_ hrun
    · simp only [fills, Lts.visited, List.map_cons, List.map_nil, lastCrossed,
        List.filterMap_cons_some hstart, List.filterMap_nil]
      rfl
    · rintro es s e s' hes ⟨hagrees, hside⟩ hstep
      have hfollows := follows_of_step hstep
      refine ⟨hfollows.agrees hmarks hagrees, ?_⟩
      rw [fills, Lts.visited_concat hes hstep, List.map_append, List.map_singleton,
        lastCrossed_concat, hfollows.crossed hmarks hagrees, ← fills, hside]
      cases crossed options s'.buffer.fillFraction <;> rfl
  refine ⟨hinv.1.1, hinv.1.2, hinv.2, ?_⟩
  intro pre e mid e' post s₁ s₂ s₃ s₄ _ _ h₁₂ _ h₃₄ hfirst hsame hsecond
  exact gap_of_changes h₁₂ h₃₄ hfirst hsame hsecond

/-- The signal that fills the tiny buffer engages the shedding, its drain ends it. -/
theorem hysteresis_of_tinyEvents : ∃ s,
    (lts tinyOptions).run (init tinyOptions) tinyEvents = some s ∧ s.Hysteresis tinyEvents := by
  have hran : ((lts tinyOptions).run (init tinyOptions) tinyEvents).isSome = true := by
    decide +kernel
  obtain ⟨s, hrun⟩ := Option.isSome_iff_exists.1 hran
  exact ⟨s, hrun, hysteresis_of_run (by norm_num [tinyOptions]) (by norm_num [tinyOptions]) hrun⟩

end BufferSystem

/-! ### The order of shedding -/

/-- The ceilings fall with the urgency. -/
lemma SignalBufferOptions.Admitted.ceiling_lt {options : SignalBufferOptions}
    (hadmitted : options.Admitted) {severity lower : Severity} (hne : severity ≠ .P0)
    (hlower : lower ≠ .P0) (h : severity.rank < lower.rank) :
    options.shedCeilingFractions ⟨lower, hlower⟩
      < options.shedCeilingFractions ⟨severity, hne⟩ := by
  obtain ⟨h₃₂, h₂₁⟩ := hadmitted.ceilings
  cases severity <;> cases lower <;> first
    | exact absurd rfl hne
    | exact absurd h (by decide)
    | exact h₂₁
    | exact h₃₂
    | exact h₃₂.trans h₂₁

namespace SignalBuffer

variable {options : SignalBufferOptions} {b : SignalBuffer options}

/-- What `submit` rejects: a signal at its ceiling, and one that is not P0 in a full buffer. -/
lemma rejected_iff (signal : IngestionSignal) : (b.submit signal).1 ≠ .accepted ↔
    b.ceilingReached signal.severity = true ∨
      signal.severity ≠ .P0 ∧ options.capacity ≤ b.totalSize := by
  unfold submit
  split_ifs with hceiling hfull hP0
  · simp [hceiling]
  · rw [hP0] at hceiling
    simp [hceiling, hP0]
  · simp [hP0, hfull]
  · simp [hceiling, hfull]

/-- A less urgent queue of the same length is at its ceiling too. -/
lemma ceilingReached_of_less_urgent (hadmitted : options.Admitted) {severity lower : Severity}
    (hurgent : severity.rank < lower.rank)
    (hlonger : (b.queues severity).size ≤ (b.queues lower).size)
    (h : b.ceilingReached severity = true) : b.ceilingReached lower = true := by
  have hlower : lower ≠ .P0 := by
    rintro rfl
    exact absurd hurgent (by simp [Severity.rank])
  unfold ceilingReached at h ⊢
  split_ifs at h with hne
  rw [dif_pos hlower]
  simp only [decide_eq_true_eq] at h ⊢
  obtain ⟨hshedding, hceiling⟩ := h
  have hfraction := hadmitted.ceiling_lt hne hlower hurgent
  have hfloor : ⌊(options.capacity : ℚ) * options.shedCeilingFractions ⟨lower, hlower⟩⌋
      ≤ ⌊(options.capacity : ℚ) * options.shedCeilingFractions ⟨severity, hne⟩⌋ :=
    Int.floor_le_floor (mul_le_mul_of_nonneg_left hfraction.le (Nat.cast_nonneg _))
  exact ⟨hshedding, hfloor.trans (hceiling.trans (by exact_mod_cast hlonger))⟩

/-- A signal is rejected wherever a more urgent one is, if the buffer is full or if its own
queue is at least as long as that of the other. -/
theorem rejected_of_less_urgent (hadmitted : options.Admitted) (b : SignalBuffer options)
    {signal lower : IngestionSignal} (hurgent : signal.severity.rank < lower.severity.rank)
    (h : (b.submit signal).1 ≠ .accepted)
    (hlonger : options.capacity ≤ b.totalSize ∨
      (b.queues signal.severity).size ≤ (b.queues lower.severity).size) :
    (b.submit lower).1 ≠ .accepted := by
  rw [rejected_iff] at h ⊢
  have hlower : lower.severity ≠ .P0 := by
    intro hP0
    rw [hP0] at hurgent
    exact absurd hurgent (Nat.not_lt_zero _)
  rcases hlonger with hfull | hlonger
  · exact .inr ⟨hlower, hfull⟩
  · rcases h with hceiling | ⟨-, hfull⟩
    · exact .inl (ceilingReached_of_less_urgent hadmitted hurgent hlonger hceiling)
    · exact .inr ⟨hlower, hfull⟩

end SignalBuffer

namespace BufferSystem

open SignalBuffer

/-- A small buffer whose fractions the config loader admits. -/
def steppedOptions : SignalBufferOptions where
  capacity := 8
  highWaterMarkFraction := 3 / 8
  lowWaterMarkFraction := 1 / 8
  shedCeilingFractions := fun severity =>
    match severity with
    | ⟨.P0, h⟩ => absurd rfl h
    | ⟨.P1, _⟩ => 3 / 8
    | ⟨.P2, _⟩ => 2 / 8
    | ⟨.P3, _⟩ => 1 / 8
  drainBatchSize := 1
  capacity_pos := by decide
  drainBatchSize_pos := Nat.one_pos

lemma admitted_steppedOptions : steppedOptions.Admitted where
  highWaterMarkFraction := by norm_num [steppedOptions]
  lowWaterMarkFraction := by norm_num [steppedOptions]
  shedCeilingFractions := by
    rintro ⟨severity, hne⟩
    cases severity with
    | P0 => exact absurd rfl hne
    | P1 | P2 | P3 => norm_num [steppedOptions]
  marks := by norm_num [steppedOptions]
  ceilings := by norm_num [steppedOptions]

/-- Three signals of one severity, which engage the shedding of an empty buffer. -/
def threeOf (severity : Severity) : List BufferEvent :=
  [.submit (cacheSignal "a" "c" severity), .submit (cacheSignal "b" "c" severity),
    .submit (cacheSignal "d" "c" severity)]

/-- The P1s and the P3s are as many, and at the ceiling of P1. -/
theorem rejected_of_threeOf : ∃ s,
    (lts steppedOptions).run (init steppedOptions) (threeOf .P3 ++ threeOf .P1) = some s ∧
      (s.buffer.submit (cacheSignal "e" "c" .P3)).1 ≠ .accepted := by
  have hobserved : ((lts steppedOptions).run (init steppedOptions)
      (threeOf .P3 ++ threeOf .P1)).map
      (fun s => (decide ((s.buffer.submit (cacheSignal "e" "c" .P1)).1 = .accepted),
        (s.buffer.queues .P1).size, (s.buffer.queues .P3).size)) = some (false, 3, 3) := by
    decide +kernel
  obtain ⟨s, hrun, hs⟩ := Option.map_eq_some_iff.1 hobserved
  simp only [Prod.mk.injEq, decide_eq_false_iff_not] at hs
  obtain ⟨hP1, hsize₁, hsize₃⟩ := hs
  exact ⟨s, hrun, rejected_of_less_urgent admitted_steppedOptions s.buffer (by decide) hP1
    (.inr (hsize₁.trans hsize₃.symm).le)⟩

/-- A P1 is rejected at its own ceiling while a P3 is accepted below its own. -/
theorem not_rejected_of_less_urgent : ¬ ∀ (options : SignalBufferOptions), options.Admitted →
    ∀ (es : List BufferEvent) (s : BufferSystem options),
      (lts options).run (init options) es = some s →
      ∀ signal lower : IngestionSignal, signal.severity.rank < lower.severity.rank →
        (s.buffer.submit signal).1 ≠ .accepted → (s.buffer.submit lower).1 ≠ .accepted := by
  intro h
  have hobserved : ((lts steppedOptions).run (init steppedOptions) (threeOf .P1)).map
      (fun s => (decide ((s.buffer.submit (cacheSignal "e" "c" .P1)).1 = .accepted),
        decide ((s.buffer.submit (cacheSignal "e" "c" .P3)).1 = .accepted)))
      = some (false, true) := by
    decide +kernel
  obtain ⟨s, hrun, hs⟩ := Option.map_eq_some_iff.1 hobserved
  simp only [Prod.mk.injEq, decide_eq_false_iff_not, decide_eq_true_eq] at hs
  exact h steppedOptions admitted_steppedOptions (threeOf .P1) s hrun (cacheSignal "e" "c" .P1)
    (cacheSignal "e" "c" .P3) (by decide) hs.1 hs.2

end BufferSystem

end InveniOps.Ingestion
