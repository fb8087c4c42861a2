import Mathlib.Algebra.Order.Floor.Semiring
import Mathlib.Data.Rat.Floor
import InveniOps.Ingestion.DrainOrder
import InveniOps.Ingestion.Shutdown

/-!
# The account of `drainAll`

One call of `drainAll` with no other drain in progress.  Each round takes a batch off the
queues and waits for the sink, which may reject it; the batch counts as processed either
way.  Left alone the loop makes as many sink calls as there are batches in the buffer and
leaves nothing; submissions at its awaits change what it finds, not the account.
-/

namespace InveniOps.Ingestion

open Lib

/-- The sink answers, or the loop goes on behind the answer. -/
def BufferEvent.isRoundStep : BufferEvent → Bool
  | .settle _ _ | .resume _ _ => true
  | _ => false

namespace BufferSystem

open SignalBuffer

variable {options : SignalBufferOptions}

section

variable (s : BufferSystem options)

/-- Nothing but the loop goes on, and it finds the deadline not reached. -/
def Undisturbed : BufferEvent → Prop
  | .settle _ _ | .start | .stop => True
  | .resume k now =>
    match s.drains[k]? with
    | some ⟨.drainAll deadline _ _, _, _⟩ => now < deadline
    | _ => True
  | .submit _ | .tick | .drainAll _ _ _ => False

/-- Besides the loop there are only submissions, at its awaits. -/
def Interleaved : BufferEvent → Prop
  | .settle _ _ | .resume _ _ | .start | .stop => True
  | .submit _ => s.drains ≠ []
  | .tick | .drainAll _ _ _ => False

instance decidableUndisturbed (e : BufferEvent) : Decidable (s.Undisturbed e) :=
  match e with
  | .resume k now =>
    match h : s.drains[k]? with
    | some ⟨.drainAll deadline _ _, _, _⟩ =>
      decidable_of_iff (now < deadline) (by simp [Undisturbed, h])
    | some ⟨.tick, _, _⟩ => isTrue (by simp [Undisturbed, h])
    | none => isTrue (by simp [Undisturbed, h])
  | .settle _ _ | .start | .stop => isTrue trivial
  | .submit _ | .tick | .drainAll _ _ _ => isFalse id

instance decidableInterleaved (e : BufferEvent) : Decidable (s.Interleaved e) :=
  match e with
  | .submit _ => decidable_of_iff (s.drains.isEmpty = false) (by simp [Interleaved])
  | .settle _ _ | .resume _ _ | .start | .stop => isTrue trivial
  | .tick | .drainAll _ _ _ => isFalse id

/-- The sink calls that the signals of the buffer need. -/
def batches : ℕ := ⌈(s.buffer.totalSize : ℚ) / options.drainBatchSize⌉₊

end

/-- Left alone, `drainAll` returns behind a bounded number of steps with an exact account.
The events are those behind its first look at the buffer; `calls` are all its sink calls. -/
structure DrainsExactly (s t : BufferSystem options) (es : List BufferEvent)
    (calls : List (List IngestionSignal)) : Prop where
  bounded : es.countP (·.isRoundStep) ≤ 2 * s.batches
  /-- Until the return the next step is possible, whatever the sink answers. -/
  progress : t.drains ≠ [] →
    (∀ ok, (t.step (.settle 0 ok)).isSome) ∨ ∀ now, (t.step (.resume 0 now)).isSome
  returned : t.drains = [] → calls.length = s.batches ∧ ∃ result,
    t.results = s.results ++ [result] ∧ result.processed = s.buffer.totalSize ∧
      result.processed = result.succeeded + result.failed ∧ result.remaining = 0

/-- What is processed and what remains are what was there and what came, but for the
evicted signals. -/
def Accounts (s t : BufferSystem options) (events : List BufferEvent) : Prop :=
  t.drains = [] → ∃ result, t.results = s.results ++ [result] ∧
    result.processed = result.succeeded + result.failed ∧
    result.processed + result.remaining + ((lts options).emitted evicted s events).length
      = s.buffer.totalSize + ((lts options).emitted accepted s events).length

/-! ### One round -/

variable {s t t' : BufferSystem options} {results : List DrainAllResult} {deadline : Instant}
  {succeeded failed : ℕ} {drain : Drain}

/-- The loop awaits a drain of its own, and there is no other. -/
structure InRound (results : List DrainAllResult) (deadline : Instant) (succeeded failed : ℕ)
    (drain : Drain) (t : BufferSystem options) : Prop where
  drains : t.drains = [drain]
  caller : drain.caller = .drainAll deadline succeeded failed
  phase : drain.phase = .sink ∨
    ∃ drained lost, drain.phase = .settled drained lost ∧ drained + lost = drain.batch.length
  results : t.results = results

/-- How an event goes on from a round. -/
inductive RoundRuns (results : List DrainAllResult) (deadline : Instant) (succeeded failed : ℕ)
    (drain : Drain) (t t' : BufferSystem options) : BufferEvent → Prop
  | submitted {signal : IngestionSignal}
      (inRound : InRound results deadline succeeded failed drain t') :
    RoundRuns results deadline succeeded failed drain t t' (.submit signal)
  | quiet {e : BufferEvent} (no_step : e.isRoundStep = false)
      (inRound : InRound results deadline succeeded failed drain t')
      (queues : t'.buffer.queues = t.buffer.queues) :
    RoundRuns results deadline succeeded failed drain t t' e
  | settled {ok : Bool} (phase : DrainPhase) (sink : drain.phase = .sink)
      (answered : phase ≠ .sink)
      (inRound : InRound results deadline succeeded failed { drain with phase := phase } t')
      (queues : t'.buffer.queues = t.buffer.queues) :
    RoundRuns results deadline succeeded failed drain t t' (.settle 0 ok)
  | resumed {now : Instant} {drained lost : ℕ} (phase : drain.phase = .settled drained lost)
      (next : t' = { t with drains := [] }.drainAllLoop deadline (succeeded + drained)
        (failed + lost) now) :
    RoundRuns results deadline succeeded failed drain t t' (.resume 0 now)

lemma InRound.settled_sum (h : InRound results deadline succeeded failed drain t)
    {drained lost : ℕ} (hphase : drain.phase = .settled drained lost) :
    drained + lost = drain.batch.length := by
  rcases h.phase with hsink | ⟨drained', lost', hphase', hsum⟩
  · rw [hphase] at hsink
    cases hsink
  · rw [hphase] at hphase'
    cases hphase'
    exact hsum

lemma eq_of_singleton {k : ℕ} {drain' : Drain} (h : [drain][k]? = some drain') :
    k = 0 ∧ drain' = drain := by
  cases k with
  | zero => exact ⟨rfl, (Option.some.inj h).symm⟩
  | succ k => cases h

lemma InRound.runs (h : InRound results deadline succeeded failed drain t) {e : BufferEvent}
    (he : e ≠ .tick) (he' : ∀ timeoutMs now now', e ≠ .drainAll timeoutMs now now')
    (hstep : t.step e = some t') : RoundRuns results deadline succeeded failed drain t t' e := by
  cases e with
  | submit signal =>
    cases hstep
    exact .submitted ⟨h.drains, h.caller, h.phase, h.results⟩
  | start | stop =>
    cases hstep
    exact .quiet rfl ⟨h.drains, h.caller, h.phase, h.results⟩ rfl
  | tick => exact absurd rfl he
  | drainAll timeoutMs now now' => exact absurd rfl (he' timeoutMs now now')
  | settle k ok =>
    simp only [step] at hstep
    split at hstep
    · rename_i caller batch hk
      rw [h.drains] at hk
      obtain ⟨rfl, rfl⟩ := eq_of_singleton hk
      obtain rfl := Option.some.inj hstep
      cases ok with
      | true =>
        refine .settled (.settled batch.length 0) rfl (by simp)
          ⟨?_, h.caller, .inr ⟨_, _, rfl, Nat.add_zero _⟩, h.results⟩ rfl
        simp only [onSettle, h.drains]
        rfl
      | false =>
        refine .settled (.settled 0 batch.length) rfl (by simp)
          ⟨?_, h.caller, .inr ⟨_, _, rfl, Nat.zero_add _⟩, h.results⟩
          (queues_recordSinkFailure batch)
        simp only [onSettle, h.drains]
        rfl
    · cases hstep
  | resume k now =>
    simp only [step] at hstep
    split at hstep
    · rename_i caller batch drained lost hk
      rw [h.drains] at hk
      obtain ⟨rfl, rfl⟩ := eq_of_singleton hk
      obtain rfl := Option.some.inj hstep
      obtain rfl : caller = _ := h.caller
      refine .resumed rfl ?_
      simp only [h.drains]
      rfl
    · cases hstep

/-- The first look of `drainAll`, and every later one: another round, or the return. -/
lemma drainAllLoop_spec (hdrains : t.drains = []) (deadline : Instant) (succeeded failed : ℕ)
    (now : Instant) :
    (∃ drain, InRound t.results deadline succeeded failed drain
        (t.drainAllLoop deadline succeeded failed now) ∧ drain.phase = .sink ∧
        drain.batch = t.roundBatch deadline now ∧ drain.batch ≠ [] ∧
        drain.batch.length = min options.drainBatchSize t.buffer.totalSize ∧
        drain.batch.length + (t.drainAllLoop deadline succeeded failed now).buffer.totalSize
          = t.buffer.totalSize) ∨
      (t.buffer.totalSize = 0 ∨ deadline ≤ now) ∧ t.roundBatch deadline now = [] ∧
        t.drainAllLoop deadline succeeded failed now = { t with
          results := t.results ++
            [⟨succeeded + failed, succeeded, failed, t.buffer.totalSize⟩] } := by
  unfold drainAllLoop roundBatch
  split_ifs with hloop
  · obtain ⟨hbatch, hrest, -⟩ := t.buffer.popPriorityBatch_spec options.drainBatchSize
    obtain ⟨drain, hdrain, hcaller, hnext, hphase⟩ :=
      drains_drainToSink_eq t (.drainAll deadline succeeded failed)
    have hlength : t.nextBatch.length = min options.drainBatchSize t.buffer.totalSize := by
      rw [nextBatch, hbatch, List.length_take, length_queued]
    have hne : t.nextBatch ≠ [] := by
      rw [← List.length_pos_iff_ne_nil, hlength]
      exact lt_min options.drainBatchSize_pos hloop.1
    have hsink : drain.phase = .sink := by
      rcases hphase with ⟨hsink, -⟩ | ⟨-, hnil⟩
      · exact hsink
      · exact absurd hnil hne
    have htotal : (t.drainToSink (.drainAll deadline succeeded failed)).buffer.totalSize
        = t.buffer.totalSize - options.drainBatchSize := by
      rw [← length_queued, ← length_queued, ← List.length_drop, ← hrest]
      dsimp only [drainToSink]
      split_ifs
      · rfl
      · rw [queued_congr queues_recomputeState]
    refine .inl ⟨drain, ⟨?_, hcaller, .inl hsink, results_drainToSink _⟩, hsink, hnext,
      hnext ▸ hne, hnext ▸ hlength, ?_⟩
    · rw [hdrain, hdrains, List.nil_append]
    · rw [hnext, hlength, htotal]
      omega
  · refine .inr ⟨?_, rfl, rfl⟩
    rcases Nat.eq_zero_or_pos t.buffer.totalSize with hempty | hpos
    · exact .inl hempty
    · exact .inr (not_lt.1 fun hnow => hloop ⟨hpos, hnow⟩)

/-- Without a drain only the flags of the buffer change, unless something new comes. -/
lemma quiet_of_step (hdrains : t.drains = []) {e : BufferEvent} (he : e ≠ .tick)
    (he' : ∀ timeoutMs now now', e ≠ .drainAll timeoutMs now now')
    (hsubmit : ∀ signal, e ≠ .submit signal) (hstep : t.step e = some t') :
    e.isRoundStep = false ∧ t'.drains = [] ∧ t'.results = t.results ∧
      t'.buffer.queues = t.buffer.queues := by
  cases e with
  | submit signal => exact absurd rfl (hsubmit signal)
  | start | stop =>
    cases hstep
    exact ⟨rfl, hdrains, rfl, rfl⟩
  | tick => exact absurd rfl he
  | drainAll timeoutMs now now' => exact absurd rfl (he' timeoutMs now now')
  | settle k ok => simp [step, hdrains] at hstep
  | resume k now => simp [step, hdrains] at hstep

lemma sinkCalls_of_same {e : BufferEvent} (hstep : t.step e = some t')
    (hlength : t'.drains.length ≤ t.drainsKept e) : t.sinkCalls e = [] := by
  simp only [sinkCalls, hstep, List.drop_of_length_le hlength, List.filterMap_nil]

/-- The next round of the loop is one sink call. -/
lemma sinkCalls_of_round {now : Instant} (hdrains : t.drains = [drain])
    (hstep : t.step (.resume 0 now) = some t') {next : Drain} (hnext : t'.drains = [next])
    (hsink : next.phase = .sink) : t.sinkCalls (.resume 0 now) = [next.batch] := by
  simp [sinkCalls, hstep, drainsKept, hdrains, hnext, hsink]

/-! ### Left alone -/

lemma lt_batches {rounds : ℕ} (h : rounds * options.drainBatchSize < s.buffer.totalSize) :
    rounds < s.batches := by
  have hpos : (0 : ℚ) < options.drainBatchSize := by exact_mod_cast options.drainBatchSize_pos
  rw [batches, Nat.lt_ceil, lt_div_iff₀ hpos]
  exact_mod_cast h

lemma batches_le {rounds : ℕ} (h : s.buffer.totalSize ≤ rounds * options.drainBatchSize) :
    s.batches ≤ rounds := by
  have hpos : (0 : ℚ) < options.drainBatchSize := by exact_mod_cast options.drainBatchSize_pos
  rw [batches, Nat.ceil_le, div_le_iff₀ hpos]
  exact_mod_cast h

/-- Where `drainAll` is behind `calls` sink calls, with at most `left` steps to go: all
batches before the last one are full. -/
inductive Draining (s : BufferSystem options) (deadline : Instant) (calls left : ℕ)
    (t : BufferSystem options) : Prop
  | round {rounds succeeded failed : ℕ} {drain : Drain}
      (inRound : InRound s.results deadline succeeded failed drain t)
      (called : calls = rounds + 1)
      (processed : succeeded + failed = rounds * options.drainBatchSize)
      (nonempty : drain.batch ≠ [])
      (full : 0 < t.buffer.totalSize → drain.batch.length = options.drainBatchSize)
      (room : drain.batch.length ≤ options.drainBatchSize)
      (account : succeeded + failed + drain.batch.length + t.buffer.totalSize
        = s.buffer.totalSize)
      (steps : left = 2 * (s.batches - rounds) - if drain.phase = .sink then 0 else 1)
  | returned (result : DrainAllResult) (drains : t.drains = [])
      (results : t.results = s.results ++ [result])
      (processed : result.processed = s.buffer.totalSize)
      (sum : result.processed = result.succeeded + result.failed)
      (remaining : result.remaining = 0) (called : calls = s.batches)

/-- A look of `drainAll` before the deadline, behind some rounds. -/
lemma draining_drainAllLoop (succeeded failed rounds : ℕ) {now : Instant}
    (hdrains : t.drains = []) (hresults : t.results = s.results)
    (haccount : succeeded + failed + t.buffer.totalSize = s.buffer.totalSize)
    (hmore : 0 < t.buffer.totalSize → succeeded + failed = rounds * options.drainBatchSize)
    (hdone : t.buffer.totalSize = 0 → rounds = s.batches) (hnow : now < deadline) :
    (∃ next, (t.drainAllLoop deadline succeeded failed now).drains = [next] ∧
        next.phase = .sink ∧ Draining s deadline (rounds + 1) (2 * (s.batches - rounds))
          (t.drainAllLoop deadline succeeded failed now)) ∨
      (t.drainAllLoop deadline succeeded failed now).drains = [] ∧
        Draining s deadline rounds 0 (t.drainAllLoop deadline succeeded failed now) := by
  rcases drainAllLoop_spec hdrains deadline succeeded failed now with
    ⟨next, hround, hsink, -, hne, hlength, htotal⟩ | ⟨hempty, -, heq⟩
  · rw [hresults] at hround
    have hpos : 0 < next.batch.length := List.length_pos_iff_ne_nil.2 hne
    refine .inl ⟨next, hround.drains, hsink, .round hround rfl (hmore (by omega)) hne
      (fun hmore => by omega) (by omega) (by omega) ?_⟩
    simp [hsink]
  · have hzero : t.buffer.totalSize = 0 := hempty.resolve_right (not_le.2 hnow)
    rw [heq]
    refine .inr ⟨hdrains, .returned
      ⟨succeeded + failed, succeeded, failed, t.buffer.totalSize⟩ hdrains ?_ ?_ rfl hzero
      (hdone hzero)⟩
    · rw [hresults]
    · show succeeded + failed = _
      omega

/-- A round whose sink has answered is behind it: the loop looks again, with the round's
signals counted. -/
lemma InRound.draining_resumed {rounds drained lost : ℕ}
    (hround : InRound s.results deadline succeeded failed drain t)
    (hphase : drain.phase = .settled drained lost)
    (hprocessed : succeeded + failed = rounds * options.drainBatchSize)
    (hfull : 0 < t.buffer.totalSize → drain.batch.length = options.drainBatchSize)
    (hroom : drain.batch.length ≤ options.drainBatchSize)
    (haccount : succeeded + failed + drain.batch.length + t.buffer.totalSize
      = s.buffer.totalSize) {now : Instant} (hnow : now < deadline)
    (hlt : rounds < s.batches) :
    let t' := { t with drains := [] }.drainAllLoop deadline (succeeded + drained)
      (failed + lost) now
    (∃ next, t'.drains = [next] ∧ next.phase = .sink ∧
        Draining s deadline (rounds + 1 + 1) (2 * (s.batches - (rounds + 1))) t') ∨
      t'.drains = [] ∧ Draining s deadline (rounds + 1) 0 t' := by
  have hsum := hround.settled_sum hphase
  refine draining_drainAllLoop (t := { t with drains := [] }) (succeeded + drained)
    (failed + lost) (rounds + 1) rfl hround.results ?_ ?_ ?_ hnow
  · show succeeded + drained + (failed + lost) + t.buffer.totalSize = s.buffer.totalSize
    omega
  · intro hmore
    have := hfull hmore
    rw [Nat.succ_mul]
    omega
  · intro hzero
    have hzero : t.buffer.totalSize = 0 := hzero
    have hle : s.batches ≤ rounds + 1 := by
      refine batches_le ?_
      rw [Nat.succ_mul]
      omega
    omega

/-- One step of the loop, and at most one sink call. -/
lemma Draining.step {calls left : ℕ} (h : Draining s deadline calls left t) {e : BufferEvent}
    (halone : t.Undisturbed e) (hstep : t.step e = some t') :
    ∃ left', Draining s deadline (calls + (t.sinkCalls e).length) left' t' ∧
      left' + (if e.isRoundStep then 1 else 0) ≤ left := by
  have htick : e ≠ .tick := by
    rintro rfl
    exact halone
  have hdrainAll : ∀ timeoutMs now now', e ≠ .drainAll timeoutMs now now' := by
    rintro timeoutMs now now' rfl
    exact halone
  have hsubmit : ∀ signal, e ≠ .submit signal := by
    rintro signal rfl
    exact halone
  cases h with
  | returned result hdrains hresults hprocessed hsum hremaining hcalled =>
    obtain ⟨hquiet, hdrains', hresults', -⟩ :=
      quiet_of_step hdrains htick hdrainAll hsubmit hstep
    have hnone : t.sinkCalls e = [] := sinkCalls_of_same hstep (by simp [hdrains'])
    rw [hnone, hquiet]
    exact ⟨left, .returned result hdrains' (hresults'.trans hresults) hprocessed hsum hremaining
      hcalled, le_rfl⟩
  | @round rounds succeeded failed drain hround hcalled hprocessed hne hfull hroom haccount
      hsteps =>
    have hpos : 0 < drain.batch.length := List.length_pos_iff_ne_nil.2 hne
    have hlt : rounds < s.batches := lt_batches (by omega)
    cases hround.runs htick hdrainAll hstep with
    | submitted hround' => exact absurd rfl (hsubmit _)
    | quiet hno hround' hqueues =>
      have hnone : t.sinkCalls e = [] := by
        refine sinkCalls_of_same hstep ?_
        rw [hround'.drains]
        cases e <;> simp_all [drainsKept, hround.drains, BufferEvent.isRoundStep]
      have htotal := totalSize_congr hqueues
      rw [hnone, hno]
      exact ⟨left, .round hround' hcalled hprocessed hne (htotal ▸ hfull) hroom
        (htotal ▸ haccount) hsteps, le_rfl⟩
    | settled phase hsink hanswered hround' hqueues =>
      have hnone : ∀ ok, t.step (.settle 0 ok) = some t' → t.sinkCalls (.settle 0 ok) = [] := by
        intro ok hstep
        refine sinkCalls_of_same hstep ?_
        simp [hround'.drains, drainsKept, hround.drains]
      have htotal := totalSize_congr hqueues
      rw [hnone _ hstep]
      refine ⟨2 * (s.batches - rounds) - 1, .round hround' hcalled hprocessed hne
        (htotal ▸ hfull) hroom (htotal ▸ haccount) ?_, ?_⟩
      · simp [hanswered]
      · simp only [BufferEvent.isRoundStep, if_true, hsteps, hsink]
        omega
    | @resumed now drained lost hphase hnext =>
      have hdrain : t.drains[0]? = some ⟨.drainAll deadline succeeded failed, drain.batch,
          drain.phase⟩ := by
        rw [hround.drains, ← hround.caller]
        rfl
      have hdeadline : now < deadline := by simpa [Undisturbed, hdrain] using halone
      simp only [BufferEvent.isRoundStep, if_true, hsteps, hphase, reduceCtorEq, if_false]
      rcases hround.draining_resumed hphase hprocessed hfull hroom haccount hdeadline hlt with
        ⟨next, hdrains, hsink, hdraining⟩ | ⟨hdrains, hdraining⟩
      · rw [← hnext] at hdrains hdraining
        rw [sinkCalls_of_round hround.drains hstep hdrains hsink, hcalled]
        exact ⟨_, hdraining, by omega⟩
      · rw [← hnext] at hdrains hdraining
        rw [sinkCalls_of_same hstep (by simp [hdrains]), hcalled]
        exact ⟨_, hdraining, by omega⟩

/-- A step is possible until the return. -/
lemma InRound.can_step (h : InRound results deadline succeeded failed drain t) :
    (∀ ok, (t.step (.settle 0 ok)).isSome) ∨ ∀ now, (t.step (.resume 0 now)).isSome := by
  obtain ⟨caller, batch, phase⟩ := drain
  rcases h.phase with hsink | ⟨drained, lost, hsettled, -⟩
  · obtain rfl : phase = .sink := hsink
    exact .inl fun ok => by simp [step, h.drains]
  · obtain rfl : phase = .settled drained lost := hsettled
    exact .inr fun now => by simp [step, h.drains]

lemma drainsExactly_of_run {timeoutMs : ℤ} {now now' : Instant} {s₁ : BufferSystem options}
    {es : List BufferEvent} (hidle : s.drains = []) (hnow : now' < now + timeoutMs)
    (hcall : s.step (.drainAll timeoutMs now now') = some s₁)
    (hrun : (lts options).run s₁ es = some t)
    (halone : (lts options).Meets Undisturbed s₁ es) :
    DrainsExactly s t es
      (s.sinkCalls (.drainAll timeoutMs now now') ++ (lts options).emitted sinkCalls s₁ es) := by
  obtain ⟨left, hle, h₀⟩ : ∃ left, left ≤ 2 * s.batches ∧ Draining s (now + timeoutMs)
      (s.sinkCalls (.drainAll timeoutMs now now')).length left s₁ := by
    have hs₁ : s.drainAllLoop (now + timeoutMs) 0 0 now' = s₁ := Option.some.inj hcall
    have hloop := draining_drainAllLoop (s := s) 0 0 0 hidle rfl (by omega) (by simp) ?_ hnow
    · rw [hs₁] at hloop
      rcases hloop with ⟨next, hdrains, hsink, hdraining⟩ | ⟨hdrains, hdraining⟩
      · have hone : s.sinkCalls (.drainAll timeoutMs now now') = [next.batch] := by
          simp [sinkCalls, hcall, drainsKept, hidle, hdrains, hsink]
        rw [hone]
        exact ⟨_, le_rfl, hdraining⟩
      · rw [sinkCalls_of_same hcall (by simp [hdrains])]
        exact ⟨_, Nat.zero_le _, hdraining⟩
    · intro hzero
      exact (Nat.le_zero.1 (batches_le (by omega))).symm
  have hcalls : ∃ left', Draining s (now + timeoutMs) (s.sinkCalls (.drainAll timeoutMs now now')
      ++ (lts options).emitted sinkCalls s₁ es).length left' t := by
    refine Lts.run_invariant_emitted (I := fun t calls => ∃ left',
      Draining s (now + timeoutMs) calls.length left' t) ?_ hrun halone ⟨left, h₀⟩
    rintro t e t' calls ⟨left', h⟩ hdisturbed hstep
    obtain ⟨left'', h', -⟩ := h.step hdisturbed hstep
    rw [List.length_append]
    exact ⟨left'', h'⟩
  obtain ⟨left', hdraining⟩ := hcalls
  refine ⟨?_, ?_, ?_⟩
  · have hvariant : ∀ n t e t', (∃ calls, Draining s (now + timeoutMs) calls n t) →
        t.Undisturbed e → (lts options).step t e = some t' →
        ∃ m, (∃ calls, Draining s (now + timeoutMs) calls m t') ∧
          m + (if e.isRoundStep then 1 else 0) ≤ n := by
      rintro n t e t' ⟨calls, h⟩ hdisturbed hstep
      obtain ⟨m, h', hm⟩ := h.step hdisturbed hstep
      exact ⟨m, ⟨_, h'⟩, hm⟩
    obtain ⟨m, -, hm⟩ := Lts.countP_le_variant hvariant hrun halone ⟨_, h₀⟩
    exact (Nat.le_add_left _ m).trans (hm.trans hle)
  · intro hbusy
    cases hdraining with
    | round hround => exact hround.can_step
    | returned result hdrains => exact absurd hdrains hbusy
  · intro hdone
    cases hdraining with
    | round hround => simp [hround.drains] at hdone
    | returned result hdrains hresults hprocessed hsum hremaining hcalled =>
      exact ⟨hcalled, result, hresults, hprocessed, hsum, hremaining⟩

/-! ### With submissions at its awaits -/

/-- Where `drainAll` is when it has taken `taken` signals off the queues. -/
inductive Accounting (s : BufferSystem options) (deadline : Instant) (taken : ℕ)
    (t : BufferSystem options) : Prop
  | round {succeeded failed : ℕ} {drain : Drain}
      (inRound : InRound s.results deadline succeeded failed drain t)
      (account : succeeded + failed + drain.batch.length = taken)
  | returned (result : DrainAllResult) (drains : t.drains = [])
      (results : t.results = s.results ++ [result])
      (sum : result.processed = result.succeeded + result.failed)
      (account : result.processed = taken) (remaining : result.remaining = t.buffer.totalSize)

lemma accounting_drainAllLoop (succeeded failed : ℕ) (hdrains : t.drains = [])
    (hresults : t.results = s.results) (deadline now : Instant) :
    Accounting s deadline (succeeded + failed + (t.roundBatch deadline now).length)
      (t.drainAllLoop deadline succeeded failed now) := by
  rcases drainAllLoop_spec hdrains deadline succeeded failed now with
    ⟨next, hround, -, hbatch, -⟩ | ⟨-, hnil, heq⟩
  · rw [hresults] at hround
    exact .round hround (by rw [hbatch])
  · rw [heq, hnil]
    refine .returned ⟨succeeded + failed, succeeded, failed, t.buffer.totalSize⟩ hdrains ?_ rfl
      rfl rfl
    rw [hresults]

lemma Accounting.step {taken : ℕ} (h : Accounting s deadline taken t) {e : BufferEvent}
    (hinterleaved : t.Interleaved e) (hstep : t.step e = some t') :
    Accounting s deadline (taken + (t.handed e).length) t' := by
  have htick : e ≠ .tick := by
    rintro rfl
    exact hinterleaved
  have hdrainAll : ∀ timeoutMs now now', e ≠ .drainAll timeoutMs now now' := by
    rintro timeoutMs now now' rfl
    exact hinterleaved
  cases h with
  | returned result hdrains hresults hsum haccount hremaining =>
    have hsubmit : ∀ signal, e ≠ .submit signal := by
      rintro signal rfl
      exact hinterleaved hdrains
    obtain ⟨-, hdrains', hresults', hqueues⟩ :=
      quiet_of_step hdrains htick hdrainAll hsubmit hstep
    rw [handed_of_same hstep (by simp [hdrains'])]
    exact .returned result hdrains' (hresults'.trans hresults) hsum haccount
      (hremaining.trans (totalSize_congr hqueues).symm)
  | @round succeeded failed drain hround haccount =>
    cases hround.runs htick hdrainAll hstep with
    | submitted hround' =>
      rw [handed_of_same hstep (by simp [hround'.drains, drainsKept, hround.drains])]
      exact .round hround' haccount
    | quiet hno hround' =>
      have hkept : 1 ≤ t.drainsKept e := by
        cases e <;> simp_all [drainsKept, hround.drains, BufferEvent.isRoundStep]
      rw [handed_of_same hstep (by simpa [hround'.drains] using hkept)]
      exact .round hround' haccount
    | settled phase hsink hanswered hround' =>
      rw [handed_of_same hstep (by simp [hround'.drains, drainsKept, hround.drains])]
      exact .round hround' haccount
    | @resumed now drained lost hphase hnext =>
      have hsum := hround.settled_sum hphase
      have hhanded : t.handed (.resume 0 now) = t.roundBatch deadline now := by
        obtain ⟨caller, batch, phase⟩ := drain
        obtain rfl : caller = _ := hround.caller
        obtain rfl : phase = _ := hphase
        rw [handed_eq_popped hstep]
        simp only [popped, hround.drains, List.getElem?_cons_zero]
      have hloop := accounting_drainAllLoop (s := s) (t := { t with drains := [] })
        (succeeded + drained) (failed + lost) rfl hround.results deadline now
      rw [← hnext] at hloop
      have htaken : succeeded + drained + (failed + lost) = taken := by omega
      rw [htaken] at hloop
      rw [hhanded]
      exact hloop

lemma length_eq_sum_ofSeverity (signals : List IngestionSignal) : signals.length
    = (priorityOrder.map fun severity => (ofSeverity severity signals).length).sum := by
  induction signals with
  | nil => rfl
  | cons signal signals ih =>
    have hcons : ∀ severity, ofSeverity severity (signal :: signals)
        = ofSeverity severity [signal] ++ ofSeverity severity signals := fun severity =>
      ofSeverity_append severity [signal] signals
    simp only [hcons, List.length_append, List.length_cons, ih, ofSeverity_singleton]
    cases hsignal : signal.severity <;> simp [priorityOrder] <;> omega

/-- No run loses count of the queued signals. -/
lemma totalSize_of_run (hs : s.Inv) {es : List BufferEvent}
    (hrun : (lts options).run s es = some t) :
    s.buffer.totalSize + ((lts options).emitted accepted s es).length
      = ((lts options).emitted evicted s es).length + ((lts options).emitted handed s es).length
        + t.buffer.totalSize := by
  have hbalance : ∀ severity,
      s.queue severity ++ ofSeverity severity ((lts options).emitted accepted s es)
        = ofSeverity severity ((lts options).emitted (fun s e => s.evicted e ++ s.popped e) s es)
          ++ t.queue severity := by
    intro severity
    rw [ofSeverity, ofSeverity, Lts.filter_emitted, Lts.filter_emitted]
    exact Lts.run_balance (I := Inv) (fun _ _ _ h hstep => h.step hstep)
      (fun _ _ _ h hstep => queue_of_step h hstep severity) hrun hs
  have hleft := (removal_emitted hrun).perm.length_eq
  rw [List.length_append] at hleft
  have hsum := fun severity => congrArg List.length (hbalance severity)
  simp only [List.length_append, queue, RingBuffer.length_contents] at hsum
  rw [← hleft, length_eq_sum_ofSeverity ((lts options).emitted accepted s es),
    length_eq_sum_ofSeverity ((lts options).emitted (fun s e => s.evicted e ++ s.popped e) s es)]
  simp only [totalSize, priorityOrder, List.map_cons, List.map_nil, List.sum_cons, List.sum_nil]
  have h₀ := hsum .P0
  have h₁ := hsum .P1
  have h₂ := hsum .P2
  have h₃ := hsum .P3
  omega

lemma accounts_of_run (hs : s.Inv) {timeoutMs : ℤ} {now now' : Instant}
    {s₁ : BufferSystem options} {es : List BufferEvent} (hidle : s.drains = [])
    (hcall : s.step (.drainAll timeoutMs now now') = some s₁)
    (hrun : (lts options).run s₁ es = some t)
    (hinterleaved : (lts options).Meets Interleaved s₁ es) :
    Accounts s t (.drainAll timeoutMs now now' :: es) := by
  have hs₁ : s.drainAllLoop (now + timeoutMs) 0 0 now' = s₁ := Option.some.inj hcall
  have h₀ : Accounting s (now + timeoutMs) (s.handed (.drainAll timeoutMs now now')).length
      s₁ := by
    rw [handed_eq_popped hcall, ← hs₁]
    simpa [popped] using accounting_drainAllLoop (s := s) 0 0 hidle rfl (now + timeoutMs) now'
  have haccounting := Lts.run_invariant_emitted
    (I := fun t taken => Accounting s (now + timeoutMs) taken.length t) (f := handed) ?_ hrun
    hinterleaved h₀
  · intro hdone
    have hwhole : (lts options).run s (.drainAll timeoutMs now now' :: es) = some t := by
      rw [Lts.run_cons]
      exact (congrArg (Option.bind · _) hcall).trans hrun
    have htotal := totalSize_of_run hs hwhole
    rw [Lts.emitted_cons (f := handed) hcall] at htotal
    cases haccounting with
    | round hround => simp [hround.drains] at hdone
    | returned result hdrains hresults hsum haccount hremaining =>
      refine ⟨result, hresults, hsum, ?_⟩
      rw [haccount, hremaining]
      omega
  · intro t e t' taken h hinterleaved hstep
    rw [List.length_append]
    exact h.step hinterleaved hstep

/-- With no other drain in progress, `drainAll` gives an exact account of the buffer: left
alone and in time it empties it in as few sink calls as its batches allow, and the
submissions at its awaits enter the account. -/
theorem drainAll_accounts {before es : List BufferEvent} {timeoutMs : ℤ} {now now' : Instant}
    {s₁ : BufferSystem options} (hreach : (lts options).run (init options) before = some s)
    (hidle : s.drains = []) (hcall : s.step (.drainAll timeoutMs now now') = some s₁)
    (hrun : (lts options).run s₁ es = some t) :
    (now' < now + timeoutMs → (lts options).Meets Undisturbed s₁ es → DrainsExactly s t es
      (s.sinkCalls (.drainAll timeoutMs now now') ++ (lts options).emitted sinkCalls s₁ es)) ∧
      ((lts options).Meets Interleaved s₁ es →
        Accounts s t (.drainAll timeoutMs now now' :: es)) := by
  have hs : s.Inv := Lts.run_invariant (fun _ _ _ h hstep => h.step hstep) hreach inv_init
  exact ⟨fun hnow halone => drainsExactly_of_run hidle hnow hcall hrun halone,
    accounts_of_run hs hidle hcall hrun⟩

/-- A buffer of three signals that drains two at a time. -/
def smallOptions : SignalBufferOptions :=
  { tinyOptions with
    capacity := 3
    drainBatchSize := 2
    capacity_pos := Nat.succ_pos 2
    drainBatchSize_pos := Nat.two_pos }

/-- Two rounds, the batch of the first one rejected. -/
def twoRounds : List BufferEvent :=
  [.settle 0 false, .resume 0 1, .settle 0 true, .resume 0 2]

/-- Three P0s come during the first of three rounds, and the last one evicts a signal. -/
def threeRounds : List BufferEvent :=
  [.submit (cacheSignal "d" "c" .P0), .submit (cacheSignal "e" "c" .P0),
    .submit (cacheSignal "f" "c" .P0)] ++ twoRounds ++ [.settle 0 true, .resume 0 3]

theorem drainAll_accounts_of_rejection : ∃ s s₁ t t' : BufferSystem smallOptions,
    s.buffer.totalSize = 3 ∧
    (DrainsExactly s t twoRounds
      (s.sinkCalls (.drainAll 10 0 0) ++ (lts smallOptions).emitted sinkCalls s₁ twoRounds) ∧
        t.results = [⟨3, 1, 2, 0⟩]) ∧
      Accounts s t' (.drainAll 10 0 0 :: threeRounds) ∧ t'.results = [⟨5, 3, 2, 0⟩] := by
  have hran : ((lts smallOptions).run (init smallOptions)
      [.submit (cacheSignal "a" "c" .P3), .submit (cacheSignal "b" "c" .P3),
        .submit (cacheSignal "c" "c" .P3)]).any (fun s =>
      (s.step (.drainAll 10 0 0)).any fun s₁ => ((lts smallOptions).run s₁ twoRounds).any fun t =>
      ((lts smallOptions).run s₁ threeRounds).any fun t' =>
        decide (s.buffer.totalSize = 3) && s.drains.isEmpty &&
          decide ((lts smallOptions).Meets Undisturbed s₁ twoRounds) &&
          decide (t.results = [⟨3, 1, 2, 0⟩]) &&
          decide ((lts smallOptions).Meets Interleaved s₁ threeRounds) &&
          decide (t'.results = [⟨5, 3, 2, 0⟩])) = true := by
    decide +kernel
  simp only [Option.any_eq_true, Bool.and_eq_true, decide_eq_true_eq, List.isEmpty_iff] at hran
  obtain ⟨s, hreach, s₁, hcall, t, hrun, t', hrun', ⟨⟨⟨⟨htotal, hidle⟩, halone⟩, ht⟩,
    hinterleaved⟩, ht'⟩ := hran
  have hexact := (drainAll_accounts hreach hidle hcall hrun).1 (by decide) halone
  have haccounts := (drainAll_accounts hreach hidle hcall hrun').2 hinterleaved
  exact ⟨s, s₁, t, t', htotal, ⟨hexact, ht⟩, haccounts, ht'⟩

end BufferSystem

end InveniOps.Ingestion
