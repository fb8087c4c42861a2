import InveniOps.Ingestion.BufferQueues

/-!
# The order in which the buffer drains

A batch is the front of the four queues, one after the other.  Over a run each severity
is handed to the sink in the order in which it was accepted: an eviction takes a signal
out of that order, a batch takes the next ones, and what is still queued follows.
-/

namespace InveniOps.Ingestion

open Lib

namespace BufferSystem

open SignalBuffer

variable {options : SignalBufferOptions}

section

variable (s : BufferSystem options)

/-- The number of drains that are not new behind an event. -/
def drainsKept : BufferEvent → ℕ
  | .resume _ _ => s.drains.length - 1
  | _ => s.drains.length

/-- The batches that an event hands to the sink: those of the new drains that wait for it. -/
def sinkCalls (e : BufferEvent) : List (List IngestionSignal) :=
  match s.step e with
  | none => []
  | some s' => (s'.drains.drop (s.drainsKept e)).filterMap fun drain =>
    match drain.phase with
    | .sink => some drain.batch
    | .settled _ _ => none

/-- The signals that an event hands to the sink. -/
def handed (e : BufferEvent) : List IngestionSignal := (s.sinkCalls e).flatten

end

variable {s s' : BufferSystem options}

/-- The drains behind `drainToSink`, and their sink calls. -/
lemma drains_drainToSink_eq (s : BufferSystem options) (caller : DrainCaller) : ∃ drain,
    (s.drainToSink caller).drains = s.drains ++ [drain] ∧ drain.caller = caller ∧
      drain.batch = s.nextBatch ∧
      (drain.phase = .sink ∧ s.nextBatch ≠ [] ∨ drain.phase = .settled 0 0 ∧ s.nextBatch = []) := by
  dsimp only [drainToSink, nextBatch]
  split_ifs with hempty
  · exact ⟨_, rfl, rfl, rfl, .inr ⟨rfl, List.length_eq_zero_iff.1 hempty⟩⟩
  · exact ⟨_, rfl, rfl, rfl, .inl ⟨rfl, fun hnil => hempty (List.length_eq_zero_iff.2 hnil)⟩⟩

/-- The sink calls of an event are those of the batch that it takes off the queues. -/
lemma handed_of_drainToSink {e : BufferEvent} {s₀ : BufferSystem options} {caller : DrainCaller}
    (hstep : s.step e = some (s₀.drainToSink caller))
    (hkept : s.drainsKept e = s₀.drains.length) : s.handed e = s₀.nextBatch := by
  obtain ⟨drain, hdrains, -, hbatch, hphase⟩ := drains_drainToSink_eq s₀ caller
  simp only [handed, sinkCalls, hstep, hkept, hdrains, List.drop_left]
  rcases hphase with ⟨hsink, -⟩ | ⟨hsettled, hnil⟩
  · simp [hsink, hbatch]
  · simp [hsettled, hnil]

lemma handed_of_same {e : BufferEvent} (hstep : s.step e = some s')
    (hlength : s'.drains.length ≤ s.drainsKept e) : s.handed e = [] := by
  simp only [handed, sinkCalls, hstep, List.drop_of_length_le hlength, List.filterMap_nil,
    List.flatten_nil]

lemma handed_of_drainAllLoop {e : BufferEvent} {s₀ : BufferSystem options} {deadline now : Instant}
    {succeeded failed : ℕ} (hstep : s.step e = some (s₀.drainAllLoop deadline succeeded failed now))
    (hkept : s.drainsKept e = s₀.drains.length) : s.handed e = s₀.roundBatch deadline now := by
  unfold drainAllLoop at hstep
  unfold roundBatch
  split_ifs at hstep ⊢ with hloop
  · exact handed_of_drainToSink hstep hkept
  · exact handed_of_same hstep hkept.ge

/-- What an event hands to the sink is what it takes off the queues for it. -/
lemma handed_eq_popped {e : BufferEvent} (hstep : s.step e = some s') :
    s.handed e = s.popped e := by
  cases e with
  | submit signal | start | stop =>
    refine handed_of_same hstep (le_of_eq ?_)
    cases hstep
    rfl
  | tick =>
    simp only [step, Option.ite_none_right_eq_some, Option.some.injEq] at hstep
    obtain ⟨htimer, -⟩ := hstep
    have hstep : s.step .tick = some s.onTick := if_pos htimer
    unfold onTick at hstep
    simp only [popped]
    split_ifs at hstep ⊢ with hdraining
    · exact handed_of_same hstep le_rfl
    · exact handed_of_drainToSink hstep rfl
  | drainAll timeoutMs now now' => exact handed_of_drainAllLoop rfl rfl
  | settle k ok =>
    refine handed_of_same hstep ?_
    simp only [step] at hstep
    split at hstep
    · cases hstep
      cases ok <;> exact (List.length_set ..).le
    · cases hstep
  | resume k now =>
    have hresume := hstep
    simp only [step] at hstep
    split at hstep
    · rename_i caller batch drained failed hk
      obtain ⟨hlt, -⟩ := exists_lt_of_getElem? hk
      have hkept : s.drainsKept (.resume k now) = (s.drains.eraseIdx k).length :=
        (List.length_eraseIdx_of_lt hlt).symm
      simp only [popped, hk]
      cases caller with
      | tick =>
        obtain rfl := Option.some.inj hstep
        exact handed_of_same hresume hkept.ge
      | drainAll deadline succeeded failed' =>
        rw [← Option.some.inj hstep] at hresume
        have hloop : s.step (.resume k now) = some ({ s with drains := s.drains.eraseIdx k
          }.drainAllLoop deadline (succeeded + drained) (failed' + failed) now) := hresume
        have hhanded := handed_of_drainAllLoop hloop hkept
        exact hhanded
    · cases hstep

/-! ### Runs -/

/-- The signals of a severity are handed to the sink in the order in which they were
accepted, the evicted ones left out and the queued ones still to come. -/
structure DrainsInOrder (es : List BufferEvent) (s : BufferSystem options)
    (severity : Severity) : Prop where
  order : Removal (ofSeverity severity ((lts options).emitted accepted (init options) es))
    (ofSeverity severity ((lts options).emitted evicted (init options) es))
    (ofSeverity severity ((lts options).emitted handed (init options) es) ++ s.queue severity)
  /-- Where the signals have different ids, these single out the evicted ones. -/
  ids : ((ofSeverity severity ((lts options).emitted accepted (init options) es)).map
      (·.signalId)).Nodup →
    (ofSeverity severity ((lts options).emitted handed (init options) es)
        ++ s.queue severity).map (·.signalId)
      = ((ofSeverity severity ((lts options).emitted accepted (init options) es)).map
          (·.signalId)).filter (· ∉ (ofSeverity severity
            ((lts options).emitted evicted (init options) es)).map (·.signalId))

/-- Of what leaves the queues in a run, the evicted signals are those not handed out. -/
lemma removal_emitted {s t : BufferSystem options} {es : List BufferEvent}
    (hrun : (lts options).run s es = some t) :
    Removal ((lts options).emitted (fun s e => s.evicted e ++ s.popped e) s es)
      ((lts options).emitted evicted s es) ((lts options).emitted handed s es) := by
  induction es generalizing s with
  | nil => exact .nil
  | cons e es ih =>
    obtain ⟨s', he, hes⟩ := Lts.run_cons_inv hrun
    rw [Lts.emitted_cons he, Lts.emitted_cons he, Lts.emitted_cons he, handed_eq_popped he]
    exact (Removal.append_self _ _).append (ih hes)

lemma drainsInOrder_of_run {es : List BufferEvent}
    (hrun : (lts options).run (init options) es = some s) (severity : Severity) :
    DrainsInOrder es s severity := by
  have hremoval := ((removal_emitted hrun).filter (·.severity = severity)).append
    (Removal.refl (s.queue severity))
  have haccount := (refinesLists_of_run hrun).account severity
  rw [List.append_nil, ← ofSeverity, ← haccount] at hremoval
  refine ⟨hremoval, ?_⟩
  intro hnodup
  exact (hremoval.map (·.signalId)).eq_filter hnodup

/-- Every batch is the front of the four queues, and in every run each severity leaves them
in the order in which it was accepted. -/
theorem drains_in_order {es : List BufferEvent}
    (hrun : (lts options).run (init options) es = some s) :
    (∀ (b : SignalBuffer options) (maxItems : ℕ), (b.popPriorityBatch maxItems).1
      = ((b.queues .P0).contents ++ (b.queues .P1).contents ++ (b.queues .P2).contents
          ++ (b.queues .P3).contents).take (min maxItems b.totalSize)) ∧
      ∀ severity, DrainsInOrder es s severity := by
  refine ⟨fun b maxItems => ?_, drainsInOrder_of_run hrun⟩
  have hqueued : b.queued = (b.queues .P0).contents ++ (b.queues .P1).contents
      ++ (b.queues .P2).contents ++ (b.queues .P3).contents := by
    rw [queued_eq, List.append_assoc, List.append_assoc]
  rw [(b.popPriorityBatch_spec maxItems).1, ← hqueued, ← length_queued, ← List.take_eq_take_min]

theorem drains_in_order_of_tinyEvents : ∃ s,
    (lts tinyOptions).run (init tinyOptions) tinyEvents = some s ∧
      ∀ severity, DrainsInOrder tinyEvents s severity := by
  have hran : ((lts tinyOptions).run (init tinyOptions) tinyEvents).isSome = true := by
    decide +kernel
  obtain ⟨s, hrun⟩ := Option.isSome_iff_exists.1 hran
  exact ⟨s, hrun, (drains_in_order hrun).2⟩

/-- An accepted signal waits in its queue. -/
theorem accepted_still_queued : ¬ ∀ es s severity,
    (lts tinyOptions).run (init tinyOptions) es = some s →
      Removal (ofSeverity severity ((lts tinyOptions).emitted accepted (init tinyOptions) es))
        (ofSeverity severity ((lts tinyOptions).emitted evicted (init tinyOptions) es))
        (ofSeverity severity ((lts tinyOptions).emitted handed (init tinyOptions) es)) := by
  intro hclaim
  have hran : ((lts tinyOptions).run (init tinyOptions)
      [.submit (cacheSignal "a" "c" .P0)]).isSome = true := by
    decide +kernel
  obtain ⟨s, hrun⟩ := Option.isSome_iff_exists.1 hran
  have hlength := (hclaim _ s .P0 hrun).perm.length_eq
  revert hlength
  decide +kernel

end BufferSystem

end InveniOps.Ingestion
