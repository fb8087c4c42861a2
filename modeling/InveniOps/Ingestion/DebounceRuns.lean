import Mathlib.Logic.ExistsUnique
import InveniOps.Lib.Lts
import InveniOps.Ingestion.DebounceAnswers

/-!
# Concurrent callers of the debouncer

Any number of `resolve` calls run over the same Redis and Postgres, one step at
a time and in any order.  Between their steps keys expire or are flushed, and
other services commit their writes.
-/

namespace InveniOps.Ingestion

open Lib Stores

/-- One call of `resolve`: not made yet, or at one of its awaits. -/
inductive Call
  | idle
  | started (signal : IngestionSignal) (pc : ResolvePc)

/-- The callers of a debouncer; every call has its own number. -/
structure DebounceSystem where
  world : World
  calls : ℕ → Call

/-- The result that a call has returned. -/
def Call.result : Call → Option DebounceResult
  | .started _ (.done (.ok result)) => some result
  | _ => none

lemma Call.of_result {call : Call} {result : DebounceResult} (h : call.result = some result) :
    ∃ signal, call = .started signal (.done (.ok result)) := by
  unfold Call.result at h
  split at h
  · rename_i signal result'
    cases h
    exact ⟨signal, rfl⟩
  · cases h

/-- Empty stores and no call started. -/
def DebounceSystem.quiet : DebounceSystem := ⟨⟨.empty, .empty⟩, fun _ => .idle⟩

/-- What can happen next to the calls, to the store and to the sessions. -/
inductive DebounceEvent
  /-- The `k`-th call of `resolve` starts. -/
  | start (k : ℕ) (signal : IngestionSignal)
  | step (k : ℕ) (io : Io)
  /-- Another service commits a write. -/
  | write (write : PostgresWrite) (clock : Instant)
  /-- The session of a component expires or is flushed. -/
  | sessionLost (componentId : ComponentId)
  /-- The lock of a component expires or is flushed. -/
  | lockLost (componentId : ComponentId)

/-- The number of the call that an event starts. -/
def DebounceEvent.started : DebounceEvent → Option ℕ
  | .start k _ => some k
  | _ => none

namespace DebounceSystem

variable (d : SignalDebouncer)

/-- One event; the `k`-th call goes on only from where it is suspended. -/
def step : DebounceSystem → DebounceEvent → Option DebounceSystem
  | s, .start k signal =>
    match s.calls k with
    | .idle => some { s with calls := Function.update s.calls k (.started signal .readSession) }
    | .started _ _ => none
  | s, .step k io =>
    match s.calls k with
    | .idle => none
    | .started signal pc =>
      -- a generated id is no row's id yet
      if pc.isDone = false ∧ s.world.postgres.row io.uuid = none then
        some
          { s with
            world := (d.resolveStep signal io s.world pc).1
            calls := Function.update s.calls k
              (.started signal (d.resolveStep signal io s.world pc).2) }
      else none
  | s, .write write clock =>
    match write.command d.workItemStore clock s.world.postgres with
    | .ok (_, postgres) => some { s with world := { s.world with postgres := postgres } }
    | .error _ => none
  | s, .sessionLost c =>
    some { s with world := { s.world with redis := s.world.redis.setSession c none } }
  | s, .lockLost c =>
    some { s with world := { s.world with redis := s.world.redis.setLock c false } }

/-- The callers of one debouncer as a transition system. -/
def lts : Lts DebounceSystem DebounceEvent := ⟨step d⟩

variable {d}

lemma step_start_inv {s s' : DebounceSystem} {k : ℕ} {signal : IngestionSignal}
    (h : s.step d (.start k signal) = some s') :
    s.calls k = .idle ∧
      s' = { s with calls := Function.update s.calls k (.started signal .readSession) } := by
  simp only [step] at h
  split at h
  · rename_i hk
    exact ⟨hk, (Option.some.inj h).symm⟩
  · cases h

/-- A started call can always take its next step. -/
lemma step_step_eq {s : DebounceSystem} {k : ℕ} {io : Io} {signal : IngestionSignal}
    {pc : ResolvePc} (hk : s.calls k = .started signal pc) (hdone : pc.isDone = false)
    (hfresh : s.world.postgres.row io.uuid = none) :
    s.step d (.step k io) = some
      { s with
        world := (d.resolveStep signal io s.world pc).1
        calls := Function.update s.calls k
          (.started signal (d.resolveStep signal io s.world pc).2) } := by
  simp only [step, hk]
  exact if_pos ⟨hdone, hfresh⟩

lemma step_step_inv {s s' : DebounceSystem} {k : ℕ} {io : Io}
    (h : s.step d (.step k io) = some s') :
    ∃ signal pc, s.calls k = .started signal pc ∧ pc.isDone = false ∧
      s.world.postgres.row io.uuid = none ∧
      s' = { s with
        world := (d.resolveStep signal io s.world pc).1
        calls := Function.update s.calls k
          (.started signal (d.resolveStep signal io s.world pc).2) } := by
  simp only [step] at h
  split at h
  · cases h
  · rename_i signal pc hk
    split_ifs at h with hcond
    exact ⟨signal, pc, hk, hcond.1, hcond.2, (Option.some.inj h).symm⟩

/-- The state behind a step of the `k`-th call. -/
def stepped (d : SignalDebouncer) (s : DebounceSystem) (k : ℕ) (signal : IngestionSignal) (io : Io)
    (pc : ResolvePc) : DebounceSystem :=
  { s with
    world := (d.resolveStep signal io s.world pc).1
    calls := Function.update s.calls k (.started signal (d.resolveStep signal io s.world pc).2) }

lemma step_write_inv {s s' : DebounceSystem} {write : PostgresWrite} {clock : Instant}
    (h : s.step d (.write write clock) = some s') :
    ∃ postgres, write.command d.workItemStore clock s.world.postgres = .ok ((), postgres) ∧
      s' = { s with world := { s.world with postgres := postgres } } := by
  simp only [step] at h
  split at h
  · rename_i postgres hcommand
    exact ⟨postgres, hcommand, (Option.some.inj h).symm⟩
  · cases h

/-- An event starts at most one call and leaves the other ones idle. -/
lemma idle_of_step {s s' : DebounceSystem} {e : DebounceEvent} (h : s.step d e = some s') {n : ℕ}
    (he : ∀ k ∈ e.started, k < n) (hidle : ∀ k, n ≤ k → s.calls k = .idle) (k : ℕ) (hk : n ≤ k) :
    s'.calls k = .idle := by
  have hcalls := hidle k hk
  cases e with
  | start l signal =>
    obtain ⟨-, rfl⟩ := step_start_inv h
    have hlt := he l rfl
    exact (Function.update_of_ne (by omega) _ _).trans hcalls
  | step l io =>
    obtain ⟨signal, pc, hl, -, -, rfl⟩ := step_step_inv h
    have hne : k ≠ l := by
      rintro rfl
      rw [hcalls] at hl
      cases hl
    exact (Function.update_of_ne hne _ _).trans hcalls
  | write write clock =>
    obtain ⟨postgres, -, rfl⟩ := step_write_inv h
    exact hcalls
  | sessionLost c | lockLost c =>
    obtain rfl := Option.some.inj h
    exact hcalls

lemma idle_of_run {s s' : DebounceSystem} {es : List DebounceEvent}
    (hrun : (lts d).run s es = some s') {n : ℕ} (hes : ∀ e ∈ es, ∀ k ∈ e.started, k < n)
    (hidle : ∀ k, n ≤ k → s.calls k = .idle) : ∀ k, n ≤ k → s'.calls k = .idle :=
  Lts.run_invariant_of_events (I := fun s => ∀ k, n ≤ k → s.calls k = .idle)
    (fun _ _ _ h he hstep => idle_of_step hstep he h) hrun hes hidle

end DebounceSystem

end InveniOps.Ingestion
