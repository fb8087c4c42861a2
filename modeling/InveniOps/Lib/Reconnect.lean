import Mathlib.Algebra.BigOperators.Group.Finset.Basic
import Mathlib.Algebra.BigOperators.Intervals
import Mathlib.Algebra.Order.BigOperators.Group.Finset
import InveniOps.Lib.Lts

/-!
# Connections that are re-established

A client dials, waits longer and longer behind every failure in a row, and falls
back to something else once there were too many.  The file says when it falls
back, how long that takes at least, and that it is final.
-/

namespace InveniOps.Lib

/-- How many failures in a row are put up with, and the wait behind the `k`-th. -/
structure Reconnect where
  limit : ℕ
  backoff : ℕ → ℕ

namespace Reconnect

/-- Where the client stands. -/
inductive Link
  | off
  | dialling
  | live
  | waiting (due : ℕ)
  | fallback
deriving DecidableEq

/-- The client with its failures in a row and its clock. -/
structure Connection where
  link : Link
  /-- The failures since the connection was last live. -/
  retries : ℕ
  now : ℕ
deriving DecidableEq

/-- What can happen to the client. -/
inductive Event
  | up | down | opened | failed | redial
  | pass (ms : ℕ)
deriving DecidableEq

variable (C : Reconnect)

/-- Waits before the next try, or falls back if there were too many. -/
def afterFailure (s : Connection) : Connection :=
  if C.limit < s.retries + 1 then { s with link := .fallback, retries := s.retries + 1 }
  else
    { s with
      link := .waiting (s.now + C.backoff (s.retries + 1))
      retries := s.retries + 1 }

/-- One event, where the client is in a state to take it. -/
def step (s : Connection) : Event → Option Connection
  | .up => if s.link = .off then some { s with link := .dialling } else none
  | .down => if s.link = .off then none else some { s with link := .off }
  | .opened =>
    if s.link = .dialling then some { s with link := .live, retries := 0 } else none
  | .failed =>
    if s.link = .dialling ∨ s.link = .live then some (C.afterFailure s) else none
  | .redial =>
    match s.link with
    | .waiting due => if due ≤ s.now then some { s with link := .dialling } else none
    | _ => none
  | .pass ms => some { s with now := s.now + ms }

/-- The client as a system. -/
def lts : Lts Connection Event := ⟨C.step⟩

/-- The client before it is switched on. -/
def start : Connection := ⟨.off, 0, 0⟩

variable {C}

/-! ### One step -/

/-- What a step that is no `down` does. -/
inductive Steps (C : Reconnect) (s : Connection) : Event → Connection → Prop
  | up (h : s.link = .off) : Steps C s .up { s with link := .dialling }
  | opened (h : s.link = .dialling) : Steps C s .opened { s with link := .live, retries := 0 }
  | fallback (h : s.link = .dialling ∨ s.link = .live) (hlimit : C.limit < s.retries + 1) :
      Steps C s .failed { s with link := .fallback, retries := s.retries + 1 }
  | wait (h : s.link = .dialling ∨ s.link = .live) (hlimit : s.retries + 1 ≤ C.limit) :
      Steps C s .failed
        { s with
          link := .waiting (s.now + C.backoff (s.retries + 1))
          retries := s.retries + 1 }
  | redial {due : ℕ} (h : s.link = .waiting due) (hdue : due ≤ s.now) :
      Steps C s .redial { s with link := .dialling }
  | pass (ms : ℕ) : Steps C s (.pass ms) { s with now := s.now + ms }

lemma steps_of_step {s s' : Connection} {e : Event} (hdown : e ≠ .down)
    (h : C.step s e = some s') : Steps C s e s' := by
  cases e with
  | down => exact absurd rfl hdown
  | up =>
    simp only [step] at h
    split_ifs at h with hlink
    cases h
    exact .up hlink
  | opened =>
    simp only [step] at h
    split_ifs at h with hlink
    cases h
    exact .opened hlink
  | failed =>
    simp only [step, afterFailure] at h
    split_ifs at h with hlink hlimit
    · cases h
      exact .fallback hlink hlimit
    · cases h
      exact .wait hlink (Nat.le_of_not_lt hlimit)
  | redial =>
    simp only [step] at h
    split at h
    · rename_i due hlink
      split_ifs at h with hdue
      cases h
      exact .redial hlink hdue
    · cases h
  | pass ms =>
    cases h
    exact .pass ms

/-! ### The fallback -/

/-- The failures behind the last time the connection came up. -/
def failuresInRow (es : List Event) : ℕ :=
  es.foldl (fun n e =>
    match e with
    | .opened => 0
    | .failed => n + 1
    | _ => n) 0

@[simp] lemma failuresInRow_nil : failuresInRow [] = 0 := rfl

lemma failuresInRow_concat (es : List Event) (e : Event) :
    failuresInRow (es ++ [e]) =
      match e with
      | .opened => 0
      | .failed => failuresInRow es + 1
      | _ => failuresInRow es := by
  rw [failuresInRow, List.foldl_append]
  rfl

/-- A client that stays up has fallen back if and only if there were more failures in a row
than it puts up with. -/
theorem fallback_iff {t : Connection} {es : List Event} (hrun : C.lts.run start es = some t)
    (hes : ∀ e ∈ es, e ≠ .down) :
    t.retries = failuresInRow es ∧ (t.link = .fallback ↔ C.limit < failuresInRow es) := by
  suffices h : t.retries = failuresInRow es ∧ (t.link = .fallback ↔ C.limit < t.retries) by
    exact ⟨h.1, h.1 ▸ h.2⟩
  induction es using List.reverseRecOn generalizing t with
  | nil =>
    obtain rfl : start = t := Option.some.inj hrun
    exact ⟨rfl, by simp [start]⟩
  | append_singleton es e ih =>
    obtain ⟨s, hrun', hstep⟩ := Lts.run_concat_inv hrun
    obtain ⟨hretries, hiff⟩ := ih hrun' fun e he => hes e (List.mem_append_left _ he)
    rw [failuresInRow_concat]
    cases steps_of_step (hes e (by simp)) hstep with
    | up hlink | redial hlink =>
      refine ⟨hretries, ?_⟩
      simpa [hlink] using hiff
    | opened hlink => exact ⟨rfl, by simp⟩
    | fallback hlink hlimit => exact ⟨by simp [hretries], by simpa using hlimit⟩
    | wait hlink hlimit => exact ⟨by simp [hretries], by simpa using hlimit⟩
    | pass ms => exact ⟨hretries, hiff⟩

/-! ### The time it takes -/

/-- The waits behind the first `k` failures in a row. -/
def waits (C : Reconnect) (k : ℕ) : ℕ := ∑ i ∈ Finset.range k, C.backoff (i + 1)

@[simp] lemma waits_zero : C.waits 0 = 0 := rfl

lemma waits_succ (k : ℕ) : C.waits (k + 1) = C.waits k + C.backoff (k + 1) :=
  Finset.sum_range_succ _ _

/-- What a client has waited since an instant at which its connection was live, or not yet up. -/
def Waited (C : Reconnect) (instant : ℕ) (s : Connection) : Prop :=
  match s.link with
  | .off | .live => instant ≤ s.now ∧ s.retries = 0
  | .dialling => instant + C.waits s.retries ≤ s.now ∧ s.retries ≤ C.limit
  | .waiting due => instant + C.waits s.retries ≤ due ∧ s.retries ≤ C.limit
  | .fallback => instant + C.waits C.limit ≤ s.now

lemma Waited.step {instant : ℕ} {s s' : Connection} {e : Event} (h : Waited C instant s)
    (hdown : e ≠ .down) (hstep : C.step s e = some s') : Waited C instant s' := by
  have hsteps := steps_of_step hdown hstep
  cases hlink : s.link with
  | off =>
    simp only [Waited, hlink] at h
    obtain ⟨hnow, hretries⟩ := h
    cases hsteps with
    | up h' => exact ⟨by simpa [hretries] using hnow, by simp [hretries]⟩
    | opened h' | redial h' => rw [hlink] at h'; cases h'
    | fallback h' | wait h' => simp [hlink] at h'
    | pass ms => exact (by simp only [Waited, hlink]; omega)
  | live =>
    simp only [Waited, hlink] at h
    obtain ⟨hnow, hretries⟩ := h
    cases hsteps with
    | up h' | opened h' | redial h' => rw [hlink] at h'; cases h'
    | fallback h' hlimit =>
      have hzero : C.limit = 0 := by omega
      simpa [Waited, hzero] using hnow
    | wait h' hlimit =>
      simp only [Waited, hretries, waits_succ, waits_zero]
      omega
    | pass ms => exact (by simp only [Waited, hlink]; omega)
  | dialling =>
    simp only [Waited, hlink] at h
    obtain ⟨hnow, hretries⟩ := h
    cases hsteps with
    | up h' | redial h' => rw [hlink] at h'; cases h'
    | opened h' => exact ⟨by show instant ≤ s.now; omega, rfl⟩
    | fallback h' hlimit =>
      have hlast : s.retries = C.limit := by omega
      exact hlast ▸ hnow
    | wait h' hlimit =>
      refine ⟨?_, hlimit⟩
      simp only [waits_succ]
      omega
    | pass ms => exact (by simp only [Waited, hlink]; omega)
  | waiting due =>
    simp only [Waited, hlink] at h
    cases hsteps with
    | up h' | opened h' => rw [hlink] at h'; cases h'
    | fallback h' | wait h' => simp [hlink] at h'
    | redial h' hdue =>
      rw [hlink] at h'
      cases h'
      exact ⟨by show instant + C.waits s.retries ≤ s.now; omega, h.2⟩
    | pass ms => simpa only [Waited, hlink] using h
  | fallback =>
    simp only [Waited, hlink] at h
    cases hsteps with
    | up h' | opened h' | redial h' => rw [hlink] at h'; cases h'
    | fallback h' | wait h' => simp [hlink] at h'
    | pass ms => exact (by simp only [Waited, hlink]; omega)

lemma Waited.run {instant : ℕ} {s t : Connection} {es : List Event}
    (hrun : C.lts.run s es = some t) (hes : ∀ e ∈ es, e ≠ .down) (h : Waited C instant s) :
    Waited C instant t :=
  Lts.run_invariant_of_events (fun _ _ _ hs he hstep => hs.step he hstep) hrun hes h

/-- Between the start, or a live connection, and the fallback lie all the waits. -/
theorem waits_le_of_fallback {s t : Connection} {es fs : List Event}
    (hrun : C.lts.run start es = some s) (hes : ∀ e ∈ es, e ≠ .down)
    (hrun' : C.lts.run s fs = some t) (hfs : ∀ e ∈ fs, e ≠ .down)
    (hlink : s.link = .off ∨ s.link = .live) (hfallback : t.link = .fallback) :
    s.now + C.waits C.limit ≤ t.now := by
  have hstart : Waited C 0 start := ⟨Nat.zero_le _, rfl⟩
  have hretries : s.retries = 0 := by
    have hs := hstart.run hrun hes
    rcases hlink with hlink | hlink <;> simp only [Waited, hlink] at hs <;> exact hs.2
  have h₀ : Waited C s.now s := by
    rcases hlink with hlink | hlink <;> simp [Waited, hlink, hretries]
  simpa only [Waited, hfallback] using h₀.run hrun' hfs

end Reconnect

end InveniOps.Lib
