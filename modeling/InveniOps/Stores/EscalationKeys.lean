import Mathlib.Logic.Function.Basic
import InveniOps.Stores.Prisma

/-!
# The escalation keys of Redis

`alert:escalated:<workItemId>` holds the set of the levels to which a work item
was escalated.  Redis takes a key whose time has passed for absent, whether or
not it has removed it yet, and keeps every other key.
-/

namespace InveniOps.Stores

/-- A set of levels, and the instant behind which the key is gone. -/
structure EscalationKey where
  levels : List ℕ
  expiresAt : Option Instant
deriving DecidableEq

/-- The claims of the escalation scheduler in Redis. -/
abbrev EscalationKeys := WorkItemId → Option EscalationKey

namespace EscalationKeys

variable (keys : EscalationKeys) (workItemId : WorkItemId)

/-- The key as a command at an instant finds it. -/
def live (now : Instant) : Option EscalationKey :=
  (keys workItemId).filter fun key => key.expiresAt.all (now ≤ ·)

/-- `SADD`: the number of added members is 1 or 0.  A new key has no time-to-live. -/
def sadd (level : ℕ) (now : Instant) : Command EscalationKeys ℕ := fun keys =>
  match keys.live workItemId now with
  | none => .ok (1, Function.update keys workItemId (some ⟨[level], none⟩))
  | some key =>
    if level ∈ key.levels then .ok (0, keys)
    else
      .ok (1, Function.update keys workItemId (some { key with levels := key.levels ++ [level] }))

/-- `EXPIRE` does nothing to an absent key. -/
def expire (seconds : ℕ) (now : Instant) : Command EscalationKeys Unit := fun keys =>
  .ok ((), Function.update keys workItemId ((keys.live workItemId now).map fun key =>
    { key with expiresAt := some (now + seconds * 1000) }))

variable {keys workItemId} {now : Instant}

lemma live_eq_some {key : EscalationKey} : keys.live workItemId now = some key ↔
    keys workItemId = some key ∧ ∀ expiresAt ∈ key.expiresAt, now ≤ expiresAt := by
  rw [live, Option.filter_eq_some_iff, Option.all_eq_true]
  simp only [decide_eq_true_eq, Option.mem_def]

lemma sadd_eq (keys : EscalationKeys) (workItemId : WorkItemId) (level : ℕ) (now : Instant) :
    ∃ added keys', sadd workItemId level now keys = .ok (added, keys') := by
  simp only [sadd]
  split
  · exact ⟨1, _, rfl⟩
  · split
    · exact ⟨0, _, rfl⟩
    · exact ⟨1, _, rfl⟩

/-- `SADD` finds a level that was added and lives. -/
lemma sadd_of_live {level added : ℕ} {keys' : EscalationKeys} {key : EscalationKey}
    (hlive : keys.live workItemId now = some key) (hlevel : level ∈ key.levels)
    (h : sadd workItemId level now keys = .ok (added, keys')) : added = 0 ∧ keys' = keys := by
  simp only [sadd, hlive, if_pos hlevel, Except.ok.injEq, Prod.mk.injEq] at h
  exact ⟨h.1.symm, h.2.symm⟩

lemma sadd_of_none {level added : ℕ} {keys' : EscalationKeys} (hnone : keys workItemId = none)
    (h : sadd workItemId level now keys = .ok (added, keys')) :
    keys' workItemId = some ⟨[level], none⟩ := by
  have hlive : keys.live workItemId now = none := by rw [live, hnone, Option.filter_none]
  simp only [sadd, hlive, Except.ok.injEq, Prod.mk.injEq] at h
  rw [← h.2, Function.update_self]

lemma sadd_of_ne {level added : ℕ} {keys' : EscalationKeys} {w : WorkItemId}
    (hne : w ≠ workItemId) (h : sadd workItemId level now keys = .ok (added, keys')) :
    keys' w = keys w := by
  simp only [sadd] at h
  split at h
  · cases h
    exact Function.update_of_ne hne _ _
  · split at h <;> cases h
    · rfl
    · exact Function.update_of_ne hne _ _

lemma expire_of_live {seconds : ℕ} {keys' : EscalationKeys} {key : EscalationKey}
    (hlive : keys.live workItemId now = some key)
    (h : expire workItemId seconds now keys = .ok ((), keys')) :
    keys' workItemId = some { key with expiresAt := some (now + seconds * 1000) } := by
  simp only [expire, hlive, Except.ok.injEq, Prod.mk.injEq, true_and] at h
  rw [← h, Function.update_self, Option.map_some]

lemma expire_of_ne {seconds : ℕ} {keys' : EscalationKeys} {w : WorkItemId}
    (hne : w ≠ workItemId) (h : expire workItemId seconds now keys = .ok ((), keys')) :
    keys' w = keys w := by
  simp only [expire, Except.ok.injEq, Prod.mk.injEq, true_and] at h
  rw [← h, Function.update_of_ne hne]

end EscalationKeys

end InveniOps.Stores
