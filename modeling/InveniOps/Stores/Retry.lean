import Mathlib.Algebra.Order.Monoid.Unbundled.WithTop
import Mathlib.Algebra.Order.Ring.Rat
import Mathlib.Data.ENat.Lattice
import Mathlib.Order.Interval.Set.UnorderedInterval
import InveniOps.Stores.Prisma

/-!
# Retrying an operation

`retry` and `computeDelay` of `utils/retry.ts`.  A call of `retry` depends on its operation
only through the outcome of each attempt, and on nothing else but its draws of
`Math.random`; what it does is the list of its calls, reports and sleeps.  Delays are rational
numbers, computed without rounding.
-/

namespace InveniOps.Stores

variable {α ε : Type}

/-- The options of `retry`, before their defaults. -/
structure RetryOptions (ε : Type) where
  /-- Total number of attempts, including the first try. -/
  attempts : ℕ
  baseDelayMs : ℚ
  maxDelayMs : Option (WithTop ℚ)
  jitter : Option Bool
  /-- Whether there is an `onRetry`; it is called for what it logs. -/
  onRetry : Bool
  /-- The predicate, if there is one. -/
  shouldRetry : Option (ε → Bool)

/-- What `retry` throws. -/
inductive RetryThrown (ε : Type)
  | error (message : String)
  /-- What the operation threw. -/
  | operation (e : ε)
  /-- `lastError` before any attempt. -/
  | undefined
deriving DecidableEq

/-- What a call of `retry` does that others can see. -/
inductive RetryAction (ε : Type)
  /-- `fn()` -/
  | call
  | onRetry (e : ε) (attempt : ℕ) (delayMs : ℚ)
  | sleep (delayMs : ℚ)
deriving DecidableEq

/-- A finished call of `retry`. -/
structure RetryRun (α ε : Type) where
  actions : List (RetryAction ε)
  result : Except (RetryThrown ε) α

/-- What `Math.random` returns. -/
abbrev Draw := Set.Ico (0 : ℚ) 1

/-- `Math.min(x, bound)`; the bound may be `Infinity`. -/
def mathMin (x : ℚ) : WithTop ℚ → ℚ
  | ⊤ => x
  | (bound : ℚ) => min x bound

/-- Doubles with every attempt up to the cap; with jitter, a random share of that. -/
def computeDelay (attempt : ℕ) (baseDelayMs : ℚ) (maxDelayMs : WithTop ℚ) (jitter : Bool)
    (random : Draw) : ℚ :=
  let exponential := baseDelayMs * 2 ^ (attempt - 1)
  let capped := mathMin exponential maxDelayMs
  if jitter then random * capped else capped

/-- How an attempt ends. -/
inductive RetryRound (α ε : Type)
  | returned (a : α)
  /-- The loop is left for its `throw lastError`. -/
  | left (e : ε)
  | again (e : ε) (delayMs : ℚ)

namespace RetryOptions

variable (options : RetryOptions ε)

/-- `maxDelayMs` with its default, `Number.POSITIVE_INFINITY`. -/
def maxDelay : WithTop ℚ := options.maxDelayMs.getD ⊤

/-- Whether an error is tried again; without a predicate every error is. -/
def isRetryable (e : ε) : Bool :=
  match options.shouldRetry with
  | some shouldRetry => shouldRetry e
  | none => true

/-- The delay behind a failed attempt; `jitter` defaults to true. -/
def delay (attempt : ℕ) (random : Draw) : ℚ :=
  computeDelay attempt options.baseDelayMs options.maxDelay (options.jitter.getD true) random

/-- The body of the loop, behind the outcome of `fn()`. -/
def round (random : Draw) (attempt : ℕ) : Except ε α → RetryRound α ε
  | .ok a => .returned a
  | .error e =>
    if !options.isRetryable e || attempt == options.attempts then .left e
    else .again e (options.delay attempt random)

/-- The actions of an attempt that is retried. -/
def retried (e : ε) (attempt : ℕ) (delayMs : ℚ) : List (RetryAction ε) :=
  .call :: ((if options.onRetry then [.onRetry e attempt delayMs] else []) ++ [.sleep delayMs])

variable (outcomes : ℕ → Except ε α) (random : ℕ → Draw)

end RetryOptions

namespace RetryRun

variable (run : RetryRun α ε)

/-- How often the operation is called. -/
def calls : ℕ := run.actions.countP fun
  | .call => true
  | _ => false

/-- The delays of the sleeps, in order. -/
def sleeps : List ℚ := run.actions.filterMap fun
  | .sleep delayMs => some delayMs
  | _ => none

end RetryRun

/-! ### The delays -/

section Rounds

variable (options : RetryOptions ε) (outcomes : ℕ → Except ε α) (random : ℕ → Draw)

/-- The attempt succeeds. -/
def Succeeds (i : ℕ) : Prop := ∃ a, outcomes i = .ok a

/-- The attempt fails, and `shouldRetry` refuses its error. -/
def Refused (i : ℕ) : Prop := ∃ e, outcomes i = .error e ∧ options.isRetryable e = false

/-- The loop does not go on behind the attempt. -/
def Stops (i : ℕ) : Prop := Succeeds outcomes i ∨ Refused options outcomes i ∨ i = options.attempts

/-- What the loop does from an attempt to the last one. -/
structure Executes (run : RetryRun α ε) (first last : ℕ) : Prop where
  first_le : first ≤ last
  stops : Stops options outcomes last
  goes_on : ∀ i, first ≤ i → i < last → ¬ Stops options outcomes i
  calls : run.calls = last - first + 1
  result : run.result = (outcomes last).mapError .operation
  sleeps : run.sleeps = (List.range' first (last - first)).map fun i => options.delay i (random i)

variable {options outcomes random}

lemma calls_retried (e : ε) (attempt : ℕ) (delayMs : ℚ) (rest : List (RetryAction ε))
    (result : Except (RetryThrown ε) α) :
    (⟨options.retried e attempt delayMs ++ rest, result⟩ : RetryRun α ε).calls
      = (⟨rest, result⟩ : RetryRun α ε).calls + 1 := by
  unfold RetryOptions.retried RetryRun.calls
  cases options.onRetry <;> simp [Nat.add_comm]

lemma sleeps_retried (e : ε) (attempt : ℕ) (delayMs : ℚ) (rest : List (RetryAction ε))
    (result : Except (RetryThrown ε) α) :
    (⟨options.retried e attempt delayMs ++ rest, result⟩ : RetryRun α ε).sleeps
      = delayMs :: (⟨rest, result⟩ : RetryRun α ε).sleeps := by
  unfold RetryOptions.retried RetryRun.sleeps
  cases options.onRetry <;> simp

/-- A retried attempt before a loop is a loop that starts one attempt earlier. -/
lemma Executes.retried {attempt last : ℕ} {e : ε} {run : RetryRun α ε}
    (h : Executes options outcomes random run (attempt + 1) last)
    (hgoes : ¬ Stops options outcomes attempt) :
    Executes options outcomes random
      ⟨options.retried e attempt (options.delay attempt (random attempt)) ++ run.actions,
        run.result⟩ attempt last where
  first_le := (Nat.le_succ attempt).trans h.first_le
  stops := h.stops
  goes_on i hle hlt := by
    rcases hle.eq_or_lt with rfl | hlt'
    · exact hgoes
    · exact h.goes_on i hlt' hlt
  calls := by
    have hle := h.first_le
    rw [calls_retried, h.calls]
    omega
  result := h.result
  sleeps := by
    have hlength : last - attempt = last - (attempt + 1) + 1 := by
      have hle := h.first_le
      omega
    rw [sleeps_retried, h.sleeps, hlength, List.range'_succ, List.map_cons]

end Rounds

/-! ### A whole call -/

/-- The least index from 1 on with a property, `⊤` if there is none. -/
noncomputable def firstIndex (p : ℕ → Prop) : ℕ∞ := ⨅ i ∈ {i | 1 ≤ i ∧ p i}, (i : ℕ∞)

lemma le_firstIndex_iff {p : ℕ → Prop} {m : ℕ} :
    (m : ℕ∞) ≤ firstIndex p ↔ ∀ i, 1 ≤ i → p i → m ≤ i := by
  simp only [firstIndex, le_iInf_iff, Set.mem_ofPred_eq, and_imp, Nat.cast_le]

lemma firstIndex_le {p : ℕ → Prop} {i : ℕ} (hi : 1 ≤ i) (hp : p i) : firstIndex p ≤ i :=
  iInf₂_le i ⟨hi, hp⟩

section

variable {options : RetryOptions ε} {outcomes : ℕ → Except ε α} {random : ℕ → Draw}
  {run : RetryRun α ε} {last : ℕ}

/-- A loop from the first attempt on ends with the least of its three reasons to stop. -/
lemma Executes.last_eq (h : Executes options outcomes random run 1 last)
    (hattempts : 1 ≤ options.attempts) :
    (last : ℕ∞) = min (min (firstIndex (Succeeds outcomes))
      (firstIndex (Refused options outcomes))) options.attempts := by
  have hleast : ∀ i, 1 ≤ i → Stops options outcomes i → last ≤ i := by
    intro i hi hstops
    by_contra hlt
    exact h.goes_on i hi (not_le.1 hlt) hstops
  refine le_antisymm (le_min (le_min ?_ ?_) ?_) ?_
  · exact le_firstIndex_iff.2 fun i hi hok => hleast i hi (.inl hok)
  · exact le_firstIndex_iff.2 fun i hi hrefused => hleast i hi (.inr (.inl hrefused))
  · exact Nat.cast_le.2 (hleast options.attempts hattempts (.inr (.inr rfl)))
  · rcases h.stops with hok | hrefused | heq
    · exact (min_le_left _ _).trans ((min_le_left _ _).trans (firstIndex_le h.first_le hok))
    · exact (min_le_left _ _).trans
        ((min_le_right _ _).trans (firstIndex_le h.first_le hrefused))
    · exact (min_le_right _ _).trans (Nat.cast_le.2 heq.ge)

end

/-- The options of `withPostgresRetry`. -/
def postgresRetry : RetryOptions Thrown where
  attempts := ATTEMPTS
  baseDelayMs := 50
  maxDelayMs := none
  jitter := none
  onRetry := true
  shouldRetry := some shouldRetry

/-- What a round of the loop decides, without its delay. -/
def RetryRound.toStep (attempt : ℕ) : RetryRound α Thrown → RetryStep α
  | .returned a => .returned a
  | .left e => .thrown e
  | .again _ _ => .again (attempt + 1)

/-- The retry wrapper of the stores is the loop's body with its options. -/
lemma toStep_round_postgresRetry (random : Draw) (attempt : ℕ) (reply : Except Thrown α) :
    (postgresRetry.round random attempt reply).toStep attempt
      = withPostgresRetry attempt reply := by
  cases reply with
  | ok a => rfl
  | error e =>
    by_cases hstop : (!shouldRetry e || attempt == ATTEMPTS) = true
    · have hleft : postgresRetry.round random attempt (.error e : Except Thrown α) = .left e :=
        if_pos hstop
      rw [hleft]
      exact (if_pos hstop).symm
    · have hagain : postgresRetry.round random attempt (.error e : Except Thrown α)
          = .again e (postgresRetry.delay attempt random) := if_neg hstop
      rw [hagain]
      exact (if_neg hstop).symm

end InveniOps.Stores
