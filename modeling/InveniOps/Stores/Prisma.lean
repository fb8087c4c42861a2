import Mathlib.Data.List.Infix
import InveniOps.Domain.Types

/-!
# Errors of the stores and the retry wrapper

`repositories/postgres/prismaErrors.ts`, `repositories/postgres/errors.ts`,
`repositories/postgres/withPostgresRetry.ts` and `utils/retry.ts`.  What becomes
of a store command is decided by the environment: it is carried out and
answered, or an error is reported, whether or not it was carried out.
-/

namespace InveniOps.Stores

/-- `meta.target` of a known request error. -/
inductive MetaTarget
  | undefined
  | str (name : String)
  | arr (names : List String)
  | other
deriving DecidableEq

/-- The errors of Prisma's client, as far as the repository tells them apart. -/
inductive PrismaError
  /-- `PrismaClientInitializationError`. -/
  | initialization
  /-- `PrismaClientKnownRequestError`. -/
  | knownRequest (code : String) (target : MetaTarget)
  /-- Validation errors, engine panics and everything else. -/
  | other (name : String)
deriving DecidableEq

/-- The codes of failures that may pass: of connections, timeouts and write conflicts. -/
def TRANSIENT_ERROR_CODES : List String :=
  ["P1001", "P1002", "P1008", "P1017", "P2024", "P2034"]

/-- Whether `withPostgresRetry` tries again. -/
def isTransientPrismaError : PrismaError → Bool
  | .initialization => true
  | .knownRequest code _ => TRANSIENT_ERROR_CODES.contains code
  | .other _ => false

/-- Whether the error is a conflict on the given index. -/
def isUniqueConstraintViolation : PrismaError → String → Bool
  | .knownRequest code target, indexName =>
    if code ≠ "P2002" then false
    else
      match target with
      | .str name => decide (indexName.toList <:+: name.toList)
      | .arr names => names.contains indexName
      | .undefined => true
      | .other => false
  | _, _ => false

/-- An error that a store's client library reports. -/
inductive StoreError
  | prisma (error : PrismaError)
  | redis (message : String)
  | mongo (message : String)
deriving DecidableEq

/-- What a modelled function can throw. -/
inductive Thrown
  | store (error : StoreError)
  /-- `OptimisticConcurrencyError`. -/
  | optimisticConcurrency (workItemId : WorkItemId) (expectedState : WorkItemStatus)
  /-- `Error`. -/
  | error (message : String)
deriving DecidableEq

/-- The message of an `OptimisticConcurrencyError`. -/
def optimisticConcurrencyMessage (workItemId : WorkItemId) (expectedState : WorkItemStatus) :
    String :=
  "Work item " ++ workItemId ++ " is no longer in state " ++ expectedState.name
    ++ " — it was changed by another writer or does not exist."

/-! ### Commands and their outcomes -/

/-- What becomes of a store command. -/
inductive Outcome
  /-- Carried out and answered. -/
  | ok
  /-- An error is reported; `applied` tells whether the command was carried out. -/
  | fault (applied : Bool) (error : StoreError)
deriving DecidableEq

/-- A command of a store with state `σ`; one that throws changes nothing. -/
abbrev Command (σ α : Type) := σ → Except Thrown (α × σ)

variable {σ α : Type}

/-- The reply to a command and the store behind it. -/
def perform (command : Command σ α) : Outcome → σ → Except Thrown α × σ
  | .ok, s =>
    match command s with
    | .ok (a, s') => (.ok a, s')
    | .error e => (.error e, s)
  | .fault true e, s =>
    match command s with
    -- the command came through, its reply did not
    | .ok (_, s') => (.error (.store e), s')
    | .error _ => (.error (.store e), s)
  | .fault false e, s => (.error (.store e), s)

/-- A command is carried out, whether or not its reply comes through. -/
def Outcome.isApplied : Outcome → Bool
  | .ok => true
  | .fault applied _ => applied

/-- A computation that returns went through each of its steps. -/
lemma bind_ok {ε α β : Type} {x : Except ε α} {f : α → Except ε β} {b : β}
    (h : (x >>= f) = .ok b) : ∃ a, x = .ok a ∧ f a = .ok b := by
  cases x with
  | error e => cases h
  | ok a => exact ⟨a, rfl, h⟩

/-- A command leaves the store as it is or does what it does when it succeeds. -/
lemma perform_snd (command : Command σ α) (outcome : Outcome) (s : σ) :
    (perform command outcome s).2 = s ∨
      ∃ a, command s = .ok (a, (perform command outcome s).2) := by
  cases outcome with
  | ok => cases h : command s with
    | ok p => exact .inr ⟨p.1, by simp [perform, h]⟩
    | error e => exact .inl (by simp [perform, h])
  | fault applied e => cases applied with
    | true => cases h : command s with
      | ok p => exact .inr ⟨p.1, by simp [perform, h]⟩
      | error e => exact .inl (by simp [perform, h])
    | false => exact .inl rfl

/-- A command that cannot throw does what it does if it is carried out. -/
lemma perform_snd_of_ok {command : Command σ α} {s s' : σ} {a : α} (h : command s = .ok (a, s'))
    (outcome : Outcome) :
    (perform command outcome s).2 = if outcome.isApplied then s' else s := by
  rcases outcome with _ | ⟨_ | _, e⟩ <;> simp [perform, h, Outcome.isApplied]

/-- A reply with a value comes from a command that was carried out. -/
lemma perform_ok {command : Command σ α} {outcome : Outcome} {s : σ} {a : α}
    (h : (perform command outcome s).1 = .ok a) :
    outcome = .ok ∧ command s = .ok (a, (perform command outcome s).2) := by
  cases outcome with
  | ok => cases hc : command s with
    | ok p =>
      obtain ⟨b, s'⟩ := p
      simp only [perform, hc, Except.ok.injEq] at h ⊢
      exact ⟨trivial, Prod.ext h rfl⟩
    | error e => simp [perform, hc] at h
  | fault applied e =>
    cases applied <;> simp only [perform] at h
    · cases h
    · split at h <;> cases h

lemma perform_ok_of {command : Command σ α} {s s' : σ} {a : α} (h : command s = .ok (a, s')) :
    perform command .ok s = (.ok a, s') := by
  simp [perform, h]

lemma perform_error_of {command : Command σ α} {s : σ} {e : Thrown} (h : command s = .error e) :
    perform command .ok s = (.error e, s) := by
  simp [perform, h]

lemma perform_fault_of {command : Command σ α} {s s' : σ} {a : α} (h : command s = .ok (a, s'))
    (applied : Bool) (e : StoreError) :
    perform command (.fault applied e) s = (.error (.store e), if applied then s' else s) := by
  cases applied <;> simp [perform, h]

/-- The reply to a fault is its error. -/
lemma perform_fault_fst (command : Command σ α) (applied : Bool) (e : StoreError) (s : σ) :
    (perform command (.fault applied e) s).1 = .error (.store e) := by
  cases applied with
  | false => rfl
  | true => cases h : command s <;> simp [perform, h]

/-- Behind an error the store is as before, unless the command was carried out and a
fault was reported. -/
lemma perform_error {command : Command σ α} {outcome : Outcome} {s : σ} {e : Thrown}
    (h : (perform command outcome s).1 = .error e) :
    (perform command outcome s).2 = s ∨ ∃ error a, outcome = .fault true error ∧
      e = .store error ∧ command s = .ok (a, (perform command outcome s).2) := by
  rcases perform_snd command outcome s with hsame | ⟨a, ha⟩
  · exact .inl hsame
  · cases outcome with
    | ok =>
      rw [perform_ok_of ha] at h
      cases h
    | fault applied error => cases applied with
      | true =>
        rw [perform_fault_of ha] at h
        cases h
        exact .inr ⟨error, a, rfl, rfl, ha⟩
      | false => exact .inl rfl

/-- A command that can be carried out is carried out, with its reply or an error, or lost. -/
lemma perform_cases {command : Command σ α} {s s' : σ} {a : α}
    (h : command s = .ok (a, s')) (outcome : Outcome) :
    perform command outcome s = (.ok a, s') ∧ outcome = .ok ∨
      (∃ e, perform command outcome s = (.error (.store e), s') ∧ outcome = .fault true e) ∨
      ∃ e, perform command outcome s = (.error (.store e), s) ∧ outcome = .fault false e := by
  cases outcome with
  | ok => exact .inl ⟨perform_ok_of h, rfl⟩
  | fault applied e =>
    cases applied with
    | true => exact .inr (.inl ⟨e, perform_fault_of h true e, rfl⟩)
    | false => exact .inr (.inr ⟨e, perform_fault_of h false e, rfl⟩)

/-- A command that throws answers with an error and leaves the store as it is. -/
lemma perform_of_error {command : Command σ α} {s : σ} {e : Thrown} (h : command s = .error e)
    (outcome : Outcome) : ∃ e', perform command outcome s = (.error e', s) := by
  cases outcome with
  | ok => exact ⟨e, perform_error_of h⟩
  | fault applied e' =>
    refine ⟨.store e', ?_⟩
    cases applied with
    | true => simp [perform, h]
    | false => rfl

/-- A command that reads leaves the store as it is, whatever the outcome. -/
lemma perform_read {command : Command σ α} {s : σ} {a : α} (h : command s = .ok (a, s))
    (outcome : Outcome) : (perform command outcome s).2 = s := by
  rcases perform_snd command outcome s with hs | ⟨b, hb⟩
  · exact hs
  · rw [h] at hb
    simp only [Except.ok.injEq, Prod.mk.injEq] at hb
    exact hb.2.symm

/-! ### Retrying -/

/-- `ATTEMPTS` of `withPostgresRetry`. -/
def ATTEMPTS : ℕ := 3

/-- What `retry` does when an attempt settles. -/
inductive RetryStep (α : Type)
  | returned (a : α)
  | again (attempt : ℕ)
  | thrown (e : Thrown)
deriving DecidableEq

/-- `shouldRetry` of `withPostgresRetry`, on any thrown value. -/
def shouldRetry : Thrown → Bool
  | .store (.prisma e) => isTransientPrismaError e
  | _ => false

lemma shouldRetry_knownRequest {code : String} {target : MetaTarget}
    (h : TRANSIENT_ERROR_CODES.contains code = false) :
    shouldRetry (.store (.prisma (.knownRequest code target))) = false := h

/-- One round of the loop of `retry`, as `withPostgresRetry` calls it. -/
def withPostgresRetry (attempt : ℕ) : Except Thrown α → RetryStep α
  | .ok a => .returned a
  | .error e =>
    if !shouldRetry e || attempt == ATTEMPTS then .thrown e else .again (attempt + 1)

@[simp] lemma withPostgresRetry_ok (attempt : ℕ) (a : α) :
    withPostgresRetry attempt (.ok a) = .returned a := rfl

lemma withPostgresRetry_returned {attempt : ℕ} {reply : Except Thrown α} {a : α}
    (h : withPostgresRetry attempt reply = .returned a) : reply = .ok a := by
  cases reply with
  | ok b => simpa [withPostgresRetry] using h
  | error e => simp only [withPostgresRetry] at h; split at h <;> cases h

lemma withPostgresRetry_again {attempt next : ℕ} {reply : Except Thrown α}
    (h : withPostgresRetry attempt reply = .again next) :
    next = attempt + 1 ∧ attempt ≠ ATTEMPTS ∧ ∃ e, reply = .error e ∧ shouldRetry e = true := by
  cases reply with
  | ok b => cases h
  | error e =>
    simp only [withPostgresRetry] at h
    split at h
    · cases h
    · rename_i hcond
      simp only [Bool.or_eq_true, Bool.not_eq_true', beq_iff_eq, not_or, Bool.not_eq_false]
        at hcond
      exact ⟨(RetryStep.again.inj h).symm, hcond.2, e, rfl, hcond.1⟩

lemma withPostgresRetry_thrown {attempt : ℕ} {reply : Except Thrown α} {e : Thrown}
    (h : withPostgresRetry attempt reply = .thrown e) : reply = .error e := by
  cases reply with
  | ok b => cases h
  | error e' =>
    simp only [withPostgresRetry] at h
    split at h
    · rw [RetryStep.thrown.inj h]
    · cases h

end InveniOps.Stores
