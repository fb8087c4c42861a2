import InveniOps.Stores.Redis

/-!
# The debouncer

`SignalDebouncer.resolve` of `services/ingestion/debouncer.ts`, one step for
each command it sends to Redis or Postgres and one for each place where it reads
the clock behind a reply.  The clock readings are the environment's; the lock's
time-to-live and the sleep between two polls only matter through them.
-/

namespace InveniOps.Ingestion

open Stores

/-- `idx_work_items_active_component_id`, the index that the class relies on. -/
def ACTIVE_COMPONENT_INDEX_NAME : String := "idx_work_items_active_component_id"

/-- The answer of `resolve`: the work item that holds the signal, and whether this call created it.
-/
structure DebounceResult where
  workItemId : WorkItemId
  created : Bool
deriving DecidableEq

/-- The class: its work item store and the options that its decisions read. -/
structure SignalDebouncer where
  workItemStore : PrismaClient
  /-- How long a session is trusted before re-verifying against Postgres. -/
  windowSeconds : ℕ
  /-- How many signals a session may fast-path before re-verifying. -/
  threshold : ℕ
  lockWaitTimeoutMs : ℕ
  /-- The caller's `isConflictError`, if it supplies one. -/
  isConflictErrorOption : Option (Thrown → Bool)

/-- A client that reports a violated index by its name, and the options that
`config/index.ts` defaults to. -/
def SignalDebouncer.standard : SignalDebouncer where
  workItemStore := ⟨fun index =>
    match index with
    | .work_items_pkey => .arr ["id"]
    | .idx_work_items_active_component_id => .str ACTIVE_COMPONENT_INDEX_NAME
    | .rca_records_work_item_id_key => .arr ["work_item_id"]⟩
  windowSeconds := 10
  threshold := 100
  lockWaitTimeoutMs := 1000
  isConflictErrorOption := none

/-- What the environment decides about one step of a call. -/
structure Io where
  outcome : Outcome
  /-- The id that the database client generates for an inserted row. -/
  uuid : WorkItemId
  /-- `Date.now()`, and the clock of Postgres for what it writes. -/
  now : Instant
deriving DecidableEq

/-- Where a call of `resolve` is.  `locked` tells whether it runs inside the
`try` whose `finally` deletes the lock. -/
inductive ResolvePc
  /-- At `HGETALL` of `resolve`. -/
  | readSession
  | judgeSession (raw : SessionHash)
  /-- At `HINCRBY`, before returning the session's work item. -/
  | bump (workItemId : WorkItemId)
  | acquireLock
  | startPolling
  /-- At the `while` of `pollForSession`. -/
  | pollTest (deadline : Instant)
  | pollRead (deadline : Instant)
  | pollJudge (deadline : Instant) (raw : SessionHash)
  | findActive (locked : Bool)
  /-- At `createWorkItem`, in the given attempt of its retry wrapper. -/
  | create (locked : Bool) (attempt : ℕ)
  /-- At the second `findActiveByComponentId`, behind a conflict. -/
  | findWinner (locked : Bool)
  /-- At `Date.now()` of `seedSession`. -/
  | seeding (locked : Bool) (result : DebounceResult)
  /-- At `HSET`. -/
  | seed (locked : Bool) (result : DebounceResult) (startedAtMs : Instant)
  /-- At `EXPIRE`. -/
  | expire (locked : Bool) (result : DebounceResult)
  /-- At the `DEL` of the `finally`. -/
  | release (outcome : Except Thrown DebounceResult)
  | done (outcome : Except Thrown DebounceResult)

/-- Whether the call has returned or thrown. -/
def ResolvePc.isDone : ResolvePc → Bool
  | .done _ => true
  | _ => false

namespace SignalDebouncer

variable (d : SignalDebouncer)

/-- Whether a failed creation lost the race for the component, by the option or by the default
predicate. -/
def isConflictError (e : Thrown) : Bool :=
  match d.isConflictErrorOption with
  | some predicate => predicate e
  | none =>
    match e with
    | .store (.prisma e) => isUniqueConstraintViolation e ACTIVE_COMPONENT_INDEX_NAME
    | _ => false

/-- `readValidSession` behind its `HGETALL`; an empty id counts as absent. -/
def validSession (now : Instant) (raw : SessionHash) : Option WorkItemId :=
  match raw.workItemId with
  | none => none
  | some workItemId =>
    if workItemId = "" then none
    -- `HINCRBY` has counted the signals so far
    else if d.threshold ≤ raw.count.getD 0 then none
    else if d.windowSeconds * 1000 ≤ now - raw.startedAtMs.getD 0 then none
    else some workItemId

/-- The work item that a component's first signal asks for. -/
def toCreateInput (signal : IngestionSignal) : CreateWorkItemInput where
  id := none
  componentId := signal.componentId
  componentType := signal.componentType
  severity := signal.severity
  title := signal.componentType.name ++ " incident on " ++ signal.componentId
  firstSignalAt := signal.receivedAt
  signalCount := some 0

/-- The message thrown when the winner of a conflict is gone. -/
def noWinnerMessage (componentId : ComponentId) : String :=
  "SignalDebouncer: create conflicted for component \"" ++ componentId
    ++ "\" but no active work item was found afterward"

/-- Return or throw out of `resolveFromStore`, through the `finally` if there is one. -/
def leave (locked : Bool) (outcome : Except Thrown DebounceResult) : ResolvePc :=
  if locked then .release outcome else .done outcome

/-- The `catch` of `resolveFromStore`.  Its `try` covers the creation and the
seeding behind it, so not the seeding of an item that was found. -/
def caught (locked created : Bool) (e : Thrown) : ResolvePc :=
  if created && d.isConflictError e then .findWinner locked else leave locked (.error e)

section Steps

variable (w : World) (io : Io) {α : Type}

/-- Send a command to Redis and go on with the reply. -/
def onRedis (command : Command Redis α) (k : Except Thrown α → ResolvePc) : World × ResolvePc :=
  ({ w with redis := (perform command io.outcome w.redis).2 },
    k (perform command io.outcome w.redis).1)

/-- Send a command to Postgres and go on with the reply. -/
def onPostgres (command : Command Postgres α) (k : Except Thrown α → ResolvePc) :
    World × ResolvePc :=
  ({ w with postgres := (perform command io.outcome w.postgres).2 },
    k (perform command io.outcome w.postgres).1)

end Steps

/-! The continuations behind the replies. -/

/-- The session's hash as read at the start. -/
def afterReadSession : Except Thrown SessionHash → ResolvePc
  | .ok raw => .judgeSession raw
  | .error e => .done (.error e)

/-- An existing session was counted up: its work item is the answer. -/
def afterBump (workItemId : WorkItemId) : Except Thrown Unit → ResolvePc
  | .ok _ => .done (.ok ⟨workItemId, false⟩)
  | .error e => .done (.error e)

/-- Who gets the lock looks for an active item, who does not polls. -/
def afterAcquire : Except Thrown Bool → ResolvePc
  | .ok true => .findActive true
  -- another caller of the component holds the lock
  | .ok false => .startPolling
  | .error e => .done (.error e)

/-- One more read of the session while polling. -/
def afterPollRead (deadline : Instant) : Except Thrown SessionHash → ResolvePc
  | .ok raw => .pollJudge deadline raw
  | .error e => .done (.error e)

/-- Joins the component's active item, or goes on to create one. -/
def afterFindActive (locked : Bool) : Except Thrown (List WorkItem) → ResolvePc
  | .ok active =>
    match active.head? with
    | some existing => .seeding locked ⟨existing.id, false⟩
    | none => .create locked 1
  | .error e => leave locked (.error e)

/-- The creation behind `withPostgresRetry`: seeds the session, tries again or gives up. -/
def afterCreate (locked : Bool) (attempt : ℕ) (reply : Except Thrown WorkItem) : ResolvePc :=
  match withPostgresRetry attempt reply with
  | .returned created => .seeding locked ⟨created.id, true⟩
  | .again next => .create locked next
  | .thrown e => d.caught locked true e

/-- The lookup of who won the race for the component. -/
def afterFindWinner (componentId : ComponentId) (locked : Bool) :
    Except Thrown (List WorkItem) → ResolvePc
  | .ok active =>
    match active.head? with
    | some winner => .seeding locked ⟨winner.id, false⟩
    | none => leave locked (.error (.error (noWinnerMessage componentId)))
  | .error e => leave locked (.error e)

/-- The session's fields are written; its expiry comes next. -/
def afterSeed (locked : Bool) (result : DebounceResult) : Except Thrown Unit → ResolvePc
  | .ok _ => .expire locked result
  | .error e => d.caught locked result.created e

/-- The session is complete: the lock is released and `result` returned. -/
def afterExpire (locked : Bool) (result : DebounceResult) : Except Thrown Unit → ResolvePc
  | .ok _ => leave locked (.ok result)
  | .error e => d.caught locked result.created e

/-- The `finally` clause is done: the outcome of the body stands. -/
def afterRelease (outcome : Except Thrown DebounceResult) : Except Thrown Unit → ResolvePc
  | .ok _ => .done outcome
  | .error e => .done (.error e)

/-- One step of `resolve(signal)`. -/
def resolveStep (signal : IngestionSignal) (io : Io) (w : World) :
    ResolvePc → World × ResolvePc
  | .readSession => onRedis w io (Redis.hgetall signal.componentId) afterReadSession
  | .judgeSession raw =>
    (w, match d.validSession io.now raw with
      | some workItemId => .bump workItemId
      | none => .acquireLock)
  | .bump workItemId => onRedis w io (Redis.hincrby signal.componentId) (afterBump workItemId)
  | .acquireLock => onRedis w io (Redis.setNX signal.componentId) afterAcquire
  | .startPolling => (w, .pollTest (io.now + d.lockWaitTimeoutMs))
  -- past the deadline the call goes on without the lock
  | .pollTest deadline => (w, if io.now < deadline then .pollRead deadline else .findActive false)
  | .pollRead deadline =>
    onRedis w io (Redis.hgetall signal.componentId) (afterPollRead deadline)
  | .pollJudge deadline raw =>
    (w, match d.validSession io.now raw with
      | some workItemId => .bump workItemId
      | none => .pollTest deadline)
  | .findActive locked =>
    onPostgres w io (Postgres.findActiveByComponentId signal.componentId) (afterFindActive locked)
  | .create locked attempt =>
    onPostgres w io (Postgres.createWorkItem d.workItemStore (toCreateInput signal) io.uuid io.now)
      (d.afterCreate locked attempt)
  | .findWinner locked =>
    onPostgres w io (Postgres.findActiveByComponentId signal.componentId)
      (afterFindWinner signal.componentId locked)
  | .seeding locked result => (w, .seed locked result io.now)
  | .seed locked result startedAtMs =>
    onRedis w io
      -- whatever session is there is overwritten
      (Redis.hset signal.componentId ⟨some result.workItemId, some 0, some startedAtMs⟩)
      (d.afterSeed locked result)
  | .expire locked result =>
    onRedis w io (Redis.expire signal.componentId d.windowSeconds) (d.afterExpire locked result)
  | .release outcome => onRedis w io (Redis.delLock signal.componentId) (afterRelease outcome)
  | .done outcome => (w, .done outcome)

/-! ### What a step does -/

variable {d} {signal : IngestionSignal} {io : Io} {w : World}

/-- A session judged valid names its work item. -/
lemma validSession_some {now : Instant} {raw : SessionHash} {x : WorkItemId}
    (h : d.validSession now raw = some x) :
    raw.workItemId = some x ∧ raw.count.getD 0 < d.threshold ∧
      now - raw.startedAtMs.getD 0 < d.windowSeconds * 1000 := by
  simp only [validSession] at h
  split at h
  · cases h
  · rename_i y hy
    split_ifs at h with h₁ h₂ h₃
    cases h
    exact ⟨hy, not_le.1 h₂, not_le.1 h₃⟩

/-- Searching for the active item changes no row. -/
lemma onPostgres_findActive (componentId : ComponentId)
    (k : Except Thrown (List WorkItem) → ResolvePc) :
    (onPostgres w io (Postgres.findActiveByComponentId componentId) k).1.postgres = w.postgres :=
  perform_read rfl io.outcome

/-- A step writes to Postgres only by creating a work item. -/
lemma resolveStep_postgres (pc : ResolvePc) :
    (d.resolveStep signal io w pc).1.postgres = w.postgres ∨
      ∃ locked attempt r, pc = .create locked attempt ∧
        Postgres.createWorkItem d.workItemStore (toCreateInput signal) io.uuid io.now w.postgres
          = .ok (r, (d.resolveStep signal io w pc).1.postgres) := by
  cases pc with
  | create locked attempt =>
    rcases perform_snd (Postgres.createWorkItem d.workItemStore (toCreateInput signal) io.uuid
      io.now) io.outcome w.postgres with h | ⟨r, h⟩
    · exact .inl h
    · exact .inr ⟨locked, attempt, r, rfl, h⟩
  | findActive locked => exact .inl (onPostgres_findActive _ _)
  | findWinner locked => exact .inl (onPostgres_findActive _ _)
  | _ => exact .inl rfl

/-- The session key of its component behind a step whose command is carried out. -/
def sessionAfter (d : SignalDebouncer) (key : Option SessionKey) : ResolvePc → Option SessionKey
  | .bump _ =>
    let hash := key.elim .absent (·.hash)
    some ⟨{ hash with count := some (hash.count.getD 0 + 1) }, key.bind (·.ttl)⟩
  | .seed _ result startedAtMs =>
    some ⟨⟨some result.workItemId, some 0, some startedAtMs⟩, key.bind (·.ttl)⟩
  | .expire _ _ => key.map fun key => { key with ttl := some d.windowSeconds }
  | _ => key

lemma sessions_onRedis {α : Type} {command : Command Redis α} {k : Except Thrown α → ResolvePc}
    {a : α} {redis : Redis} (h : command w.redis = .ok (a, redis)) (c : ComponentId) :
    (onRedis w io command k).1.redis.sessions c
      = if io.outcome.isApplied then redis.sessions c else w.redis.sessions c := by
  simp only [onRedis, perform_snd_of_ok h]
  split_ifs <;> rfl

/-- A step touches only the session of its own component. -/
lemma sessions_resolveStep (pc : ResolvePc) (c : ComponentId) :
    (d.resolveStep signal io w pc).1.redis.sessions c
      = if c = signal.componentId ∧ io.outcome.isApplied then
          d.sessionAfter (w.redis.sessions c) pc
        else w.redis.sessions c := by
  have hupdate : ∀ key : Option SessionKey,
      (w.redis.setSession signal.componentId key).sessions c
        = if c = signal.componentId then key else w.redis.sessions c := fun key =>
    Function.update_apply ..
  cases pc with
  | readSession | pollRead deadline | release outcome =>
    simp only [resolveStep]
    rw [sessions_onRedis rfl]
    simp [sessionAfter, Redis.setLock]
  | acquireLock =>
    obtain ⟨acquired, redis, h, hsessions⟩ : ∃ acquired redis,
        Redis.setNX signal.componentId w.redis = .ok (acquired, redis) ∧
          redis.sessions = w.redis.sessions := by
      unfold Redis.setNX
      split_ifs
      · exact ⟨false, w.redis, rfl, rfl⟩
      · exact ⟨true, _, rfl, rfl⟩
    simp only [resolveStep]
    rw [sessions_onRedis h]
    simp [sessionAfter, hsessions]
  | bump workItemId | seed locked result startedAtMs | expire locked result =>
    simp only [resolveStep]
    rw [sessions_onRedis rfl, hupdate]
    by_cases hc : c = signal.componentId
    · subst hc
      simp only [true_and, if_true]
      rfl
    · simp [hc]
  | _ => simp [resolveStep, onPostgres, sessionAfter]

/-- Only `HINCRBY` and `HSET` change what a session says. -/
lemma session_resolveStep (pc : ResolvePc) (c : ComponentId) :
    (d.resolveStep signal io w pc).1.redis.session c
      = if c = signal.componentId ∧ io.outcome.isApplied then
          match pc with
          | .bump _ => { w.redis.session c with
              count := some ((w.redis.session c).count.getD 0 + 1) }
          | .seed _ result startedAtMs => ⟨some result.workItemId, some 0, some startedAtMs⟩
          | _ => w.redis.session c
        else w.redis.session c := by
  simp only [Redis.session, sessions_resolveStep]
  split_ifs
  · cases pc with
    | expire locked result => cases w.redis.sessions c <;> rfl
    | _ => rfl
  · rfl

/-- A step writes another work item into a session only at `HSET`. -/
lemma resolveStep_session (pc : ResolvePc) (c : ComponentId) :
    let before := w.redis.session c
    let after := (d.resolveStep signal io w pc).1.redis.session c
    (after.workItemId = before.workItemId ∧ after.startedAtMs = before.startedAtMs) ∨
      ∃ locked result startedAtMs, pc = .seed locked result startedAtMs ∧
        c = signal.componentId ∧
        after = ⟨some result.workItemId, some 0, some startedAtMs⟩ := by
  dsimp only
  rw [session_resolveStep]
  split_ifs with hc
  · cases pc with
    | seed locked result startedAtMs => exact .inr ⟨locked, result, startedAtMs, rfl, hc.1, rfl⟩
    | _ => exact .inl ⟨rfl, rfl⟩
  · exact .inl ⟨rfl, rfl⟩

/-- Behind a command that Redis carries out whenever it is asked, only a fault goes the way
of an error. -/
lemma onRedis_cases {α : Type} {command : Command Redis α} {k : Except Thrown α → ResolvePc}
    {a : α} {redis : Redis} {P : ResolvePc → Prop} (h : command w.redis = .ok (a, redis))
    (hok : io.outcome = .ok → P (k (.ok a))) (herror : ∀ e, io.outcome ≠ .ok → P (k (.error e))) :
    P (onRedis w io command k).2 := by
  dsimp only [onRedis]
  rcases perform_cases h io.outcome with ⟨hreply, houtcome⟩ | ⟨e, hreply, houtcome⟩ |
    ⟨e, hreply, houtcome⟩ <;> rw [hreply]
  · exact hok houtcome
  · exact herror _ (by simp [houtcome])
  · exact herror _ (by simp [houtcome])

lemma onPostgres_cases {α : Type} {command : Command Postgres α}
    {k : Except Thrown α → ResolvePc} {a : α} {pg : Postgres} {P : ResolvePc → Prop}
    (h : command w.postgres = .ok (a, pg)) (hok : P (k (.ok a)))
    (herror : ∀ e, io.outcome ≠ .ok → P (k (.error e))) : P (onPostgres w io command k).2 := by
  dsimp only [onPostgres]
  rcases perform_cases h io.outcome with ⟨hreply, -⟩ | ⟨e, hreply, houtcome⟩ |
    ⟨e, hreply, houtcome⟩ <;> rw [hreply]
  · exact hok
  · exact herror _ (by simp [houtcome])
  · exact herror _ (by simp [houtcome])

variable (d signal io w)

/-- How a call goes on.  Only a command that is not answered throws, except that an insert
can be refused. -/
inductive ResolveRuns : ResolvePc → ResolvePc → Prop
  | read : ResolveRuns .readSession (.judgeSession (w.redis.session signal.componentId))
  | valid {raw : SessionHash} {x : WorkItemId} (valid : d.validSession io.now raw = some x) :
    ResolveRuns (.judgeSession raw) (.bump x)
  | invalid {raw : SessionHash} : ResolveRuns (.judgeSession raw) .acquireLock
  | bumped {x : WorkItemId} : ResolveRuns (.bump x) (.done (.ok ⟨x, false⟩))
  | acquired : ResolveRuns .acquireLock (.findActive true)
  | refused : ResolveRuns .acquireLock .startPolling
  | polling : ResolveRuns .startPolling (.pollTest (io.now + d.lockWaitTimeoutMs))
  | polls {deadline : Instant} (early : io.now < deadline) :
    ResolveRuns (.pollTest deadline) (.pollRead deadline)
  | gaveUp {deadline : Instant} : ResolveRuns (.pollTest deadline) (.findActive false)
  | pollRead {deadline : Instant} : ResolveRuns (.pollRead deadline)
    (.pollJudge deadline (w.redis.session signal.componentId))
  | pollValid {deadline : Instant} {raw : SessionHash} {x : WorkItemId}
    (valid : d.validSession io.now raw = some x) : ResolveRuns (.pollJudge deadline raw) (.bump x)
  | pollInvalid {deadline : Instant} {raw : SessionHash} :
    ResolveRuns (.pollJudge deadline raw) (.pollTest deadline)
  | found {locked : Bool} {existing : WorkItem}
    (head : (w.postgres.activeOf signal.componentId).head? = some existing) :
    ResolveRuns (.findActive locked) (.seeding locked ⟨existing.id, false⟩)
  | absent {locked : Bool} : ResolveRuns (.findActive locked) (.create locked 1)
  | created {locked : Bool} {attempt : ℕ} {r : WorkItem}
    (reply : (perform (Postgres.createWorkItem d.workItemStore (toCreateInput signal) io.uuid
      io.now) io.outcome w.postgres).1 = .ok r) :
    ResolveRuns (.create locked attempt) (.seeding locked ⟨r.id, true⟩)
  | again {locked : Bool} {attempt next : ℕ} :
    ResolveRuns (.create locked attempt) (.create locked next)
  | createThrew {locked : Bool} {attempt : ℕ} (e : Thrown) :
    ResolveRuns (.create locked attempt) (d.caught locked true e)
  | won {locked : Bool} {winner : WorkItem}
    (head : (w.postgres.activeOf signal.componentId).head? = some winner) :
    ResolveRuns (.findWinner locked) (.seeding locked ⟨winner.id, false⟩)
  | noWinner {locked : Bool} (head : (w.postgres.activeOf signal.componentId).head? = none) :
    ResolveRuns (.findWinner locked)
      (leave locked (.error (.error (noWinnerMessage signal.componentId))))
  | seeding {locked : Bool} {result : DebounceResult} :
    ResolveRuns (.seeding locked result) (.seed locked result io.now)
  | seeded {locked : Bool} {result : DebounceResult} {startedAtMs : Instant}
    (answered : io.outcome = .ok) :
    ResolveRuns (.seed locked result startedAtMs) (.expire locked result)
  | expires {locked : Bool} {result : DebounceResult} :
    ResolveRuns (.expire locked result) (leave locked (.ok result))
  | released {outcome : Except Thrown DebounceResult} :
    ResolveRuns (.release outcome) (.done outcome)
  | returned {outcome : Except Thrown DebounceResult} :
    ResolveRuns (.done outcome) (.done outcome)
  | left {pc : ResolvePc} (locked : Bool) (e : Thrown) (failed : io.outcome ≠ .ok) :
    ResolveRuns pc (leave locked (.error e))
  | seedThrew {pc : ResolvePc} (locked created : Bool) (e : Thrown) (failed : io.outcome ≠ .ok) :
    ResolveRuns pc (d.caught locked created e)

variable {d signal io w}

lemma resolveRuns (pc : ResolvePc) :
    ResolveRuns d signal io w pc (d.resolveStep signal io w pc).2 := by
  cases pc with
  | readSession =>
    exact onRedis_cases (P := ResolveRuns d signal io w _) rfl (fun _ => .read) (.left false)
  | judgeSession raw =>
    simp only [resolveStep]
    cases hvalid : d.validSession io.now raw with
    | none => exact .invalid
    | some x => exact .valid hvalid
  | bump x =>
    exact onRedis_cases (P := ResolveRuns d signal io w _) rfl (fun _ => .bumped) (.left false)
  | acquireLock =>
    simp only [resolveStep]
    cases hlock : Redis.setNX signal.componentId w.redis with
    | error e =>
      unfold Redis.setNX at hlock
      split_ifs at hlock
    | ok reply =>
      refine onRedis_cases (P := ResolveRuns d signal io w _) hlock (fun _ => ?_) (.left false)
      cases reply.1 with
      | true => exact .acquired
      | false => exact .refused
  | startPolling => exact .polling
  | pollTest deadline =>
    simp only [resolveStep]
    split_ifs with hearly
    · exact .polls hearly
    · exact .gaveUp
  | pollRead deadline =>
    exact onRedis_cases (P := ResolveRuns d signal io w _) rfl (fun _ => .pollRead) (.left false)
  | pollJudge deadline raw =>
    simp only [resolveStep]
    cases hvalid : d.validSession io.now raw with
    | none => exact .pollInvalid
    | some x => exact .pollValid hvalid
  | findActive locked =>
    refine onPostgres_cases (P := ResolveRuns d signal io w _) rfl ?_ (.left locked)
    simp only [afterFindActive]
    cases hhead : (w.postgres.activeOf signal.componentId).head? with
    | none => exact .absent
    | some existing => exact .found hhead
  | create locked attempt =>
    simp only [resolveStep, onPostgres, afterCreate]
    split
    · rename_i hretry
      exact .created (withPostgresRetry_returned hretry)
    · exact .again
    · exact .createThrew _
  | findWinner locked =>
    refine onPostgres_cases (P := ResolveRuns d signal io w _) rfl ?_ (.left locked)
    simp only [afterFindWinner]
    cases hhead : (w.postgres.activeOf signal.componentId).head? with
    | none => exact .noWinner hhead
    | some winner => exact .won hhead
  | seeding locked result => exact .seeding
  | seed locked result startedAtMs =>
    exact onRedis_cases (P := ResolveRuns d signal io w _) rfl .seeded
      (.seedThrew locked result.created)
  | expire locked result =>
    exact onRedis_cases (P := ResolveRuns d signal io w _) rfl (fun _ => .expires)
      (.seedThrew locked result.created)
  | release outcome =>
    exact onRedis_cases (P := ResolveRuns d signal io w _) rfl (fun _ => .released) (.left false)
  | done outcome => exact .returned

end SignalDebouncer

end InveniOps.Ingestion
