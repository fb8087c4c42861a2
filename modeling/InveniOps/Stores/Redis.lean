import Mathlib.Logic.Function.Basic
import InveniOps.Stores.Postgres

/-!
# The debounce keys of Redis

`debounce:session:<componentId>` holds a hash, `debounce:lock:<componentId>` a
token that only its presence matters of.  A key with a time-to-live may vanish
at any moment, and so may every key when Redis is flushed: these are steps of
the environment, not commands.
-/

namespace InveniOps.Stores

/-- The fields that `HGETALL` returns; all absent when the key is. -/
structure SessionHash where
  workItemId : Option WorkItemId
  count : Option ℤ
  startedAtMs : Option Instant
deriving DecidableEq

/-- The answer of `HGETALL` where there is no key. -/
def SessionHash.absent : SessionHash := ⟨none, none, none⟩

/-- A session key: its hash and, in seconds, its time-to-live. -/
structure SessionKey where
  hash : SessionHash
  ttl : Option ℕ
deriving DecidableEq

/-- The debouncer's keys in Redis. -/
structure Redis where
  sessions : ComponentId → Option SessionKey
  locks : ComponentId → Bool

namespace Redis

/-- Redis after a flush. -/
def empty : Redis := ⟨fun _ => none, fun _ => false⟩

/-- The hash of a component's session. -/
def session (redis : Redis) (componentId : ComponentId) : SessionHash :=
  (redis.sessions componentId).elim .absent (·.hash)

/-- Replaces a component's session. -/
def setSession (redis : Redis) (componentId : ComponentId) (key : Option SessionKey) : Redis :=
  { redis with sessions := Function.update redis.sessions componentId key }

/-- Takes or frees a component's lock. -/
def setLock (redis : Redis) (componentId : ComponentId) (held : Bool) : Redis :=
  { redis with locks := Function.update redis.locks componentId held }

variable (componentId : ComponentId)

/-- `HGETALL` of a session. -/
def hgetall : Command Redis SessionHash := fun redis => .ok (redis.session componentId, redis)

/-- `HSET` of all three fields; the time-to-live of an existing key stays. -/
def hset (hash : SessionHash) : Command Redis Unit := fun redis =>
  .ok ((), redis.setSession componentId
    (some ⟨hash, (redis.sessions componentId).bind (·.ttl)⟩))

/-- `HINCRBY … count 1` creates an absent key, without a time-to-live. -/
def hincrby : Command Redis Unit := fun redis =>
  let hash := redis.session componentId
  .ok ((), redis.setSession componentId
    (some ⟨{ hash with count := some (hash.count.getD 0 + 1) },
      (redis.sessions componentId).bind (·.ttl)⟩))

/-- `EXPIRE` of a session. -/
def expire (seconds : ℕ) : Command Redis Unit := fun redis =>
  .ok ((), redis.setSession componentId
    ((redis.sessions componentId).map fun key => { key with ttl := some seconds }))

/-- `SET … NX`: whether the lock was acquired. -/
def setNX : Command Redis Bool := fun redis =>
  if redis.locks componentId then .ok (false, redis)
  else .ok (true, redis.setLock componentId true)

/-- `DEL` of a lock. -/
def delLock : Command Redis Unit := fun redis => .ok ((), redis.setLock componentId false)

lemma session_setSession (redis : Redis) (key : Option SessionKey) (c : ComponentId) :
    (redis.setSession componentId key).session c
      = if c = componentId then key.elim .absent (·.hash) else redis.session c := by
  simp only [session, setSession, Function.update_apply]
  split_ifs <;> rfl

end Redis

/-- The stores that the debouncer talks to. -/
structure World where
  postgres : Postgres
  redis : Redis

end InveniOps.Stores
