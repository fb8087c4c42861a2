import Mathlib.Data.String.Basic
import InveniOps.Lib.SortedSet
import InveniOps.Stores.Postgres

/-!
# The dashboard cache

The two key families of `repositories/redis/dashboardCache.ts`: the sorted set of
active incidents and one summary for each of them.  A summary may expire at any
time; its times stand for their ISO texts.
-/

namespace InveniOps.Stores

open Lib

/-- What the dashboard shows of a work item. -/
structure IncidentSummary where
  id : WorkItemId
  componentId : ComponentId
  componentType : ComponentType
  severity : Severity
  state : WorkItemStatus
  title : String
  firstSignalAt : Instant
  signalCount : ℕ
  updatedAt : Instant
deriving DecidableEq

/-- The dashboard's keys in Redis. -/
structure DashboardCache where
  /-- `dashboard:incident:<id>`. -/
  incidents : WorkItemId → Option IncidentSummary
  /-- `dashboard:active_incidents`. -/
  active : SortedSet WorkItemId

/-- `severityRank * 1e13 + firstSignalAt`. -/
def activeScore (workItem : WorkItem) : ℤ :=
  workItem.severity.rank * 10000000000000 + workItem.firstSignalAt

/-- The summary that `upsertActiveIncident` writes. -/
def cachedSummary (workItem : WorkItem) (now : Instant) : IncidentSummary where
  id := workItem.id
  componentId := workItem.componentId
  componentType := workItem.componentType
  severity := workItem.severity
  state := workItem.state
  title := workItem.title
  firstSignalAt := workItem.firstSignalAt
  signalCount := workItem.signalCount
  updatedAt := now

namespace DashboardCache

/-- The cache after a flush. -/
def empty : DashboardCache := ⟨fun _ => none, .empty⟩

variable (workItemId : WorkItemId)

/-- Replaces an item's entry. -/
def setIncident (cache : DashboardCache) (summary : Option IncidentSummary) : DashboardCache :=
  { cache with incidents := Function.update cache.incidents workItemId summary }

/-- `SET` of an entry. -/
def set (summary : IncidentSummary) : Command DashboardCache Unit := fun cache =>
  .ok ((), cache.setIncident workItemId (some summary))

/-- `ZADD` of an active item. -/
def zadd (score : ℤ) : Command DashboardCache Unit := fun cache =>
  .ok ((), { cache with active := cache.active.add workItemId score })

/-- `DEL` of an entry. -/
def del : Command DashboardCache Unit := fun cache => .ok ((), cache.setIncident workItemId none)

/-- `ZREM` of an active item. -/
def zrem : Command DashboardCache Unit := fun cache =>
  .ok ((), { cache with active := cache.active.remove workItemId })

/-- `GET` of an entry. -/
def get : Command DashboardCache (Option IncidentSummary) := fun cache =>
  .ok (cache.incidents workItemId, cache)

/-- `ZCARD` of the active items. -/
def zcard : Command DashboardCache ℕ := fun cache => .ok (cache.active.card, cache)

/-- `ZRANGE` of a page. -/
def zrange (limit offset : ℕ) : Command DashboardCache (List WorkItemId) := fun cache =>
  .ok (cache.active.range offset (offset + limit - 1), cache)

end DashboardCache

/-! ### `DashboardCacheRepository` -/

/-- The stores of the incident services. -/
structure IncidentStores where
  postgres : Postgres
  cache : DashboardCache

/-- What the environment decides about one step of a call. -/
structure StepIo where
  outcome : Outcome
  /-- `new Date()`, and the clock of Postgres for what it writes. -/
  now : Instant
deriving DecidableEq

/-- A write to the cache in progress.  Both methods send their two commands at once;
a failed command is logged and nothing else. -/
inductive CachePc
  /-- At `SET` of `upsertActiveIncident`. -/
  | set (workItem : WorkItem)
  | zadd (workItem : WorkItem) (summary : IncidentSummary)
  /-- At `DEL` of `removeIncident`. -/
  | del (workItemId : WorkItemId)
  | zrem (workItemId : WorkItemId)
  | done (summary : Option IncidentSummary)

/-- Deletes the entry, then the member. -/
def removeIncident (workItemId : WorkItemId) : CachePc := .del workItemId

/-- Sets the entry, then the member; a closed item is removed. -/
def upsertActiveIncident (workItem : WorkItem) : CachePc :=
  if workItem.state = .CLOSED then removeIncident workItem.id else .set workItem

/-- One command of a write; the summary is made up at `now`. -/
def cacheStep (outcome : Outcome) (now : Instant) (cache : DashboardCache) :
    CachePc → DashboardCache × CachePc
  | .set workItem =>
    let summary := cachedSummary workItem now
    ((perform (DashboardCache.set workItem.id summary) outcome cache).2, .zadd workItem summary)
  | .zadd workItem summary =>
    ((perform (DashboardCache.zadd workItem.id (activeScore workItem)) outcome cache).2,
      .done (some summary))
  | .del workItemId =>
    ((perform (DashboardCache.del workItemId) outcome cache).2, .zrem workItemId)
  | .zrem workItemId =>
    ((perform (DashboardCache.zrem workItemId) outcome cache).2, .done none)
  | .done summary => (cache, .done summary)

/-- Writes that are awaited together: the `i`-th sends its next command. -/
def cacheStepAt (outcome : Outcome) (now : Instant) (cache : DashboardCache) (i : ℕ)
    (writes : List CachePc) : Option (DashboardCache × List CachePc) :=
  match writes[i]? with
  | none | some (.done _) => none
  | some pc =>
    let result := cacheStep outcome now cache pc
    some (result.1, writes.set i result.2)

/-- Whether the write has ended. -/
def CachePc.isDone : CachePc → Bool
  | .done _ => true
  | _ => false

/-- A read of the cache: an error of Redis is reported as `CacheUnavailableError`. -/
def cacheRead {α : Type} (command : Command DashboardCache α) (outcome : Outcome)
    (cache : DashboardCache) : Option α :=
  match (perform command outcome cache).1 with
  | .ok a => some a
  | .error _ => none

end InveniOps.Stores
