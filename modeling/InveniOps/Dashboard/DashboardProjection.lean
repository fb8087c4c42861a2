import InveniOps.Domain.State
import InveniOps.Stores.DashboardCache

/-!
# The dashboard projection

The reads of `services/dashboard/dashboardProjection.ts` that consult the cache of
active incidents and fill it again from Postgres.  One step is one command to a
store; of several commands awaited together any one may be next.
-/

namespace InveniOps.Dashboard

open Domain Stores

/-- `DashboardProjectionOptions`. -/
structure DashboardProjectionOptions where
  repopulateCap : ℕ

/-- `toIncidentSummary`. -/
def toIncidentSummary (workItem : WorkItem) : IncidentSummary :=
  cachedSummary workItem workItem.updatedAt

/-- `RcaSummaryDto`. -/
structure RcaSummaryDto extends RcaFields where
  mttrSeconds : ℤ
  submittedAt : Instant

/-- The RCA of a summary. -/
def toRcaSummaryDto (rca : RcaRecord) : RcaSummaryDto :=
  { rca.toRcaFields with mttrSeconds := rca.mttrSeconds, submittedAt := rca.submittedAt }

/-- `IncidentDetailDto`. -/
structure IncidentDetailDto extends IncidentSummary where
  legalNextStates : List WorkItemStatus
  rca : Option RcaSummaryDto

/-! ### Looking up one incident -/

/-- Where the look-up of one incident is: the cache first, Postgres on a miss. -/
inductive LookUpPc
  /-- At `GET` of `getIncidentSummary`. -/
  | get
  /-- At `findById`, in the given attempt of its retry wrapper. -/
  | find (attempt : ℕ)
  /-- In `upsertActiveIncident`. -/
  | caching (found : Postgres.WorkItemWithRca) (pc : CachePc)
  | hit (summary : IncidentSummary)
  | missing
  /-- Found in Postgres; an active row has been written to the cache. -/
  | row (found : Postgres.WorkItemWithRca) (written : Option IncidentSummary)
  | threw (e : Thrown)

namespace LookUpPc

/-- The look-up takes no more steps. -/
def isOver : LookUpPc → Bool
  | .get | .find _ | .caching _ _ => false
  | _ => true

/-- Behind the reply to `findById`: only an active row goes to the cache. -/
def afterFind (attempt : ℕ) (reply : Except Thrown (Option Postgres.WorkItemWithRca)) :
    LookUpPc :=
  match withPostgresRetry attempt reply with
  | .again attempt => .find attempt
  | .thrown e => .threw e
  | .returned none => .missing
  | .returned (some found) =>
    if found.1.state = .CLOSED then .row found none
    else .caching found (upsertActiveIncident found.1)

/-- Behind a command of the cache write. -/
def afterCaching (found : Postgres.WorkItemWithRca) : CachePc → LookUpPc
  | .done written => .row found written
  | pc => .caching found pc

/-- One step; a look-up that is over takes none. -/
def step (workItemId : WorkItemId) (io : StepIo) (st : IncidentStores) :
    LookUpPc → Option (IncidentStores × LookUpPc)
  | .get =>
    -- an unreachable cache counts as a miss
    match cacheRead (DashboardCache.get workItemId) io.outcome st.cache with
    | some (some summary) => some (st, .hit summary)
    | _ => some (st, .find 1)
  | .find attempt =>
    let reply := perform (Postgres.findById workItemId) io.outcome st.postgres
    some ({ st with postgres := reply.2 }, afterFind attempt reply.1)
  | .caching found pc =>
    let result := cacheStep io.outcome io.now st.cache pc
    some ({ st with cache := result.1 }, afterCaching found result.2)
  | .hit _ | .missing | .row _ _ | .threw _ => none

/-- What `getIncidentDetail` returns behind its look-up. -/
def getIncidentDetail : LookUpPc → Option (Except Thrown (Option IncidentDetailDto))
  | .hit summary =>
    some (.ok (some
      { summary with legalNextStates := getLegalNextStates summary.state, rca := none }))
  | .missing => some (.ok none)
  | .row (workItem, rca) _ =>
    some (.ok (some
      { toIncidentSummary workItem with
        legalNextStates := getLegalNextStates workItem.state
        rca := rca.map toRcaSummaryDto }))
  | .threw e => some (.error e)
  | .get | .find _ | .caching _ _ => none

/-- What `getIncidentSummaryCacheAware` returns behind its look-up. -/
def getIncidentSummaryCacheAware : LookUpPc → Option (Except Thrown (Option IncidentSummary))
  | .hit summary => some (.ok (some summary))
  | .missing => some (.ok none)
  | .row _ written => some (.ok written)
  | .threw e => some (.error e)
  | .get | .find _ | .caching _ _ => none

end LookUpPc

/-! ### The list of active incidents -/

/-- A `Page` of summaries. -/
structure IncidentPage where
  items : List IncidentSummary
  total : ℕ

/-- Where a call of `getActiveIncidents` is. -/
inductive ActivePc
  /-- At `ZCARD` of `getActiveIncidentIds`, before or behind the repopulation. -/
  | zcard (repopulated : Bool)
  /-- At its `ZRANGE`, with the reply to `ZCARD` unless that failed. -/
  | zrange (repopulated : Bool) (total : Option ℕ)
  /-- At `listActive` of `repopulateActiveCache`. -/
  | listing
  | repopulating (writes : List CachePc)
  /-- In the calls of `getIncidentSummaryCacheAware`, one for each id of the page. -/
  | summarizing (total : ℕ) (lookUps : List (WorkItemId × LookUpPc))
  /-- In `getActiveIncidentsFromPostgres`: the replies to its two queries. -/
  | direct (items : Option (List WorkItem)) (total : Option ℕ)
  | returned (page : IncidentPage)
  | threw (e : Thrown)

namespace ActivePc

/-- The list read takes no more steps. -/
def isOver : ActivePc → Bool
  | .returned _ | .threw _ => true
  | _ => false

/-- Behind a command of the repopulation. -/
def afterRepopulating (writes : List CachePc) : ActivePc :=
  if writes.all (·.isDone) then .zcard true else .repopulating writes

/-- Behind a command of a look-up: `Promise.all` of their results, nulls left out. -/
def afterSummarizing (total : ℕ) (lookUps : List (WorkItemId × LookUpPc)) : ActivePc :=
  if lookUps.all (·.2.isOver) then
    match (lookUps.filterMap (·.2.getIncidentSummaryCacheAware)).mapM id with
    | .ok summaries => .returned ⟨summaries.filterMap id, total⟩
    | .error e => .threw e
  else .summarizing total lookUps

/-- Behind `getActiveIncidentIds`; an unreachable cache sends the call to Postgres. -/
def afterRange (repopulated : Bool) (total : Option ℕ) (ids : Option (List WorkItemId)) :
    ActivePc :=
  match total, ids with
  | some total, some ids =>
    -- a set with members is taken as it is, and an empty one filled once
    if total = 0 ∧ repopulated = false then .listing
    else afterSummarizing total (ids.map (·, .get))
  | _, _ => .direct none none

/-- Behind a query of the direct path. -/
def afterDirect : Option (List WorkItem) → Option ℕ → ActivePc
  | some workItems, some total => .returned ⟨workItems.map toIncidentSummary, total⟩
  | items, total => .direct items total

/-- One step; `i` selects among the commands that are awaited together. -/
def step (options : DashboardProjectionOptions) (limit offset i : ℕ) (io : StepIo)
    (st : IncidentStores) : ActivePc → Option (IncidentStores × ActivePc)
  | .zcard repopulated =>
    some (st, .zrange repopulated (cacheRead DashboardCache.zcard io.outcome st.cache))
  | .zrange repopulated total =>
    some (st, afterRange repopulated total
      (cacheRead (DashboardCache.zrange limit offset) io.outcome st.cache))
  | .listing =>
    let reply := perform (Postgres.listActive options.repopulateCap 0) io.outcome st.postgres
    some ({ st with postgres := reply.2 },
      match reply.1 with
      | .ok active => afterRepopulating (active.map upsertActiveIncident)
      | .error e => .threw e)
  | .repopulating writes =>
    (cacheStepAt io.outcome io.now st.cache i writes).map fun (cache, writes) =>
      ({ st with cache := cache }, afterRepopulating writes)
  | .summarizing total lookUps =>
    match lookUps[i]? with
    | none => none
    | some (workItemId, pc) => (pc.step workItemId io st).map fun (st, pc) =>
      (st, afterSummarizing total (lookUps.set i (workItemId, pc)))
  | .direct items total =>
    match i, items, total with
    | 0, none, total =>
      let reply := perform (Postgres.listActive limit offset) io.outcome st.postgres
      some ({ st with postgres := reply.2 },
        match reply.1 with
        | .ok workItems => afterDirect (some workItems) total
        | .error e => .threw e)
    | 1, items, none =>
      let reply := perform Postgres.countActive io.outcome st.postgres
      some ({ st with postgres := reply.2 },
        match reply.1 with
        | .ok count => afterDirect items (some count)
        | .error e => .threw e)
    | _, _, _ => none
  | .returned _ | .threw _ => none

end ActivePc

end InveniOps.Dashboard
