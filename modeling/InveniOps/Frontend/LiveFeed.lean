import InveniOps.Lib.Lts
import InveniOps.Lib.Timers

/-!
# The live feed

`IncidentsProvider` of `hooks/useIncidents.tsx`: its React state and refs, and
what the browser holds on its behalf: the timers, the event sources that are not
closed, and the list reads in flight.  A closed source delivers nothing any more,
so it is dropped.  The backend, the network and the operator are the events.
-/

namespace InveniOps.Frontend

open Lib

/-- An error about a field of a request. -/
structure FieldError where
  field : String
  message : String
deriving DecidableEq

/-- What the frontend tells of a failed request. -/
inductive ApiErrorInfo
  | network (message : String)
  | timeout (message : String) (timeoutMs : ℕ)
  | validation (message : String) (fieldErrors : List FieldError)
  | not_found (message : String)
  | conflict (message reason : String)
  | invalid_rca (message : String) (fieldErrors : List FieldError)
  | unavailable (message : String)
  | unknown (status : ℕ) (message : String)
deriving DecidableEq

/-- What a call of `api` throws. -/
inductive Rejection
  | apiRequestError (info : ApiErrorInfo)
  /-- A `DOMException` named `AbortError`. -/
  | abortError
  | error (message : String)
  /-- Anything that is no `Error`. -/
  | other
deriving DecidableEq

/-- `toErrorInfo` of the hooks.  The message of a `DOMException` is not shown by any of them. -/
def toErrorInfo : Rejection → ApiErrorInfo
  | .apiRequestError info => info
  | .error message => .unknown 0 message
  | .abortError | .other => .unknown 0 "unexpected error"

/-- What the transport pill shows. -/
inductive IncidentsConnectionStatus
  | connecting | live | polling
deriving DecidableEq

/-- The time between two polls. -/
def POLL_INTERVAL_MS : ℕ := 5000

/-- The reconnects before the provider polls. -/
def MAX_SSE_RETRIES : ℕ := 5

/-- The unit of the backoff. -/
def BASE_BACKOFF_MS : ℕ := 1000

/-- The longest wait before a reconnect. -/
def MAX_BACKOFF_MS : ℕ := 30000

/-- The time that events are collected for one refetch. -/
def REFETCH_DEBOUNCE_MS : ℕ := 300

/-- The wait before a reconnect. -/
def backoffDelayMs (attempt : ℕ) : ℕ := min (BASE_BACKOFF_MS * 2 ^ attempt) MAX_BACKOFF_MS

/-- What the timers of the provider run. -/
inductive FeedTask
  | connectSse
  | fetchList
deriving DecidableEq

/-- An `EventSource` that is not closed. -/
structure Source where
  id : ℕ
  opened : Bool
deriving DecidableEq

/-- A list read in flight and the state of its `AbortController`. -/
structure ListRead where
  id : ℕ
  aborted : Bool
deriving DecidableEq

/-- The reads with the one behind a ref aborted. -/
def abortRead (ref : Option ℕ) (reads : List ListRead) : List ListRead :=
  reads.map fun r => if some r.id = ref then { r with aborted := true } else r

/-- The provider, which does not look into the items of a page.  `effect` tells whether its
effect is set up. -/
structure Feed (WorkItem : Type) where
  data : List WorkItem
  loading : Bool
  error : Option ApiErrorInfo
  connectionStatus : IncidentsConnectionStatus
  mountedRef : Bool
  eventSourceRef : Option ℕ
  reconnectTimerRef : Option ℕ
  pollTimerRef : Option ℕ
  refetchDebounceRef : Option ℕ
  listControllerRef : Option ℕ
  retryCountRef : ℕ
  effect : Bool
  timers : Timers FeedTask
  sources : List Source
  nextSource : ℕ
  reads : List ListRead
  nextRead : ℕ

/-- What happens to the provider. -/
inductive FeedEvent (WorkItem : Type)
  /-- React runs the effect, or its cleanup. -/
  | mount | unmount
  | pass (ms : ℕ)
  | fire (timer : ℕ)
  /-- `open`, one of the two incident events, and `error` of an event source. -/
  | opened (source : ℕ)
  | incidentEvent (source : ℕ)
  | failed (source : ℕ)
  /-- A list read resolves, or is rejected. -/
  | page (read : ℕ) (items : List WorkItem)
  | rejected (read : ℕ) (err : Rejection)
  /-- A consumer calls `refresh`. -/
  | refresh
deriving DecidableEq

namespace Feed

variable {WorkItem : Type}

/-- The provider as it is first rendered. -/
def rendered : Feed WorkItem where
  data := []
  loading := true
  error := none
  connectionStatus := .connecting
  mountedRef := true
  eventSourceRef := none
  reconnectTimerRef := none
  pollTimerRef := none
  refetchDebounceRef := none
  listControllerRef := none
  retryCountRef := 0
  effect := false
  timers := .start
  sources := []
  nextSource := 0
  reads := []
  nextRead := 0

/-- `controller.abort()` for the controller in a ref. -/
def abort (s : Feed WorkItem) (ref : Option ℕ) : Feed WorkItem :=
  { s with reads := abortRead ref s.reads }

/-- `fetchList` up to its `await`. -/
def fetchList (s : Feed WorkItem) : Feed WorkItem :=
  let s := s.abort s.listControllerRef
  { s with
    listControllerRef := some s.nextRead
    reads := s.reads ++ [⟨s.nextRead, false⟩]
    nextRead := s.nextRead + 1 }

/-- `clearTimeout` or `clearInterval` of what a ref holds. -/
def clearTimer (s : Feed WorkItem) (ref : Option ℕ) : Feed WorkItem :=
  { s with timers := s.timers.clear ref }

/-- A refetch that is armed starts over. -/
def scheduleRefetch (s : Feed WorkItem) : Feed WorkItem :=
  let s := s.clearTimer s.refetchDebounceRef
  { s with
    refetchDebounceRef := some s.timers.next
    timers := s.timers.setTimeout .fetchList REFETCH_DEBOUNCE_MS }

/-- Disarm the poll. -/
def stopPolling (s : Feed WorkItem) : Feed WorkItem :=
  match s.pollTimerRef with
  | none => s
  | some timer => { s.clearTimer (some timer) with pollTimerRef := none }

/-- Arm the poll, unless it is armed. -/
def startPolling (s : Feed WorkItem) : Feed WorkItem :=
  match s.pollTimerRef with
  | some _ => s
  | none =>
    { s with
      connectionStatus := .polling
      pollTimerRef := some s.timers.next
      timers := s.timers.setInterval .fetchList POLL_INTERVAL_MS }

/-- Open an event source, unless there is one. -/
def connectSse (s : Feed WorkItem) : Feed WorkItem :=
  match s.eventSourceRef with
  | some _ => s
  | none =>
    { s with
      eventSourceRef := some s.nextSource
      sources := s.sources ++ [⟨s.nextSource, false⟩]
      nextSource := s.nextSource + 1 }

/-- `close()` of an event source. -/
def close (s : Feed WorkItem) (source : Option ℕ) : Feed WorkItem :=
  { s with sources := s.sources.filter fun x => some x.id ≠ source }

/-- The `readyState` of an event source becomes `OPEN`. -/
def markOpen (s : Feed WorkItem) (source : ℕ) : Feed WorkItem :=
  { s with sources := s.sources.map fun x => if x.id = source then ⟨source, true⟩ else x }

/-- The listener of `open`. -/
def onOpen (s : Feed WorkItem) : Feed WorkItem :=
  if s.mountedRef then
    let s := { s with retryCountRef := 0 }
    { s.stopPolling with connectionStatus := .live }
  else s

/-- The listener of `error`. -/
def onError (s : Feed WorkItem) (source : ℕ) : Feed WorkItem :=
  let s := { s.close (some source) with eventSourceRef := none }
  if s.mountedRef then
    let s := { s with retryCountRef := s.retryCountRef + 1 }
    if MAX_SSE_RETRIES < s.retryCountRef then s.startPolling
    else
      { s with
        connectionStatus := .connecting
        reconnectTimerRef := some s.timers.next
        timers := s.timers.setTimeout .connectSse (backoffDelayMs s.retryCountRef) }
  else s

/-- `fetchList` behind its `await`; the `finally` runs behind the `try` and the `catch`. -/
def settle (s : Feed WorkItem) (aborted : Bool) : Except Rejection (List WorkItem) → Feed WorkItem
  | .ok items =>
    if aborted ∨ s.mountedRef = false then s
    else { s with data := items, error := none, loading := false }
  | .error err =>
    if aborted ∨ s.mountedRef = false then s
    -- an abort that is not the controller's is not reported, yet ends the loading
    else if err = .abortError then { s with loading := false }
    else { s with error := some (toErrorInfo err), loading := false }

/-- The effect of the provider. -/
def setup (s : Feed WorkItem) : Feed WorkItem :=
  let s := { s with mountedRef := true }
  { s.fetchList.connectSse with effect := true }

/-- What the effect returns. -/
def cleanup (s : Feed WorkItem) : Feed WorkItem :=
  let s := { s with mountedRef := false }
  let s := s.abort s.listControllerRef
  let s := { s.close s.eventSourceRef with eventSourceRef := none }
  let s := s.clearTimer s.reconnectTimerRef
  let s := s.clearTimer s.refetchDebounceRef
  { s.stopPolling with effect := false }

/-- What a timer does. -/
def run (s : Feed WorkItem) : FeedTask → Feed WorkItem
  | .connectSse => s.connectSse
  | .fetchList => s.fetchList

/-- The read with the given id in flight, and the provider without it. -/
def takeRead (s : Feed WorkItem) (read : ℕ) : Option (ListRead × Feed WorkItem) :=
  (s.reads.find? fun r => r.id = read).map fun r =>
    (r, { s with reads := s.reads.filter fun r => r.id ≠ read })

/-- The provider behind an event, if the event can happen. -/
def step (s : Feed WorkItem) : FeedEvent WorkItem → Option (Feed WorkItem)
  | .mount => if s.effect then none else some s.setup
  | .unmount => if s.effect then some s.cleanup else none
  | .pass ms => some { s with timers := s.timers.pass ms }
  | .fire timer => (s.timers.fire timer).map fun (task, timers) => { s with timers }.run task
  | .opened source =>
    if ⟨source, false⟩ ∈ s.sources then
      some (s.markOpen source).onOpen
    else none
  | .incidentEvent source =>
    if ⟨source, true⟩ ∈ s.sources then some s.scheduleRefetch else none
  | .failed source =>
    if source ∈ s.sources.map Source.id then some (s.onError source) else none
  | .page read items =>
    (s.takeRead read).map fun (r, s) => s.settle r.aborted (.ok items)
  | .rejected read err =>
    (s.takeRead read).map fun (r, s) => s.settle r.aborted (.error err)
  | .refresh => some s.fetchList

/-- The provider as a transition system. -/
def lts : Lts (Feed WorkItem) (FeedEvent WorkItem) := ⟨step⟩

end Feed

end InveniOps.Frontend
