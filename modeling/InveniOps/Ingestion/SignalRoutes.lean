import InveniOps.Ingestion.Shutdown
import InveniOps.RateLimit.RetryAfter

/-!
# The ingestion routes

`handleIngest` and `handleBulkTest` of `api/routes/signals.ts`, with the batch
parser of `signalValidation.ts`, the synthetic signals and the counters of
`utils/metrics.ts`.  A request waits for the rate limiter only; behind its answer
the route runs to the response in one turn.
-/

namespace InveniOps.Ingestion

open Lib RateLimit

/-! ### Requests and responses -/

/-- One entry of the list of errors in a refused body's answer. -/
structure ValidationFieldError where
  field : String
  message : String
deriving DecidableEq

/-- An issue that the schema library reports. -/
structure Issue where
  path : List String
  message : String

/-- One signal of a request that passed the schema. -/
structure SignalInput where
  signalId : Option SignalId
  componentId : ComponentId
  componentType : ComponentType
  severity : Severity
  rawPayload : Json
  occurredAt : Instant

/-- The body of a request, with what `safeParse` makes of its items. -/
inductive RequestBody
  | single (item : Except (List Issue) SignalInput)
  | batch (items : List (Except (List Issue) SignalInput))

/-- The result of parsing a body: its signals, or why it is refused. -/
inductive SignalBatchParseResult
  | ok (signals : List SignalInput)
  /-- `empty_batch` and `batch_too_large`. -/
  | refused (message : String)
  | validationFailed (errors : List ValidationFieldError)

/-- The parsed body of the bulk test route. -/
structure BulkTestInput where
  count : ℕ
  componentId : Option ComponentId
  componentType : Option ComponentType
  severity : Option Severity

/-- `IngestResponseBody` and `ErrorResponseBody`. -/
inductive ResponseBody
  | ingested (accepted : ℕ) (signalIds : Option (List SignalId))
  | error (error message : String) (details : Option (List ValidationFieldError))
    (accepted dropped : Option ℕ)
deriving DecidableEq

/-- An answer of the routes: the status, the headers that depend on the request, and the body. -/
structure Response where
  status : ℕ
  headers : Option RateLimitHeaders
  retryAfter : Option ℤ
  body : ResponseBody
deriving DecidableEq

/-- The answer 400. -/
def badRequest (message : String) (details : List ValidationFieldError) : Response :=
  ⟨400, none, none, .error "validation_error" message (some details) none none⟩

/-- `config.ingestion` and `config.rateLimit`. -/
structure RouteConfig where
  maxBatchSize : ℕ
  bulkTestMaxCount : ℕ
  limits : RateLimits

/-! ### Parsing -/

/-- A body that is no array is a batch of one. -/
def RequestBody.items : RequestBody → List (Except (List Issue) SignalInput)
  | .single item => [item]
  | .batch items => items

/-- Whether the body is an array. -/
def RequestBody.isBatch : RequestBody → Bool
  | .single _ => false
  | .batch _ => true

/-- The path of an issue in dots, `(root)` where it is empty. -/
def Issue.fieldPath (issue : Issue) : String :=
  let path := ".".intercalate issue.path
  if path = "" then "(root)" else path

/-- The errors of one item, under its index if the body was an array. -/
def fieldErrors (isBatch : Bool) (index : ℕ) (issues : List Issue) : List ValidationFieldError :=
  issues.map fun issue =>
    ⟨if isBatch then "[" ++ toString index ++ "]." ++ issue.fieldPath else issue.fieldPath,
      issue.message⟩

/-- Checks the number of items, then every item; one bad item refuses the batch. -/
def parseSignalBatch (body : RequestBody) (maxBatchSize : ℕ) : SignalBatchParseResult :=
  let items := body.items
  if items.length = 0 then .refused "batch must contain at least one signal"
  else if maxBatchSize < items.length then
    .refused ("batch of " ++ toString items.length ++ " exceeds maximum size of "
      ++ toString maxBatchSize)
  else
    let errors := items.zipIdx.flatMap fun entry =>
      match entry.1 with
      | .ok _ => []
      | .error issues => fieldErrors body.isBatch entry.2 issues
    if errors.length > 0 then .validationFailed errors
    else .ok (items.filterMap Except.toOption)

/-! ### Synthetic signals -/

/-- The component types that the generator goes through. -/
def COMPONENT_TYPES : List ComponentType := [.API, .MCP_HOST, .CACHE, .QUEUE, .RDBMS, .NOSQL]

/-- The number of component ids that generated signals are spread over. -/
def SYNTHETIC_COMPONENT_SLOTS : ℕ := 120

/-- How often a component type's signals have each severity. -/
def SEVERITY_MIX : ComponentType → List (Severity × ℚ)
  | .RDBMS => [(.P0, 0.7), (.P1, 0.22), (.P2, 0.08)]
  | .API => [(.P0, 0.12), (.P1, 0.5), (.P2, 0.28), (.P3, 0.1)]
  | .MCP_HOST => [(.P0, 0.12), (.P1, 0.5), (.P2, 0.28), (.P3, 0.1)]
  | .NOSQL => [(.P0, 0.06), (.P1, 0.46), (.P2, 0.34), (.P3, 0.14)]
  | .QUEUE => [(.P0, 0.05), (.P1, 0.45), (.P2, 0.35), (.P3, 0.15)]
  | .CACHE => [(.P0, 0.05), (.P1, 0.15), (.P2, 0.5), (.P3, 0.3)]

/-- The loop of `pickSeverityForComponentType`. -/
def pickSeverity (roll : ℚ) : ℚ → List (Severity × ℚ) → Option Severity
  | _, [] => none
  | cumulative, (severity, weight) :: rest =>
    if roll < cumulative + weight then some severity
    else pickSeverity roll (cumulative + weight) rest

/-- The severity that a roll picks, the last of the mix if the roll is past all weights. -/
def pickSeverityForComponentType (componentType : ComponentType) (roll : ℚ) : Severity :=
  let mix := SEVERITY_MIX componentType
  (pickSeverity roll 0 mix).getD
    (mix.getLast (by cases componentType <;> exact List.cons_ne_nil _ _)).1

/-- The fields that a caller of the generator fixes. -/
structure SyntheticOverrides where
  componentId : Option ComponentId
  componentType : Option ComponentType
  severity : Option Severity

/-- `generateSyntheticSignal`; no roll of a slot is a sum of weights, so that exact weights
decide as rounded ones do. -/
def generateSyntheticSignal (index : ℕ) (overrides : SyntheticOverrides) (now : Instant)
    (correlationId : String) (uuid : SignalId) : IngestionSignal :=
  let numTypes := COMPONENT_TYPES.length
  let ranksPerType := max 1 (SYNTHETIC_COMPONENT_SLOTS / numTypes)
  let slot := index % SYNTHETIC_COMPONENT_SLOTS
  let componentType :=
    overrides.componentType.getD ((COMPONENT_TYPES[slot % numTypes]?).getD .API)
  let rank := slot / numTypes % ranksPerType
  { signalId := uuid
    componentId :=
      overrides.componentId.getD (componentType.name ++ "_" ++ toString (rank + 1))
    componentType := componentType
    severity := overrides.severity.getD
      (pickSeverityForComponentType componentType ((rank + 1 / 2) / ranksPerType))
    rawPayload := .obj [("synthetic", .bool true), ("index", .num index)]
    occurredAt := now
    receivedAt := now
    correlationId := correlationId }

/-! ### The routes -/

/-- A request at the rate limiter. -/
structure WaitingRequest where
  ip : String
  correlationId : String
  signals : List SignalInput

/-- The ingestion side of a process.  `reported` is what the reporter has read off the
throughput counter; `submissions` is the history of the calls of `submit`. -/
structure IngestSystem (options : SignalBufferOptions) where
  buffers : BufferSystem options
  received : Severity → ℕ
  accepted : Severity → ℕ
  throughput : ℕ
  reported : ℕ
  waiting : List WaitingRequest
  responses : List Response
  submissions : List (IngestionSignal × SubmitResult)

/-- What can happen to the ingest process: requests, the limiter's answers and the buffer's own
events. -/
inductive IngestEvent
  | ingest (ip correlationId : String) (body : RequestBody)
  /-- The rate limiter answers the `k`-th waiting request: over the buckets that it finds, if
  Redis is there. -/
  | limited (k : ℕ) (buckets : Option Buckets) (now receivedAt : Instant) (uuids : ℕ → SignalId)
  | bulkTest (correlationId : String) (input : Except (List Issue) BulkTestInput) (now : Instant)
    (uuids : ℕ → SignalId)
  /-- The reporter resets the throughput counter. -/
  | report
  | buffer (event : BufferEvent)

/-- The answers of the buffer to the submissions of the loop of `submitOrReject`. -/
def BufferSystem.submitResults {options : SignalBufferOptions} :
    BufferSystem options → List IngestionSignal → List (IngestionSignal × SubmitResult)
  | _, [] => []
  | s, signal :: rest =>
    (signal, (s.buffer.submit signal).1) :: (s.submitted signal).submitResults rest

/-- `checkRateLimitFailOpen`. -/
def checkRateLimitFailOpen (limits : RateLimits) (buckets : Option Buckets) (ip : String) (cost : ℕ)
    (now : Instant) : TokenBucketResult :=
  match buckets with
  | some buckets =>
    (checkTokenBuckets .doubles buckets
      ⟨ipKey ip, globalKey, limits.ip, limits.global, cost, now, limits.ttlSeconds⟩).1
  | none =>
    ⟨true, none, ⟨limits.ip.capacity, limits.ip.capacity⟩,
      ⟨limits.global.capacity, limits.global.capacity⟩⟩

/-- The signals of an admitted request, stamped with the receipt and an id each. -/
def WaitingRequest.ingestionSignals (request : WaitingRequest) (receivedAt : Instant)
    (uuids : ℕ → SignalId) : List IngestionSignal :=
  request.signals.zipIdx.map fun entry =>
    { signalId := entry.1.signalId.getD (uuids entry.2)
      componentId := entry.1.componentId
      componentType := entry.1.componentType
      severity := entry.1.severity
      rawPayload := entry.1.rawPayload
      occurredAt := entry.1.occurredAt
      receivedAt := receivedAt
      correlationId := request.correlationId }

/-- The signals of one bulk test, in order. -/
def syntheticSignals (input : BulkTestInput) (now : Instant) (correlationId : String)
    (uuids : ℕ → SignalId) : List IngestionSignal :=
  (List.range input.count).map fun index =>
    generateSyntheticSignal index ⟨input.componentId, input.componentType, input.severity⟩ now
      correlationId (uuids index)

/-- A counter behind one `record…` for each of the signals. -/
def recordAll (counter : Severity → ℕ) (signals : List IngestionSignal) : Severity → ℕ :=
  signals.foldl (fun counter signal =>
    Function.update counter signal.severity (counter signal.severity + 1)) counter

namespace IngestSystem

variable {options : SignalBufferOptions} (config : RouteConfig)

/-- The process before its first request. -/
def init (options : SignalBufferOptions) : IngestSystem options :=
  ⟨BufferSystem.init options, fun _ => 0, fun _ => 0, 0, 0, [], [], []⟩

/-- Sends a response. -/
def respond (s : IngestSystem options) (response : Response) : IngestSystem options :=
  { s with responses := s.responses ++ [response] }

/-- Both routes from the counting of the received signals to the response. -/
def submitSignals (s : IngestSystem options) (signals : List IngestionSignal)
    (headers : Option RateLimitHeaders) (body : List IngestionSignal → ResponseBody) :
    IngestSystem options :=
  let (accepted, dropped, buffers) := s.buffers.submitOrReject signals
  let s := { s with
    buffers := buffers
    received := recordAll s.received signals
    submissions := s.submissions ++ s.buffers.submitResults signals }
  if dropped > 0 then
    -- the accepted signals stay in the buffer, but nobody counts them
    s.respond ⟨503, headers, none, .error "buffer_saturated"
      "ingestion buffer is saturated, try again shortly" none (some accepted.length) (some dropped)⟩
  else
    { s with
      accepted := recordAll s.accepted accepted
      throughput := s.throughput + accepted.length }.respond ⟨202, headers, none, body accepted⟩

/-- `handleIngest` up to the rate limiter. -/
def onIngest (s : IngestSystem options) (ip correlationId : String) (body : RequestBody) :
    IngestSystem options :=
  match parseSignalBatch body config.maxBatchSize with
  | .ok signals => { s with waiting := s.waiting ++ [⟨ip, correlationId, signals⟩] }
  | .refused message => s.respond (badRequest message [])
  | .validationFailed errors =>
    s.respond (badRequest "one or more signals failed validation" errors)

/-- `handleIngest` behind the rate limiter. -/
def onLimited (s : IngestSystem options) (k : ℕ) (request : WaitingRequest)
    (buckets : Option Buckets) (now receivedAt : Instant) (uuids : ℕ → SignalId) :
    IngestSystem options :=
  let result := checkRateLimitFailOpen config.limits buckets request.ip request.signals.length now
  let headers := config.limits.rateLimitHeaders result
  let s := { s with waiting := s.waiting.eraseIdx k }
  match config.limits.rateLimited result request.signals.length with
  | some limited =>
    s.respond ⟨429, some headers, some limited.retryAfter,
      .error limited.error limited.message none none none⟩
  | none =>
    s.submitSignals (request.ingestionSignals receivedAt uuids) (some headers) fun accepted =>
      .ingested accepted.length (some (accepted.map (·.signalId)))

/-- `handleBulkTest`, which is not mounted in production. -/
def onBulkTest (s : IngestSystem options) (correlationId : String)
    (input : Except (List Issue) BulkTestInput) (now : Instant) (uuids : ℕ → SignalId) :
    IngestSystem options :=
  match input with
  | .error issues =>
    s.respond (badRequest "invalid bulk-test request" (fieldErrors false 0 issues))
  | .ok input =>
    if config.bulkTestMaxCount < input.count then
      s.respond (badRequest ("count " ++ toString input.count ++ " exceeds maximum of "
        ++ toString config.bulkTestMaxCount) [])
    else
      s.submitSignals (syntheticSignals input now correlationId uuids) none fun accepted =>
        .ingested accepted.length none

/-- One event; a request behind the limiter goes on only if it is waiting. -/
def step : IngestSystem options → IngestEvent → Option (IngestSystem options)
  | s, .ingest ip correlationId body => some (s.onIngest config ip correlationId body)
  | s, .limited k buckets now receivedAt uuids =>
    match s.waiting[k]? with
    | some request => some (s.onLimited config k request buckets now receivedAt uuids)
    | none => none
  | s, .bulkTest correlationId input now uuids =>
    some (s.onBulkTest config correlationId input now uuids)
  | s, .report => some { s with throughput := 0, reported := s.reported + s.throughput }
  -- only the routes submit
  | _, .buffer (.submit _) => none
  | s, .buffer event => (s.buffers.step event).map fun buffers => { s with buffers := buffers }

/-- The ingestion routes as a transition system. -/
def lts (options : SignalBufferOptions) : Lts (IngestSystem options) IngestEvent := ⟨step config⟩

end IngestSystem

end InveniOps.Ingestion
