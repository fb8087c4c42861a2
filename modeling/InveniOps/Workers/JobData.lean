import InveniOps.Domain.LocalTime
import InveniOps.Lib.JsonText
import InveniOps.Lib.ListFacts

/-!
# Job data

The data of the jobs of `workers/queue.ts`.  BullMQ prints a job's data as JSON when the job is
added and parses it for every attempt, so dates travel as texts and the worker makes dates of
them again; the dead letter queue carries the parsed data of the job once more.  Strings are
those of Unicode scalar values.
-/

namespace InveniOps.Workers

open Lib Domain

variable {F : NumberFormat}

/-! ### Signals in a process -/

/-- A number, without its format; what is printed as `null` is `null`. -/
def numberOf : JsNumber F → Json
  | .finite negative magnitude =>
    .num (if negative then -(F.shortest magnitude).value else (F.shortest magnitude).value)
  | .nan | .infinite _ => .null

mutual

/-- What is printed of a value, without the format of its numbers. -/
def payloadOf : JsonValue F → Json
  | .null => .null
  | .bool b => .bool b
  | .num x => numberOf x
  | .str text => .str (String.ofList text)
  | .arr items => .arr (payloadsOf items)
  | .obj properties => .obj (fieldsOf properties)

/-- What is printed of the items of an array. -/
def payloadsOf : List (JsonValue F) → List Json
  | [] => []
  | item :: items => payloadOf item :: payloadsOf items

/-- What is printed of the properties of an object. -/
def fieldsOf : List (List Char × JsonValue F) → List (String × Json)
  | [] => []
  | (key, value) :: properties => (String.ofList key, payloadOf value) :: fieldsOf properties

end

lemma numberOf_printed (x : JsNumber F) : payloadOf x.printed = numberOf x := by
  cases x with
  | finite negative magnitude =>
    by_cases hzero : (F.shortest magnitude).significand = 0 <;>
      simp [JsNumber.printed, payloadOf, numberOf, Decimal.value, hzero]
  | _ => rfl

mutual

/-- As much is printed of what is read of a printed value. -/
lemma payloadOf_printed : ∀ v : JsonValue F, payloadOf v.printed = payloadOf v
  | .null | .bool _ | .str _ => by rw [JsonValue.printed]
  | .num x => by rw [JsonValue.printed, numberOf_printed, payloadOf]
  | .arr items => by rw [JsonValue.printed, payloadOf, payloadOf, payloadsOf_printed items]
  | .obj properties => by
    rw [JsonValue.printed, payloadOf, payloadOf, fieldsOf_printed properties]

lemma payloadsOf_printed : ∀ items : List (JsonValue F),
    payloadsOf (printedItems items) = payloadsOf items
  | [] => by rw [printedItems]
  | item :: items => by
    rw [printedItems, payloadsOf, payloadsOf, payloadOf_printed item, payloadsOf_printed items]

lemma fieldsOf_printed : ∀ properties : List (List Char × JsonValue F),
    fieldsOf (printedProperties properties) = fieldsOf properties
  | [] => by rw [printedProperties]
  | (key, value) :: properties => by
    rw [printedProperties, fieldsOf, fieldsOf, payloadOf_printed value,
      fieldsOf_printed properties]

end

/-- An instant that a `Date` can hold. -/
def IsDate (t : Instant) : Prop := -MAX_TIME ≤ t ∧ t ≤ MAX_TIME

instance (t : Instant) : Decidable (IsDate t) :=
  inferInstanceAs (Decidable (-MAX_TIME ≤ t ∧ t ≤ MAX_TIME))

/-- A signal with its payload as a process holds it: `JSON.parse` of a request's body also
makes infinities and `-0`.  A payload that was not sent is `undefined`, which the stores take
for `null`. -/
structure HeldSignal (F : NumberFormat) extends IngestionSignal where
  payload : Option (JsonValue F)
  rawPayload_eq : rawPayload = (payload.map payloadOf).getD .null
  occurredAt_isDate : IsDate occurredAt
  receivedAt_isDate : IsDate receivedAt

/-- The signal with what printing keeps of its payload. -/
def HeldSignal.printed (signal : HeldSignal F) : HeldSignal F :=
  { signal with
    payload := signal.payload.map JsonValue.printed
    rawPayload_eq := by
      rw [signal.rawPayload_eq, Option.map_map]
      simp only [Function.comp_def, payloadOf_printed] }

/-- `SerializedIngestionSignal`: the dates are texts. -/
structure SerializedIngestionSignal (F : NumberFormat) where
  signalId : SignalId
  componentId : ComponentId
  componentType : ComponentType
  severity : Severity
  rawPayload : Option (JsonValue F)
  occurredAt : String
  receivedAt : String
  correlationId : String

/-- The signal as job data. -/
def serializeSignal (signal : HeldSignal F) : SerializedIngestionSignal F where
  signalId := signal.signalId
  componentId := signal.componentId
  componentType := signal.componentType
  severity := signal.severity
  rawPayload := signal.payload
  occurredAt := toISOString signal.occurredAt
  receivedAt := toISOString signal.receivedAt
  correlationId := signal.correlationId

/-- There is no signal where a text is that of no date. -/
def deserializeSignal (rt : Runtime) (signal : SerializedIngestionSignal F) :
    Option (HeldSignal F) :=
  match hoccurred : rt.newDate signal.occurredAt, hreceived : rt.newDate signal.receivedAt with
  | some occurredAt, some receivedAt =>
    some
      { signalId := signal.signalId
        componentId := signal.componentId
        componentType := signal.componentType
        severity := signal.severity
        rawPayload := (signal.rawPayload.map payloadOf).getD .null
        occurredAt := occurredAt
        receivedAt := receivedAt
        correlationId := signal.correlationId
        payload := signal.rawPayload
        rawPayload_eq := rfl
        occurredAt_isDate := rt.newDate_bounds hoccurred
        receivedAt_isDate := rt.newDate_bounds hreceived }
  | _, _ => none

lemma deserializeSignal_serializeSignal (rt : Runtime) (signal : HeldSignal F) :
    deserializeSignal rt (serializeSignal signal) = some signal := by
  have hoccurred := rt.newDate_toISOString signal.occurredAt_isDate
  have hreceived := rt.newDate_toISOString signal.receivedAt_isDate
  unfold deserializeSignal
  split
  · rename_i occurredAt receivedAt ho hr
    obtain rfl := Option.some.inj (hoccurred.symm.trans ho)
    obtain rfl := Option.some.inj (hreceived.symm.trans hr)
    obtain ⟨⟨signalId, componentId, componentType, severity, rawPayload, occurredAt, receivedAt,
      correlationId⟩, payload, hpayload, -, -⟩ := signal
    obtain rfl : rawPayload = _ := hpayload
    rfl
  · rename_i hnone
    exact absurd hreceived (hnone _ _ hoccurred)

/-! ### The data as JSON -/

/-- A member of an enumeration, by its name. -/
def named {α : Type} (name : α → String) (all : List α) (text : String) : Option α :=
  all.find? (name · = text)

/-- The names that `componentType` can have. -/
def componentTypes : List ComponentType := [.API, .MCP_HOST, .CACHE, .QUEUE, .RDBMS, .NOSQL]

/-- The names that `severity` can have. -/
def severities : List Severity := [.P0, .P1, .P2, .P3]

lemma named_componentType (componentType : ComponentType) :
    named ComponentType.name componentTypes componentType.name = some componentType := by
  cases componentType <;> decide

lemma named_severity (severity : Severity) :
    named Severity.name severities severity.name = some severity := by
  cases severity <;> decide

/-- A property that is a string. -/
def textProperty (name : List Char) (value : JsonValue F) : Option String :=
  match property name value with
  | some (.str text) => some (String.ofList text)
  | _ => none

lemma textProperty_of {name : List Char} {value : JsonValue F} {s : String}
    (h : property name value = some (jsonString s)) : textProperty name value = some s := by
  rw [textProperty, h]
  simp [jsonString]

namespace SerializedIngestionSignal

/-- `undefined` is left out. -/
def toJson (signal : SerializedIngestionSignal F) : JsonValue F :=
  .obj
    ([("signalId".toList, jsonString signal.signalId),
        ("componentId".toList, jsonString signal.componentId),
        ("componentType".toList, jsonString signal.componentType.name),
        ("severity".toList, jsonString signal.severity.name)] ++
      signal.rawPayload.toList.map ("rawPayload".toList, ·) ++
      [("occurredAt".toList, jsonString signal.occurredAt),
        ("receivedAt".toList, jsonString signal.receivedAt),
        ("correlationId".toList, jsonString signal.correlationId)])

/-- What a parsed signal is read as. -/
def ofJson (value : JsonValue F) : Option (SerializedIngestionSignal F) := do
  let signalId ← textProperty "signalId".toList value
  let componentId ← textProperty "componentId".toList value
  let componentType ← textProperty "componentType".toList value
  let severity ← textProperty "severity".toList value
  let occurredAt ← textProperty "occurredAt".toList value
  let receivedAt ← textProperty "receivedAt".toList value
  let correlationId ← textProperty "correlationId".toList value
  some
    { signalId, componentId
      componentType := ← named ComponentType.name componentTypes componentType
      severity := ← named Severity.name severities severity
      rawPayload := property "rawPayload".toList value
      occurredAt, receivedAt, correlationId }

/-- What printing keeps of the payload of a signal in a job. -/
def printed (signal : SerializedIngestionSignal F) : SerializedIngestionSignal F :=
  { signal with rawPayload := signal.rawPayload.map JsonValue.printed }

lemma printed_toJson (signal : SerializedIngestionSignal F) :
    signal.toJson.printed = signal.printed.toJson := by
  obtain ⟨_, _, _, _, rawPayload, _, _, _⟩ := signal
  cases rawPayload <;> simp [toJson, printed, JsonValue.printed, printedProperties]

lemma ofJson_toJson (signal : SerializedIngestionSignal F) :
    ofJson signal.toJson = some signal := by
  obtain ⟨signalId, componentId, componentType, severity, rawPayload, occurredAt, receivedAt,
    correlationId⟩ := signal
  have hcomponentType := named_componentType componentType
  have hseverity := named_severity severity
  cases rawPayload with
  | none =>
    rw [ofJson, textProperty_of rfl, textProperty_of rfl, textProperty_of rfl, textProperty_of rfl,
      textProperty_of rfl, textProperty_of rfl, textProperty_of rfl]
    simp only [Option.bind_eq_bind, Option.bind_some, hcomponentType, hseverity]
    rfl
  | some payload =>
    rw [ofJson, textProperty_of rfl, textProperty_of rfl, textProperty_of rfl, textProperty_of rfl,
      textProperty_of rfl, textProperty_of rfl, textProperty_of rfl]
    simp only [Option.bind_eq_bind, Option.bind_some, hcomponentType, hseverity]
    rfl

end SerializedIngestionSignal

/-! ### Jobs -/

/-- `config.queue`, as far as jobs are added by it. -/
structure QueueConfig where
  maxAttempts : ℕ
  backoffDelayMs : ℕ
  removeOnCompleteCount : ℕ
  removeOnFailCount : ℕ

/-- What `add` of a queue is called with; the data is printed. -/
structure AddedJob where
  name : String
  data : List Char
  attempts : Option ℕ
  /-- The delay of the exponential backoff. -/
  backoff : Option ℕ
  removeOnComplete : Option ℕ
  removeOnFail : Option ℕ

/-- The name of the jobs of a batch. -/
def SIGNAL_BATCH_JOB_NAME : String := "process-batch"

/-- The name of the jobs of the dead letter queue. -/
def DEAD_LETTER_JOB_NAME : String := "dead-letter"

/-- `SignalBatchJobData`. -/
def signalBatchJobData (signals : List (SerializedIngestionSignal F)) : JsonValue F :=
  .obj [("signals".toList, .arr (signals.map SerializedIngestionSignal.toJson))]

/-- An empty batch adds no job. -/
def enqueueSignalBatch (cfg : QueueConfig) (signals : List (HeldSignal F)) : Option AddedJob :=
  if signals.length = 0 then none
  else
    some
      { name := SIGNAL_BATCH_JOB_NAME
        data := (signalBatchJobData (signals.map serializeSignal)).stringify
        attempts := some cfg.maxAttempts
        backoff := some cfg.backoffDelayMs
        removeOnComplete := some cfg.removeOnCompleteCount
        removeOnFail := some cfg.removeOnFailCount }

/-- The signals with which the worker calls `processBatch`. -/
def jobSignals (rt : Runtime) (data : JsonValue F) : Option (List (HeldSignal F)) :=
  match property "signals".toList data with
  | some (.arr items) =>
    items.mapM fun item => (SerializedIngestionSignal.ofJson item).bind (deserializeSignal rt)
  | _ => none

/-- A job as BullMQ hands it to a worker. -/
structure BullJob (F : NumberFormat) where
  id : Option String
  name : String
  attemptsMade : ℕ
  data : JsonValue F

/-- `DeadLetterJobData`. -/
def deadLetterJobData (job : BullJob F) (message : String) (failedAt : Instant) : JsonValue F :=
  .obj
    [("originalJobId".toList, jsonString (job.id.getD "unknown")),
      ("originalJobName".toList, jsonString job.name),
      ("attemptsMade".toList, jsonCount job.attemptsMade),
      ("failureReason".toList, jsonString message),
      ("failedAt".toList, jsonString (toISOString failedAt)),
      ("data".toList, job.data)]

/-- The job that a failed job leaves in the dead letter queue. -/
def forwardToDeadLetterQueue (job : BullJob F) (message : String) (failedAt : Instant) :
    AddedJob where
  name := DEAD_LETTER_JOB_NAME
  data := (deadLetterJobData job message failedAt).stringify
  attempts := none
  backoff := none
  removeOnComplete := none
  removeOnFail := none

lemma serializeSignal_printed (signal : HeldSignal F) :
    (serializeSignal signal).printed = serializeSignal signal.printed := rfl

/-- What printing keeps of the data of a batch is the data of what it keeps of its signals. -/
lemma printed_signalBatchJobData (signals : List (HeldSignal F)) :
    (signalBatchJobData (signals.map serializeSignal)).printed
      = signalBatchJobData ((signals.map HeldSignal.printed).map serializeSignal) := by
  simp [signalBatchJobData, JsonValue.printed, printedProperties, printedItems_eq_map,
    SerializedIngestionSignal.printed_toJson, serializeSignal_printed]

lemma jobSignals_signalBatchJobData (rt : Runtime) (signals : List (HeldSignal F)) :
    jobSignals rt (signalBatchJobData (signals.map serializeSignal)) = some signals := by
  have hitems : property "signals".toList (signalBatchJobData (signals.map serializeSignal)) =
      some (.arr ((signals.map serializeSignal).map SerializedIngestionSignal.toJson)) := rfl
  rw [jobSignals, hitems, List.map_map]
  refine mapM_map_of_inverse ?_
  intro signal _
  rw [Function.comp_apply, SerializedIngestionSignal.ofJson_toJson, Option.bind_some,
    deserializeSignal_serializeSignal]

/-- A dead letter carries what printing keeps of the data of its job. -/
lemma property_data_deadLetterJobData (job : BullJob F) (message : String)
    (failedAt : Instant) :
    property "data".toList (deadLetterJobData job message failedAt).printed
      = some job.data.printed := by
  rw [property_printed]
  rfl

/-- What the worker makes of the data of a job is the batch that was drained, dates included,
with what printing keeps of the payloads: an infinity has become `null` and `-0` zero.  If the
job fails for good, its dead letter carries the data unchanged: put back into the queue it is
the text of the job, and it is read as the same batch. -/
theorem batch_survives (rt : Runtime) {cfg : QueueConfig} {signals : List (HeldSignal F)}
    {job : AddedJob} (hadded : enqueueSignalBatch cfg signals = some job) :
    ∃ data : JsonValue F, parseJson job.data = some data ∧
      jobSignals rt data = some (signals.map HeldSignal.printed) ∧
      ∀ (id : Option String) (attemptsMade : ℕ) (message : String) (failedAt : Instant),
        ∃ dead data' : JsonValue F,
          parseJson (forwardToDeadLetterQueue ⟨id, job.name, attemptsMade, data⟩ message
            failedAt).data = some dead ∧
          property "data".toList dead = some data' ∧ data'.stringify = job.data ∧
          jobSignals rt data' = some (signals.map HeldSignal.printed) := by
  unfold enqueueSignalBatch at hadded
  split_ifs at hadded
  obtain rfl := Option.some.inj hadded
  have hsignals := jobSignals_signalBatchJobData rt (signals.map HeldSignal.printed)
  rw [← printed_signalBatchJobData] at hsignals
  refine ⟨_, parseJson_stringify _, hsignals, ?_⟩
  intro id attemptsMade message failedAt
  refine ⟨_, _, parseJson_stringify _, property_data_deadLetterJobData _ _ _, ?_⟩
  rw [printed_printed]
  exact ⟨stringify_printed _, hsignals⟩

/-- A signal whose payload is an infinity, as `JSON.parse` makes of `1e400`. -/
def infiniteSignal : HeldSignal .integers where
  toIngestionSignal := cacheSignal "sig-1" "CACHE_1" .P2
  payload := some (.num (.infinite false))
  rawPayload_eq := by simp [payloadOf, numberOf, cacheSignal]
  occurredAt_isDate := by decide
  receivedAt_isDate := by decide

theorem batch_survives_of_infiniteSignal :
    ∃ (job : AddedJob) (data : JsonValue .integers),
      enqueueSignalBatch ⟨5, 1000, 1000, 1000⟩ [infiniteSignal] = some job ∧
      parseJson job.data = some data ∧
      jobSignals (Runtime.strict 0) data = some [infiniteSignal.printed] ∧
      infiniteSignal.printed.payload = some .null := by
  have hadded : enqueueSignalBatch ⟨5, 1000, 1000, 1000⟩ [infiniteSignal] = some
      ⟨SIGNAL_BATCH_JOB_NAME, (signalBatchJobData [serializeSignal infiniteSignal]).stringify,
        some 5, some 1000, some 1000, some 1000⟩ := rfl
  obtain ⟨data, hparse, hsignals, -⟩ := batch_survives (Runtime.strict 0) hadded
  exact ⟨_, data, hadded, hparse, hsignals, by simp [infiniteSignal, HeldSignal.printed,
    JsonValue.printed, JsNumber.printed]⟩

end InveniOps.Workers
