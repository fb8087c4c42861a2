import InveniOps.Lib.EventStream
import InveniOps.Lib.JsonText
import InveniOps.Dashboard.DashboardProjection
import InveniOps.Domain.Dates

/-!
# Incident events

The events of `services/realtime/incidentEvents.ts`, as `IncidentEventPublisher` prints
them into the Redis channel, `IncidentEventSubscriber` reads them back, and
`api/routes/incidentStream.ts` writes them to an event stream.
-/

namespace InveniOps.Realtime

open Lib Domain Stores Dashboard

variable {F : NumberFormat}

/-- The messages of the channel. -/
inductive IncidentEvent
  | workItemCreated (incident : IncidentSummary)
  | workItemStateChanged (incident : IncidentSummary) (fromState toState : String)
deriving DecidableEq

/-- The type of the event of a new work item. -/
def WORK_ITEM_CREATED : List Char := "work_item_created".toList

/-- The type of the event of a transition. -/
def WORK_ITEM_STATE_CHANGED : List Char := "work_item_state_changed".toList

/-- The event's type, which is also the type of its Server-Sent Event. -/
def IncidentEvent.type : IncidentEvent → List Char
  | .workItemCreated _ => WORK_ITEM_CREATED
  | .workItemStateChanged .. => WORK_ITEM_STATE_CHANGED

/-! ### Publishing -/

/-- A summary as `JSON.stringify` goes through it. -/
def summaryJson (incident : IncidentSummary) : JsonValue F :=
  .obj
    [("id".toList, jsonString incident.id),
      ("componentId".toList, jsonString incident.componentId),
      ("componentType".toList, jsonString incident.componentType.name),
      ("severity".toList, jsonString incident.severity.name),
      ("state".toList, jsonString incident.state.name),
      ("title".toList, jsonString incident.title),
      ("firstSignalAt".toList, jsonString (toISOString incident.firstSignalAt)),
      ("signalCount".toList, jsonCount incident.signalCount),
      ("updatedAt".toList, jsonString (toISOString incident.updatedAt))]

/-- The event as `JSON.stringify` goes through it. -/
def IncidentEvent.toJson : IncidentEvent → JsonValue F
  | .workItemCreated incident =>
    .obj [("type".toList, .str WORK_ITEM_CREATED), ("incident".toList, summaryJson incident)]
  | .workItemStateChanged incident fromState toState =>
    .obj
      [("type".toList, .str WORK_ITEM_STATE_CHANGED), ("incident".toList, summaryJson incident),
        ("fromState".toList, jsonString fromState), ("toState".toList, jsonString toState)]

/-- The event of a new work item. -/
def publishWorkItemCreated (workItem : WorkItem) : IncidentEvent :=
  .workItemCreated (toIncidentSummary workItem)

/-- The event of a transition, with the item as it is behind it. -/
def publishWorkItemStateChanged (workItem : WorkItem) (fromState toState : String) :
    IncidentEvent :=
  .workItemStateChanged (toIncidentSummary workItem) fromState toState

/-- The message of `safePublish`. -/
def IncidentEvent.message (F : NumberFormat) (event : IncidentEvent) : List Char :=
  (event.toJson : JsonValue F).stringify

/-! ### Receiving -/

/-- `isIncidentEvent`, with the type of the event. -/
def incidentEventType (value : JsonValue F) : Option (List Char) :=
  match property "type".toList value with
  | some (.str type) =>
    if type = WORK_ITEM_CREATED ∨ type = WORK_ITEM_STATE_CHANGED then some type else none
  | _ => none

/-- An event that the subscriber emits: a parsed message of a known type. -/
structure ReceivedEvent (F : NumberFormat) where
  type : List Char
  value : JsonValue F
  type_eq : incidentEventType value = some type

/-- The listener for `message`: a text that is no JSON or no incident event is dropped. -/
def receive (message : List Char) : Option (ReceivedEvent F) :=
  match parseJson message with
  | none => none
  | some value =>
    match h : incidentEventType value with
    | none => none
    | some type => some ⟨type, value, h⟩

/-! ### Writing -/

namespace ReceivedEvent

variable (event : ReceivedEvent F)

/-- `JSON.stringify(event)`. -/
def data : List Char := event.value.stringify

/-- What `writeEvent` writes. -/
def text : List Char := StreamParser.messageText event.type event.data

/-- What a client is to dispatch. -/
def toMessage : StreamMessage := ⟨event.type, event.data, []⟩

end ReceivedEvent

lemma incidentEventType_eq {value : JsonValue F} {type : List Char}
    (h : incidentEventType value = some type) :
    type = WORK_ITEM_CREATED ∨ type = WORK_ITEM_STATE_CHANGED := by
  unfold incidentEventType at h
  split at h
  · split_ifs at h with htype
    cases h
    exact htype
  · cases h

lemma oneLine_of_printable {text : List Char} (h : Printable text) :
    StreamParser.OneLine text := by
  intro c hc
  have hcode := h c hc
  constructor <;>
  · rintro rfl
    revert hcode
    decide

/-- What is written for an event is dispatched as this event. -/
lemma feedAll_text (event : ReceivedEvent F) {P : StreamParser} (hP : P.Idle)
    (hid : P.lastEventId = []) : P.feedAll event.text = (P, [event.toMessage]) := by
  have htype := incidentEventType_eq event.type_eq
  have hline : StreamParser.OneLine event.type ∧ event.type ≠ [] := by
    rcases htype with htype | htype <;> rw [htype] <;>
      exact ⟨by decide, by decide⟩
  have hdata : StreamParser.OneLine event.data :=
    oneLine_of_printable (printable_stringify event.value)
  rw [ReceivedEvent.text, StreamParser.feedAll_messageText hP hline.1 hdata hline.2, hid]
  rfl

lemma incidentEventType_toJson (event : IncidentEvent) :
    incidentEventType (event.toJson : JsonValue F) = some event.type := by
  cases event <;> rfl

/-- Printing keeps all of an event. -/
lemma printed_toJson (event : IncidentEvent) :
    (event.toJson : JsonValue F).printed = event.toJson := by
  cases event <;>
    simp [IncidentEvent.toJson, summaryJson, JsonValue.printed, printedProperties]

/-- A published event is received as it is: its type, and the text that was published. -/
theorem receive_message (event : IncidentEvent) : ∃ received : ReceivedEvent F,
    receive (event.message F) = some received ∧ received.value = event.toJson ∧
      received.toMessage = ⟨event.type, event.message F, []⟩ := by
  have htype := incidentEventType_toJson (F := F) event
  refine ⟨⟨event.type, event.toJson, htype⟩, ?_, rfl, rfl⟩
  rw [receive, IncidentEvent.message, parseJson_stringify, printed_toJson]
  simp only
  split
  · rename_i h
    rw [htype] at h
    cases h
  · rename_i type h
    rw [htype] at h
    cases h
    rfl

/-- A client parses what was published, however the text that is written for it is cut into
chunks. -/
theorem client_reads_event (event : IncidentEvent) : ∃ received : ReceivedEvent F,
    receive (event.message F) = some received ∧
      ∀ chunks : List (List Char), chunks.flatten = received.text →
        ∃ message : StreamMessage,
          chunks.foldl (fun R chunk => ((R.1.feedAll chunk).1, R.2 ++ (R.1.feedAll chunk).2))
            (StreamParser.start, []) = (.start, [message]) ∧
          message.type = event.type ∧
          (parseJson message.data : Option (JsonValue F)) = some event.toJson := by
  obtain ⟨received, hreceive, -, hmessage⟩ := receive_message (F := F) event
  refine ⟨received, hreceive, fun chunks hchunks => ⟨received.toMessage, ?_, ?_, ?_⟩⟩
  · rw [← StreamParser.feedAll_flatten, hchunks]
    exact feedAll_text received ⟨rfl, rfl, rfl, rfl⟩ rfl
  · rw [hmessage]
  · rw [hmessage]
    exact (parseJson_stringify _).trans (congrArg some (printed_toJson event))

end InveniOps.Realtime
