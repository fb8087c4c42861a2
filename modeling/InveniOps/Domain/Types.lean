import Mathlib.Data.Rat.Defs

/-!
# The data of the incident system

The enumerations of `prisma/schema.prisma`, JSON values as request bodies carry
them, and the signal as it leaves the ingestion route.  Instants are integers:
milliseconds since the Unix epoch.
-/

namespace InveniOps

/-- The id of a component. -/
abbrev ComponentId := String

/-- The id of a signal. -/
abbrev SignalId := String

/-- The id of a work item. -/
abbrev WorkItemId := String

/-- Milliseconds since the Unix epoch, as `Date.getTime` returns them. -/
abbrev Instant := ℤ

/-- `ComponentType` of the schema. -/
inductive ComponentType
  | API | MCP_HOST | CACHE | QUEUE | RDBMS | NOSQL
deriving DecidableEq, Repr

/-- `Severity` of the schema. -/
inductive Severity
  | P0 | P1 | P2 | P3
deriving DecidableEq, Repr

/-- The position of a severity in the enumeration, by which Postgres sorts it. -/
def Severity.rank : Severity → ℕ
  | P0 => 0
  | P1 => 1
  | P2 => 2
  | P3 => 3

/-- The name of a severity, as alert titles print it. -/
def Severity.name : Severity → String
  | P0 => "P0"
  | P1 => "P1"
  | P2 => "P2"
  | P3 => "P3"

/-- `WorkItemStatus` of the schema. -/
inductive WorkItemStatus
  | OPEN | INVESTIGATING | RESOLVED | CLOSED
deriving DecidableEq, Repr

/-- The name of a status, as error messages print it. -/
def WorkItemStatus.name : WorkItemStatus → String
  | OPEN => "OPEN"
  | INVESTIGATING => "INVESTIGATING"
  | RESOLVED => "RESOLVED"
  | CLOSED => "CLOSED"

/-- The name of a component type in the schema. -/
def ComponentType.name : ComponentType → String
  | API => "API"
  | MCP_HOST => "MCP_HOST"
  | CACHE => "CACHE"
  | QUEUE => "QUEUE"
  | RDBMS => "RDBMS"
  | NOSQL => "NOSQL"

/-- A value that `JSON.parse` can return, but for infinities and the sign of a zero.  Every finite
double is a rational. -/
inductive Json
  | null
  | bool (b : Bool)
  | num (q : ℚ)
  | str (s : String)
  | arr (items : List Json)
  | obj (fields : List (String × Json))

/-- The normalized shape a validated signal takes once it leaves the API layer
(`services/ingestion/buffer.ts`). -/
structure IngestionSignal where
  signalId : SignalId
  componentId : ComponentId
  componentType : ComponentType
  severity : Severity
  rawPayload : Json
  occurredAt : Instant
  receivedAt : Instant
  correlationId : String

/-- A signal of a cache component, for runs on fixed inputs. -/
def cacheSignal (signalId : SignalId) (componentId : ComponentId) (severity : Severity) :
    IngestionSignal where
  signalId := signalId
  componentId := componentId
  componentType := .CACHE
  severity := severity
  rawPayload := .null
  occurredAt := 0
  receivedAt := 0
  correlationId := "req-1"

end InveniOps
