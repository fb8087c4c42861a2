import InveniOps.Domain.Alerting
import InveniOps.Stores.Origins

/-!
# The alerts of a work item

What `services/alerting` makes of a row of `work_items`: the alert that
`dispatch` fans out, the alert that `dispatchEscalation` fans out, and the
instant from which `maybeEscalate` of the scheduler finds the row overdue.  All
three depend on the row's component type and severity only through one severity.
-/

namespace InveniOps.Alerting

open Domain Stores

/-- `"created"`, or the state that a work item has moved to. -/
inductive AlertEventType
  | created
  | state (state : WorkItemStatus)
deriving DecidableEq

/-- `EVENT_LABELS`. -/
def AlertEventType.label : AlertEventType → String
  | .created => "New incident opened"
  | .state .OPEN => "Incident reopened"
  | .state .INVESTIGATING => "Incident moved to INVESTIGATING"
  | .state .RESOLVED => "Incident marked RESOLVED"
  | .state .CLOSED => "Incident CLOSED"

/-- What an alert strategy gets to see of a work item. -/
def toContext (workItem : WorkItem) : AlertContext where
  componentId := workItem.componentId
  componentType := workItem.componentType.name
  reportedSeverity := workItem.severity
  signalCount := workItem.signalCount
  firstSignalAt := workItem.firstSignalAt

/-- The alert with the event and the work item named in its texts. -/
def withEventFraming (alert : Alert) (eventType : AlertEventType) (workItem : WorkItem) : Alert :=
  { alert with
    title := eventType.label ++ ": " ++ alert.title
    body := eventType.label ++ " — work item " ++ workItem.id ++ ", "
      ++ toString workItem.signalCount ++ " signal(s) so far.\n" ++ alert.body }

/-- The class, with the registry that its decisions read. -/
structure AlertDispatcher where
  strategyRegistry : AlertStrategyRegistry

namespace AlertDispatcher

variable (dispatcher : AlertDispatcher) (workItem : WorkItem)

/-- The strategy of a work item. -/
def strategy : AlertStrategy :=
  dispatcher.strategyRegistry.resolve workItem.componentType.name

/-- The alert that `dispatch` fans out. -/
def alert (eventType : AlertEventType) : Alert :=
  withEventFraming ((dispatcher.strategy workItem).buildAlert (toContext workItem)) eventType
    workItem

/-- The alert that `dispatchEscalation` fans out. -/
def escalationAlert : Alert :=
  let baseAlert := (dispatcher.strategy workItem).buildAlert (toContext workItem)
  let escalation := getEscalationPolicy baseAlert.severity
  withEventFraming { baseAlert with channels := [escalation.escalateTo] } .created workItem

end AlertDispatcher

/-- The dispatcher of `alertingInstance.ts`. -/
def alertDispatcher : AlertDispatcher := ⟨createDefaultAlertStrategyRegistry⟩

/-- The class, with the registry that its decisions read. -/
structure EscalationScheduler where
  strategyRegistry : AlertStrategyRegistry

namespace EscalationScheduler

variable (scheduler : EscalationScheduler) (workItem : WorkItem)

/-- `reconciledSeverity` of `maybeEscalate`. -/
def reconciledSeverity : Severity :=
  reconcileSeverity
    (scheduler.strategyRegistry.resolve workItem.componentType.name).severityFloor
    workItem.severity

/-- The instant from which `maybeEscalate` escalates. -/
def overdueSince : Instant :=
  workItem.firstSignalAt
    + (getEscalationPolicy (scheduler.reconciledSeverity workItem)).acknowledgeWithinMs

end EscalationScheduler

/-- The scheduler of `alertingInstance.ts`. -/
def escalationScheduler : EscalationScheduler := ⟨createDefaultAlertStrategyRegistry⟩

/-! ### One severity decides -/

/-- The severity floor of a component type. -/
def severityFloorOf (componentType : ComponentType) : Severity :=
  (createDefaultAlertStrategyRegistry.resolve componentType.name).severityFloor

/-- The more urgent of the floor and the severity that an origin reports. -/
def alertSeverity (origin : Origin) : Severity :=
  reconcileSeverity (severityFloorOf origin.componentType) origin.severity

lemma severity_alert (workItem : WorkItem) (eventType : AlertEventType) :
    (alertDispatcher.alert workItem eventType).severity = alertSeverity workItem.origin :=
  (reconciles_resolve workItem.componentType.name (toContext workItem)).1

lemma severity_escalationAlert (workItem : WorkItem) :
    (alertDispatcher.escalationAlert workItem).severity = alertSeverity workItem.origin :=
  (reconciles_resolve workItem.componentType.name (toContext workItem)).1

lemma channels_escalationAlert (workItem : WorkItem) :
    (alertDispatcher.escalationAlert workItem).channels
      = [(getEscalationPolicy (alertSeverity workItem.origin)).escalateTo] := by
  rw [← severity_escalationAlert]
  rfl

/-- The severity is as urgent as a given one if and only if the floor or the reported
severity is. -/
lemma rank_alertSeverity_le_iff (origin : Origin) (severity : Severity) :
    (alertSeverity origin).rank ≤ severity.rank ↔
      (severityFloorOf origin.componentType).rank ≤ severity.rank ∨
        origin.severity.rank ≤ severity.rank := by
  rw [alertSeverity, rank_reconcileSeverity]
  omega

end InveniOps.Alerting
