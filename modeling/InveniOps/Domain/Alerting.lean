import Mathlib.Logic.Function.Basic
import InveniOps.Domain.Dates

/-!
# Alert policy

`domain/alerting`: one strategy for each component type, with its severity
floor, its channels and its texts, and the registry that resolves a component
type to a strategy.  A strategy decides on the more urgent of its floor and the
severity that the signal reported.
-/

namespace InveniOps.Domain

/-- Whichever of the floor and the reported severity is more urgent. -/
def reconcileSeverity (floor reported : Severity) : Severity :=
  if reported.rank < floor.rank then reported else floor

lemma rank_reconcileSeverity (floor reported : Severity) :
    (reconcileSeverity floor reported).rank = min floor.rank reported.rank := by
  unfold reconcileSeverity
  split_ifs with h <;> omega

/-- The channels that alerts go to. -/
inductive NotificationChannel
  | pagerduty | slack | email
deriving DecidableEq

/-- What an alert strategy gets to see of a work item. -/
structure AlertContext where
  componentId : ComponentId
  componentType : String
  reportedSeverity : Severity
  signalCount : ℕ
  firstSignalAt : Instant

/-- How soon an alert is to be acknowledged, and who is told otherwise. -/
structure EscalationPolicy where
  acknowledgeWithinMs : ℤ
  escalateTo : NotificationChannel

/-- `ESCALATION_POLICIES`, by the reconciled severity. -/
def getEscalationPolicy : Severity → EscalationPolicy
  | .P0 => ⟨5 * 60000, .pagerduty⟩
  | .P1 => ⟨15 * 60000, .slack⟩
  | .P2 => ⟨60 * 60000, .email⟩
  | .P3 => ⟨4 * 60 * 60000, .email⟩

/-- What is sent to the channels. -/
structure Alert where
  severity : Severity
  channels : List NotificationChannel
  escalation : EscalationPolicy
  title : String
  body : String

/-- How a type of component is alerted about. -/
structure AlertStrategy where
  componentType : String
  severityFloor : Severity
  buildAlert : AlertContext → Alert

/-! ### Strategies -/

/-- What the strategies share: the reconciliation and the frame of the texts. -/
def alertStrategy (componentType : String) (severityFloor : Severity)
    (channels : List NotificationChannel) (subject advice : AlertContext → String) :
    AlertStrategy where
  componentType := componentType
  severityFloor := severityFloor
  buildAlert := fun context =>
    let severity := reconcileSeverity severityFloor context.reportedSeverity
    { severity := severity
      channels := channels
      escalation := getEscalationPolicy severity
      title := "[" ++ severity.name ++ "] " ++ subject context
      body := toString context.signalCount ++ " signal(s) since "
        ++ toISOString context.firstSignalAt ++ ". " ++ advice context }

/-- Alerts about relational stores. -/
def RdbmsAlertStrategy : AlertStrategy :=
  alertStrategy "RDBMS" .P0 [.pagerduty, .slack]
    (fun context => "RDBMS failure on " ++ context.componentId)
    (fun _ => "The relational store is the source of truth for work items and RCAs — treat as " ++
      "an active, system-wide outage until confirmed otherwise.")

/-- Alerts about the signal store. -/
def NosqlAlertStrategy : AlertStrategy :=
  alertStrategy "NOSQL" .P1 [.pagerduty, .slack]
    (fun context => "Signal store failure on " ++ context.componentId)
    (fun _ => "Raw signal persistence is degraded or down — incident detail and historical " ++
      "audit trail are at risk even if ingestion itself keeps accepting traffic.")

/-- Alerts about caches. -/
def CacheAlertStrategy : AlertStrategy :=
  alertStrategy "CACHE" .P2 [.slack]
    (fun context => "Cache failure on " ++ context.componentId)
    (fun _ => "Dashboard reads will fall back to Postgres and run slower, but data is not at " ++
      "risk.")

/-- Alerts about APIs. -/
def ApiAlertStrategy : AlertStrategy :=
  alertStrategy "API" .P1 [.pagerduty, .slack]
    (fun context => "API failure on " ++ context.componentId)
    (fun _ => "Customer-facing traffic is likely affected — verify request success rate and " ++
      "latency immediately.")

/-- Alerts about MCP hosts. -/
def McpHostAlertStrategy : AlertStrategy :=
  alertStrategy "MCP_HOST" .P1 [.slack, .email]
    (fun context => "MCP host failure on " ++ context.componentId)
    (fun _ => "Internal tooling/model-context host is degraded — check whether dependent " ++
      "automations are affected.")

/-- Alerts about queues. -/
def QueueAlertStrategy : AlertStrategy :=
  alertStrategy "QUEUE" .P1 [.slack]
    (fun context => "Queue failure on " ++ context.componentId)
    (fun _ => "Async processing is degraded or backed up — work items may lag behind ingestion " ++
      "until this clears.")

/-- The fallback for component types without a strategy of their own. -/
def DefaultAlertStrategy : AlertStrategy :=
  alertStrategy "DEFAULT" .P2 [.email]
    (fun context => "Failure on " ++ context.componentId ++ " (" ++ context.componentType ++ ")")
    (fun context => "No dedicated alert policy exists for component type \"" ++
      context.componentType ++ "\" — using the default policy. Consider registering a specific " ++
      "strategy for it.")

/-! ### The registry -/

/-- A map from component types to strategies, with a fallback. -/
structure AlertStrategyRegistry where
  fallback : AlertStrategy
  strategies : String → Option AlertStrategy

namespace AlertStrategyRegistry

/-- A later registration replaces an earlier one. -/
def register (registry : AlertStrategyRegistry) (strategy : AlertStrategy) :
    AlertStrategyRegistry :=
  { registry with
    strategies := Function.update registry.strategies strategy.componentType (some strategy) }

/-- The constructor. -/
def new (fallback : AlertStrategy) (initial : List AlertStrategy) : AlertStrategyRegistry :=
  initial.foldl register ⟨fallback, fun _ => none⟩

/-- The strategy of a type, or the fallback. -/
def resolve (registry : AlertStrategyRegistry) (componentType : String) : AlertStrategy :=
  (registry.strategies componentType).getD registry.fallback

end AlertStrategyRegistry

/-- The six strategies, and the default one for all other types. -/
def createDefaultAlertStrategyRegistry : AlertStrategyRegistry :=
  .new DefaultAlertStrategy
    [RdbmsAlertStrategy, NosqlAlertStrategy, CacheAlertStrategy, ApiAlertStrategy,
      McpHostAlertStrategy, QueueAlertStrategy]

/-! ### Every strategy reconciles -/

/-- An alert carries the reconciled severity, with the escalation policy of that severity. -/
def AlertStrategy.Reconciles (strategy : AlertStrategy) : Prop :=
  ∀ context, (strategy.buildAlert context).severity
      = reconcileSeverity strategy.severityFloor context.reportedSeverity ∧
    (strategy.buildAlert context).escalation
      = getEscalationPolicy (strategy.buildAlert context).severity

lemma reconciles_alertStrategy (componentType : String) (severityFloor : Severity)
    (channels : List NotificationChannel) (subject advice : AlertContext → String) :
    (alertStrategy componentType severityFloor channels subject advice).Reconciles :=
  fun _ => ⟨rfl, rfl⟩

namespace AlertStrategyRegistry

lemma resolve_register (registry : AlertStrategyRegistry) (strategy : AlertStrategy)
    (componentType : String) : (registry.register strategy).resolve componentType
      = if componentType = strategy.componentType then strategy
        else registry.resolve componentType := by
  simp only [resolve, register, Function.update_apply]
  split_ifs <;> rfl

/-- A registry resolves to what it resolved to before or to a strategy registered since. -/
lemma resolve_foldl_register (registry : AlertStrategyRegistry) (initial : List AlertStrategy)
    (componentType : String) :
    (initial.foldl register registry).resolve componentType = registry.resolve componentType ∨
      (initial.foldl register registry).resolve componentType ∈ initial := by
  induction initial generalizing registry with
  | nil => exact .inl rfl
  | cons strategy initial ih =>
    rw [List.foldl_cons]
    rcases ih (registry.register strategy) with heq | hmem
    · rw [heq, resolve_register]
      split_ifs
      · exact .inr List.mem_cons_self
      · exact .inl rfl
    · exact .inr (List.mem_cons_of_mem _ hmem)

end AlertStrategyRegistry

/-- Whatever the component type, the strategy it resolves to reconciles. -/
theorem reconciles_resolve (componentType : String) :
    (createDefaultAlertStrategyRegistry.resolve componentType).Reconciles := by
  have hresolve := AlertStrategyRegistry.resolve_foldl_register
    ⟨DefaultAlertStrategy, fun _ => none⟩ [RdbmsAlertStrategy, NosqlAlertStrategy,
      CacheAlertStrategy, ApiAlertStrategy, McpHostAlertStrategy, QueueAlertStrategy] componentType
  change createDefaultAlertStrategyRegistry.resolve componentType = DefaultAlertStrategy ∨
    createDefaultAlertStrategyRegistry.resolve componentType ∈ _ at hresolve
  generalize createDefaultAlertStrategyRegistry.resolve componentType = strategy at hresolve ⊢
  simp only [List.mem_cons, List.not_mem_nil, or_false] at hresolve
  rcases hresolve with rfl | rfl | rfl | rfl | rfl | rfl | rfl
  all_goals exact reconciles_alertStrategy _ _ _ _ _

end InveniOps.Domain
