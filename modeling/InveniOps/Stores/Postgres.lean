import Mathlib.Data.List.Sort
import Mathlib.Data.List.Nodup
import InveniOps.Stores.Prisma

/-!
# Postgres

The tables of `prisma/schema.prisma` with the constraints of its migrations, and
`PostgresWorkItemRepository`.  A database carries the proof that its constraints
hold; every write checks them and throws what Prisma throws.  A transaction is
one command: it is carried out as a whole or not at all.
-/

namespace InveniOps.Stores

/-- A row of `work_items`. -/
structure WorkItem where
  id : WorkItemId
  componentId : ComponentId
  componentType : ComponentType
  severity : Severity
  state : WorkItemStatus
  title : String
  firstSignalAt : Instant
  resolvedAt : Option Instant
  closedAt : Option Instant
  signalCount : ℕ
  createdAt : Instant
  updatedAt : Instant
deriving DecidableEq

/-- A row of `state_transitions`. -/
structure StateTransition where
  workItemId : WorkItemId
  fromState : WorkItemStatus
  toState : WorkItemStatus
  actor : String
  occurredAt : Instant
deriving DecidableEq

/-- The `rca` part of `SubmitRcaInput`. -/
structure RcaFields where
  incidentStartTime : Instant
  incidentEndTime : Instant
  rootCauseCategory : String
  rootCauseDescription : String
  fixApplied : String
  preventionSteps : String
deriving DecidableEq

/-- A row of `rca_records`. -/
structure RcaRecord extends RcaFields where
  workItemId : WorkItemId
  mttrSeconds : ℤ
  submittedAt : Instant
deriving DecidableEq

/-- The tables that this development is about. -/
structure Tables where
  workItems : List WorkItem
  stateTransitions : List StateTransition
  rcaRecords : List RcaRecord
deriving DecidableEq

namespace Tables

variable (t : Tables)

/-- `findUnique` by id. -/
def row (id : WorkItemId) : Option WorkItem := t.workItems.find? (·.id = id)

/-- The RCA that `include: { rca: true }` joins. -/
def rca (id : WorkItemId) : Option RcaRecord := t.rcaRecords.find? (·.workItemId = id)

/-- The audit rows of a work item in commit order. -/
def audit (id : WorkItemId) : List StateTransition :=
  t.stateTransitions.filter (·.workItemId = id)

/-- The rows that the partial index `idx_work_items_active_component_id` covers. -/
def active : List WorkItem := t.workItems.filter (·.state ≠ .CLOSED)

/-- Appends a work item. -/
def insertWorkItem (row : WorkItem) : Tables := { t with workItems := t.workItems ++ [row] }

/-- Appends a row of the audit trail. -/
def insertTransition (row : StateTransition) : Tables :=
  { t with stateTransitions := t.stateTransitions ++ [row] }

/-- Appends an RCA. -/
def insertRca (row : RcaRecord) : Tables := { t with rcaRecords := t.rcaRecords ++ [row] }

/-- `UPDATE work_items SET … WHERE …`. -/
def updateMany (selects : WorkItem → Bool) (set : WorkItem → WorkItem) : Tables :=
  { t with workItems := t.workItems.map fun row => if selects row then set row else row }

lemma row_id {t : Tables} {id : WorkItemId} {r : WorkItem} (h : t.row id = some r) : r.id = id := by
  simpa using List.find?_some h

lemma row_mem {t : Tables} {id : WorkItemId} {r : WorkItem} (h : t.row id = some r) :
    r ∈ t.workItems :=
  List.mem_of_find?_eq_some h

@[simp] lemma row_insertTransition (r : StateTransition) (id : WorkItemId) :
    (t.insertTransition r).row id = t.row id := rfl

@[simp] lemma row_insertRca (r : RcaRecord) (id : WorkItemId) :
    (t.insertRca r).row id = t.row id := rfl

lemma row_insertWorkItem (r : WorkItem) (id : WorkItemId) :
    (t.insertWorkItem r).row id = (t.row id).or (if r.id = id then some r else none) := by
  simp only [row, insertWorkItem, List.find?_append]
  split_ifs with h <;> simp [h]

lemma row_updateMany {selects : WorkItem → Bool} {set : WorkItem → WorkItem}
    (hset : ∀ r, (set r).id = r.id) (id : WorkItemId) :
    (t.updateMany selects set).row id
      = (t.row id).map fun r => if selects r then set r else r := by
  have hid : ∀ r : WorkItem, (if selects r then set r else r).id = r.id := by
    intro r
    split_ifs
    · exact hset r
    · rfl
  simp only [row, updateMany, List.find?_map, Function.comp_def, hid]

/-- An update that selects rows of one id changes that row alone. -/
lemma row_updateMany_of_id {t : Tables} {selects : WorkItem → Bool} {set : WorkItem → WorkItem}
    {id : WorkItemId} {r : WorkItem} (hset : ∀ r, (set r).id = r.id)
    (hselects : ∀ r, selects r → r.id = id) (hr : t.row id = some r) (hsel : selects r)
    (x : WorkItemId) :
    (t.updateMany selects set).row x = if x = id then some (set r) else t.row x := by
  rw [t.row_updateMany hset]
  split_ifs with hx
  · simp [hx, hr, hsel]
  · cases hrow : t.row x with
    | none => rfl
    | some s =>
      have hs : ¬ selects s := fun h => hx ((row_id hrow).symm.trans (hselects s h))
      simp [hs]

@[simp] lemma audit_updateMany (selects : WorkItem → Bool) (set : WorkItem → WorkItem)
    (id : WorkItemId) : (t.updateMany selects set).audit id = t.audit id := rfl

@[simp] lemma audit_insertRca (r : RcaRecord) (id : WorkItemId) :
    (t.insertRca r).audit id = t.audit id := rfl

lemma audit_insertTransition (r : StateTransition) (id : WorkItemId) :
    (t.insertTransition r).audit id
      = t.audit id ++ if r.workItemId = id then [r] else [] := by
  simp only [audit, insertTransition, List.filter_append]
  split_ifs with h <;> simp [h]

/-- The constraints of the migrations. -/
structure Constraints : Prop where
  work_items_pkey : (t.workItems.map (·.id)).Nodup
  idx_work_items_active_component_id : (t.active.map (·.componentId)).Nodup
  rca_records_work_item_id_key : (t.rcaRecords.map (·.workItemId)).Nodup
  rca_records_work_item_id_fkey : ∀ r ∈ t.rcaRecords, r.workItemId ∈ t.workItems.map (·.id)
  state_transitions_work_item_id_fkey :
    ∀ r ∈ t.stateTransitions, r.workItemId ∈ t.workItems.map (·.id)

end Tables

/-- A database whose constraints hold. -/
structure Postgres extends Tables where
  constraints : toTables.Constraints

/-- The unique indexes that a write can violate. -/
inductive UniqueIndex
  | work_items_pkey | idx_work_items_active_component_id | rca_records_work_item_id_key
deriving DecidableEq

/-- The part of Prisma's client that is not in the repository: which
`meta.target` it reports for a violated index. -/
structure PrismaClient where
  target : UniqueIndex → MetaTarget

/-- `P2002` for an index. -/
def PrismaClient.conflict (prisma : PrismaClient) (index : UniqueIndex) : Thrown :=
  .store (.prisma (.knownRequest "P2002" (prisma.target index)))

/-- `P2025`. -/
def recordNotFound : Thrown := .store (.prisma (.knownRequest "P2025" .undefined))

/-- `P2003`. -/
def foreignKeyViolation : Thrown := .store (.prisma (.knownRequest "P2003" .undefined))

namespace Postgres

variable (prisma : PrismaClient)

/-- The store before its first row. -/
def empty : Postgres where
  workItems := []
  stateTransitions := []
  rcaRecords := []
  constraints := by constructor <;> simp [Tables.active]

/-- Commit new tables if they keep the constraints. -/
def write (t : Tables) : Except Thrown Postgres :=
  if h₁ : (t.workItems.map (·.id)).Nodup then
    if h₂ : (t.active.map (·.componentId)).Nodup then
      if h₃ : (t.rcaRecords.map (·.workItemId)).Nodup then
        if h₄ : (∀ r ∈ t.rcaRecords, r.workItemId ∈ t.workItems.map (·.id)) ∧
            ∀ r ∈ t.stateTransitions, r.workItemId ∈ t.workItems.map (·.id) then
          .ok ⟨t, ⟨h₁, h₂, h₃, h₄.1, h₄.2⟩⟩
        else .error foreignKeyViolation
      else .error (prisma.conflict .rca_records_work_item_id_key)
    else .error (prisma.conflict .idx_work_items_active_component_id)
  else .error (prisma.conflict .work_items_pkey)

variable {prisma}

lemma write_ok {t : Tables} {pg : Postgres} (h : write prisma t = .ok pg) : pg.toTables = t := by
  simp only [write] at h
  split_ifs at h
  cases h
  rfl

lemma write_eq_ok {t : Tables} (h : t.Constraints) : write prisma t = .ok ⟨t, h⟩ := by
  simp only [write, dif_pos h.work_items_pkey, dif_pos h.idx_work_items_active_component_id,
    dif_pos h.rca_records_work_item_id_key]
  rw [dif_pos ⟨h.rca_records_work_item_id_fkey, h.state_transitions_work_item_id_fkey⟩]

variable {pg pg' : Postgres} {id : WorkItemId} {r r' : WorkItem}

lemma row_eq_some_iff : pg.row id = some r ↔ r ∈ pg.workItems ∧ r.id = id := by
  refine ⟨fun h => ⟨Tables.row_mem h, Tables.row_id h⟩, ?_⟩
  rintro ⟨hmem, hid⟩
  obtain ⟨s, hs⟩ : ∃ s, pg.row id = some s :=
    Option.isSome_iff_exists.1 (List.find?_isSome.2 ⟨r, hmem, by simpa using hid⟩)
  have hkey := List.inj_on_of_nodup_map pg.constraints.work_items_pkey (Tables.row_mem hs) hmem
    ((Tables.row_id hs).trans hid.symm)
  rw [hs, hkey]

/-- Two active items of one component are the same row. -/
lemma active_unique (hr : pg.row id = some r) (hactive : r.state ≠ .CLOSED)
    {id' : WorkItemId} (hr' : pg.row id' = some r') (hactive' : r'.state ≠ .CLOSED)
    (hcomponent : r.componentId = r'.componentId) : r = r' :=
  List.inj_on_of_nodup_map pg.constraints.idx_work_items_active_component_id
    (by simpa [Tables.active] using ⟨Tables.row_mem hr, hactive⟩)
    (by simpa [Tables.active] using ⟨Tables.row_mem hr', hactive'⟩) hcomponent

/-! ### `PostgresWorkItemRepository` -/

end Postgres

/-- The input of `createWorkItem`. -/
structure CreateWorkItemInput where
  id : Option WorkItemId
  componentId : ComponentId
  componentType : ComponentType
  severity : Severity
  title : String
  firstSignalAt : Instant
  signalCount : Option ℕ
deriving DecidableEq

/-- The row that an insert writes, with the defaults of the schema. -/
def CreateWorkItemInput.toRow (input : CreateWorkItemInput) (uuid : WorkItemId)
    (clock : Instant) : WorkItem where
  id := input.id.getD uuid
  componentId := input.componentId
  componentType := input.componentType
  severity := input.severity
  state := .OPEN
  title := input.title
  firstSignalAt := input.firstSignalAt
  resolvedAt := none
  closedAt := none
  signalCount := input.signalCount.getD 1
  createdAt := clock
  updatedAt := clock

/-- `TransitionStateInput`; an absent field of `data` is `none`. -/
structure TransitionStateInput where
  workItemId : WorkItemId
  fromState : WorkItemStatus
  toState : WorkItemStatus
  actor : String
  resolvedAt : Option Instant
  closedAt : Option Instant
deriving DecidableEq

namespace TransitionStateInput

variable (input : TransitionStateInput)

/-- The `where` of the guarded update. -/
def selects (r : WorkItem) : Bool := r.id = input.workItemId ∧ r.state = input.fromState

/-- The `data` of the guarded update. -/
def set (clock : Instant) (r : WorkItem) : WorkItem :=
  { r with
    state := input.toState
    resolvedAt := input.resolvedAt <|> r.resolvedAt
    closedAt := input.closedAt <|> r.closedAt
    updatedAt := clock }

/-- The row of the audit trail that the transition writes. -/
def auditRow (clock : Instant) : StateTransition :=
  ⟨input.workItemId, input.fromState, input.toState, input.actor, clock⟩

end TransitionStateInput

/-- `SubmitRcaInput`, with the clock reading that its caller always supplies. -/
structure SubmitRcaInput where
  workItemId : WorkItemId
  actor : String
  rca : RcaFields
  mttrSeconds : ℤ
  now : Instant
deriving DecidableEq

namespace SubmitRcaInput

/-- The transition that `submitRca` applies. -/
def transition (input : SubmitRcaInput) : TransitionStateInput where
  workItemId := input.workItemId
  fromState := .RESOLVED
  toState := .CLOSED
  actor := input.actor
  resolvedAt := none
  closedAt := some input.now

/-- The RCA as its table holds it. -/
def rcaRow (input : SubmitRcaInput) : RcaRecord :=
  { input.rca with
    workItemId := input.workItemId
    mttrSeconds := input.mttrSeconds
    submittedAt := input.now }

end SubmitRcaInput

namespace Postgres

variable (prisma : PrismaClient)

/-- `createWorkItem`: the insert without its retry wrapper.  `uuid` is the
generated id. -/
def createWorkItem (input : CreateWorkItemInput) (uuid : WorkItemId) (clock : Instant) :
    Command Postgres WorkItem := fun pg => do
  let row := input.toRow uuid clock
  let pg ← write prisma (pg.insertWorkItem row)
  return (row, pg)

/-- The rows of `findActiveByComponentId`. -/
def activeOf (pg : Postgres) (componentId : ComponentId) : List WorkItem :=
  (pg.active.filter (·.componentId = componentId)).insertionSort
    (fun a b => a.firstSignalAt ≤ b.firstSignalAt)

/-- The items of a component that are not closed. -/
def findActiveByComponentId (componentId : ComponentId) : Command Postgres (List WorkItem) :=
  fun pg => .ok (pg.activeOf componentId, pg)

/-- `WorkItemWithRca`. -/
abbrev WorkItemWithRca := WorkItem × Option RcaRecord

/-- An item with its RCA. -/
def findById (id : WorkItemId) : Command Postgres (Option WorkItemWithRca) :=
  fun pg => .ok ((pg.row id).map fun r => (r, pg.rca id), pg)

/-- The row behind a write, `P2025` if there is none. -/
def findUniqueOrThrow (id : WorkItemId) : Command Postgres WorkItem := fun pg =>
  match pg.row id with
  | some r => .ok (r, pg)
  | none => .error recordNotFound

/-- The guarded update, then its row of the audit trail. -/
def applyGuardedTransition (input : TransitionStateInput) (clock : Instant) :
    Command Postgres Unit := fun pg => do
  let count := (pg.workItems.filter input.selects).length
  if count = 0 then
    throw (.optimisticConcurrency input.workItemId input.fromState)
  let pg ← write prisma (pg.updateMany input.selects (input.set clock))
  let pg ← write prisma (pg.insertTransition (input.auditRow clock))
  return ((), pg)

/-- The transaction of a transition; it answers with the row as it is then. -/
def transitionState (input : TransitionStateInput) (clock : Instant) :
    Command Postgres WorkItem := fun pg => do
  let (_, pg) ← applyGuardedTransition prisma input clock pg
  findUniqueOrThrow input.workItemId pg

/-- `submitRca` returns the closed row and the RCA. -/
def submitRca (input : SubmitRcaInput) (clock : Instant) :
    Command Postgres (WorkItem × RcaRecord) := fun pg => do
  let (_, pg) ← applyGuardedTransition prisma input.transition clock pg
  let pg ← write prisma (pg.insertRca input.rcaRow)
  let (row, pg) ← findUniqueOrThrow input.workItemId pg
  return ((row, input.rcaRow), pg)

/-- The `data` of an increment. -/
def incremented (amount : ℕ) (clock : Instant) (r : WorkItem) : WorkItem :=
  { r with signalCount := r.signalCount + amount, updatedAt := clock }

/-- Adds to an item's count, which bumps `updatedAt`. -/
def incrementSignalCount (workItemId : WorkItemId) (amount : ℕ) (clock : Instant) :
    Command Postgres WorkItem := fun pg => do
  let (_, pg) ← findUniqueOrThrow workItemId pg
  let pg ← write prisma (pg.updateMany (fun r => r.id = workItemId) (incremented amount clock))
  findUniqueOrThrow workItemId pg

/-- Writes an escalation's row of the audit trail. -/
def recordEscalation (workItemId : WorkItemId) (actor : String) (clock : Instant) :
    Command Postgres Unit := fun pg => do
  let pg ← write prisma (pg.insertTransition ⟨workItemId, .OPEN, .OPEN, actor, clock⟩)
  return ((), pg)

/-- `listActive`: severity, then first signal; P0 sorts first. -/
def listActive (limit offset : ℕ) : Command Postgres (List WorkItem) := fun pg =>
  .ok (((pg.active.insertionSort fun a b => a.severity.rank < b.severity.rank ∨
    a.severity.rank = b.severity.rank ∧ a.firstSignalAt ≤ b.firstSignalAt).drop offset).take
      limit, pg)

/-- How many items are not closed. -/
def countActive : Command Postgres ℕ := fun pg => .ok (pg.active.length, pg)

/-- The candidates of the escalation scheduler. -/
def findOpenWorkItemsOlderThan (cutoff : Instant) : Command Postgres (List WorkItem) := fun pg =>
  .ok (pg.workItems.filter fun r => r.state = .OPEN ∧ r.firstSignalAt ≤ cutoff, pg)

/-! ### What the methods do when they return -/

variable {prisma} {pg pg' : Postgres} {id : WorkItemId} {r r' : WorkItem} {clock : Instant}

lemma mem_activeOf {componentId : ComponentId} :
    r ∈ pg.activeOf componentId ↔
      pg.row r.id = some r ∧ r.componentId = componentId ∧ r.state ≠ .CLOSED := by
  simp only [activeOf, List.mem_insertionSort, List.mem_filter, Tables.active, row_eq_some_iff,
    decide_eq_true_eq, and_true]
  tauto

/-- The head of `findActiveByComponentId` is the active item, if there is one. -/
lemma head?_activeOf {componentId : ComponentId} :
    (pg.activeOf componentId).head? = some r ↔
      pg.row r.id = some r ∧ r.componentId = componentId ∧ r.state ≠ .CLOSED := by
  rw [← mem_activeOf]
  refine ⟨List.mem_of_head?, ?_⟩
  intro h
  cases hlist : pg.activeOf componentId with
  | nil => simp [hlist] at h
  | cons s rest =>
    obtain ⟨hs, hsc, hsa⟩ := mem_activeOf.1 (hlist ▸ List.mem_cons_self : s ∈ pg.activeOf _)
    obtain ⟨hr, hrc, hra⟩ := mem_activeOf.1 h
    rw [List.head?_cons, active_unique hs hsa hr hra (hsc.trans hrc.symm)]

lemma head?_activeOf_none {componentId : ComponentId}
    (h : (pg.activeOf componentId).head? = none) (hr : pg.row id = some r)
    (hcomponent : r.componentId = componentId) : r.state = .CLOSED := by
  by_contra hactive
  have hmem : r ∈ pg.activeOf componentId :=
    mem_activeOf.2 ⟨(Tables.row_id hr).symm ▸ hr, hcomponent, hactive⟩
  rw [List.head?_eq_none_iff.1 h] at hmem
  exact List.not_mem_nil hmem

lemma row_none_iff : pg.row id = none ↔ id ∉ pg.workItems.map (·.id) := by
  simp [Tables.row]

lemma createWorkItem_ok {input : CreateWorkItemInput} {uuid : WorkItemId}
    (h : createWorkItem prisma input uuid clock pg = .ok (r, pg')) :
    r = input.toRow uuid clock ∧ pg.row r.id = none ∧ pg'.toTables = pg.insertWorkItem r ∧
      ∀ x, pg'.row x = if x = r.id then some r else pg.row x := by
  obtain ⟨pg₁, hwrite, hret⟩ := bind_ok h
  cases hret
  have htables := write_ok hwrite
  have hkey := pg'.constraints.work_items_pkey
  rw [htables] at hkey
  have hfresh : pg.row (input.toRow uuid clock).id = none := by
    rw [row_none_iff]
    simp only [Tables.insertWorkItem, List.map_append, List.map_cons, List.map_nil] at hkey
    exact fun hmem => (List.nodup_append.1 hkey).2.2 _ hmem _ (List.mem_singleton_self _) rfl
  refine ⟨rfl, hfresh, htables, ?_⟩
  intro x
  rw [htables, Tables.row_insertWorkItem]
  by_cases hx : x = (input.toRow uuid clock).id
  · subst hx
    simp [hfresh]
  · simp [hx, Ne.symm hx]

variable (prisma) in
/-- The insert of a fresh row is refused exactly when its component has an active item. -/
lemma createWorkItem_eq {input : CreateWorkItemInput} {uuid : WorkItemId}
    (hfresh : pg.row (input.toRow uuid clock).id = none) :
    (∃ r, pg.row r.id = some r ∧ r.componentId = input.componentId ∧ r.state ≠ .CLOSED) ∧
        createWorkItem prisma input uuid clock pg
          = .error (prisma.conflict .idx_work_items_active_component_id) ∨
      (∀ x r, pg.row x = some r → r.componentId = input.componentId → r.state = .CLOSED) ∧
        ∃ pg', createWorkItem prisma input uuid clock pg = .ok (input.toRow uuid clock, pg') := by
  have hkey : ((pg.insertWorkItem (input.toRow uuid clock)).workItems.map (·.id)).Nodup := by
    simp only [Tables.insertWorkItem, List.map_append, List.map_cons, List.map_nil]
    refine pg.constraints.work_items_pkey.append (List.nodup_singleton _) ?_
    simpa using row_none_iff.1 hfresh
  have hactive : (pg.insertWorkItem (input.toRow uuid clock)).active
      = pg.active ++ [input.toRow uuid clock] := by
    simp [Tables.active, Tables.insertWorkItem, CreateWorkItemInput.toRow]
  by_cases hmem : input.componentId ∈ pg.active.map (·.componentId)
  · left
    obtain ⟨r, hr, hcomponent⟩ := List.mem_map.1 hmem
    simp only [Tables.active, List.mem_filter, decide_eq_true_eq] at hr
    refine ⟨⟨r, row_eq_some_iff.2 ⟨hr.1, rfl⟩, hcomponent, hr.2⟩, ?_⟩
    -- the new row would be the second active one of its component
    have hdup : ¬ (((pg.insertWorkItem (input.toRow uuid clock)).active).map
        (·.componentId)).Nodup := by
      rw [hactive, List.map_append, List.nodup_append]
      exact fun h => h.2.2 _ hmem _ (by simp [CreateWorkItemInput.toRow]) rfl
    simp [createWorkItem, write, hkey, hdup, bind, Except.bind]
  · right
    constructor
    · intro x r hr hcomponent
      by_contra hopen
      exact hmem (List.mem_map.2 ⟨r, by simp [Tables.active, Tables.row_mem hr, hopen],
        hcomponent⟩)
    · have hcons : (pg.insertWorkItem (input.toRow uuid clock)).Constraints := by
        refine ⟨hkey, ?_, pg.constraints.rca_records_work_item_id_key, ?_, ?_⟩
        · rw [hactive, List.map_append]
          refine pg.constraints.idx_work_items_active_component_id.append
            (List.nodup_singleton _) ?_
          simpa [CreateWorkItemInput.toRow] using hmem
        · intro r hr
          exact List.map_subset _ (List.subset_append_left _ _)
            (pg.constraints.rca_records_work_item_id_fkey r hr)
        · intro r hr
          exact List.map_subset _ (List.subset_append_left _ _)
            (pg.constraints.state_transitions_work_item_id_fkey r hr)
      exact ⟨⟨_, hcons⟩, by simp [createWorkItem, write_eq_ok hcons, bind, Except.bind, pure,
        Except.pure]⟩

lemma findById_ok {found : WorkItem} {rca : Option RcaRecord}
    (h : findById id pg = .ok (some (found, rca), pg')) :
    pg.row id = some found ∧ rca = pg.rca id := by
  obtain ⟨hfound, -⟩ := Prod.mk.inj (Except.ok.inj h)
  obtain ⟨r, hr, heq⟩ := Option.map_eq_some_iff.1 hfound
  cases heq
  exact ⟨hr, rfl⟩

lemma findUniqueOrThrow_ok (h : findUniqueOrThrow id pg = .ok (r, pg')) :
    pg.row id = some r ∧ pg' = pg := by
  simp only [findUniqueOrThrow] at h
  split at h <;> cases h
  rename_i hr
  exact ⟨hr, rfl⟩

lemma exists_selected_iff {input : TransitionStateInput} :
    (pg.workItems.filter input.selects).length ≠ 0 ↔
      ∃ r, pg.row input.workItemId = some r ∧ r.state = input.fromState := by
  simp only [ne_eq, List.length_eq_zero_iff, List.filter_eq_nil_iff, not_forall, not_not,
    row_eq_some_iff, TransitionStateInput.selects, decide_eq_true_eq]
  constructor
  · rintro ⟨r, hmem, hid, hstate⟩
    exact ⟨r, ⟨hmem, hid⟩, hstate⟩
  · rintro ⟨r, ⟨hmem, hid⟩, hstate⟩
    exact ⟨r, hmem, hid, hstate⟩

/-- What a guarded transition does: one row moves, one audit row is appended. -/
structure Moved (input : TransitionStateInput) (clock : Instant) (pg pg' : Postgres)
    (r : WorkItem) : Prop where
  before : pg.row input.workItemId = some r
  guard : r.state = input.fromState
  row : ∀ x, pg'.row x = if x = input.workItemId then some (input.set clock r) else pg.row x
  audit : ∀ x, pg'.audit x
    = pg.audit x ++ if input.workItemId = x then [input.auditRow clock] else []
  stateTransitions : pg'.stateTransitions = pg.stateTransitions ++ [input.auditRow clock]

lemma applyGuardedTransition_ok {input : TransitionStateInput} {u : Unit}
    (h : applyGuardedTransition prisma input clock pg = .ok (u, pg')) :
    ∃ r, Moved input clock pg pg' r ∧ pg'.rcaRecords = pg.rcaRecords := by
  simp only [applyGuardedTransition] at h
  split at h
  · cases h
  · rename_i hcount
    obtain ⟨pg₁, h₁, h⟩ := bind_ok h
    obtain ⟨pg₂, h₂, h⟩ := bind_ok h
    cases h
    obtain ⟨r, hr, hstate⟩ := exists_selected_iff.1 hcount
    have htables : pg'.toTables = (pg.updateMany input.selects (input.set clock)).insertTransition
        (input.auditRow clock) := by
      rw [write_ok h₂, write_ok h₁]
    -- the guard selects by id, so it selects one row at most
    have hselects : ∀ s, input.selects s → s.id = input.workItemId := by
      intro s hs
      simp only [TransitionStateInput.selects, decide_eq_true_eq] at hs
      exact hs.1
    have hsel : input.selects r := by
      simp [TransitionStateInput.selects, Tables.row_id hr, hstate]
    have hset : ∀ s, (input.set clock s).id = s.id := fun _ => rfl
    refine ⟨r, ⟨hr, hstate, ?_, ?_, by rw [htables]; rfl⟩, by rw [htables]; rfl⟩
    · intro x
      rw [htables, Tables.row_insertTransition]
      exact Tables.row_updateMany_of_id hset hselects hr hsel x
    · intro x
      rw [htables, Tables.audit_insertTransition, Tables.audit_updateMany]
      rfl

lemma applyGuardedTransition_error {input : TransitionStateInput}
    (h : ¬ ∃ r, pg.row input.workItemId = some r ∧ r.state = input.fromState) :
    applyGuardedTransition prisma input clock pg
      = .error (.optimisticConcurrency input.workItemId input.fromState) := by
  have hcount : (pg.workItems.filter input.selects).length = 0 := by
    by_contra hne
    exact h (exists_selected_iff.1 hne)
  simp [applyGuardedTransition, hcount, throw, throwThe, MonadExceptOf.throw, bind, Except.bind]

lemma transitionState_ok {input : TransitionStateInput}
    (h : transitionState prisma input clock pg = .ok (r', pg')) :
    ∃ r, Moved input clock pg pg' r ∧ r' = input.set clock r ∧
      pg'.rcaRecords = pg.rcaRecords := by
  obtain ⟨⟨_, pg₁⟩, h₁, h₂⟩ := bind_ok h
  obtain ⟨r, hmoved, hrcas⟩ := applyGuardedTransition_ok h₁
  obtain ⟨hrow, rfl⟩ := findUniqueOrThrow_ok h₂
  rw [hmoved.row, if_pos rfl] at hrow
  exact ⟨r, hmoved, (Option.some.inj hrow).symm, hrcas⟩

lemma submitRca_ok {input : SubmitRcaInput} {rca : RcaRecord}
    (h : submitRca prisma input clock pg = .ok ((r', rca), pg')) :
    ∃ r, Moved input.transition clock pg pg' r ∧ r' = input.transition.set clock r ∧
      rca = input.rcaRow ∧ pg'.rcaRecords = pg.rcaRecords ++ [input.rcaRow] := by
  obtain ⟨⟨_, pg₁⟩, h₁, h⟩ := bind_ok h
  obtain ⟨pg₂, h₂, h⟩ := bind_ok h
  obtain ⟨⟨row, pg₃⟩, h₃, h⟩ := bind_ok h
  cases h
  obtain ⟨r, hmoved, hrcas⟩ := applyGuardedTransition_ok h₁
  obtain ⟨hrow, rfl⟩ := findUniqueOrThrow_ok h₃
  have htables := write_ok h₂
  have hmoved' : Moved input.transition clock pg pg' r := by
    refine ⟨hmoved.before, hmoved.guard, ?_, ?_, ?_⟩
    · intro x
      rw [htables, Tables.row_insertRca, hmoved.row]
    · intro x
      rw [htables, Tables.audit_insertRca, hmoved.audit]
    · rw [htables, ← hmoved.stateTransitions]
      rfl
  have hid : input.workItemId = input.transition.workItemId := rfl
  rw [hid, hmoved'.row, if_pos rfl] at hrow
  exact ⟨r, hmoved', (Option.some.inj hrow).symm, rfl, by rw [htables, ← hrcas]; rfl⟩

lemma incrementSignalCount_ok {amount : ℕ}
    (h : incrementSignalCount prisma id amount clock pg = .ok (r', pg')) :
    ∃ r, pg.row id = some r ∧ r' = incremented amount clock r ∧
      (∀ x, pg'.row x = if x = id then some r' else pg.row x) ∧
      pg'.stateTransitions = pg.stateTransitions ∧ pg'.rcaRecords = pg.rcaRecords := by
  obtain ⟨⟨r, pg₁⟩, h₁, h⟩ := bind_ok h
  obtain ⟨pg₂, h₂, h₃⟩ := bind_ok h
  obtain ⟨hr, rfl⟩ := findUniqueOrThrow_ok h₁
  obtain ⟨hrow, rfl⟩ := findUniqueOrThrow_ok h₃
  have htables := write_ok h₂
  have hrows : ∀ x, pg'.row x = if x = id then some (incremented amount clock r)
      else pg₁.row x := by
    intro x
    have hset : ∀ s, (incremented amount clock s).id = s.id := fun _ => rfl
    have hselects : ∀ s : WorkItem, decide (s.id = id) = true → s.id = id :=
      fun s hs => of_decide_eq_true hs
    rw [htables]
    exact Tables.row_updateMany_of_id hset hselects hr (decide_eq_true (Tables.row_id hr)) x
  rw [hrows, if_pos rfl] at hrow
  obtain rfl := Option.some.inj hrow
  exact ⟨r, hr, rfl, hrows, by rw [htables]; rfl, by rw [htables]; rfl⟩

lemma recordEscalation_ok {actor : String} {u : Unit}
    (h : recordEscalation prisma id actor clock pg = .ok (u, pg')) :
    pg'.toTables = pg.insertTransition ⟨id, .OPEN, .OPEN, actor, clock⟩ := by
  obtain ⟨pg₁, hwrite, hret⟩ := bind_ok h
  cases hret
  exact write_ok hwrite

end Postgres

/-! ### Writes whose guard is true -/

namespace Postgres

variable {prisma : PrismaClient} {pg : Postgres} {r : WorkItem} {clock : Instant}

/-- Moving rows out of an active state keeps the constraints. -/
lemma constraints_of_guard {input : TransitionStateInput} (hfrom : input.fromState ≠ .CLOSED) :
    (pg.updateMany input.selects (input.set clock)).Constraints := by
  have hids : (pg.updateMany input.selects (input.set clock)).workItems.map (·.id)
      = pg.workItems.map (·.id) := by
    simp only [Tables.updateMany, List.map_map]
    refine List.map_congr_left ?_
    intro r _
    simp only [Function.comp_def]
    split_ifs <;> rfl
  have hactive : ((pg.updateMany input.selects (input.set clock)).active.map
      (·.componentId)).Sublist (pg.active.map (·.componentId)) := by
    simp only [Tables.active, Tables.updateMany, List.filter_map, List.map_map]
    have hcomponent : ((·.componentId) ∘ fun r : WorkItem =>
        if input.selects r = true then input.set clock r else r) = (·.componentId) := by
      funext r
      simp only [Function.comp_def]
      split_ifs <;> rfl
    rw [hcomponent]
    refine (List.monotone_filter_right _ ?_).map _
    -- a row that was closed is not selected
    intro r hr
    simp only [Function.comp_def, decide_eq_true_eq, ne_eq] at hr ⊢
    intro hclosed
    refine hr ?_
    split_ifs with hselected
    · simp only [TransitionStateInput.selects, decide_eq_true_eq] at hselected
      exact absurd (hselected.2.symm.trans hclosed) hfrom
    · exact hclosed
  refine ⟨hids ▸ pg.constraints.work_items_pkey,
    hactive.nodup pg.constraints.idx_work_items_active_component_id,
    pg.constraints.rca_records_work_item_id_key, ?_, ?_⟩
  · rw [hids]
    exact pg.constraints.rca_records_work_item_id_fkey
  · rw [hids]
    exact pg.constraints.state_transitions_work_item_id_fkey

/-- An audit row of a work item that exists keeps the constraints. -/
lemma constraints_insertTransition {t : StateTransition} (hr : pg.row t.workItemId = some r) :
    (pg.insertTransition t).Constraints := by
  refine ⟨pg.constraints.work_items_pkey, pg.constraints.idx_work_items_active_component_id,
    pg.constraints.rca_records_work_item_id_key, pg.constraints.rca_records_work_item_id_fkey, ?_⟩
  intro other hother
  rcases List.mem_append.1 hother with hold | hnew
  · exact pg.constraints.state_transitions_work_item_id_fkey other hold
  · rw [List.mem_singleton.1 hnew]
    exact List.mem_map.2 ⟨r, (row_eq_some_iff.1 hr).1, (row_eq_some_iff.1 hr).2⟩

/-- A guarded transition out of an active state is carried out if its guard is true. -/
lemma applyGuardedTransition_of_guard {input : TransitionStateInput}
    (hfrom : input.fromState ≠ .CLOSED) (hr : pg.row input.workItemId = some r)
    (hstate : r.state = input.fromState) :
    ∃ pg', applyGuardedTransition prisma input clock pg = .ok ((), pg') := by
  have hcount : (pg.workItems.filter input.selects).length ≠ 0 :=
    exists_selected_iff.2 ⟨r, hr, hstate⟩
  have hupdated : (pg.updateMany input.selects (input.set clock)).Constraints :=
    constraints_of_guard hfrom
  have hselects : ∀ s, input.selects s → s.id = input.workItemId := by
    intro s hs
    simp only [TransitionStateInput.selects, decide_eq_true_eq] at hs
    exact hs.1
  have hrow : (⟨_, hupdated⟩ : Postgres).row (input.auditRow clock).workItemId
      = some (input.set clock r) := by
    have hset : ∀ s, (input.set clock s).id = s.id := fun _ => rfl
    have hsel : input.selects r := by
      simp [TransitionStateInput.selects, Tables.row_id hr, hstate]
    exact (Tables.row_updateMany_of_id hset hselects hr hsel _).trans (if_pos rfl)
  have hinserted := constraints_insertTransition hrow
  exact ⟨⟨_, hinserted⟩, by
    simp [applyGuardedTransition, hcount, write_eq_ok hupdated, write_eq_ok hinserted, bind,
      Except.bind, pure, Except.pure]⟩

/-- A resolved work item without an RCA can be closed. -/
lemma submitRca_of_guard {input : SubmitRcaInput} (hr : pg.row input.workItemId = some r)
    (hstate : r.state = .RESOLVED)
    (hrca : ∀ rca ∈ pg.rcaRecords, rca.workItemId ≠ input.workItemId) :
    ∃ closed pg', submitRca prisma input clock pg = .ok ((closed, input.rcaRow), pg') := by
  obtain ⟨pg₁, h₁⟩ : ∃ pg₁, applyGuardedTransition prisma input.transition clock pg
      = .ok ((), pg₁) := applyGuardedTransition_of_guard nofun hr hstate
  obtain ⟨r₁, hmoved, hrcas⟩ := applyGuardedTransition_ok h₁
  have hrow : pg₁.row input.workItemId = some (input.transition.set clock r₁) :=
    (hmoved.row _).trans (if_pos rfl)
  have hinserted : (pg₁.insertRca input.rcaRow).Constraints := by
    refine ⟨pg₁.constraints.work_items_pkey, pg₁.constraints.idx_work_items_active_component_id,
      ?_, ?_, pg₁.constraints.state_transitions_work_item_id_fkey⟩
    · simp only [Tables.insertRca, List.map_append, List.map_cons, List.map_nil]
      refine pg₁.constraints.rca_records_work_item_id_key.append (List.nodup_singleton _) ?_
      rw [hrcas, List.disjoint_singleton]
      intro hmem
      obtain ⟨rca, hmem, hid⟩ := List.mem_map.1 hmem
      exact hrca rca hmem hid
    · intro rca hmem
      rcases List.mem_append.1 hmem with hold | hnew
      · exact pg₁.constraints.rca_records_work_item_id_fkey rca hold
      · rw [List.mem_singleton.1 hnew]
        exact List.mem_map.2 ⟨_, (row_eq_some_iff.1 hrow).1, (row_eq_some_iff.1 hrow).2⟩
  have hfound : (⟨_, hinserted⟩ : Postgres).row input.workItemId
      = some (input.transition.set clock r₁) := hrow
  exact ⟨input.transition.set clock r₁, ⟨_, hinserted⟩, by
    simp [submitRca, h₁, write_eq_ok hinserted, findUniqueOrThrow, hfound, bind, Except.bind,
      pure, Except.pure]⟩

end Postgres

/-! ### Counting signals -/

namespace Postgres

variable (prisma : PrismaClient)

/-- An update that leaves ids, components and states alone violates nothing. -/
lemma constraints_updateMany {t : Tables} (h : t.Constraints) (selects : WorkItem → Bool)
    {set : WorkItem → WorkItem} (hset : ∀ r, (set r).id = r.id ∧
      (set r).componentId = r.componentId ∧ (set r).state = r.state) :
    (t.updateMany selects set).Constraints := by
  have hf : ∀ r : WorkItem, (if selects r then set r else r).id = r.id ∧
      (if selects r then set r else r).componentId = r.componentId ∧
      (if selects r then set r else r).state = r.state := by
    intro r
    split_ifs
    · exact hset r
    · exact ⟨rfl, rfl, rfl⟩
  have hids : (t.updateMany selects set).workItems.map (·.id) = t.workItems.map (·.id) := by
    simp [Tables.updateMany, Function.comp_def, hf]
  refine ⟨by rw [hids]; exact h.work_items_pkey, ?_, h.rca_records_work_item_id_key, ?_, ?_⟩
  · have hactive : (t.updateMany selects set).active.map (·.componentId)
        = t.active.map (·.componentId) := by
      simp [Tables.active, Tables.updateMany, List.filter_map, Function.comp_def, hf]
    rw [hactive]
    exact h.idx_work_items_active_component_id
  · rw [hids]
    exact h.rca_records_work_item_id_fkey
  · rw [hids]
    exact h.state_transitions_work_item_id_fkey

/-- An increment of an existing row is carried out. -/
lemma incrementSignalCount_total {pg : Postgres} {id : WorkItemId} {r : WorkItem}
    (hr : pg.row id = some r) (amount : ℕ) (clock : Instant) :
    ∃ r' pg', incrementSignalCount prisma id amount clock pg = .ok (r', pg') := by
  have hcons := constraints_updateMany pg.constraints (fun r => decide (r.id = id))
    (show ∀ r, (incremented amount clock r).id = r.id ∧ _ from fun _ => ⟨rfl, rfl, rfl⟩)
  have hset : ∀ s, (incremented amount clock s).id = s.id := fun _ => rfl
  obtain ⟨r', hr'⟩ : ∃ r', (pg.updateMany (fun r => decide (r.id = id))
      (incremented amount clock)).row id = some r' := by
    rw [Tables.row_updateMany _ hset, hr]
    exact ⟨_, rfl⟩
  refine ⟨r', ⟨_, hcons⟩, ?_⟩
  simp [incrementSignalCount, findUniqueOrThrow, hr, write_eq_ok hcons, hr', bind, Except.bind]

/-- The count of a row; an item that does not exist counts none. -/
def signalCountOf (pg : Postgres) (id : WorkItemId) : ℕ := ((pg.row id).map (·.signalCount)).getD 0

end Postgres

/-! ### Writes of other services -/

/-- A write that the workflow service, the workers or the escalation scheduler
commits. -/
inductive PostgresWrite
  | transitionState (input : TransitionStateInput)
  | submitRca (input : SubmitRcaInput)
  | incrementSignalCount (workItemId : WorkItemId) (amount : ℕ)
  | recordEscalation (workItemId : WorkItemId) (actor : String)

namespace PostgresWrite

/-- The command that commits the write. -/
def command (prisma : PrismaClient) (clock : Instant) : PostgresWrite → Command Postgres Unit
  | .transitionState input, pg =>
    (Postgres.transitionState prisma input clock pg).map fun reply => ((), reply.2)
  | .submitRca input, pg =>
    (Postgres.submitRca prisma input clock pg).map fun reply => ((), reply.2)
  | .incrementSignalCount workItemId amount, pg =>
    (Postgres.incrementSignalCount prisma workItemId amount clock pg).map
      fun reply => ((), reply.2)
  | .recordEscalation workItemId actor, pg =>
    Postgres.recordEscalation prisma workItemId actor clock pg

/-- The write moves an item to `CLOSED`. -/
def closes : PostgresWrite → Bool
  | .transitionState input => input.toState = .CLOSED
  | .submitRca _ => true
  | _ => false

/-- The write moves an item out of `CLOSED`, which no legal transition does. -/
def reopens : PostgresWrite → Bool
  | .transitionState input => input.fromState = .CLOSED
  | _ => false

/-- The write counts signals. -/
def counts : PostgresWrite → Bool
  | .incrementSignalCount _ _ => true
  | _ => false

/-- What a write leaves of a row. -/
structure Keeps (write : PostgresWrite) (r r' : WorkItem) : Prop where
  id : r'.id = r.id
  componentId : r'.componentId = r.componentId
  active : write.closes = false → r.state ≠ .CLOSED → r'.state ≠ .CLOSED
  closed : write.reopens = false → r.state = .CLOSED → r'.state = .CLOSED
  signalCount : write.counts = false → r'.signalCount = r.signalCount

lemma Keeps.refl (write : PostgresWrite) (r : WorkItem) : write.Keeps r r :=
  ⟨rfl, rfl, fun _ h => h, fun _ h => h, fun _ => rfl⟩

variable {prisma : PrismaClient} {clock : Instant} {write : PostgresWrite} {pg pg' : Postgres}

/-- No write adds or removes a row of `work_items`, or changes what the row is about. -/
lemma row_of_command (h : write.command prisma clock pg = .ok ((), pg')) (x : WorkItemId) :
    (pg.row x = none ∧ pg'.row x = none) ∨
      ∃ r r', pg.row x = some r ∧ pg'.row x = some r' ∧ write.Keeps r r' := by
  -- one row changes, from `r` to `r'`
  have hone : ∀ id r r', pg.row id = some r → write.Keeps r r' →
      (∀ x, pg'.row x = if x = id then some r' else pg.row x) →
      (pg.row x = none ∧ pg'.row x = none) ∨
        ∃ r r', pg.row x = some r ∧ pg'.row x = some r' ∧ write.Keeps r r' := by
    intro id r r' hr hkeeps hrows
    by_cases hx : x = id
    · exact .inr ⟨r, r', hx ▸ hr, by rw [hrows, if_pos hx], hkeeps⟩
    · rw [hrows, if_neg hx]
      cases hrow : pg.row x with
      | none => exact .inl ⟨rfl, rfl⟩
      | some s => exact .inr ⟨s, s, rfl, rfl, .refl _ s⟩
  cases write with
  | transitionState input =>
    simp only [command, Except.map] at h
    split at h <;> cases h
    rename_i reply hreply
    obtain ⟨r, hmoved, hr', -⟩ := Postgres.transitionState_ok hreply
    have hkeeps : Keeps (.transitionState input) r (input.set clock r) :=
      ⟨rfl, rfl, fun hcloses _ => of_decide_eq_false hcloses,
        fun hreopens hclosed => absurd (hmoved.guard ▸ hclosed) (of_decide_eq_false hreopens),
        fun _ => rfl⟩
    exact hone _ r _ hmoved.before hkeeps hmoved.row
  | submitRca input =>
    simp only [command, Except.map] at h
    split at h <;> cases h
    rename_i reply hreply
    obtain ⟨r, hmoved, -⟩ := Postgres.submitRca_ok hreply
    have hkeeps : Keeps (.submitRca input) r (input.transition.set clock r) :=
      ⟨rfl, rfl, fun hcloses => (nomatch hcloses), fun _ _ => rfl, fun _ => rfl⟩
    exact hone _ r _ hmoved.before hkeeps hmoved.row
  | incrementSignalCount workItemId amount =>
    simp only [command, Except.map] at h
    split at h <;> cases h
    rename_i reply hreply
    obtain ⟨r, hr, hr', hrows, -⟩ := Postgres.incrementSignalCount_ok hreply
    have hkeeps : Keeps (.incrementSignalCount workItemId amount) r reply.1 := by
      rw [hr']
      exact ⟨rfl, rfl, fun _ hactive => hactive, fun _ hclosed => hclosed,
        fun hcounts => (nomatch hcounts)⟩
    exact hone _ r _ hr hkeeps hrows
  | recordEscalation workItemId actor =>
    have htables := Postgres.recordEscalation_ok h
    rw [htables, Tables.row_insertTransition]
    cases hrow : pg.row x with
    | none => exact .inl ⟨rfl, rfl⟩
    | some s => exact .inr ⟨s, s, rfl, rfl, .refl _ s⟩

end PostgresWrite

end InveniOps.Stores
