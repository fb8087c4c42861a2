import InveniOps.Stores.Postgres

/-!
# What a work item keeps

No write of the repository sets the component, the severity, the title or the
first signal of a row that exists.  They are those of the input that created it.
-/

namespace InveniOps.Stores

/-- The fields of a row that only its creation writes. -/
structure Origin where
  componentId : ComponentId
  componentType : ComponentType
  severity : Severity
  title : String
  firstSignalAt : Instant
deriving DecidableEq

/-- The origin of a row. -/
def WorkItem.origin (r : WorkItem) : Origin :=
  ⟨r.componentId, r.componentType, r.severity, r.title, r.firstSignalAt⟩

/-- The origin that a creation asks for. -/
def CreateWorkItemInput.origin (input : CreateWorkItemInput) : Origin :=
  ⟨input.componentId, input.componentType, input.severity, input.title, input.firstSignalAt⟩

namespace Postgres

/-- The origin of the row with an id. -/
def originOf (pg : Postgres) (id : WorkItemId) : Option Origin := (pg.row id).map (·.origin)

variable {prisma : PrismaClient} {pg pg' : Postgres} {id : WorkItemId} {r r' : WorkItem}
  {clock : Instant}

lemma originOf_of_row (hr : pg.row id = some r) : pg.originOf id = some r.origin := by
  rw [originOf, hr, Option.map_some]

/-- Changing one row without changing its origin changes no origin. -/
lemma originOf_of_update (hr : pg.row id = some r) (horigin : r'.origin = r.origin)
    (hrows : ∀ x, pg'.row x = if x = id then some r' else pg.row x) (x : WorkItemId) :
    pg'.originOf x = pg.originOf x := by
  rw [originOf, originOf, hrows]
  split_ifs with hx
  · rw [hx, hr, Option.map_some, Option.map_some, horigin]
  · rfl

lemma originOf_createWorkItem {input : CreateWorkItemInput} {uuid : WorkItemId}
    (h : createWorkItem prisma input uuid clock pg = .ok (r, pg')) (x : WorkItemId) :
    pg'.originOf x = if x = r.id then some input.origin else pg.originOf x := by
  obtain ⟨hr, -, -, hrows⟩ := createWorkItem_ok h
  have horigin : r.origin = input.origin := by
    rw [hr]
    rfl
  rw [originOf, originOf, hrows]
  split_ifs
  · rw [Option.map_some, horigin]
  · rfl

lemma originOf_incrementSignalCount {amount : ℕ}
    (h : incrementSignalCount prisma id amount clock pg = .ok (r', pg')) (x : WorkItemId) :
    pg'.originOf x = pg.originOf x := by
  obtain ⟨r, hr, hr', hrows, -⟩ := incrementSignalCount_ok h
  have horigin : r'.origin = r.origin := by
    rw [hr']
    rfl
  exact originOf_of_update hr horigin hrows x

end Postgres

lemma Postgres.Moved.originOf {input : TransitionStateInput} {clock : Instant}
    {pg pg' : Postgres} {r : WorkItem} (h : Moved input clock pg pg' r) (x : WorkItemId) :
    pg'.originOf x = pg.originOf x :=
  originOf_of_update h.before (show (input.set clock r).origin = r.origin from rfl) h.row x

/-- A committed write of another service changes no origin. -/
lemma PostgresWrite.originOf_of_command {prisma : PrismaClient} {write : PostgresWrite}
    {clock : Instant} {pg pg' : Postgres} (h : write.command prisma clock pg = .ok ((), pg'))
    (x : WorkItemId) : pg'.originOf x = pg.originOf x := by
  cases write with
  | transitionState input =>
    simp only [command, Except.map] at h
    split at h <;> cases h
    rename_i reply hreply
    obtain ⟨r, hmoved, -⟩ := Postgres.transitionState_ok hreply
    exact hmoved.originOf x
  | submitRca input =>
    simp only [command, Except.map] at h
    split at h <;> cases h
    rename_i reply hreply
    obtain ⟨r, hmoved, -⟩ := Postgres.submitRca_ok hreply
    exact hmoved.originOf x
  | incrementSignalCount workItemId amount =>
    simp only [command, Except.map] at h
    split at h <;> cases h
    rename_i reply hreply
    exact Postgres.originOf_incrementSignalCount hreply x
  | recordEscalation workItemId actor =>
    rw [Postgres.originOf, Postgres.recordEscalation_ok h, Tables.row_insertTransition]
    rfl

end InveniOps.Stores
