import Mathlib.Data.Fintype.EquivFin
import InveniOps.Ingestion.DebounceRuns

/-!
# Agreement of concurrent callers

Without closings and store faults, all `resolve` calls for one component return
the same work item, and at most one of them created it.  The session, the lock
and the two searches are only ways to learn the active item sooner; the partial
unique index alone decides who creates it.
-/

namespace InveniOps.Ingestion

open Lib Stores

/-- The conflict that Prisma reports for the active-component index is one that
`isConflictError` recognises. -/
def SignalDebouncer.RecognisesConflict (d : SignalDebouncer) : Prop :=
  d.isConflictError (d.workItemStore.conflict .idx_work_items_active_component_id) = true

/-- What a call knows at a point of its program about the active item of its component. -/
def ResolvePc.Agrees (pg : Postgres) (c : ComponentId) : ResolvePc → Prop
  | .judgeSession raw | .pollJudge _ raw => ∀ w, raw.workItemId = some w → ActiveItem pg c w
  | .bump w => ActiveItem pg c w
  | .findWinner _ => ∃ w, ActiveItem pg c w
  | .seeding _ result | .seed _ result _ | .expire _ result => ActiveItem pg c result.workItemId
  | .release outcome | .done outcome =>
    ∃ result, outcome = .ok result ∧ ActiveItem pg c result.workItemId
  | _ => True

/-- The call created the work item that it will return. -/
def ResolvePc.created : ResolvePc → Bool
  | .seeding _ result | .seed _ result _ | .expire _ result => result.created
  | .release (.ok result) | .done (.ok result) => result.created
  | _ => false

/-- The session of a component, if it names a work item, names the active one. -/
def SessionAgrees (w : World) (c : ComponentId) : Prop :=
  ∀ x, (w.redis.session c).workItemId = some x → ActiveItem w.postgres c x

lemma ResolvePc.Agrees.mono {pg pg' : Postgres} {c : ComponentId}
    (hmono : ∀ w, ActiveItem pg c w → ActiveItem pg' c w) {pc : ResolvePc}
    (h : pc.Agrees pg c) : pc.Agrees pg' c := by
  cases pc with
  | judgeSession raw => exact fun w hw => hmono w (h w hw)
  | pollJudge deadline raw => exact fun w hw => hmono w (h w hw)
  | bump w => exact hmono w h
  | findWinner locked => exact h.imp hmono
  | seeding locked result => exact hmono _ h
  | seed locked result startedAtMs => exact hmono _ h
  | expire locked result => exact hmono _ h
  | release outcome => exact h.imp fun result hr => ⟨hr.1, hmono _ hr.2⟩
  | done outcome => exact h.imp fun result hr => ⟨hr.1, hmono _ hr.2⟩
  | _ => trivial

/-- A call that will report a creation knows the active item. -/
lemma ResolvePc.Agrees.active {pg : Postgres} {c : ComponentId} {pc : ResolvePc}
    (h : pc.Agrees pg c) (hcreated : pc.created = true) : ∃ w, ActiveItem pg c w := by
  cases pc with
  | seeding locked result => exact ⟨_, h⟩
  | seed locked result startedAtMs => exact ⟨_, h⟩
  | expire locked result => exact ⟨_, h⟩
  | release outcome => exact h.elim fun _ hr => ⟨_, hr.2⟩
  | done outcome => exact h.elim fun _ hr => ⟨_, hr.2⟩
  | _ => cases hcreated

namespace SignalDebouncer

variable {d : SignalDebouncer} {signal : IngestionSignal} {io : Io} {w : World}

lemma agrees_leave {pg : Postgres} {c : ComponentId} {locked : Bool} {result : DebounceResult}
    (h : ActiveItem pg c result.workItemId) : (leave locked (.ok result)).Agrees pg c := by
  cases locked <;> exact ⟨result, rfl, h⟩

lemma created_leave {locked : Bool} {result : DebounceResult} :
    (leave locked (.ok result)).created = result.created := by
  cases locked <;> rfl

/-- What one faultless step of a call does: it learns the active item, or it is
the step that creates it. -/
structure StepAgrees (signal : IngestionSignal) (w w' : World) (pc pc' : ResolvePc) : Prop where
  session : SessionAgrees w' signal.componentId
  agrees : pc'.Agrees w'.postgres signal.componentId
  creation : (w'.postgres = w.postgres ∧ pc'.created = pc.created) ∨
    ((¬ ∃ x, ActiveItem w.postgres signal.componentId x) ∧ pc.created = false ∧
      pc'.created = true)

/-- A step that changes neither Postgres nor what sessions name. -/
lemma StepAgrees.of_same {w' : World} {pc pc' : ResolvePc}
    (hsession : SessionAgrees w signal.componentId) (hpostgres : w'.postgres = w.postgres)
    (hname : (w'.redis.session signal.componentId).workItemId
      = (w.redis.session signal.componentId).workItemId)
    (hagrees : pc'.Agrees w.postgres signal.componentId) (hcreated : pc'.created = pc.created) :
    StepAgrees signal w w' pc pc' where
  session x hx := by
    rw [hname] at hx
    rw [hpostgres]
    exact hsession x hx
  agrees := by
    rw [hpostgres]
    exact hagrees
  creation := .inl ⟨hpostgres, hcreated⟩

/-- The creation of a row: the index decides between this caller and the others. -/
lemma resolveStep_create (hd : d.RecognisesConflict) (hio : io.outcome = .ok)
    (hfresh : w.postgres.row io.uuid = none) (locked : Bool) (attempt : ℕ) :
    ((∃ x, ActiveItem w.postgres signal.componentId x) ∧
        d.resolveStep signal io w (.create locked attempt) = (w, .findWinner locked)) ∨
      ((¬ ∃ x, ActiveItem w.postgres signal.componentId x) ∧ ∃ r pg',
        Postgres.createWorkItem d.workItemStore (toCreateInput signal) io.uuid io.now w.postgres
          = .ok (r, pg') ∧ r.id = io.uuid ∧
        d.resolveStep signal io w (.create locked attempt)
          = ({ w with postgres := pg' }, .seeding locked ⟨io.uuid, true⟩)) := by
  have hrow : w.postgres.row ((toCreateInput signal).toRow io.uuid io.now).id = none := hfresh
  rcases Postgres.createWorkItem_eq d.workItemStore hrow with
    ⟨⟨r, hr, hrc, hra⟩, hconflict⟩ | ⟨hnone, pg', hok⟩
  · -- another caller's item is active: the index refuses the insert
    have hretry : shouldRetry (d.workItemStore.conflict .idx_work_items_active_component_id)
        = false := shouldRetry_knownRequest (by decide)
    have hthrown : withPostgresRetry attempt (.error
        (d.workItemStore.conflict .idx_work_items_active_component_id) : Except Thrown WorkItem)
          = .thrown (d.workItemStore.conflict .idx_work_items_active_component_id) := by
      simp [withPostgresRetry, hretry]
    have hd' : d.isConflictError
        (d.workItemStore.conflict .idx_work_items_active_component_id) = true := hd
    refine .inl ⟨⟨r.id, r, hr, hrc, hra⟩, ?_⟩
    simp only [resolveStep, onPostgres, hio, perform_error_of hconflict, afterCreate, hthrown,
      caught, hd', Bool.and_self, if_true]
  · -- nobody's item is active: the insert makes this caller's item active
    refine .inr ⟨?_, _, pg', hok, rfl, ?_⟩
    · rintro ⟨x, s, hs, hsc, hsa⟩
      exact hsa (hnone x s hs hsc)
    · simp only [resolveStep, onPostgres, hio, perform_ok_of hok, afterCreate,
        withPostgresRetry_ok]
      rfl

lemma create_agrees (hd : d.RecognisesConflict) (hio : io.outcome = .ok)
    (hfresh : w.postgres.row io.uuid = none) (hsession : SessionAgrees w signal.componentId)
    (locked : Bool) (attempt : ℕ) :
    StepAgrees signal w (d.resolveStep signal io w (.create locked attempt)).1
      (.create locked attempt) (d.resolveStep signal io w (.create locked attempt)).2 := by
  rcases resolveStep_create hd hio hfresh locked attempt with
    ⟨hactive, hstep⟩ | ⟨hnone, r, pg', hok, hid, hstep⟩
  · rw [hstep]
    exact .of_same hsession rfl rfl hactive rfl
  · have hactive := activeItem_of_create hok
    rw [hstep]
    have hself : ActiveItem pg' signal.componentId io.uuid :=
      (hactive signal.componentId io.uuid).2 (.inr ⟨hid.symm, rfl⟩)
    refine ⟨?_, hself, .inr ⟨hnone, rfl, rfl⟩⟩
    intro x hx
    exact (hactive signal.componentId x).2 (.inl (hsession x hx))

/-- Where no row is created, a call only learns what the active item is. -/
lemma ResolveRuns.agrees {pc pc' : ResolvePc} (h : ResolveRuns d signal io w pc pc')
    (hio : io.outcome = .ok) (hsession : SessionAgrees w signal.componentId)
    (hpc : pc.Agrees w.postgres signal.componentId)
    (hcreate : ∀ locked attempt, pc ≠ .create locked attempt) :
    pc'.Agrees w.postgres signal.componentId ∧ pc'.created = pc.created := by
  cases h with
  | read | pollRead => exact ⟨hsession, rfl⟩
  | valid hvalid | pollValid hvalid => exact ⟨hpc _ (validSession_some hvalid).1, rfl⟩
  | bumped => exact ⟨⟨_, rfl, hpc⟩, rfl⟩
  | found head | won head => exact ⟨activeItem_of_head? head, rfl⟩
  | noWinner head => exact absurd hpc (not_activeItem_of_head? head)
  | seeding | seeded | returned => exact ⟨hpc, rfl⟩
  | expires => exact ⟨agrees_leave hpc, created_leave⟩
  | @released outcome => cases outcome <;> exact ⟨hpc, rfl⟩
  | created | again | createThrew => exact absurd rfl (hcreate _ _)
  | left locked e failed => exact absurd hio failed
  | seedThrew locked created e failed => exact absurd hio failed
  | _ => exact ⟨trivial, rfl⟩

theorem resolveStep_agrees (hd : d.RecognisesConflict) (hio : io.outcome = .ok)
    (hfresh : w.postgres.row io.uuid = none)
    (hsession : SessionAgrees w signal.componentId) {pc : ResolvePc}
    (hpc : pc.Agrees w.postgres signal.componentId) :
    StepAgrees signal w (d.resolveStep signal io w pc).1 pc (d.resolveStep signal io w pc).2 := by
  by_cases hcreate : ∃ locked attempt, pc = .create locked attempt
  · obtain ⟨locked, attempt, rfl⟩ := hcreate
    exact create_agrees hd hio hfresh hsession locked attempt
  have hne : ∀ locked attempt, pc ≠ .create locked attempt := fun locked attempt heq =>
    hcreate ⟨locked, attempt, heq⟩
  have hpostgres : (d.resolveStep signal io w pc).1.postgres = w.postgres := by
    rcases resolveStep_postgres pc with hsame | ⟨locked, attempt, r, heq, -⟩
    · exact hsame
    · exact absurd heq (hne locked attempt)
  obtain ⟨hagrees, hcreated⟩ := (resolveRuns pc).agrees hio hsession hpc hne
  rcases resolveStep_session pc signal.componentId with
    ⟨hname, -⟩ | ⟨locked, result, startedAtMs, rfl, -, hafter⟩
  · exact .of_same hsession hpostgres hname hagrees hcreated
  · refine ⟨?_, hagrees, .inl ⟨rfl, hcreated⟩⟩
    intro x hx
    -- the session that is written names the item that the call has found
    rw [hafter] at hx
    obtain rfl := Option.some.inj hx
    exact hpc

end SignalDebouncer

/-! ### Progress of one call -/

/-- A bound on the steps that a call still takes once its clock is past the
deadline of its polling. -/
def ResolvePc.rank : ResolvePc → ℕ
  | .done _ => 0
  | .release _ | .bump _ => 1
  | .expire _ _ => 2
  | .seed _ _ _ => 3
  | .seeding _ _ => 4
  | .findWinner _ => 5
  | .create _ _ => 6
  | .findActive _ => 7
  | .pollTest _ => 8
  | .pollJudge _ _ | .startPolling => 9
  | .pollRead _ | .acquireLock => 10
  | .judgeSession _ => 11
  | .readSession => 12

/-- A clock reading with which the call does not poll again. -/
def ResolvePc.lateNow : ResolvePc → Instant
  | .pollTest deadline => deadline
  | _ => 0

namespace SignalDebouncer

variable {d : SignalDebouncer} {signal : IngestionSignal} {w : World}

lemma rank_leave (locked : Bool) (outcome : Except Thrown DebounceResult) :
    (leave locked outcome).rank ≤ 1 := by
  cases locked <;> simp [leave, ResolvePc.rank]

variable (signal) in
/-- A faultless step brings a call closer to its end. -/
lemma rank_resolveStep (hd : d.RecognisesConflict) {pc : ResolvePc} (hdone : pc.isDone = false)
    {uuid : WorkItemId} (hfresh : w.postgres.row uuid = none) :
    (d.resolveStep signal ⟨.ok, uuid, pc.lateNow⟩ w pc).2.rank < pc.rank := by
  by_cases hcreate : ∃ locked attempt, pc = .create locked attempt
  · obtain ⟨locked, attempt, rfl⟩ := hcreate
    have hrow : w.postgres.row
      (⟨.ok, uuid, (ResolvePc.create locked attempt).lateNow⟩ : Io).uuid = none := hfresh
    rcases resolveStep_create hd rfl hrow locked attempt with
      ⟨-, hstep⟩ | ⟨-, _, _, -, -, hstep⟩ <;> rw [hstep] <;> simp [ResolvePc.rank]
  have hruns : ResolveRuns d signal ⟨.ok, uuid, pc.lateNow⟩ w pc _ := resolveRuns pc
  generalize (d.resolveStep signal ⟨.ok, uuid, pc.lateNow⟩ w pc).2 = pc' at hruns ⊢
  generalize hio : (⟨.ok, uuid, pc.lateNow⟩ : Io) = io at hruns
  cases hruns with
  | returned => cases hdone
  | polls early =>
    subst hio
    exact absurd early (lt_irrefl _)
  | created | again | createThrew => exact absurd ⟨_, _, rfl⟩ hcreate
  | noWinner => exact (rank_leave _ _).trans_lt (by simp [ResolvePc.rank])
  | expires => exact (rank_leave _ _).trans_lt (by simp [ResolvePc.rank])
  | left locked e failed => exact absurd (hio ▸ rfl) failed
  | seedThrew locked created e failed => exact absurd (hio ▸ rfl) failed
  | _ => simp [ResolvePc.rank]

end SignalDebouncer

/-! ### Runs -/

/-- No store fault, no closing, no reopening. -/
def DebounceEvent.Healthy : DebounceEvent → Prop
  | .step _ io => io.outcome = .ok
  | .write w _ => w.closes = false ∧ w.reopens = false
  | _ => True

namespace DebounceSystem

variable {d : SignalDebouncer} {s₀ s s' : DebounceSystem} {c : ComponentId}

/-- The `k`-th call is a call for the component that returned `result`. -/
def Returned (s : DebounceSystem) (c : ComponentId) (k : ℕ) (result : DebounceResult) : Prop :=
  ∃ signal, s.calls k = .started signal (.done (.ok result)) ∧ signal.componentId = c

/-- The `k`-th call is a call for the component that created the active item. -/
def Creator (s : DebounceSystem) (c : ComponentId) (k : ℕ) : Prop :=
  ∃ signal pc, s.calls k = .started signal pc ∧ signal.componentId = c ∧ pc.created = true

/-- The component has an item that is not `CLOSED`. -/
def HasActive (s : DebounceSystem) (c : ComponentId) : Prop :=
  ∃ w, ActiveItem s.world.postgres c w

/-- The invariant of the runs without closings and faults. -/
structure AgreementInv (s₀ : DebounceSystem) (c : ComponentId) (s : DebounceSystem) : Prop where
  session : SessionAgrees s.world c
  agrees : ∀ k signal pc, s.calls k = .started signal pc → signal.componentId = c →
    pc.Agrees s.world.postgres c
  kept : s₀.HasActive c → s.HasActive c
  noCreator : s₀.HasActive c ∨ ¬ s.HasActive c → ∀ k, ¬ s.Creator c k
  creator : ¬ s₀.HasActive c → s.HasActive c → ∃! k, s.Creator c k

lemma AgreementInv.init (hidle : ∀ k, s₀.calls k = .idle) (hsession : SessionAgrees s₀.world c) :
    AgreementInv s₀ c s₀ where
  session := hsession
  agrees k signal pc hk := by
    rw [hidle k] at hk
    cases hk
  kept := id
  noCreator _ k := by
    rintro ⟨signal, pc, hk, -⟩
    rw [hidle k] at hk
    cases hk
  creator hnone hsome := absurd hsome hnone

/-- Steps that leave the calls, the active items of the component and what its
session may name as they are. -/
lemma AgreementInv.congr (h : AgreementInv s₀ c s)
    (hactive : ∀ w, ActiveItem s'.world.postgres c w ↔ ActiveItem s.world.postgres c w)
    (hsession : SessionAgrees s'.world c)
    (hcreator : ∀ k, s'.Creator c k ↔ s.Creator c k)
    (hagrees : ∀ k signal pc, s'.calls k = .started signal pc → signal.componentId = c →
      pc.Agrees s'.world.postgres c) : AgreementInv s₀ c s' := by
  have hhas : s'.HasActive c ↔ s.HasActive c := exists_congr hactive
  refine ⟨hsession, hagrees, fun h₀ => hhas.2 (h.kept h₀), ?_, ?_⟩
  · simp only [hhas, hcreator]
    exact h.noCreator
  · simp only [hhas, hcreator]
    exact h.creator

lemma creator_update {k : ℕ} {signal : IngestionSignal} {pc pc' : ResolvePc} {w : World}
    (hk : s.calls k = .started signal pc) (hcreated : pc'.created = pc.created) (j : ℕ) :
    Creator ⟨w, Function.update s.calls k (.started signal pc')⟩ c j ↔ s.Creator c j := by
  by_cases hj : j = k
  · subst hj
    simp [Creator, hk, hcreated]
  · simp [Creator, Function.update_of_ne hj]

/-- A step of a call keeps the invariant of its own component. -/
lemma AgreementInv.stepSelf (hd : d.RecognisesConflict) (h : AgreementInv s₀ c s) {k : ℕ}
    {io : Io} {signal : IngestionSignal} {pc : ResolvePc} (hio : io.outcome = .ok)
    (hk : s.calls k = .started signal pc) (hfresh : s.world.postgres.row io.uuid = none)
    (hc : signal.componentId = c) :
    AgreementInv s₀ c ⟨(d.resolveStep signal io s.world pc).1,
      Function.update s.calls k (.started signal (d.resolveStep signal io s.world pc).2)⟩ := by
  subst hc
  obtain ⟨hsession, hagrees, hcreation⟩ := SignalDebouncer.resolveStep_agrees hd hio hfresh
    h.session (h.agrees k signal pc hk rfl)
  have hmono : ∀ x, ActiveItem s.world.postgres signal.componentId x →
      ActiveItem (d.resolveStep signal io s.world pc).1.postgres signal.componentId x := by
    rcases SignalDebouncer.resolveStep_postgres pc with hsame | ⟨_, _, r, -, hcreate⟩
    · rw [hsame]
      exact fun _ => id
    · exact fun x hx => (activeItem_of_create hcreate _ x).2 (.inl hx)
  have hcalls : ∀ j signal' pc', Function.update s.calls k
      (.started signal (d.resolveStep signal io s.world pc).2) j = .started signal' pc' →
      signal'.componentId = signal.componentId →
      pc'.Agrees (d.resolveStep signal io s.world pc).1.postgres signal.componentId := by
    intro j signal' pc' hj hc
    by_cases hjk : j = k
    · subst hjk
      rw [Function.update_self] at hj
      cases hj
      exact hagrees
    · rw [Function.update_of_ne hjk] at hj
      exact (h.agrees j signal' pc' hj hc).mono hmono
  rcases hcreation with ⟨hsame, hcreated⟩ | ⟨hnone, hcreated, hcreated'⟩
  · refine h.congr ?_ hsession (creator_update hk hcreated) hcalls
    intro w
    simp only [hsame]
  · -- the call created the item: nobody else did
    have hno := h.noCreator (.inr hnone)
    have hactive := hagrees.active hcreated'
    refine ⟨hsession, hcalls, fun _ => hactive, ?_, ?_⟩
    · rintro (h₀ | hnot)
      · exact absurd (h.kept h₀) hnone
      · exact absurd hactive hnot
    · intro _ _
      refine ⟨k, ⟨signal, _, Function.update_self .., rfl, hcreated'⟩, ?_⟩
      rintro j ⟨signal', pc', hj, hc, hcr⟩
      by_contra hjk
      dsimp only at hj
      rw [Function.update_of_ne hjk] at hj
      exact hno j ⟨signal', pc', hj, hc, hcr⟩

/-- A step of a call of another component does not concern this one. -/
lemma AgreementInv.stepOther (h : AgreementInv s₀ c s) {k : ℕ} {io : Io}
    {signal : IngestionSignal} {pc pc' : ResolvePc} (hk : s.calls k = .started signal pc)
    (hc : signal.componentId ≠ c) :
    AgreementInv s₀ c ⟨(d.resolveStep signal io s.world pc).1,
      Function.update s.calls k (.started signal pc')⟩ := by
  have hactive : ∀ x, ActiveItem (d.resolveStep signal io s.world pc).1.postgres c x ↔
      ActiveItem s.world.postgres c x := by
    intro x
    rcases SignalDebouncer.resolveStep_postgres pc with hsame | ⟨_, _, r, -, hcreate⟩
    · rw [hsame]
    · rw [activeItem_of_create hcreate, or_iff_left]
      exact fun hx => hc hx.2.symm
  have hsame : ∀ j, Function.update s.calls k (.started signal pc') j = s.calls j ∨ j = k := by
    intro j
    by_cases hj : j = k
    · exact .inr hj
    · exact .inl (Function.update_of_ne hj _ _)
  refine h.congr hactive ?_ ?_ ?_
  · intro x hx
    rcases SignalDebouncer.resolveStep_session pc c with ⟨hname, -⟩ | ⟨_, _, _, -, heq, -⟩
    · rw [hname] at hx
      exact (hactive x).2 (h.session x hx)
    · exact absurd heq.symm hc
  · intro j
    by_cases hj : j = k
    · subst hj
      simp [Creator, hk, hc]
    · simp [Creator, Function.update_of_ne hj]
  · intro j signal' pc'' hj hc'
    rcases hsame j with heq | rfl
    · exact (h.agrees j signal' pc'' (heq.symm.trans hj) hc').mono fun x => (hactive x).2
    · dsimp only at hj
      rw [Function.update_self] at hj
      cases hj
      exact absurd hc' hc

/-- Every event of a run without closings and faults keeps the invariant. -/
lemma AgreementInv.step (hd : d.RecognisesConflict) {e : DebounceEvent} (h : AgreementInv s₀ c s)
    (he : e.Healthy) (hstep : s.step d e = some s') : AgreementInv s₀ c s' := by
  cases e with
  | start k signal =>
    obtain ⟨hk, rfl⟩ := step_start_inv hstep
    refine h.congr (fun _ => Iff.rfl) h.session ?_ ?_
    · intro j
      by_cases hj : j = k
      · subst hj
        simp [Creator, hk, ResolvePc.created]
      · simp [Creator, Function.update_of_ne hj]
    · intro j signal' pc hj hc
      dsimp only at hj
      by_cases hjk : j = k
      · subst hjk
        rw [Function.update_self] at hj
        cases hj
        trivial
      · rw [Function.update_of_ne hjk] at hj
        exact h.agrees j signal' pc hj hc
  | step k io =>
    obtain ⟨signal, pc, hk, -, hfresh, rfl⟩ := step_step_inv hstep
    by_cases hc : signal.componentId = c
    · exact h.stepSelf hd he hk hfresh hc
    · exact h.stepOther hk hc
  | write write clock =>
    obtain ⟨postgres, hcommand, rfl⟩ := step_write_inv hstep
    have hactive := activeItem_of_write hcommand he.1 he.2 c
    refine h.congr hactive (fun x hx => (hactive x).2 (h.session x hx)) (fun _ => Iff.rfl) ?_
    exact fun k signal pc hk hc => (h.agrees k signal pc hk hc).mono fun x => (hactive x).2
  | sessionLost c' =>
    obtain rfl := Option.some.inj hstep
    refine h.congr (fun _ => Iff.rfl) ?_ (fun _ => Iff.rfl) h.agrees
    intro x hx
    rw [Redis.session_setSession] at hx
    split_ifs at hx
    · cases hx
    · exact h.session x hx
  | lockLost c' =>
    obtain rfl := Option.some.inj hstep
    exact h.congr (fun _ => Iff.rfl) h.session (fun _ => Iff.rfl) h.agrees

lemma AgreementInv.run (hd : d.RecognisesConflict) {es : List DebounceEvent}
    (hes : ∀ e ∈ es, e.Healthy) (h : AgreementInv s₀ c s) (hrun : (lts d).run s es = some s') :
    AgreementInv s₀ c s' := by
  induction es generalizing s with
  | nil =>
    obtain rfl : s = s' := Option.some.inj hrun
    exact h
  | cons e es ih =>
    obtain ⟨t, he, hes'⟩ := Lts.run_cons_inv hrun
    exact ih (fun e' he' => hes e' (List.mem_cons_of_mem _ he'))
      (h.step hd (hes e List.mem_cons_self) he) hes'

/-- A call alone, with faultless replies and its clock past its deadline, finishes. -/
lemma exists_run_done (hd : d.RecognisesConflict) {k : ℕ} {signal : IngestionSignal} :
    ∀ (n : ℕ) {s : DebounceSystem} {pc : ResolvePc}, s.calls k = .started signal pc →
      pc.rank ≤ n → ∃ ios : List Io, (∀ io ∈ ios, io.outcome = .ok) ∧ ∃ s' outcome,
        (lts d).run s (ios.map (.step k)) = some s' ∧
          s'.calls k = .started signal (.done outcome) := by
  intro n
  induction n with
  | zero =>
    intro s pc hk hrank
    cases pc <;> simp only [ResolvePc.rank, Nat.le_zero, Nat.succ_ne_zero] at hrank
    exact ⟨[], by simp, s, _, rfl, hk⟩
  | succ n ih =>
    intro s pc hk hrank
    cases hdone : pc.isDone with
    | true =>
      cases pc <;> simp only [ResolvePc.isDone, Bool.false_eq_true] at hdone
      exact ⟨[], by simp, s, _, rfl, hk⟩
    | false =>
      -- the step needs an id that no row has yet
      obtain ⟨uuid, hfresh⟩ := Infinite.exists_notMem_finset
        (s.world.postgres.workItems.map (·.id)).toFinset
      rw [List.mem_toFinset, ← Postgres.row_none_iff] at hfresh
      have hlt := SignalDebouncer.rank_resolveStep signal hd hdone hfresh
      have hstep : step d s (.step k ⟨.ok, uuid, pc.lateNow⟩) = _ := step_step_eq hk hdone hfresh
      obtain ⟨t, ht⟩ : ∃ t, step d s (.step k ⟨.ok, uuid, pc.lateNow⟩) = some t := ⟨_, hstep⟩
      have hk' : t.calls k = .started signal
          (d.resolveStep signal ⟨.ok, uuid, pc.lateNow⟩ s.world pc).2 := by
        obtain rfl := Option.some.inj (hstep.symm.trans ht)
        exact Function.update_self ..
      obtain ⟨ios, hios, s', outcome, hrun, hk'⟩ :=
        ih hk' (Nat.le_of_lt_succ (hlt.trans_le hrank))
      refine ⟨⟨.ok, uuid, pc.lateNow⟩ :: ios, ?_, s', outcome, ?_, hk'⟩
      · intro io hio
        rcases List.mem_cons.1 hio with rfl | hio
        · rfl
        · exact hios io hio
      · have ht' : (lts d).step s (.step k ⟨.ok, uuid, pc.lateNow⟩) = some t := ht
        rw [List.map_cons, Lts.run_cons, ht']
        exact hrun

/-- What holds of the calls for a component in a state reached from `s₀`. -/
structure Agreement (d : SignalDebouncer) (s₀ s : DebounceSystem) (c : ComponentId) : Prop where
  noThrow : ∀ k signal e, s.calls k = .started signal (.done (.error e)) → signal.componentId ≠ c
  sameItem : ∀ {j k result result'}, s.Returned c j result → s.Returned c k result' →
    result.workItemId = result'.workItemId
  /-- Two calls never both create, not even before the others have returned. -/
  oneCreator : ∀ {j k result result'}, s.Returned c j result → s.Returned c k result' →
    result.created = true → result'.created = true → j = k
  /-- Once all calls have returned, exactly one of them created the item. -/
  creator : ¬ s₀.HasActive c → (∃ k result, s.Returned c k result) →
    (∀ k signal pc, s.calls k = .started signal pc → signal.componentId = c → pc.isDone = true) →
    ∃! k, ∃ result, s.Returned c k result ∧ result.created = true
  noCreator : s₀.HasActive c → ∀ {k result}, s.Returned c k result → result.created = false
  /-- Every call can still return. -/
  returns : ∀ k signal pc, s.calls k = .started signal pc → signal.componentId = c →
    ∃ ios : List Io, (∀ io ∈ ios, io.outcome = .ok) ∧ ∃ s' result,
      (lts d).run s (ios.map (.step k)) = some s' ∧ s'.Returned c k result

lemma AgreementInv.active_of_returned (h : AgreementInv s₀ c s) {k : ℕ} {result : DebounceResult}
    (hk : s.Returned c k result) : ActiveItem s.world.postgres c result.workItemId := by
  obtain ⟨signal, hcall, hc⟩ := hk
  obtain ⟨result', heq, hactive⟩ := h.agrees k signal _ hcall hc
  cases heq
  exact hactive

lemma Returned.creator {k : ℕ} {result : DebounceResult} (hk : s.Returned c k result)
    (hcreated : result.created = true) : s.Creator c k := by
  obtain ⟨signal, hcall, hc⟩ := hk
  exact ⟨signal, _, hcall, hc, hcreated⟩

/-- Without closings and store faults, whatever the callers and the order of
their steps, and whatever expires or is flushed in between: no call throws, all
return the same work item, and exactly one created it if none was active. -/
theorem agreement_of_run (hd : d.RecognisesConflict) (hidle : ∀ k, s₀.calls k = .idle)
    (hsession : SessionAgrees s₀.world c) {es : List DebounceEvent}
    (hes : ∀ e ∈ es, e.Healthy) (hrun : (lts d).run s₀ es = some s) : Agreement d s₀ s c := by
  have h := (AgreementInv.init hidle hsession).run hd hes hrun
  have hone : ∀ {j k result result'}, s.Returned c j result → s.Returned c k result' →
      result.created = true → result'.created = true → j = k := by
    intro j k result result' hj hk hcj hck
    -- a creator rules out that an item was active at the start
    have hnone : ¬ s₀.HasActive c := fun h₀ => h.noCreator (.inl h₀) j (hj.creator hcj)
    exact (h.creator hnone ⟨_, h.active_of_returned hj⟩).unique (hj.creator hcj) (hk.creator hck)
  refine ⟨?_, ?_, hone, ?_, ?_, ?_⟩
  · intro k signal e hk hc
    obtain ⟨result, heq, -⟩ := h.agrees k signal _ hk hc
    cases heq
  · exact fun hj hk => (h.active_of_returned hj).unique (h.active_of_returned hk)
  · rintro hnone ⟨j, result, hj⟩ hfinished
    obtain ⟨k, ⟨signal, pc, hk, hc, hcreated⟩, hunique⟩ :=
      h.creator hnone ⟨_, h.active_of_returned hj⟩
    have hdone := hfinished k signal pc hk hc
    cases pc <;> simp only [ResolvePc.isDone, Bool.false_eq_true] at hdone
    obtain ⟨result', rfl, -⟩ := h.agrees k signal _ hk hc
    refine ⟨k, ⟨result', ⟨signal, hk, hc⟩, hcreated⟩, ?_⟩
    rintro i ⟨result'', hi, hci⟩
    exact hunique i (hi.creator hci)
  · intro h₀ k result hk
    by_contra hcreated
    exact h.noCreator (.inl h₀) k (hk.creator (by simpa using hcreated))
  · intro k signal pc hk hc
    obtain ⟨ios, hios, s', outcome, hrun', hk'⟩ := exists_run_done hd pc.rank hk le_rfl
    have hhealthy : ∀ e ∈ ios.map (DebounceEvent.step k), e.Healthy := by
      intro e he
      obtain ⟨io, hio, rfl⟩ := List.mem_map.1 he
      exact hios io hio
    obtain ⟨result, rfl, -⟩ := (h.run hd hhealthy hrun').agrees k signal _ hk' hc
    exact ⟨ios, hios, s', result, hrun', signal, hk', hc⟩

/-- Two callers miss the session; the lock of the first expires while it searches,
so both search in vain, and the index refuses the second insert. -/
def raceEvents : List DebounceEvent :=
  let signal := cacheSignal "a" "c" .P1
  let io : WorkItemId → Io := fun uuid => ⟨.ok, uuid, 5⟩
  [.start 0 signal, .start 1 signal, .step 0 (io "w"), .step 1 (io "w"), .step 0 (io "w"),
    .step 1 (io "w"), .step 0 (io "w"), .lockLost "c", .step 1 (io "w"), .step 0 (io "w"),
    .step 1 (io "w")] ++
  [.step 0 (io "w"), .step 1 (io "v"), .step 1 (io "v"), .step 1 (io "v"), .step 1 (io "v"),
    .step 1 (io "v"), .step 1 (io "v")] ++
  List.replicate 4 (.step 0 (io "v"))

theorem agreement_of_raceEvents : ∃ s,
    (lts .standard).run .quiet raceEvents = some s ∧ Agreement .standard .quiet s "c" ∧
      ((s.calls 0).result, (s.calls 1).result) = (some ⟨"w", true⟩, some ⟨"w", false⟩) := by
  have hobserved : ((lts .standard).run .quiet raceEvents).map
      (fun s => ((s.calls 0).result, (s.calls 1).result))
        = some (some ⟨"w", true⟩, some ⟨"w", false⟩) := by
    decide +kernel
  have hhealthy : ∀ e ∈ raceEvents, e.Healthy := by
    simp [raceEvents, DebounceEvent.Healthy]
  obtain ⟨s, hrun, hs⟩ := Option.map_eq_some_iff.1 hobserved
  refine ⟨s, hrun, agreement_of_run ?_ (fun _ => rfl) ?_ hhealthy hrun, hs⟩
  · show SignalDebouncer.isConflictError _ _ = true
    decide +kernel
  · intro x hx
    cases hx

end DebounceSystem

end InveniOps.Ingestion
