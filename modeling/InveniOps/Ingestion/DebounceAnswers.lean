import InveniOps.Ingestion.Debouncer

/-!
# The answers of the debouncer

What one step of a call makes of the active items of its component, and where
the work item that a call is about to answer with comes from: a session hash that
it read, or a row that it found or created itself.
-/

namespace InveniOps.Ingestion

open Stores

/-! ### Active items -/

/-- `w` is an item of the component that is not `CLOSED`. -/
def ActiveItem (pg : Postgres) (c : ComponentId) (w : WorkItemId) : Prop :=
  ∃ r, pg.row w = some r ∧ r.componentId = c ∧ r.state ≠ .CLOSED

lemma ActiveItem.unique {pg : Postgres} {c : ComponentId} {v w : WorkItemId}
    (hv : ActiveItem pg c v) (hw : ActiveItem pg c w) : v = w := by
  obtain ⟨r, hr, hrc, hra⟩ := hv
  obtain ⟨s, hs, hsc, hsa⟩ := hw
  have hrs := Postgres.active_unique hr hra hs hsa (hrc.trans hsc.symm)
  rw [← Tables.row_id hr, ← Tables.row_id hs, hrs]

lemma activeItem_of_head? {pg : Postgres} {c : ComponentId} {r : WorkItem}
    (h : (pg.activeOf c).head? = some r) : ActiveItem pg c r.id := by
  obtain ⟨hr, hc, ha⟩ := Postgres.head?_activeOf.1 h
  exact ⟨r, hr, hc, ha⟩

lemma not_activeItem_of_head? {pg : Postgres} {c : ComponentId}
    (h : (pg.activeOf c).head? = none) : ¬ ∃ w, ActiveItem pg c w := by
  rintro ⟨w, r, hr, hc, ha⟩
  exact ha (Postgres.head?_activeOf_none h hr hc)

/-- A created row is active and leaves the other items as they are. -/
lemma activeItem_of_create {prisma : PrismaClient} {input : CreateWorkItemInput}
    {uuid : WorkItemId} {clock : Instant} {pg pg' : Postgres} {r : WorkItem}
    (h : Postgres.createWorkItem prisma input uuid clock pg = .ok (r, pg')) (c : ComponentId)
    (w : WorkItemId) :
    ActiveItem pg' c w ↔ ActiveItem pg c w ∨ (w = r.id ∧ c = input.componentId) := by
  obtain ⟨rfl, hfresh, -, hrows⟩ := Postgres.createWorkItem_ok h
  simp only [ActiveItem, hrows]
  split_ifs with hw
  · subst hw
    rw [hfresh]
    simp [CreateWorkItemInput.toRow, eq_comm]
  · simp [hw]

/-- Writes that neither close nor reopen an item keep the active items. -/
lemma activeItem_of_write {prisma : PrismaClient} {write : PostgresWrite} {clock : Instant}
    {pg pg' : Postgres} (h : write.command prisma clock pg = .ok ((), pg'))
    (hcloses : write.closes = false) (hreopens : write.reopens = false) (c : ComponentId)
    (w : WorkItemId) : ActiveItem pg' c w ↔ ActiveItem pg c w := by
  rcases PostgresWrite.row_of_command h w with ⟨hnone, hnone'⟩ | ⟨r, r', hr, hr', hkeeps⟩
  · simp [ActiveItem, hnone, hnone']
  · simp only [ActiveItem, hr, hr', Option.some.injEq, exists_eq_left', hkeeps.componentId]
    refine and_congr_right fun _ => ⟨?_, hkeeps.active hcloses⟩
    intro h
    exact fun hclosed => h (hkeeps.closed hreopens hclosed)

namespace SignalDebouncer

variable {d : SignalDebouncer} {signal : IngestionSignal} {io : Io} {w : World}

lemma leave_ne_seeding {locked : Bool} {result : DebounceResult} (locked' : Bool)
    (outcome : Except Thrown DebounceResult) : leave locked' outcome ≠ .seeding locked result := by
  cases locked' <;> simp [leave]

lemma caught_ne_seeding {locked : Bool} {result : DebounceResult} (locked' created : Bool)
    (e : Thrown) : d.caught locked' created e ≠ .seeding locked result := by
  unfold caught
  split_ifs
  · simp
  · exact leave_ne_seeding _ _

/-- What a call found or created is active when it turns to seeding the session. -/
lemma active_of_seeding {pc : ResolvePc} {locked : Bool} {result : DebounceResult}
    (h : (d.resolveStep signal io w pc).2 = .seeding locked result) :
    ActiveItem (d.resolveStep signal io w pc).1.postgres signal.componentId
      result.workItemId := by
  have hruns : ResolveRuns d signal io w pc (.seeding locked result) := h ▸ resolveRuns pc
  generalize hpc : ResolvePc.seeding locked result = pc' at hruns
  -- only the two searches and the creation turn to seeding
  cases hruns with
  | found head | won head =>
    cases hpc
    simp only [resolveStep]
    rw [onPostgres_findActive]
    exact activeItem_of_head? head
  | created reply =>
    cases hpc
    exact (activeItem_of_create (perform_ok reply).2 _ _).2 (.inr ⟨rfl, rfl⟩)
  | noWinner => exact absurd hpc.symm (leave_ne_seeding _ _)
  | expires => exact absurd hpc.symm (leave_ne_seeding _ _)
  | left locked' e => exact absurd hpc.symm (leave_ne_seeding _ _)
  | createThrew e => exact absurd hpc.symm (caught_ne_seeding _ _ _)
  | seedThrew locked' created e => exact absurd hpc.symm (caught_ne_seeding _ _ _)
  | _ => cases hpc

end SignalDebouncer

/-! ### Where answers come from -/

/-- What justifies the answers of a call at a point of its program: `session`
of the hashes it read, `own` of the items it found or created itself, `answer`
of what it returns. -/
def ResolvePc.Justified (session : WorkItemId → Option Instant → Prop)
    (own answer : WorkItemId → Prop) : ResolvePc → Prop
  | .judgeSession raw | .pollJudge _ raw =>
    ∀ w, raw.workItemId = some w → session w raw.startedAtMs
  | .bump w => answer w
  | .seeding _ result | .seed _ result _ | .expire _ result => own result.workItemId
  | .release (.ok result) | .done (.ok result) => answer result.workItemId
  | _ => True

/-- The call judges the session hash `raw`. -/
def ResolvePc.Judges (pc : ResolvePc) (raw : SessionHash) : Prop :=
  pc = .judgeSession raw ∨ ∃ deadline, pc = .pollJudge deadline raw

/-- The call holds what a session said, at the judgement or behind it. -/
def ResolvePc.holdsSession : ResolvePc → Bool
  | .judgeSession _ | .pollJudge _ _ | .bump _ => true
  | _ => false

/-- The call is about to read the session. -/
def ResolvePc.reads : ResolvePc → Bool
  | .readSession | .pollRead _ => true
  | _ => false

lemma ResolvePc.Justified.imp {session session' : WorkItemId → Option Instant → Prop}
    {own own' answer answer' : WorkItemId → Prop} {pc : ResolvePc}
    (h : pc.Justified session own answer) (hsession : ∀ w t, session w t → session' w t)
    (hown : ∀ w, own w → own' w) (hanswer : ∀ w, answer w → answer' w) :
    pc.Justified session' own' answer' := by
  cases pc with
  | judgeSession raw => exact fun w hw => hsession w _ (h w hw)
  | pollJudge deadline raw => exact fun w hw => hsession w _ (h w hw)
  | bump w => exact hanswer w h
  | seeding locked result => exact hown _ h
  | seed locked result startedAtMs => exact hown _ h
  | expire locked result => exact hown _ h
  | release outcome => cases outcome with
    | ok result => exact hanswer _ h
    | error e => trivial
  | done outcome => cases outcome with
    | ok result => exact hanswer _ h
    | error e => trivial
  | _ => trivial

namespace SignalDebouncer

variable {d : SignalDebouncer} {signal : IngestionSignal} {io : Io} {w : World}
  {session : WorkItemId → Option Instant → Prop} {own answer : WorkItemId → Prop}

lemma justified_leave_error (locked : Bool) (e : Thrown) :
    (leave locked (.error e)).Justified session own answer := by
  cases locked <;> trivial

lemma justified_leave_ok {locked : Bool} {result : DebounceResult}
    (h : answer result.workItemId) : (leave locked (.ok result)).Justified session own answer := by
  cases locked <;> exact h

lemma justified_caught (locked created : Bool) (e : Thrown) :
    (d.caught locked created e).Justified session own answer := by
  unfold caught
  split_ifs
  · trivial
  · exact justified_leave_error locked e

lemma holdsSession_leave (locked : Bool) (outcome : Except Thrown DebounceResult) :
    (leave locked outcome).holdsSession = false := by
  cases locked <;> rfl

lemma holdsSession_caught (locked created : Bool) (e : Thrown) :
    (d.caught locked created e).holdsSession = false := by
  unfold caught
  split_ifs
  · rfl
  · exact holdsSession_leave locked (.error e)

/-- How a call comes to hold a session: it reads it, or it judges the one it has read. -/
inductive TakesSession (d : SignalDebouncer) (now : Instant) (session : SessionHash)
    (pc : ResolvePc) : ResolvePc → Prop
  | read {pc' : ResolvePc} (reads : pc.reads = true) (judges : pc'.Judges session) :
    TakesSession d now session pc pc'
  | judged {raw : SessionHash} {x : WorkItemId} (judges : pc.Judges raw)
      (valid : d.validSession now raw = some x) : TakesSession d now session pc (.bump x)
  | none {pc' : ResolvePc} (holds : pc'.holdsSession = false) : TakesSession d now session pc pc'

lemma ResolveRuns.takesSession {pc pc' : ResolvePc} (h : ResolveRuns d signal io w pc pc') :
    TakesSession d io.now (w.redis.session signal.componentId) pc pc' := by
  cases h with
  | read => exact .read rfl (.inl rfl)
  | pollRead => exact .read rfl (.inr ⟨_, rfl⟩)
  | valid hvalid => exact .judged (.inl rfl) hvalid
  | pollValid hvalid => exact .judged (.inr ⟨_, rfl⟩) hvalid
  | noWinner => exact .none (holdsSession_leave _ _)
  | expires => exact .none (holdsSession_leave _ _)
  | left locked e => exact .none (holdsSession_leave _ _)
  | createThrew e => exact .none (holdsSession_caught _ _ _)
  | seedThrew locked created e => exact .none (holdsSession_caught _ _ _)
  | _ => exact .none rfl

/-- One step of a call, under any outcome of its command.  What the call itself finds or
creates goes to the seeding, where `hfound` speaks for it. -/
lemma ResolveRuns.justified {pc pc' : ResolvePc} (h : ResolveRuns d signal io w pc pc')
    (hpc : pc.Justified session own answer) (hown : ∀ x, own x → answer x)
    (hread : ∀ x, (w.redis.session signal.componentId).workItemId = some x →
      session x (w.redis.session signal.componentId).startedAtMs)
    (hjudge : ∀ raw x, pc.Judges raw → d.validSession io.now raw = some x →
      session x raw.startedAtMs → answer x)
    (hfound : ∀ locked result, pc' = .seeding locked result → own result.workItemId) :
    pc'.Justified session own answer := by
  cases h with
  | read | pollRead => exact hread
  | @valid raw x hvalid =>
    exact hjudge raw x (.inl rfl) hvalid (hpc x (validSession_some hvalid).1)
  | @pollValid deadline raw x hvalid =>
    exact hjudge raw x (.inr ⟨deadline, rfl⟩) hvalid (hpc x (validSession_some hvalid).1)
  | bumped | seeding | seeded | returned => exact hpc
  | found | created | won => exact hfound _ _ rfl
  | expires => exact justified_leave_ok (hown _ hpc)
  | @released outcome => cases outcome <;> exact hpc
  | noWinner => exact justified_leave_error _ _
  | left locked e => exact justified_leave_error _ _
  | createThrew e => exact justified_caught _ _ _
  | seedThrew locked created e => exact justified_caught _ _ _
  | _ => trivial

end SignalDebouncer

end InveniOps.Ingestion
