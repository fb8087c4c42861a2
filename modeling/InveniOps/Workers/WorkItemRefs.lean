import InveniOps.Workers.SignalWorker

/-!
# The work items that the pipeline refers to

No event removes a row of `work_items`.  So once every session names a row, every
resolution of a batch and every increment names one, in every run.
-/

namespace InveniOps.Workers

open Lib Stores Ingestion

/-- `w` is a row of `work_items`. -/
def HasRow (pg : Postgres) (w : WorkItemId) : Prop := ∃ r, pg.row w = some r

/-- What the resolutions of a run of `processBatch` name satisfies `P`. -/
def BatchPc.Names (P : WorkItemId → Prop) : BatchPc → Prop
  | .resolving resolved pc =>
    (∀ result ∈ resolved, P result.workItemId) ∧ pc.Justified (fun w _ => P w) P P
  | .lookUp resolutions | .inserting resolutions _ _ | .incrementing resolutions
  | .upserting resolutions _ | .announcing resolutions _ =>
    ∀ result ∈ resolutions, P result.workItemId
  | .recording | .returned | .threw _ | .settled | .crashed => True

/-- What the sessions name satisfies `P`. -/
def SessionsName (P : WorkItemId → Prop) (redis : Redis) : Prop :=
  ∀ c w, (redis.session c).workItemId = some w → P w

lemma BatchPc.names_start (P : WorkItemId → Prop) (signals : List IngestionSignal) :
    (BatchPc.start signals).Names P := by
  unfold BatchPc.start
  split_ifs
  · trivial
  · exact ⟨fun _ hmem => (nomatch hmem), trivial⟩

lemma BatchPc.Names.imp {P Q : WorkItemId → Prop} {pc : BatchPc} (h : pc.Names P)
    (hPQ : ∀ w, P w → Q w) : pc.Names Q := by
  cases pc with
  | resolving resolved pc =>
    exact ⟨fun result hmem => hPQ _ (h.1 result hmem),
      h.2.imp (fun w _ => hPQ w) hPQ hPQ⟩
  | lookUp _ | inserting _ _ _ | incrementing _ | upserting _ _ | announcing _ _ =>
    intro result hmem
    exact hPQ _ (h result hmem)
  | _ => trivial

/-! ### Rows stay -/

lemma hasRow_of_create {prisma : PrismaClient} {input : CreateWorkItemInput}
    {uuid : WorkItemId} {clock : Instant} {pg pg' : Postgres} {r : WorkItem}
    (h : Postgres.createWorkItem prisma input uuid clock pg = .ok (r, pg')) {w : WorkItemId}
    (hw : HasRow pg w) : HasRow pg' w := by
  obtain ⟨-, -, -, hrows⟩ := Postgres.createWorkItem_ok h
  rw [HasRow, hrows]
  split_ifs
  · exact ⟨r, rfl⟩
  · exact hw

lemma hasRow_of_created {prisma : PrismaClient} {input : CreateWorkItemInput}
    {uuid : WorkItemId} {clock : Instant} {pg pg' : Postgres} {r : WorkItem}
    (h : Postgres.createWorkItem prisma input uuid clock pg = .ok (r, pg')) {w : WorkItemId}
    (hw : HasRow pg' w) : HasRow pg w ∨ w = r.id := by
  obtain ⟨-, -, -, hrows⟩ := Postgres.createWorkItem_ok h
  rw [HasRow, hrows] at hw
  split_ifs at hw with hid
  · exact .inr hid
  · exact .inl hw

lemma newRows_self (pg : Postgres) : newRows pg pg = [] := by
  simp [newRows]

lemma newRows_of_create {prisma : PrismaClient} {input : CreateWorkItemInput}
    {uuid : WorkItemId} {clock : Instant} {pg pg' : Postgres} {r : WorkItem}
    (h : Postgres.createWorkItem prisma input uuid clock pg = .ok (r, pg')) :
    newRows pg pg' = [r.id] := by
  obtain ⟨-, -, htables, -⟩ := Postgres.createWorkItem_ok h
  simp [newRows, htables, Tables.insertWorkItem]

lemma hasRow_of_command {prisma : PrismaClient} {write : PostgresWrite} {clock : Instant}
    {pg pg' : Postgres} (h : write.command prisma clock pg = .ok ((), pg')) (w : WorkItemId) :
    HasRow pg' w ↔ HasRow pg w := by
  rcases PostgresWrite.row_of_command h w with ⟨hnone, hnone'⟩ | ⟨r, r', hr, hr', -⟩
  · simp [HasRow, hnone, hnone']
  · simp [HasRow, hr, hr']

section

variable {d : SignalDebouncer} {signal : IngestionSignal} {signals : List IngestionSignal}
  {increments : List Increment} {io : Io} {st : BatchStores}

lemma hasRow_of_resolveStep {world : World} (pc : ResolvePc) {w : WorkItemId}
    (hw : HasRow world.postgres w) :
    HasRow (d.resolveStep signal io world pc).1.postgres w := by
  rcases SignalDebouncer.resolveStep_postgres pc with hsame | ⟨_, _, r, -, hcreate⟩
  · rw [hsame]
    exact hw
  · exact hasRow_of_create hcreate hw

/-- Behind the look-up, a step of `processBatch` leaves Postgres and Redis alone. -/
lemma BatchRuns.world {pc : BatchPc} {step : BatchStep}
    (h : BatchRuns d signals increments io st pc step) : step.stores.world = st.world ∨
      ∃ resolved rpc signal, pc = .resolving resolved rpc ∧ rpc.isDone = false ∧
        signals[resolved.length]? = some signal ∧
        step = ⟨{ st with world := (d.resolveStep signal io st.world rpc).1 },
          .resolving resolved (d.resolveStep signal io st.world rpc).2, increments, []⟩ := by
  cases h with
  | resolve hsignal hdone => exact .inr ⟨_, _, _, rfl, hdone, hsignal, rfl⟩
  | _ => exact .inl rfl

lemma BatchRuns.hasRow {pc : BatchPc} {step : BatchStep}
    (h : BatchRuns d signals increments io st pc step) {w : WorkItemId}
    (hw : HasRow st.world.postgres w) : HasRow step.stores.world.postgres w := by
  rcases h.world with hsame | ⟨_, rpc, signal, -, -, -, rfl⟩
  · rw [hsame]
    exact hw
  · exact hasRow_of_resolveStep rpc hw

/-- The call of `incrementSignalCount` leaves Postgres as it is or has added its amount. -/
lemma incrementStep_postgres (increment : Increment) :
    (incrementStep d io st increment).1.world.postgres = st.world.postgres ∨
      ∃ r, Postgres.incrementSignalCount d.workItemStore increment.workItemId increment.amount
        io.now st.world.postgres
          = .ok (r, (incrementStep d io st increment).1.world.postgres) :=
  perform_snd _ io.outcome st.world.postgres

lemma workItemId_incrementStep (increment : Increment) :
    (incrementStep d io st increment).2.workItemId = increment.workItemId := by
  simp only [incrementStep]
  split <;> rfl

lemma hasRow_of_incrementStep (increment : Increment) {w : WorkItemId}
    (hw : HasRow st.world.postgres w) :
    HasRow (incrementStep d io st increment).1.world.postgres w := by
  rcases incrementStep_postgres increment with hsame | ⟨r, hcommand⟩
  · rw [hsame]
    exact hw
  · obtain ⟨_, -, -, hrows, -⟩ := Postgres.incrementSignalCount_ok hcommand
    rw [HasRow, hrows]
    split_ifs
    · exact ⟨r, rfl⟩
    · exact hw

/-- A step of a batch keeps what it refers to among the rows. -/
lemma BatchRuns.names {pc : BatchPc} {step : BatchStep}
    (h : BatchRuns d signals increments io st pc step)
    (hsessions : SessionsName (HasRow st.world.postgres) st.world.redis)
    (hpc : pc.Names (HasRow st.world.postgres)) :
    step.pc.Names (HasRow step.stores.world.postgres) := by
  cases h with
  | resolve hsignal hdone =>
    rename_i resolved rpc signal
    refine ⟨fun result hmem => hasRow_of_resolveStep rpc (hpc.1 result hmem), ?_⟩
    -- sessions name rows, and what a call finds or creates is a row
    refine (SignalDebouncer.resolveRuns _).justified
      (hpc.2.imp (fun w _ => hasRow_of_resolveStep rpc) (fun w => hasRow_of_resolveStep rpc)
        fun w => hasRow_of_resolveStep rpc) (fun _ hw => hw)
      (fun w hw => hasRow_of_resolveStep rpc (hsessions _ w hw)) (fun _ _ _ _ hw => hw) ?_
    intro locked result hseeding
    obtain ⟨r, hr, -⟩ := SignalDebouncer.active_of_seeding hseeding
    exact ⟨r, hr⟩
  | resolved =>
    rename_i resolved result
    have hall : ∀ x ∈ resolved ++ [result], HasRow st.world.postgres x.workItemId := by
      intro x hx
      rcases List.mem_append.1 hx with hold | hnew
      · exact hpc.1 x hold
      · rw [List.mem_singleton.1 hnew]
        exact hpc.2
    dsimp only [BatchPc.next]
    split_ifs
    · exact ⟨hall, trivial⟩
    · exact hall
  | lookUpNone => exact hpc
  | lookUp => exact hpc
  | insert => exact hpc
  | insertLast => exact hpc
  | fulfilled => exact hpc
  | upserted => exact hpc
  | _ => trivial

lemma BatchRuns.sessionsName {pc : BatchPc} {step : BatchStep}
    (h : BatchRuns d signals increments io st pc step)
    (hsessions : SessionsName (HasRow st.world.postgres) st.world.redis)
    (hpc : pc.Names (HasRow st.world.postgres)) :
    SessionsName (HasRow step.stores.world.postgres) step.stores.world.redis := by
  rcases h.world with hsame | ⟨resolved, rpc, signal, rfl, -, -, rfl⟩
  · rw [hsame]
    exact hsessions
  intro c w hw
  refine hasRow_of_resolveStep rpc ?_
  rcases SignalDebouncer.resolveStep_session rpc c with hkept | hseed
  · exact hsessions c w (hkept.1 ▸ hw)
  · obtain ⟨locked, result, startedAtMs, rfl, -, hsession⟩ := hseed
    rw [hsession] at hw
    cases hw
    exact hpc.2

/-- Increments are started for work items of the resolutions. -/
lemma BatchRuns.increments_names {P : WorkItemId → Prop} {pc : BatchPc} {step : BatchStep}
    (h : BatchRuns d signals increments io st pc step) (hpc : pc.Names P)
    (hincrements : ∀ increment ∈ increments, P increment.workItemId) :
    ∀ increment ∈ step.increments, P increment.workItemId := by
  have hstart : ∀ resolutions ids, (∀ result ∈ resolutions, P result.workItemId) →
      ∀ increment ∈ startIncrements signals resolutions ids, P increment.workItemId := by
    intro resolutions ids hresolutions increment hmem
    obtain ⟨entry, hentry, rfl⟩ := List.mem_map.1 hmem
    obtain ⟨result, hresult, hw⟩ := mem_insertedWorkItemIds
      (mem_incrementsByWorkItemId.1 (List.mem_map_of_mem hentry))
    rw [← hw]
    exact hresolutions result hresult
  cases h with
  | lookUpNone => exact hstart _ _ hpc
  | insertLast => exact hstart _ _ hpc
  | _ => exact hincrements

end

/-! ### Runs -/

namespace Pipeline

variable {worker : SignalWorker} {s₀ s s' : Pipeline}

/-- Every reference is to a row. -/
structure RefsInv (s : Pipeline) : Prop where
  sessions : SessionsName (HasRow s.stores.world.postgres) s.stores.world.redis
  resolutions : ∀ (a : ℕ) (attempt : Attempt), s.attempts[a]? = some attempt →
    attempt.pc.Names (HasRow s.stores.world.postgres)
  increments : ∀ (a : ℕ) (attempt : Attempt), s.attempts[a]? = some attempt →
    ∀ increment ∈ attempt.increments, HasRow s.stores.world.postgres increment.workItemId

/-- No event removes a row. -/
lemma hasRow_of_step {e : PipelineEvent} (h : s.step worker e = some s') {w : WorkItemId}
    (hw : HasRow s.stores.world.postgres w) : HasRow s'.stores.world.postgres w := by
  rcases stores_of_step h with heq | ⟨_, _, step, -, hruns, heq⟩ | ⟨_, increment, heq⟩ |
    ⟨_, _, _, hcommand, heq⟩ | ⟨_, heq⟩ <;> rw [heq]
  · exact hw
  · exact hruns.hasRow hw
  · exact hasRow_of_incrementStep increment hw
  · exact (hasRow_of_command hcommand w).2 hw
  · exact hw

/-- An event that changes one attempt keeps the references of the others. -/
lemma RefsInv.setAttempt (h : s.RefsInv)
    (hrows : ∀ w, HasRow s.stores.world.postgres w → HasRow s'.stores.world.postgres w)
    {a : ℕ} {attempt' : Attempt} (hattempts : s'.attempts = s.attempts.set a attempt')
    (hsessions : SessionsName (HasRow s'.stores.world.postgres) s'.stores.world.redis)
    (hpc : attempt'.pc.Names (HasRow s'.stores.world.postgres))
    (hincrements : ∀ increment ∈ attempt'.increments,
      HasRow s'.stores.world.postgres increment.workItemId) : s'.RefsInv := by
  refine ⟨hsessions, ?_, ?_⟩
  · intro b old hb
    rw [hattempts] at hb
    rcases getElem?_set_cases hb with ⟨-, rfl⟩ | ⟨-, hb⟩
    · exact hpc
    · exact (h.resolutions b old hb).imp hrows
  · intro b old hb
    rw [hattempts] at hb
    rcases getElem?_set_cases hb with ⟨-, rfl⟩ | ⟨-, hb⟩
    · exact hincrements
    · exact fun increment hmem => hrows _ (h.increments b old hb increment hmem)

/-- Every event keeps the references. -/
lemma RefsInv.step (h : s.RefsInv) {e : PipelineEvent} (hstep : s.step worker e = some s') :
    s'.RefsInv := by
  have hrows : ∀ w, HasRow s.stores.world.postgres w → HasRow s'.stores.world.postgres w :=
    fun _ => hasRow_of_step hstep
  cases e with
  | enqueue signals =>
    obtain rfl := step_enqueue_inv hstep
    exact ⟨h.sessions, h.resolutions, h.increments⟩
  | take j =>
    obtain ⟨job, -, -, rfl⟩ := step_take_inv hstep
    refine ⟨h.sessions, ?_, ?_⟩
    · intro b old hb
      rcases getElem?_concat_cases hb with ⟨-, rfl⟩ | hb
      · exact BatchPc.names_start _ _
      · exact h.resolutions b old hb
    · intro b old hb
      rcases getElem?_concat_cases hb with ⟨-, rfl⟩ | hb
      · exact fun _ hmem => (nomatch hmem)
      · exact h.increments b old hb
  | step a io =>
    obtain ⟨attempt, hattempt, ⟨-, rfl⟩ | ⟨e, -, rfl⟩ | ⟨step, hruns, -, rfl⟩⟩ :=
      step_step_inv hstep
    · exact h.setAttempt hrows (s.onReturn_attempts a attempt)
        (by rw [onReturn_stores]; exact h.sessions) trivial
        (by rw [onReturn_stores]; exact h.increments a attempt hattempt)
    · exact h.setAttempt hrows (s.onThrow_attempts a attempt)
        (by rw [onThrow_stores]; exact h.sessions) trivial
        (by rw [onThrow_stores]; exact h.increments a attempt hattempt)
    · have hpc := h.resolutions a attempt hattempt
      refine h.setAttempt hrows rfl (hruns.sessionsName h.sessions hpc)
        (hruns.names h.sessions hpc) fun increment hmem => hrows _ ?_
      exact hruns.increments_names hpc (h.increments a attempt hattempt) increment hmem
  | increment a k io =>
    obtain ⟨attempt, increment, hattempt, hk, -, rfl⟩ := step_increment_inv hstep
    refine h.setAttempt hrows rfl (fun c w hw => hrows _ (h.sessions c w hw))
      ((h.resolutions a attempt hattempt).imp hrows) fun other hmem => hrows _ ?_
    rcases List.mem_or_eq_of_mem_set hmem with hold | rfl
    · exact h.increments a attempt hattempt other hold
    · rw [workItemId_incrementStep]
      exact h.increments a attempt hattempt increment (List.mem_of_getElem? hk)
  | crash a =>
    obtain ⟨attempt, -, -, rfl⟩ := step_crash_inv hstep
    exact h.setAttempt hrows rfl h.sessions trivial fun _ hmem => (nomatch hmem)
  | stall j =>
    obtain ⟨_, _, -, -, rfl⟩ := step_stall_inv hstep
    exact ⟨h.sessions, h.resolutions, h.increments⟩
  | write write clock =>
    obtain ⟨-, -, _, -, rfl⟩ := step_write_inv hstep
    exact ⟨fun c w hw => hrows _ (h.sessions c w hw),
      fun b old hb => (h.resolutions b old hb).imp hrows,
      fun b old hb increment hmem => hrows _ (h.increments b old hb increment hmem)⟩
  | sessionLost c =>
    obtain rfl := Option.some.inj hstep
    refine ⟨?_, h.resolutions, h.increments⟩
    intro c' w hw
    dsimp only at hw
    rw [Redis.session_setSession] at hw
    split_ifs at hw
    · cases hw
    · exact h.sessions c' w hw
  | lockLost c =>
    obtain rfl := Option.some.inj hstep
    exact ⟨h.sessions, h.resolutions, h.increments⟩

/-! ### The history of inserted rows -/

/-- An event inserts a row only where an attempt creates one; the history then
records the row and the attempt. -/
lemma insertions_of_step {e : PipelineEvent} (h : s.step worker e = some s') :
    (s'.insertions = s.insertions ∧
        ∀ w, HasRow s'.stores.world.postgres w → HasRow s.stores.world.postgres w) ∨
      ∃ a io attempt resolved locked n signal r, e = .step a io ∧
        s.attempts[a]? = some attempt ∧ attempt.pc = .resolving resolved (.create locked n) ∧
        attempt.signals[resolved.length]? = some signal ∧
        Postgres.createWorkItem worker.debouncer.workItemStore
          (SignalDebouncer.toCreateInput signal) io.uuid io.now s.stores.world.postgres
            = .ok (r, s'.stores.world.postgres) ∧
        s' = s.onStep a attempt ⟨{ s.stores with world := (worker.debouncer.resolveStep signal io
            s.stores.world (.create locked n)).1 },
          .resolving resolved (worker.debouncer.resolveStep signal io
            s.stores.world (.create locked n)).2, attempt.increments, []⟩ ∧
        s'.insertions = s.insertions ++ [(r.id, a)] := by
  cases e with
  | enqueue signals =>
    obtain rfl := step_enqueue_inv h
    exact .inl ⟨rfl, fun _ hw => hw⟩
  | take i =>
    obtain ⟨_, -, -, rfl⟩ := step_take_inv h
    exact .inl ⟨rfl, fun _ hw => hw⟩
  | step a io =>
    obtain ⟨attempt, hattempt, ⟨-, rfl⟩ | ⟨e, -, rfl⟩ | ⟨step, hruns, -, rfl⟩⟩ := step_step_inv h
    · left
      rw [onReturn_stores]
      rcases s.onReturn_cases a attempt with ⟨heq, -⟩ | ⟨_, -, -, heq⟩ <;> rw [heq] <;>
        exact ⟨rfl, fun _ hw => hw⟩
    · left
      rw [onThrow_stores]
      rcases s.onThrow_cases a attempt with ⟨heq, -⟩ | ⟨_, -, -, heq⟩ <;> rw [heq] <;>
        exact ⟨rfl, fun _ hw => hw⟩
    · have hsame : step.stores.world.postgres = s.stores.world.postgres →
          (s.onStep a attempt step).insertions = s.insertions ∧
            ∀ w, HasRow (s.onStep a attempt step).stores.world.postgres w →
              HasRow s.stores.world.postgres w := by
        intro hpostgres
        simp only [onStep, hpostgres, newRows_self, List.map_nil, List.append_nil, true_and]
        exact fun _ hw => hw
      -- only a call of `resolve` can insert a row, and only where it creates one
      rcases hruns.world with hworld | ⟨resolved, rpc, signal, hpc, -, hsignal, rfl⟩
      · exact .inl (hsame (by rw [hworld]))
      · rcases SignalDebouncer.resolveStep_postgres rpc with hpostgres | ⟨locked, n, r, rfl, hr⟩
        · exact .inl (hsame hpostgres)
        · refine .inr ⟨a, io, attempt, resolved, locked, n, signal, r, rfl, hattempt, hpc, hsignal,
            hr, rfl, ?_⟩
          simp only [onStep, newRows_of_create hr, List.map_cons, List.map_nil]
  | increment a k io =>
    obtain ⟨_, increment, -, -, -, rfl⟩ := step_increment_inv h
    refine .inl ⟨rfl, ?_⟩
    intro w hw
    rcases incrementStep_postgres increment with hsame | ⟨r, hcommand⟩
    · rw [onIncrement, hsame] at hw
      exact hw
    · obtain ⟨r₀, hr₀, -, hrows, -⟩ := Postgres.incrementSignalCount_ok hcommand
      rw [onIncrement, HasRow, hrows] at hw
      split_ifs at hw with hid
      · exact hid ▸ ⟨r₀, hr₀⟩
      · exact hw
  | crash a =>
    obtain ⟨_, -, -, rfl⟩ := step_crash_inv h
    exact .inl ⟨rfl, fun _ hw => hw⟩
  | stall i =>
    obtain ⟨_, _, -, -, rfl⟩ := step_stall_inv h
    exact .inl ⟨rfl, fun _ hw => hw⟩
  | write write clock =>
    obtain ⟨-, -, _, hcommand, rfl⟩ := step_write_inv h
    exact .inl ⟨rfl, fun w => (hasRow_of_command hcommand w).1⟩
  | sessionLost c =>
    obtain rfl := Option.some.inj h
    exact .inl ⟨rfl, fun _ hw => hw⟩
  | lockLost c =>
    obtain rfl := Option.some.inj h
    exact .inl ⟨rfl, fun _ hw => hw⟩

end Pipeline

end InveniOps.Workers
