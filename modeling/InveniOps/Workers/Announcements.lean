import InveniOps.Workers.WorkItemRefs

/-!
# Announcing created work items

That a row was created is known only to the attempt that created it: the result
with `created: true` travels from `resolve` to the calls of `dispatch`.  A row is
announced unless the attempt loses this result on the way.
-/

namespace InveniOps.Ingestion

open Stores

/-- The result that a call holds. -/
def ResolvePc.held : ResolvePc → Option DebounceResult
  | .seeding _ result | .seed _ result _ | .expire _ result => some result
  | .release (.ok result) | .done (.ok result) => some result
  | _ => none

/-- Whether the call has thrown. -/
def ResolvePc.hasThrown : ResolvePc → Bool
  | .done (.error _) => true
  | _ => false

/-- A call that creates a row keeps its result: the row is not inserted behind an
error, and no command behind the insert fails. -/
def ResolvePc.KeepsCreated (postgres : Postgres) (componentId : ComponentId) (outcome : Outcome) :
    ResolvePc → Prop
  | .create _ _ =>
    match outcome with
    | .fault true _ => (postgres.activeOf componentId).isEmpty = false
    | _ => True
  | .seed _ result _ | .expire _ result | .release (.ok result) =>
    result.created = true → outcome = .ok
  | _ => True

instance (postgres : Postgres) (componentId : ComponentId) (outcome : Outcome) (pc : ResolvePc) :
    Decidable (pc.KeepsCreated postgres componentId outcome) :=
  match pc, outcome with
  | .create _ _, .ok | .create _ _, .fault true _ | .create _ _, .fault false _
  | .seed _ _ _, _ | .expire _ _, _ | .release (.ok _), _ | .release (.error _), _
  | .readSession, _ | .judgeSession _, _ | .bump _, _ | .acquireLock, _ | .startPolling, _
  | .pollTest _, _ | .pollRead _, _ | .pollJudge _ _, _ | .findActive _, _ | .findWinner _, _
  | .seeding _ _, _ | .done _, _ => by
    delta ResolvePc.KeepsCreated
    infer_instance

namespace SignalDebouncer

variable {d : SignalDebouncer} {signal : IngestionSignal} {io : Io} {w : World}

lemma held_leave_ok (locked : Bool) (result : DebounceResult) :
    (leave locked (.ok result)).held = some result := by
  cases locked <;> rfl

/-- A call that keeps its created row still holds the result behind a step. -/
lemma held_resolveStep {pc : ResolvePc} {result : DebounceResult} (h : pc.held = some result)
    (hcreated : result.created = true)
    (hkeeps : pc.KeepsCreated w.postgres signal.componentId io.outcome) :
    (d.resolveStep signal io w pc).2.held = some result := by
  cases pc with
  | seeding locked held => exact h
  | seed locked held startedAtMs =>
    obtain rfl := Option.some.inj h
    simp only [resolveStep, onRedis, hkeeps hcreated]
    exact rfl
  | expire locked held =>
    obtain rfl := Option.some.inj h
    simp only [resolveStep, onRedis, hkeeps hcreated]
    exact held_leave_ok locked held
  | release outcome => cases outcome with
    | error e => cases h
    | ok held =>
      obtain rfl := Option.some.inj h
      simp only [resolveStep, onRedis, hkeeps hcreated]
      exact rfl
  | done outcome => exact h
  | _ => cases h

/-- A call that inserts a row and keeps it holds its result. -/
lemma held_create {locked : Bool} {n : ℕ} {r : WorkItem}
    (hcreate : Postgres.createWorkItem d.workItemStore (toCreateInput signal) io.uuid io.now
      w.postgres = .ok (r, (d.resolveStep signal io w (.create locked n)).1.postgres))
    (hkeeps : (ResolvePc.create locked n).KeepsCreated w.postgres signal.componentId io.outcome) :
    (d.resolveStep signal io w (.create locked n)).2.held = some ⟨r.id, true⟩ := by
  obtain ⟨-, hfresh, -, hrows⟩ := Postgres.createWorkItem_ok hcreate
  cases houtcome : io.outcome with
  | ok =>
    have hreply := perform_ok_of hcreate
    show (d.afterCreate locked n (perform _ io.outcome w.postgres).1).held = _
    rw [houtcome, hreply]
    rfl
  | fault applied e => cases applied with
    | true =>
      -- a component with an active item gets no other one
      rw [houtcome] at hkeeps
      obtain ⟨x, hx⟩ := List.exists_mem_of_ne_nil _ (List.isEmpty_eq_false_iff.1 hkeeps)
      obtain ⟨hrow, hcomponent, hactive⟩ := Postgres.mem_activeOf.1 hx
      have hx := (activeItem_of_create hcreate _ x.id).2 (.inl ⟨x, hrow, hcomponent, hactive⟩)
      have hr := (activeItem_of_create hcreate _ r.id).2 (.inr ⟨rfl, rfl⟩)
      rw [hr.unique hx, hrow] at hfresh
      cases hfresh
    | false =>
      have hsame : (d.resolveStep signal io w (.create locked n)).1.postgres = w.postgres := by
        simp only [resolveStep, onPostgres, houtcome, perform]
      rw [hsame] at hrows
      have hrow := hrows r.id
      rw [hfresh, if_pos rfl] at hrow
      cases hrow

end SignalDebouncer

end InveniOps.Ingestion

namespace InveniOps.Workers

open Lib Stores Ingestion

/-- The results that a run of `processBatch` holds before it has announced. -/
def BatchPc.held : BatchPc → List DebounceResult
  | .resolving resolved pc => resolved ++ pc.held.toList
  | .lookUp resolutions | .inserting resolutions _ _ | .incrementing resolutions
  | .upserting resolutions _ | .announcing resolutions _ => resolutions
  | _ => []

/-- The run holds no result of a row that it created. -/
def BatchPc.HoldsNoCreated (pc : BatchPc) : Prop := ∀ result ∈ pc.held, result.created = false

instance (pc : BatchPc) : Decidable pc.HoldsNoCreated :=
  inferInstanceAs (Decidable (∀ result ∈ pc.held, result.created = false))

/-- `w` is on its way to `updatedWorkItems`. -/
def BatchPc.Updates (signals : List IngestionSignal) (increments : List Increment)
    (w : WorkItemId) : BatchPc → Prop
  | .resolving _ _ | .lookUp _ => True
  | .inserting resolutions attempted rest =>
    attempted.map (·.1) ++ rest ⊆ batchDocuments signals resolutions ∧
      ∃ doc ∈ insertedDocuments attempted ++ rest, doc.workItemId = some w
  | .incrementing _ => ∃ increment ∈ increments, increment.workItemId = w
  | .upserting _ updated | .announcing _ updated => w ∈ updated
  | _ => False

/-- The run will announce `w`, if nothing comes between. -/
def BatchPc.Carries (signals : List IngestionSignal) (increments : List Increment)
    (pc : BatchPc) (w : WorkItemId) : Prop :=
  ⟨w, true⟩ ∈ pc.held ∧ pc.Updates signals increments w

/-- A step of a run keeps the created rows that it holds on their way: no error
ends the run, the look-up finds a signal of each of them new, and of the documents
of each of them one is inserted. -/
def BatchPc.KeepsCreated (signals : List IngestionSignal) (increments : List Increment)
    (io : Io) (st : BatchStores) (pc : BatchPc) : Prop :=
  match pc with
  | .resolving resolved rpc => (rpc.hasThrown = true → pc.HoldsNoCreated) ∧
    ∀ signal ∈ signals[resolved.length]?,
      rpc.KeepsCreated st.world.postgres signal.componentId io.outcome
  | .lookUp resolutions =>
    match io.outcome with
    | .ok => ∀ result ∈ resolutions, result.created = true →
      ∃ doc ∈ newDocuments signals st.mongo resolutions, doc.workItemId = some result.workItemId
    | .fault _ _ => pc.HoldsNoCreated
  | .inserting resolutions attempted (doc :: rest) =>
    match io.outcome with
    | .ok => ∀ result ∈ resolutions, result.created = true →
      doc.workItemId = some result.workItemId → st.mongo.Has doc.signalId →
        ∃ other ∈ insertedDocuments attempted ++ rest,
          other.workItemId = some result.workItemId
    | .fault _ _ => pc.HoldsNoCreated
  | .incrementing _ => (firstRejection increments).isSome = true → pc.HoldsNoCreated
  | _ => True

section

variable {d : SignalDebouncer} {signals : List IngestionSignal} {increments : List Increment}
  {io : Io} {st : BatchStores}

/-- A run that holds no created row carries none. -/
lemma BatchPc.HoldsNoCreated.not_carries {pc : BatchPc} (h : pc.HoldsNoCreated) (x : WorkItemId) :
    ¬ pc.Carries signals increments x := fun hcarries => nomatch h _ hcarries.1

lemma BatchPc.not_carries_of_isOver {pc : BatchPc} (h : pc.isOver = true) {x : WorkItemId} :
    ¬ pc.Carries signals increments x := by
  cases pc with
  | settled | crashed => exact fun hcarries => nomatch hcarries.1
  | _ => simp [BatchPc.isOver] at h

/-- An increment that moves stays with its work item. -/
lemma BatchPc.Carries.setIncrement {pc : BatchPc} {x : WorkItemId}
    (h : pc.Carries signals increments x) {k : ℕ} {old new : Increment}
    (hk : increments[k]? = some old) (hw : new.workItemId = old.workItemId) :
    pc.Carries signals (increments.set k new) x := by
  refine ⟨h.1, ?_⟩
  have hupdates := h.2
  cases pc with
  | incrementing resolutions =>
    obtain ⟨increment, hmem, rfl⟩ := hupdates
    rcases List.mem_cons.1 ((perm_cons_eraseIdx hk).mem_iff.1 hmem) with rfl | hother
    · exact ⟨new, List.mem_of_getElem? (getElem?_set_self_of hk new), hw⟩
    · exact ⟨increment, (set_perm_of_getElem? hk new).mem_iff.2
        (List.mem_cons_of_mem _ hother), rfl⟩
  | _ => exact hupdates

/-- Of the documents of a work item one is inserted or left, if the next one is new
or not the last of them. -/
lemma some_insert_of_keeps {mongo : Mongo} {attempted : List (SignalDocument × Bool)}
    {doc : SignalDocument} {rest : List SignalDocument} {x : WorkItemId}
    (hkeeps : doc.workItemId = some x → mongo.Has doc.signalId →
      ∃ other ∈ insertedDocuments attempted ++ rest, other.workItemId = some x)
    (h : ∃ other ∈ insertedDocuments attempted ++ (doc :: rest), other.workItemId = some x) :
    ∃ other ∈ insertedDocuments (attempted ++ [(doc, (mongo.insert doc).2)]) ++ rest,
      other.workItemId = some x := by
  rw [insertedDocuments_concat]
  -- what was inserted or left before is so still, but for the document itself
  have hold : (∃ other ∈ insertedDocuments attempted ++ rest, other.workItemId = some x) →
      ∃ other ∈ (insertedDocuments attempted ++ if (mongo.insert doc).2 then [doc] else []) ++ rest,
        other.workItemId = some x := by
    rintro ⟨other, hmem, hx⟩
    refine ⟨other, ?_, hx⟩
    rcases List.mem_append.1 hmem with hmem | hmem
    · exact List.mem_append_left _ (List.mem_append_left _ hmem)
    · exact List.mem_append_right _ hmem
  obtain ⟨other, hmem, hx⟩ := h
  rcases List.mem_append.1 hmem with hmem | hmem
  · exact hold ⟨other, List.mem_append_left _ hmem, hx⟩
  · rcases List.mem_cons.1 hmem with rfl | hmem
    · by_cases hhas : mongo.Has other.signalId
      · exact hold (hkeeps hx hhas)
      · exact ⟨other, by simp [Mongo.insert_snd.2 hhas], hx⟩
    · exact hold ⟨other, List.mem_append_right _ hmem, hx⟩

/-- The work item of an inserted document gets an increment. -/
lemma mem_startIncrements {resolutions : List DebounceResult}
    {attempted : List (SignalDocument × Bool)} {doc : SignalDocument} {x : WorkItemId}
    (hsub : attempted.map (·.1) ⊆ batchDocuments signals resolutions)
    (hdoc : doc ∈ insertedDocuments attempted) (hx : doc.workItemId = some x) :
    ∃ increment ∈ startIncrements signals resolutions (reportedIds attempted),
      increment.workItemId = x := by
  obtain ⟨entry, hentry, rfl⟩ := List.mem_map.1 hdoc
  have hmem : some x ∈ (insertedWorkItemIds signals resolutions (reportedIds attempted)).map
      some := by
    rw [insertedWorkItemIds_eq]
    refine List.mem_map.2 ⟨entry.1, List.mem_filter.2
      ⟨hsub (List.mem_map_of_mem (List.mem_of_mem_filter hentry)), ?_⟩, hx⟩
    rw [List.contains_iff_mem]
    exact List.mem_map.2 ⟨entry, hentry, rfl⟩
  obtain ⟨y, hy, hyx⟩ := List.mem_map.1 hmem
  obtain rfl := Option.some.inj hyx
  obtain ⟨pair, hpair, hy⟩ := List.mem_map.1 (mem_incrementsByWorkItemId.2 hy)
  exact ⟨_, List.mem_map_of_mem hpair, hy⟩

/-- A step that keeps created rows announces a carried row or carries it on. -/
lemma BatchRuns.carries {pc : BatchPc} {step : BatchStep}
    (h : BatchRuns d signals increments io st pc step) {x : WorkItemId}
    (hcarries : pc.Carries signals increments x)
    (hkeeps : pc.KeepsCreated signals increments io st) :
    x ∈ step.dispatched ∨ step.pc.Carries signals step.increments x := by
  obtain ⟨hheld, hupdates⟩ := hcarries
  cases h with
  | resolve hsignal hdone =>
    refine .inr ⟨?_, trivial⟩
    -- held by an earlier result, or by the call that is running
    rcases List.mem_append.1 hheld with hold | hnew
    · exact List.mem_append_left _ hold
    · refine List.mem_append_right _ ?_
      rw [SignalDebouncer.held_resolveStep (Option.mem_toList.1 hnew) rfl
        (hkeeps.2 _ hsignal)]
      exact List.mem_singleton_self _
  | resolved =>
    right
    dsimp only [BatchPc.next]
    split_ifs
    · exact ⟨List.mem_append_left _ hheld, trivial⟩
    · exact ⟨hheld, trivial⟩
  | resolveThrew => exact absurd ⟨hheld, hupdates⟩ ((hkeeps.1 rfl).not_carries x)
  | lookUpThrew houtcome =>
    simp only [BatchPc.KeepsCreated, houtcome] at hkeeps
    exact absurd ⟨hheld, hupdates⟩ (hkeeps.not_carries x)
  | lookUpNone houtcome hnew =>
    simp only [BatchPc.KeepsCreated, houtcome] at hkeeps
    obtain ⟨doc, hdoc, -⟩ := hkeeps _ hheld rfl
    simp [hnew] at hdoc
  | lookUp houtcome hnew =>
    simp only [BatchPc.KeepsCreated, houtcome] at hkeeps
    obtain ⟨doc, hdoc, hx⟩ := hkeeps _ hheld rfl
    exact .inr ⟨hheld, fun _ hmem => List.mem_of_mem_filter hmem, doc,
      List.mem_append_right _ hdoc, hx⟩
  | insertThrew houtcome =>
    simp only [BatchPc.KeepsCreated, houtcome] at hkeeps
    exact absurd ⟨hheld, hupdates⟩ (hkeeps.not_carries x)
  | insert houtcome hrest =>
    simp only [BatchPc.KeepsCreated, houtcome] at hkeeps
    obtain ⟨hsub, hdoc⟩ := hupdates
    exact .inr ⟨hheld, by simpa using hsub,
      some_insert_of_keeps (fun hx hhas => hkeeps _ hheld rfl hx hhas) hdoc⟩
  | insertLast houtcome =>
    simp only [BatchPc.KeepsCreated, houtcome] at hkeeps
    obtain ⟨hsub, hdoc⟩ := hupdates
    obtain ⟨doc, hdoc, hx⟩ :=
      some_insert_of_keeps (fun hx hhas => hkeeps _ hheld rfl hx hhas) hdoc
    rw [List.append_nil] at hdoc
    exact .inr ⟨hheld, mem_startIncrements (by simpa using hsub) hdoc hx⟩
  | rejected hfirst => exact absurd ⟨hheld, hupdates⟩ ((hkeeps (by rw [hfirst]; rfl)).not_carries x)
  | fulfilled hall =>
    obtain ⟨increment, hmem, rfl⟩ := hupdates
    exact .inr ⟨hheld, List.mem_map_of_mem hmem⟩
  | upserted => exact .inr ⟨hheld, hupdates⟩
  | announced =>
    left
    -- announced are the updated work items that a resolution created
    refine List.mem_filter.2 ⟨hupdates, ?_⟩
    rw [List.contains_iff_mem]
    exact List.mem_map.2 ⟨_, List.mem_filter.2 ⟨hheld, rfl⟩, rfl⟩
  | recorded => cases hheld

end

/-! ### Runs -/

instance (signals : List IngestionSignal) (increments : List Increment) (io : Io)
    (st : BatchStores) (pc : BatchPc) : Decidable (pc.KeepsCreated signals increments io st) :=
  match pc, io with
  | .resolving _ _, _ | .lookUp _, ⟨.ok, _, _⟩ | .lookUp _, ⟨.fault _ _, _, _⟩
  | .inserting _ _ [], _ | .inserting _ _ (_ :: _), ⟨.ok, _, _⟩
  | .inserting _ _ (_ :: _), ⟨.fault _ _, _, _⟩ | .incrementing _, _ | .upserting _ _, _
  | .announcing _ _, _ | .recording, _ | .returned, _ | .threw _, _ | .settled, _
  | .crashed, _ => by
    delta BatchPc.KeepsCreated
    infer_instance

namespace Pipeline

variable {worker : SignalWorker} {s₀ s s' : Pipeline}

/-- Every step keeps the created rows that its attempt holds on their way, and no
process dies that holds one. -/
def KeepsCreated (s : Pipeline) : PipelineEvent → Prop
  | .step a io => ∀ attempt ∈ s.attempts[a]?,
    attempt.pc.KeepsCreated attempt.signals attempt.increments io s.stores
  | .crash a => ∀ attempt ∈ s.attempts[a]?, attempt.pc.HoldsNoCreated
  | _ => True

instance (s : Pipeline) (e : PipelineEvent) : Decidable (KeepsCreated s e) :=
  match e with
  | .enqueue _ | .take _ | .step _ _ | .increment _ _ _ | .crash _ | .stall _ | .write _ _
  | .sessionLost _ | .lockLost _ => by
    delta KeepsCreated
    infer_instance

/-- When a job has completed and its attempts are over, every row that they inserted
has been announced. -/
def Announced (s : Pipeline) : Prop :=
  ∀ j job, s.jobs[j]? = some job → job.status = .completed →
    (∀ attempt ∈ s.attempts, attempt.job = j → attempt.pc.isOver = true) →
      ∀ p ∈ s.insertions, s.jobOf p.2 = some j → p.1 ∈ s.dispatched

/-- The row is announced or carried by the attempt that inserted it. -/
def Carried (s : Pipeline) (p : WorkItemId × ℕ) : Prop :=
  ∃ attempt, s.attempts[p.2]? = some attempt ∧
    (p.1 ∈ s.dispatched ∨ attempt.pc.Carries attempt.signals attempt.increments p.1)

/-- Every inserted row is announced or carried. -/
def CarryInv (s : Pipeline) : Prop := ∀ p ∈ s.insertions, s.Carried p

/-- An event that changes one attempt keeps the rows carried if that attempt
announces what it carried or carries it on. -/
lemma Carried.setAttempt {p : WorkItemId × ℕ} (h : s.Carried p) {a : ℕ} {old new : Attempt}
    (hold : s.attempts[a]? = some old) (hattempts : s'.attempts = s.attempts.set a new)
    (hdispatched : s.dispatched ⊆ s'.dispatched)
    (hcarries : ∀ x, old.pc.Carries old.signals old.increments x →
      x ∈ s'.dispatched ∨ new.pc.Carries new.signals new.increments x) : s'.Carried p := by
  obtain ⟨attempt, hattempt, hp⟩ := h
  by_cases ha : a = p.2
  · subst ha
    obtain rfl := Option.some.inj (hold.symm.trans hattempt)
    refine ⟨new, by rw [hattempts]; exact getElem?_set_self_of hold new, ?_⟩
    exact hp.elim (fun hdone => .inl (hdispatched hdone)) (hcarries _)
  · exact ⟨attempt, by rw [hattempts, List.getElem?_set_ne ha, hattempt],
      hp.imp_left (hdispatched ·)⟩

/-- A step of an attempt keeps the rows carried that were inserted before. -/
lemma CarryInv.carried_of_step (h : s.CarryInv) {a : ℕ} {io : Io}
    (he : KeepsCreated s (.step a io)) (hstep : s.step worker (.step a io) = some s')
    {p : WorkItemId × ℕ} (hp : p ∈ s.insertions) : s'.Carried p := by
  obtain ⟨attempt, hattempt, ⟨hpc, rfl⟩ | ⟨e, hpc, rfl⟩ | ⟨step, hruns, -, rfl⟩⟩ :=
    step_step_inv hstep
  · refine (h p hp).setAttempt hattempt (s.onReturn_attempts a attempt) ?_ ?_
    · rcases s.onReturn_cases a attempt with ⟨heq, -⟩ | ⟨_, -, -, heq⟩ <;> rw [heq] <;>
        exact List.Subset.refl _
    · intro x hx
      rw [hpc] at hx
      exact absurd hx.1 (List.not_mem_nil)
  · refine (h p hp).setAttempt hattempt (s.onThrow_attempts a attempt) ?_ ?_
    · rcases s.onThrow_cases a attempt with ⟨heq, -⟩ | ⟨_, -, -, heq⟩ <;> rw [heq] <;>
        exact List.Subset.refl _
    · intro x hx
      rw [hpc] at hx
      exact absurd hx.1 (List.not_mem_nil)
  · refine (h p hp).setAttempt hattempt rfl (List.subset_append_left _ _) ?_
    intro x hx
    exact (hruns.carries hx (he attempt hattempt)).imp_left (List.mem_append_right _)

/-- Every event that meets the condition keeps the invariant. -/
lemma CarryInv.step (h : s.CarryInv) {e : PipelineEvent} (he : KeepsCreated s e)
    (hstep : s.step worker e = some s') : s'.CarryInv := by
  cases e with
  | enqueue signals =>
    obtain rfl := step_enqueue_inv hstep
    exact h
  | take j =>
    obtain ⟨job, -, -, rfl⟩ := step_take_inv hstep
    intro p hp
    obtain ⟨attempt, hattempt, hp⟩ := h p hp
    exact ⟨attempt, getElem?_concat_of hattempt _, hp⟩
  | step a io =>
    rcases insertions_of_step hstep with ⟨heq, -⟩ |
      ⟨_, _, attempt, resolved, locked, n, signal, r, heq', hattempt, hpc, hsignal, hcreate,
        hs', heq⟩
    · exact fun p hp => h.carried_of_step he hstep (heq ▸ hp)
    · cases heq'
      intro p hp
      rw [heq] at hp
      rcases List.mem_append.1 hp with hp | hp
      · exact h.carried_of_step he hstep hp
      · obtain rfl := List.mem_singleton.1 hp
        -- the call that inserts a row holds the result that says so
        have hkeeps := he attempt hattempt
        rw [hpc] at hkeeps
        rw [hs'] at hcreate ⊢
        refine ⟨_, getElem?_set_self_of hattempt _, .inr ⟨List.mem_append_right _ ?_, trivial⟩⟩
        rw [SignalDebouncer.held_create hcreate (hkeeps.2 _ hsignal)]
        exact List.mem_singleton_self _
  | increment a k io =>
    obtain ⟨attempt, increment, hattempt, hk, -, rfl⟩ := step_increment_inv hstep
    exact fun p hp => (h p hp).setAttempt hattempt rfl (List.Subset.refl _) fun x hx =>
      .inr (hx.setIncrement hk (workItemId_incrementStep increment))
  | crash a =>
    obtain ⟨attempt, hattempt, -, rfl⟩ := step_crash_inv hstep
    exact fun p hp => (h p hp).setAttempt hattempt rfl (List.Subset.refl _) fun x hx =>
      absurd hx ((he attempt hattempt).not_carries x)
  | stall j =>
    obtain ⟨_, _, -, -, rfl⟩ := step_stall_inv hstep
    exact h
  | write write clock =>
    obtain ⟨-, -, _, -, rfl⟩ := step_write_inv hstep
    exact h
  | sessionLost c =>
    obtain rfl := Option.some.inj hstep
    exact h
  | lockLost c =>
    obtain rfl := Option.some.inj hstep
    exact h

/-- In every run whose attempts keep the created rows on their way, the rows of a
completed job have been announced. -/
theorem announced_of_run (hinsertions : s₀.insertions = []) {es : List PipelineEvent}
    (hmeets : (lts worker).Meets KeepsCreated s₀ es) (hrun : (lts worker).run s₀ es = some s) :
    s.Announced := by
  have h₀ : s₀.CarryInv := by
    intro p hp
    simp [hinsertions] at hp
  have hstep : ∀ s e s', s.CarryInv → KeepsCreated s e → (lts worker).step s e = some s' →
      s'.CarryInv := fun _ _ _ h he hstep => h.step he hstep
  have hinv := Lts.run_invariant_of_meets hstep hrun hmeets h₀
  intro j job _ _ hover p hp hj
  obtain ⟨attempt, hattempt, hdone | hcarries⟩ := hinv p hp
  · exact hdone
  · rw [jobOf, hattempt] at hj
    have hpc := hover attempt (List.mem_of_getElem? hattempt) (Option.some.inj hj)
    -- an attempt that is over carries nothing
    exact absurd hcarries (BatchPc.not_carries_of_isOver hpc)

/-- The first attempt fails at its first command and the second one succeeds. -/
def secondTryEvents : List PipelineEvent :=
  [.enqueue [cacheSignal "a" "c" .P1], .take 0, .step 0 ⟨.fault false (.redis "down"), "v", 5⟩,
    .step 0 ⟨.ok, "v", 5⟩, .step 0 ⟨.ok, "v", 5⟩, .take 0] ++
    List.replicate 5 (.step 1 ⟨.ok, "w", 5⟩) ++ List.replicate 7 (.step 1 ⟨.ok, "v", 5⟩) ++
    .increment 1 0 ⟨.ok, "v", 5⟩ :: List.replicate 5 (.step 1 ⟨.ok, "v", 5⟩)

theorem announced_of_secondTryEvents : ∃ s,
    (lts .standard).run empty secondTryEvents = some s ∧ s.Announced ∧
      (s.jobs.map (·.status), s.insertions) = ([.completed], [("w", 1)]) := by
  have hobserved : ((lts .standard).run empty secondTryEvents).map (fun s =>
      (s.jobs.map (·.status), s.insertions)) = some ([.completed], [("w", 1)]) := by
    decide +kernel
  have hmeets : (lts .standard).Meets KeepsCreated empty secondTryEvents := by
    decide +kernel
  obtain ⟨s, hrun, hs⟩ := Option.map_eq_some_iff.1 hobserved
  exact ⟨s, hrun, announced_of_run rfl hmeets hrun, hs⟩

/-- The first attempt creates the row and fails at the look-up of its signal; the
second one finds the row. -/
def failedLookUpEvents : List PipelineEvent :=
  [.enqueue [cacheSignal "a" "c" .P1], .take 0] ++
    List.replicate 5 (.step 0 ⟨.ok, "w", 5⟩) ++ List.replicate 5 (.step 0 ⟨.ok, "v", 5⟩) ++
    [.step 0 ⟨.fault false (.mongo "down"), "v", 5⟩, .step 0 ⟨.ok, "v", 5⟩, .take 0] ++
    List.replicate 6 (.step 1 ⟨.ok, "v", 5⟩) ++
    .increment 1 0 ⟨.ok, "v", 5⟩ :: List.replicate 5 (.step 1 ⟨.ok, "v", 5⟩)

/-- A job completes, and the row that its first attempt inserted is never announced. -/
theorem created_item_unannounced :
    ¬ ∀ es s, (lts .standard).run empty es = some s → s.Announced := by
  intro hclaim
  have hobserved : ((lts .standard).run empty failedLookUpEvents).map (fun s =>
      (s.jobs.map (·.status), decide (s.Finished ∧ s.insertions = [("w", 0)] ∧
        s.jobOf 0 = some 0 ∧ s.dispatched = []))) = some ([.completed], true) := by
    decide +kernel
  obtain ⟨s, hrun, hs⟩ := Option.map_eq_some_iff.1 hobserved
  simp only [Prod.mk.injEq, decide_eq_true_eq, List.map_eq_singleton_iff] at hs
  obtain ⟨⟨job, hjobs, hstatus⟩, hfinished, hinsertions, hjob, hdispatched⟩ := hs
  have hmem := hclaim _ s hrun 0 job (by rw [hjobs]; rfl) hstatus
    (fun attempt hmem _ => hfinished.2 attempt hmem) ("w", 0)
    (by rw [hinsertions]; exact List.mem_singleton_self _) hjob
  rw [hdispatched] at hmem
  cases hmem

end Pipeline

end InveniOps.Workers
