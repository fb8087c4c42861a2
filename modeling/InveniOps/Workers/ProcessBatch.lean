import Mathlib.Algebra.GroupWithZero.Nat
import InveniOps.Stores.Mongo
import InveniOps.Ingestion.DebounceAnswers

/-!
# One run of `processBatch`

The worker's pipeline for one job (`workers/processBatch.ts`): resolve each
signal, insert the documents, increment the counts, refresh the cache, announce
the created work items.  One step is one command to a store, or the turn of the
program behind the last of several.  The cache refresh, the alert dispatcher,
the event publisher and the metrics writer never throw.
-/

namespace InveniOps.Workers

open Stores Ingestion

/-- The document that stores a signal. -/
def signalToDocument (signal : IngestionSignal) (workItemId : Option WorkItemId) :
    SignalDocument where
  signalId := signal.signalId
  componentId := signal.componentId
  componentType := signal.componentType
  severity := signal.severity
  rawPayload := signal.rawPayload
  occurredAt := signal.occurredAt
  receivedAt := signal.receivedAt
  workItemId := workItemId

/-- `documents` of `processBatch`. -/
def batchDocuments (signals : List IngestionSignal) (resolutions : List DebounceResult) :
    List SignalDocument :=
  List.zipWith (fun signal resolution => signalToDocument signal (some resolution.workItemId))
    signals resolutions

/-- One round of the loop that fills `incrementsByWorkItemId`. -/
def addIncrement (increments : List (WorkItemId × ℕ)) (workItemId : WorkItemId) :
    List (WorkItemId × ℕ) :=
  match increments with
  | [] => [(workItemId, 1)]
  | (key, count) :: rest =>
    if key = workItemId then (key, count + 1) :: rest
    else (key, count) :: addIncrement rest workItemId

/-- The work items of the signals whose id is among the inserted ones, one entry
a signal. -/
def insertedWorkItemIds (signals : List IngestionSignal) (resolutions : List DebounceResult)
    (insertedSignalIds : List SignalId) : List WorkItemId :=
  ((signals.zip resolutions).filter fun p => insertedSignalIds.contains p.1.signalId).map
    (·.2.workItemId)

/-- The counts to add, by work item in the order of their first signal. -/
def incrementsByWorkItemId (signals : List IngestionSignal) (resolutions : List DebounceResult)
    (insertedSignalIds : List SignalId) : List (WorkItemId × ℕ) :=
  (insertedWorkItemIds signals resolutions insertedSignalIds).foldl addIncrement []

/-- Whether an increment is under way, done or failed. -/
inductive IncrementState
  | pending
  | fulfilled
  | rejected (e : Thrown)

/-- A call of `incrementSignalCount` in the given attempt of its retry wrapper.
It goes on when `Promise.all` has rejected. -/
structure Increment where
  workItemId : WorkItemId
  amount : ℕ
  attempt : ℕ
  state : IncrementState

/-- The stores of the pipeline. -/
structure BatchStores where
  world : World
  mongo : Mongo

/-- Where `processSignalBatch` is suspended, or how it ended. -/
inductive BatchPc
  /-- In `resolveBatch`: the results so far and the call of `resolve` in progress. -/
  | resolving (resolved : List DebounceResult) (pc : ResolvePc)
  /-- At the `find` of `insertManyIdempotent`. -/
  | lookUp (resolutions : List DebounceResult)
  /-- In its `insertMany`: the documents attempted, with their outcomes, and the rest. -/
  | inserting (resolutions : List DebounceResult) (attempted : List (SignalDocument × Bool))
    (rest : List SignalDocument)
  /-- At the `Promise.all` of the increments. -/
  | incrementing (resolutions : List DebounceResult)
  /-- At the cache refresh of the updated work items. -/
  | upserting (resolutions : List DebounceResult) (updated : List WorkItemId)
  /-- At the calls of `dispatch(…, "created")`. -/
  | announcing (resolutions : List DebounceResult) (updated : List WorkItemId)
  /-- At the event publisher and the metrics writer. -/
  | recording
  | returned
  | threw (e : Thrown)
  /-- The queue has taken note of the return or the error. -/
  | settled
  | crashed

/-- What a step of `processBatch` leaves behind. -/
structure BatchStep where
  stores : BatchStores
  pc : BatchPc
  increments : List Increment
  /-- The work items that `dispatch(…, "created")` was called for. -/
  dispatched : List WorkItemId

/-- `processBatch` up to its first suspension. -/
def BatchPc.start (signals : List IngestionSignal) : BatchPc :=
  if signals.length = 0 then .returned else .resolving [] .readSession

/-- The loop of `resolveBatch` behind a resolved signal. -/
def BatchPc.next (signals : List IngestionSignal) (resolved : List DebounceResult) : BatchPc :=
  if resolved.length < signals.length then .resolving resolved .readSession
  else .lookUp resolved

/-- The attempted documents that the collection did not have. -/
def insertedDocuments (attempted : List (SignalDocument × Bool)) : List SignalDocument :=
  (attempted.filter (·.2)).map (·.1)

/-- `insertedSignalIds` of the result of `insertManyIdempotent`. -/
def reportedIds (attempted : List (SignalDocument × Bool)) : List SignalId :=
  (attempted.filter (·.2)).map (·.1.signalId)

/-- The increments that `processBatch` starts, all at once. -/
def startIncrements (signals : List IngestionSignal) (resolutions : List DebounceResult)
    (insertedSignalIds : List SignalId) : List Increment :=
  (incrementsByWorkItemId signals resolutions insertedSignalIds).map fun entry =>
    ⟨entry.1, entry.2, 1, .pending⟩

/-- The error with which `Promise.all` rejects, if an increment has rejected. -/
def firstRejection : List Increment → Option Thrown
  | [] => none
  | increment :: rest =>
    match increment.state with
    | .rejected e => some e
    | _ => firstRejection rest

/-- Whether the increment is done. -/
def Increment.isFulfilled (increment : Increment) : Bool :=
  match increment.state with
  | .fulfilled => true
  | _ => false

/-- `createdWorkItems`: the updated work items that a resolution created. -/
def createdWorkItems (resolutions : List DebounceResult) (updated : List WorkItemId) :
    List WorkItemId :=
  updated.filter fun w =>
    ((resolutions.filter (·.created)).map (·.workItemId)).contains w

variable (d : SignalDebouncer) (signals : List IngestionSignal) (increments : List Increment)
  (io : Io) (st : BatchStores)

/-- One step of `processBatch`; none while it waits for its increments. -/
def batchStep : BatchPc → Option BatchStep
  | .resolving resolved (.done (.ok result)) =>
    some ⟨st, .next signals (resolved ++ [result]), increments, []⟩
  | .resolving _ (.done (.error e)) => some ⟨st, .threw e, increments, []⟩
  | .resolving resolved pc =>
    match signals[resolved.length]? with
    | some signal =>
      let step := d.resolveStep signal io st.world pc
      some ⟨{ st with world := step.1 }, .resolving resolved step.2, increments, []⟩
    | none => none
  | .lookUp resolutions =>
    match io.outcome with
    | .ok =>
      let newDocs := (batchDocuments signals resolutions).filter fun doc =>
        ¬ st.mongo.Has doc.signalId
      if newDocs.length = 0 then
        some ⟨st, .incrementing resolutions, startIncrements signals resolutions [], []⟩
      else some ⟨st, .inserting resolutions [] newDocs, increments, []⟩
    | .fault _ e => some ⟨st, .threw (.store e), increments, []⟩
  | .inserting _ _ [] => none
  | .inserting resolutions attempted (doc :: rest) =>
    let inserted := st.mongo.insert doc
    match io.outcome with
    | .ok =>
      let attempted := attempted ++ [(doc, inserted.2)]
      if rest.length = 0 then
        some ⟨{ st with mongo := inserted.1 }, .incrementing resolutions,
          -- only documents that were not there before count
          startIncrements signals resolutions (reportedIds attempted), []⟩
      else
        some ⟨{ st with mongo := inserted.1 }, .inserting resolutions attempted rest,
          increments, []⟩
    | .fault true e =>
      -- the document is stored, although the reply says otherwise
      some ⟨{ st with mongo := inserted.1 }, .threw (.store e), increments, []⟩
    | .fault false e => some ⟨st, .threw (.store e), increments, []⟩
  | .incrementing resolutions =>
    match firstRejection increments with
    -- `Promise.all` does not wait for the increments that are still running
    | some e => some ⟨st, .threw e, increments, []⟩
    | none =>
      if increments.all (·.isFulfilled) then
        some ⟨st, .upserting resolutions (increments.map (·.workItemId)), increments, []⟩
      else none
  | .upserting resolutions updated =>
    some ⟨st, .announcing resolutions updated, increments, []⟩
  | .announcing resolutions updated =>
    some ⟨st, .recording, increments, createdWorkItems resolutions updated⟩
  | .recording => some ⟨st, .returned, increments, []⟩
  | .returned | .threw _ | .settled | .crashed => none

/-- One step of an increment. -/
def incrementStep (increment : Increment) : BatchStores × Increment :=
  let reply := perform (Postgres.incrementSignalCount d.workItemStore increment.workItemId
    increment.amount io.now) io.outcome st.world.postgres
  ({ st with world := { st.world with postgres := reply.2 } },
    match withPostgresRetry increment.attempt reply.1 with
    | .returned _ => { increment with state := .fulfilled }
    | .again next => { increment with attempt := next }
    | .thrown e => { increment with state := .rejected e })

/-! ### What a step can do -/

/-- The documents that the look-up leaves to insert. -/
def newDocuments (mongo : Mongo) (resolutions : List DebounceResult) : List SignalDocument :=
  (batchDocuments signals resolutions).filter fun doc => ¬ mongo.Has doc.signalId

/-- The collection behind an attempted document whose reply is an error. -/
def faultyInsert (mongo : Mongo) (doc : SignalDocument) (applied : Bool) : Mongo :=
  if applied then (mongo.insert doc).1 else mongo

/-- The steps of `processBatch`, one constructor for each kind. -/
inductive BatchRuns : BatchPc → BatchStep → Prop
  | resolve {resolved pc signal} (hsignal : signals[resolved.length]? = some signal)
    (hdone : pc.isDone = false) :
    BatchRuns (.resolving resolved pc)
      ⟨{ st with world := (d.resolveStep signal io st.world pc).1 },
        .resolving resolved (d.resolveStep signal io st.world pc).2, increments, []⟩
  | resolved {resolved result} :
    BatchRuns (.resolving resolved (.done (.ok result)))
      ⟨st, .next signals (resolved ++ [result]), increments, []⟩
  | resolveThrew {resolved e} :
    BatchRuns (.resolving resolved (.done (.error e))) ⟨st, .threw e, increments, []⟩
  | lookUpThrew {resolutions applied e} (houtcome : io.outcome = .fault applied e) :
    BatchRuns (.lookUp resolutions) ⟨st, .threw (.store e), increments, []⟩
  | lookUpNone {resolutions} (houtcome : io.outcome = .ok)
    (hnew : newDocuments signals st.mongo resolutions = []) :
    BatchRuns (.lookUp resolutions)
      ⟨st, .incrementing resolutions, startIncrements signals resolutions [], []⟩
  | lookUp {resolutions} (houtcome : io.outcome = .ok)
    (hnew : newDocuments signals st.mongo resolutions ≠ []) :
    BatchRuns (.lookUp resolutions)
      ⟨st, .inserting resolutions [] (newDocuments signals st.mongo resolutions), increments, []⟩
  | insertThrew {resolutions attempted doc rest applied e}
    (houtcome : io.outcome = .fault applied e) :
    BatchRuns (.inserting resolutions attempted (doc :: rest))
      ⟨{ st with mongo := faultyInsert st.mongo doc applied }, .threw (.store e), increments, []⟩
  | insert {resolutions attempted doc rest} (houtcome : io.outcome = .ok) (hrest : rest ≠ []) :
    BatchRuns (.inserting resolutions attempted (doc :: rest))
      ⟨{ st with mongo := (st.mongo.insert doc).1 },
        .inserting resolutions (attempted ++ [(doc, (st.mongo.insert doc).2)]) rest,
        increments, []⟩
  | insertLast {resolutions attempted doc} (houtcome : io.outcome = .ok) :
    BatchRuns (.inserting resolutions attempted [doc])
      ⟨{ st with mongo := (st.mongo.insert doc).1 }, .incrementing resolutions,
        startIncrements signals resolutions
          (reportedIds (attempted ++ [(doc, (st.mongo.insert doc).2)])), []⟩
  | rejected {resolutions e} (hfirst : firstRejection increments = some e) :
    BatchRuns (.incrementing resolutions) ⟨st, .threw e, increments, []⟩
  | fulfilled {resolutions} (hall : increments.all (·.isFulfilled) = true) :
    BatchRuns (.incrementing resolutions)
      ⟨st, .upserting resolutions (increments.map (·.workItemId)), increments, []⟩
  | upserted {resolutions updated} :
    BatchRuns (.upserting resolutions updated)
      ⟨st, .announcing resolutions updated, increments, []⟩
  | announced {resolutions updated} :
    BatchRuns (.announcing resolutions updated)
      ⟨st, .recording, increments, createdWorkItems resolutions updated⟩
  | recorded : BatchRuns .recording ⟨st, .returned, increments, []⟩

variable {d signals increments io st}

theorem batchRuns_of_batchStep {pc : BatchPc} {step : BatchStep}
    (h : batchStep d signals increments io st pc = some step) :
    BatchRuns d signals increments io st pc step := by
  cases pc with
  | resolving resolved pc =>
    have hresolve : ∀ pc : ResolvePc, pc.isDone = false →
        (match signals[resolved.length]? with
          | some signal => some (BatchStep.mk
              { st with world := (d.resolveStep signal io st.world pc).1 }
              (.resolving resolved (d.resolveStep signal io st.world pc).2) increments [])
          | none => none) = some step →
        BatchRuns d signals increments io st (.resolving resolved pc) step := by
      intro pc hdone h
      split at h
      · rename_i signal hsignal
        cases h
        exact .resolve hsignal hdone
      · cases h
    cases pc with
    | done outcome => cases outcome with
      | ok result =>
        cases h
        exact .resolved
      | error e =>
        cases h
        exact .resolveThrew
    | _ => exact hresolve _ rfl h
  | lookUp resolutions =>
    simp only [batchStep] at h
    split at h
    · rename_i houtcome
      split at h <;> rename_i hnew <;> cases h
      · exact .lookUpNone houtcome (List.length_eq_zero_iff.1 hnew)
      · exact .lookUp houtcome fun heq => hnew (List.length_eq_zero_iff.2 heq)
    · rename_i houtcome
      cases h
      exact .lookUpThrew houtcome
  | inserting resolutions attempted rest => cases rest with
    | nil => cases h
    | cons doc rest =>
      simp only [batchStep] at h
      split at h
      · rename_i houtcome
        split at h <;> rename_i hrest <;> cases h
        · obtain rfl := List.length_eq_zero_iff.1 hrest
          exact .insertLast houtcome
        · exact .insert houtcome fun heq => hrest (List.length_eq_zero_iff.2 heq)
      · rename_i houtcome
        cases h
        exact .insertThrew houtcome
      · rename_i houtcome
        cases h
        exact .insertThrew houtcome
  | incrementing resolutions =>
    simp only [batchStep] at h
    split at h
    · rename_i hfirst
      cases h
      exact .rejected hfirst
    · split at h
      · rename_i hall
        cases h
        exact .fulfilled hall
      · cases h
  | upserting resolutions updated =>
    cases h
    exact .upserted
  | announcing resolutions updated =>
    cases h
    exact .announced
  | recording =>
    cases h
    exact .recorded
  | returned => cases h
  | threw e => cases h
  | settled => cases h
  | crashed => cases h

/-- Documents are never removed. -/
lemma BatchRuns.documents_subset {pc : BatchPc} {step : BatchStep}
    (h : BatchRuns d signals increments io st pc step) :
    st.mongo.documents ⊆ step.stores.mongo.documents := by
  cases h with
  | insert => exact Mongo.documents_subset_insert
  | insertLast => exact Mongo.documents_subset_insert
  | insertThrew =>
    rename_i applied _ _
    cases applied with
    | true => exact Mongo.documents_subset_insert
    | false => exact List.Subset.refl _
  | _ => exact List.Subset.refl _

/-- A batch has one document for each signal. -/
lemma map_signalId_batchDocuments {resolutions : List DebounceResult}
    (h : resolutions.length = signals.length) :
    (batchDocuments signals resolutions).map (·.signalId) = signals.map (·.signalId) := by
  induction signals generalizing resolutions with
  | nil => simp [batchDocuments]
  | cons signal signals ih => cases resolutions with
    | nil => simp at h
    | cons resolution resolutions =>
      have htail := ih (by simpa using h)
      simp only [batchDocuments] at htail
      simp only [batchDocuments, List.zipWith_cons_cons, List.map_cons, htail]
      rfl

lemma insertedDocuments_concat (attempted : List (SignalDocument × Bool)) (doc : SignalDocument)
    (flag : Bool) : insertedDocuments (attempted ++ [(doc, flag)])
      = insertedDocuments attempted ++ if flag then [doc] else [] := by
  cases flag <;> simp [insertedDocuments]

/-! ### Grouping by work item -/

/-- What the entries of a work item add up to. -/
def totalOf (w : WorkItemId) (entries : List (WorkItemId × ℕ)) : ℕ :=
  (entries.map fun entry => if entry.1 = w then entry.2 else 0).sum

lemma totalOf_addIncrement (w : WorkItemId) (entries : List (WorkItemId × ℕ)) (x : WorkItemId) :
    totalOf w (addIncrement entries x) = totalOf w entries + if x = w then 1 else 0 := by
  induction entries with
  | nil => simp [addIncrement, totalOf]
  | cons entry rest ih =>
    obtain ⟨key, count⟩ := entry
    have hcons : ∀ (key : WorkItemId) (count : ℕ) (rest : List (WorkItemId × ℕ)),
        totalOf w ((key, count) :: rest) = (if key = w then count else 0) + totalOf w rest := by
      simp [totalOf]
    by_cases hkey : key = x
    · subst hkey
      simp only [addIncrement, if_true, hcons]
      split_ifs <;> omega
    · simp only [addIncrement, hkey, if_false, hcons, ih]
      omega

lemma mem_map_addIncrement {w : WorkItemId} {entries : List (WorkItemId × ℕ)} {x : WorkItemId} :
    w ∈ (addIncrement entries x).map (·.1) ↔ w ∈ entries.map (·.1) ∨ w = x := by
  induction entries with
  | nil => simp [addIncrement]
  | cons entry rest ih =>
    obtain ⟨key, count⟩ := entry
    simp only [addIncrement]
    split_ifs with hkey
    · subst hkey
      simp only [List.map_cons, List.mem_cons]
      tauto
    · simp only [List.map_cons, List.mem_cons, ih, or_assoc]

section

variable {resolutions : List DebounceResult} {insertedSignalIds : List SignalId}

/-- A work item's increment is the number of its signals among the inserted ones. -/
lemma totalOf_incrementsByWorkItemId (w : WorkItemId) :
    totalOf w (incrementsByWorkItemId signals resolutions insertedSignalIds)
      = (insertedWorkItemIds signals resolutions insertedSignalIds).count w := by
  have hfold : ∀ (ws : List WorkItemId) (entries : List (WorkItemId × ℕ)),
      totalOf w (ws.foldl addIncrement entries) = totalOf w entries + ws.count w := by
    intro ws
    induction ws with
    | nil => simp
    | cons x ws ih =>
      intro entries
      rw [List.foldl_cons, ih, totalOf_addIncrement, List.count_cons]
      simp only [beq_iff_eq]
      omega
  have htotal := hfold (insertedWorkItemIds signals resolutions insertedSignalIds) []
  rwa [show totalOf w [] = 0 from rfl, Nat.zero_add] at htotal

lemma mem_incrementsByWorkItemId {w : WorkItemId} :
    w ∈ (incrementsByWorkItemId signals resolutions insertedSignalIds).map (·.1) ↔
      w ∈ insertedWorkItemIds signals resolutions insertedSignalIds := by
  have hfold : ∀ (ws : List WorkItemId) (entries : List (WorkItemId × ℕ)),
      w ∈ (ws.foldl addIncrement entries).map (·.1) ↔ w ∈ entries.map (·.1) ∨ w ∈ ws := by
    intro ws
    induction ws with
    | nil => simp
    | cons x ws ih =>
      intro entries
      rw [List.foldl_cons, ih, mem_map_addIncrement, List.mem_cons, or_assoc]
  have hkeys := hfold (insertedWorkItemIds signals resolutions insertedSignalIds) []
  rwa [List.map_nil, List.mem_nil_iff, false_or] at hkeys

/-- The signals of inserted ids and their documents go to the same work items. -/
lemma insertedWorkItemIds_eq :
    (insertedWorkItemIds signals resolutions insertedSignalIds).map some
      = ((batchDocuments signals resolutions).filter fun doc =>
          insertedSignalIds.contains doc.signalId).map (·.workItemId) := by
  simp only [insertedWorkItemIds, batchDocuments, ← List.map_uncurry_zip_eq_zipWith,
    List.filter_map, List.map_map]
  rfl

lemma mem_insertedWorkItemIds {w : WorkItemId}
    (h : w ∈ insertedWorkItemIds signals resolutions insertedSignalIds) :
    ∃ result ∈ resolutions, result.workItemId = w := by
  obtain ⟨⟨signal, result⟩, hmem, rfl⟩ := List.mem_map.1 h
  exact ⟨result, (List.of_mem_zip (List.mem_filter.1 hmem).1).2, rfl⟩

end

end InveniOps.Workers
