import InveniOps.Lib.ListFacts
import InveniOps.Lib.Lts
import InveniOps.Stores.SignalRepository
import InveniOps.Workers.ProcessBatch

/-!
# Concurrent idempotent inserts

Any number of calls of `insertManyIdempotent` interleave over one collection.
A call looks up the ids of its list one by one, attempts the documents that it
did not find in any order, and concludes from the errors what it has inserted.
No other kind of error occurs.
-/

namespace InveniOps.Workers

open Lib Stores

/-- Where a call of `insertManyIdempotent` is. -/
inductive InsertPc
  /-- behind the ids that were found, and the ids that are still to be looked up -/
  | finding (existing left : List SignalId)
  | inserting (attempts : List Attempt)
  | returned (insertedSignalIds : List SignalId)
  | threw (error : MongoBulkWriteError)

/-- A call of `insertManyIdempotent`. -/
structure InsertCall where
  signals : List SignalDocument
  pc : InsertPc

/-- The collection and the calls made on it. -/
structure InsertionSystem where
  mongo : Mongo
  calls : List InsertCall

/-- What a call does next. -/
inductive InsertMove
  /-- the look-up comes to the id at this index of those that are left -/
  | lookUp (index : ℕ)
  | found
  /-- the document at this index is attempted -/
  | attempt (index : ℕ)
  | settle (byItself : Bool)

/-- A call is made or moves on. -/
inductive InsertionEvent
  | call (signals : List SignalDocument)
  | moves (call : ℕ) (move : InsertMove)

namespace InsertionSystem

/-- `insertManyIdempotent` up to its look-up. -/
def start (signals : List SignalDocument) : InsertPc :=
  if signals.length = 0 then .returned [] else .finding [] (signals.map (·.signalId))

/-- `insertManyIdempotent` behind its look-up. -/
def afterFind (signals : List SignalDocument) (existing : List SignalId) : InsertPc :=
  let newDocs := signals.filter fun signal => ¬ existing.contains signal.signalId
  if newDocs.length = 0 then .returned [] else .inserting (newDocs.map fun doc => (doc, none))

/-- `insertManyIdempotent` behind its insert. -/
def afterInsert (attempts : List Attempt) (byItself : Bool) : InsertPc :=
  match insertedSignalIds (attempts.map (·.1)) (insertManyReply attempts byItself) with
  | .ok ids => .returned ids
  | .error error => .threw error

/-- A move of a call: the collection behind it, and where the call is then. -/
def callStep (mongo : Mongo) (call : InsertCall) : InsertMove → Option (Mongo × InsertPc)
  | .lookUp index =>
    match call.pc with
    | .finding existing left =>
      (left[index]?).map fun signalId =>
        (mongo, .finding (if mongo.Has signalId then existing ++ [signalId] else existing)
          (left.eraseIdx index))
    | _ => none
  | .found =>
    match call.pc with
    | .finding existing [] => some (mongo, afterFind call.signals existing)
    | _ => none
  | .attempt index =>
    match call.pc with
    | .inserting attempts =>
      match attempts[index]? with
      | some (doc, none) =>
        some ((mongo.insert doc).1,
          .inserting (attempts.set index (doc, some (mongo.insert doc).2)))
      | _ => none
    | _ => none
  | .settle byItself =>
    match call.pc with
    | .inserting attempts =>
      if attempts.all (·.2.isSome) then some (mongo, afterInsert attempts byItself) else none
    | _ => none

/-- One event, where it is possible. -/
def step (s : InsertionSystem) : InsertionEvent → Option InsertionSystem
  | .call signals => some ⟨s.mongo, s.calls ++ [⟨signals, start signals⟩]⟩
  | .moves k move =>
    match s.calls[k]? with
    | some call =>
      (callStep s.mongo call move).map fun behind =>
        ⟨behind.1, s.calls.set k ⟨call.signals, behind.2⟩⟩
    | none => none

/-- The calls as a system. -/
def lts : Lts InsertionSystem InsertionEvent := ⟨step⟩

/-- No call has begun. -/
def initial (mongo : Mongo) : InsertionSystem := ⟨mongo, []⟩

end InsertionSystem

namespace InsertCall

/-- The call has returned or thrown. -/
def finished (call : InsertCall) : Bool :=
  match call.pc with
  | .returned _ | .threw _ => true
  | _ => false

/-- The ids that the call has reported as newly inserted. -/
def reported (call : InsertCall) : List SignalId :=
  match call.pc with
  | .returned ids => ids
  | _ => []

/-- The insertions of the call, reported or still to be reported. -/
def insertions (call : InsertCall) : List SignalId :=
  match call.pc with
  | .inserting attempts => newlyInserted attempts
  | .returned ids => ids
  | _ => []

/-- What a call knows about the collection. -/
def Sound (mongo : Mongo) (call : InsertCall) : Prop :=
  match call.pc with
  | .finding existing _ => ∀ signalId ∈ existing, mongo.Has signalId
  | .inserting attempts => ∀ signal ∈ call.signals, mongo.Has signal.signalId ∨
      ∃ attempt ∈ attempts, attempt.1.signalId = signal.signalId ∧ attempt.2 = none
  | .returned _ => ∀ signal ∈ call.signals, mongo.Has signal.signalId
  | .threw _ => False

end InsertCall

namespace InsertionSystem

/-! ### What a move can do -/

/-- The moves of a call, one constructor for each kind. -/
inductive CallMoves (mongo : Mongo) (signals : List SignalDocument) :
    InsertPc → Mongo → InsertPc → Prop
  | found {existing left index signalId} (hid : left[index]? = some signalId)
    (hhas : mongo.Has signalId) :
    CallMoves mongo signals (.finding existing left) mongo
      (.finding (existing ++ [signalId]) (left.eraseIdx index))
  | absent {existing left index signalId} (hid : left[index]? = some signalId)
    (hhas : ¬ mongo.Has signalId) :
    CallMoves mongo signals (.finding existing left) mongo
      (.finding existing (left.eraseIdx index))
  | send {existing} :
    CallMoves mongo signals (.finding existing []) mongo (afterFind signals existing)
  | attempt {attempts : List Attempt} {index doc} (hdoc : attempts[index]? = some (doc, none)) :
    CallMoves mongo signals (.inserting attempts) (mongo.insert doc).1
      (.inserting (attempts.set index (doc, some (mongo.insert doc).2)))
  | settle {attempts byItself} (hall : ∀ attempt ∈ attempts, attempt.2.isSome = true) :
    CallMoves mongo signals (.inserting attempts) mongo (afterInsert attempts byItself)

lemma callStep_moves {mongo mongo' : Mongo} {call : InsertCall} {move : InsertMove}
    {pc : InsertPc} (h : callStep mongo call move = some (mongo', pc)) :
    CallMoves mongo call.signals call.pc mongo' pc := by
  obtain ⟨signals, callPc⟩ := call
  cases move with
  | lookUp index =>
    cases callPc <;> simp only [callStep, reduceCtorEq, Option.map_eq_some_iff] at h
    obtain ⟨signalId, hid, heq⟩ := h
    cases heq
    split_ifs with hhas
    · exact .found hid hhas
    · exact .absent hid hhas
  | found =>
    cases callPc with
    | finding existing left =>
      cases left with
      | nil =>
        cases h
        exact .send
      | cons _ _ => cases h
    | _ => cases h
  | attempt index =>
    cases callPc <;> simp only [callStep, reduceCtorEq] at h
    split at h
    · rename_i hdoc
      cases h
      exact .attempt hdoc
    · cases h
  | settle byItself =>
    cases callPc <;> simp only [callStep, reduceCtorEq, Option.ite_none_right_eq_some] at h
    obtain ⟨hall, heq⟩ := h
    cases heq
    exact .settle (List.all_eq_true.1 hall)

lemma step_inv {s t : InsertionSystem} {e : InsertionEvent} (h : s.step e = some t) :
    (∃ signals, t = ⟨s.mongo, s.calls ++ [⟨signals, start signals⟩]⟩) ∨
      ∃ k call mongo pc, s.calls[k]? = some call ∧
        CallMoves s.mongo call.signals call.pc mongo pc ∧
        t = ⟨mongo, s.calls.set k ⟨call.signals, pc⟩⟩ := by
  cases e with
  | call signals => exact .inl ⟨signals, (Option.some.inj h).symm⟩
  | moves k move =>
    simp only [step] at h
    split at h
    · rename_i call hcall
      obtain ⟨⟨mongo, pc⟩, hmove, rfl⟩ := Option.map_eq_some_iff.1 h
      exact .inr ⟨k, call, mongo, pc, hcall, callStep_moves hmove, rfl⟩
    · cases h

/-! ### Every insertion is accounted for once -/

/-- What holds of all interleavings. -/
structure InsertionInv (initially : Mongo) (s : InsertionSystem) : Prop where
  /-- A stored id was stored before, or one call has inserted it, once. -/
  account : ∀ signalId,
    (s.calls.map fun call => call.insertions.count signalId).sum
        + (if initially.Has signalId then 1 else 0)
      = if s.mongo.Has signalId then 1 else 0
  sound : ∀ call ∈ s.calls, call.Sound s.mongo

lemma CallMoves.mono {mongo mongo' : Mongo} {signals : List SignalDocument} {pc pc' : InsertPc}
    (h : CallMoves mongo signals pc mongo' pc') {signalId : SignalId}
    (hhas : mongo.Has signalId) : mongo'.Has signalId := by
  cases h with
  | attempt hdoc => exact (Mongo.has_insert signalId).2 (.inl hhas)
  | _ => exact hhas

lemma Sound.mono {mongo mongo' : Mongo} {call : InsertCall} (h : call.Sound mongo)
    (hmono : ∀ signalId, mongo.Has signalId → mongo'.Has signalId) : call.Sound mongo' := by
  obtain ⟨signals, pc⟩ := call
  cases pc with
  | finding existing left => exact fun signalId hmem => hmono _ (h signalId hmem)
  | inserting attempts => exact fun signal hmem => (h signal hmem).imp_left (hmono _)
  | returned ids => exact fun signal hmem => hmono _ (h signal hmem)
  | threw error => exact h

lemma sound_start (mongo : Mongo) (signals : List SignalDocument) :
    InsertCall.Sound mongo ⟨signals, start signals⟩ := by
  unfold start
  split_ifs with hempty
  · obtain rfl := List.length_eq_zero_iff.1 hempty
    exact fun _ hmem => (nomatch hmem)
  · exact fun _ hmem => (nomatch hmem)

lemma insertions_start (signals : List SignalDocument) :
    InsertCall.insertions ⟨signals, start signals⟩ = [] := by
  unfold start
  split_ifs <;> rfl

lemma sound_afterFind {mongo : Mongo} {signals : List SignalDocument}
    {existing : List SignalId} (h : ∀ signalId ∈ existing, mongo.Has signalId) :
    InsertCall.Sound mongo ⟨signals, afterFind signals existing⟩ := by
  have hsplit : ∀ signal ∈ signals, mongo.Has signal.signalId ∨
      signal ∈ signals.filter fun signal => ¬ existing.contains signal.signalId := by
    intro signal hmem
    by_cases hfound : signal.signalId ∈ existing
    · exact .inl (h _ hfound)
    · exact .inr (List.mem_filter.2 ⟨hmem, by simpa using hfound⟩)
  simp only [afterFind]
  split_ifs with hempty
  · rw [List.length_eq_zero_iff.1 hempty] at hsplit
    exact fun signal hmem => (hsplit signal hmem).elim id fun hnone => (nomatch hnone)
  · intro signal hmem
    refine (hsplit signal hmem).imp_right fun hnew => ?_
    exact ⟨(signal, none), List.mem_map.2 ⟨signal, hnew, rfl⟩, rfl, rfl⟩

lemma insertions_afterFind (signals : List SignalDocument) (existing : List SignalId) :
    InsertCall.insertions ⟨signals, afterFind signals existing⟩ = [] := by
  simp only [afterFind]
  split_ifs
  · rfl
  · show newlyInserted _ = []
    rw [newlyInserted, List.filter_eq_nil_iff.2, List.map_nil]
    intro attempt hmem
    obtain ⟨doc, -, rfl⟩ := List.mem_map.1 hmem
    simp

lemma afterInsert_eq {attempts : List Attempt} (byItself : Bool)
    (hall : ∀ attempt ∈ attempts, attempt.2.isSome = true) :
    afterInsert attempts byItself = .returned (newlyInserted attempts) := by
  rw [afterInsert, insertedSignalIds_eq hall]

lemma count_newlyInserted (attempts : List Attempt) (signalId : SignalId) :
    (newlyInserted attempts).count signalId
      = attempts.countP fun attempt => attempt.2 = some true ∧ attempt.1.signalId = signalId := by
  rw [newlyInserted, List.count, List.countP_map, List.countP_filter]
  refine List.countP_congr fun attempt _ => ?_
  simp [and_comm]

/-- An attempt adds its id to the insertions of the call just if the collection gets it. -/
lemma count_attempt {mongo : Mongo} {attempts : List Attempt} {index : ℕ}
    {doc : SignalDocument} (hdoc : attempts[index]? = some (doc, none)) (signalId : SignalId) :
    (newlyInserted (attempts.set index (doc, some (mongo.insert doc).2))).count signalId
        + (if mongo.Has signalId then 1 else 0)
      = (newlyInserted attempts).count signalId
        + if (mongo.insert doc).1.Has signalId then 1 else 0 := by
  have hset := countP_set_of hdoc (doc, some (mongo.insert doc).2) fun attempt =>
    decide (attempt.2 = some true ∧ attempt.1.signalId = signalId)
  simp only [reduceCtorEq, false_and, decide_false, Bool.false_eq_true, if_false, add_zero,
    Option.some.injEq, decide_eq_true_eq] at hset
  rw [count_newlyInserted, count_newlyInserted, hset]
  simp only [Mongo.has_insert, Mongo.insert_snd]
  by_cases heq : doc.signalId = signalId
  · subst heq
    by_cases hhas : mongo.Has doc.signalId <;> simp [hhas]
  · simp [heq, Ne.symm heq]

lemma CallMoves.account {mongo mongo' : Mongo} {signals : List SignalDocument}
    {pc pc' : InsertPc} (h : CallMoves mongo signals pc mongo' pc') (signalId : SignalId) :
    (InsertCall.insertions ⟨signals, pc'⟩).count signalId
        + (if mongo.Has signalId then 1 else 0)
      = (InsertCall.insertions ⟨signals, pc⟩).count signalId
        + if mongo'.Has signalId then 1 else 0 := by
  cases h with
  | found _ _ | absent _ _ => rfl
  | send => rw [insertions_afterFind]; rfl
  | attempt hdoc => exact count_attempt hdoc signalId
  | settle hall => rw [afterInsert_eq _ hall]; rfl

lemma CallMoves.sound {mongo mongo' : Mongo} {signals : List SignalDocument}
    {pc pc' : InsertPc} (h : CallMoves mongo signals pc mongo' pc')
    (hsound : InsertCall.Sound mongo ⟨signals, pc⟩) :
    InsertCall.Sound mongo' ⟨signals, pc'⟩ := by
  cases h with
  | found hid hhas =>
    intro signalId hmem
    rcases List.mem_append.1 hmem with hfound | hlast
    · exact hsound signalId hfound
    · rw [List.mem_singleton.1 hlast]
      exact hhas
  | absent hid hhas => exact hsound
  | send => exact sound_afterFind hsound
  | attempt hdoc =>
    rename_i attempts index doc
    intro signal hmem
    rcases hsound signal hmem with hhas | ⟨attempt, hattempt, hid, hnone⟩
    · exact .inl ((Mongo.has_insert _).2 (.inl hhas))
    · rcases eq_or_mem_set_of_mem hdoc hattempt (doc, some (mongo.insert doc).2) with heq | hrest
      · refine .inl ((Mongo.has_insert _).2 (.inr ?_))
        rw [← hid, heq]
      · exact .inr ⟨attempt, hrest, hid, hnone⟩
  | settle hall =>
    rw [afterInsert_eq _ hall]
    intro signal hmem
    refine (hsound signal hmem).elim id ?_
    rintro ⟨attempt, hattempt, -, hnone⟩
    have hsome := hall attempt hattempt
    rw [hnone] at hsome
    cases hsome

lemma InsertionInv.step {initially : Mongo} (s : InsertionSystem) (e : InsertionEvent)
    (t : InsertionSystem) (hinv : InsertionInv initially s) (h : s.step e = some t) :
    InsertionInv initially t := by
  rcases step_inv h with ⟨signals, rfl⟩ | ⟨k, call, mongo, pc, hcall, hmoves, rfl⟩
  · constructor
    · intro signalId
      have haccount := hinv.account signalId
      simpa [insertions_start] using haccount
    · intro call hmem
      rcases List.mem_append.1 hmem with hold | hnew
      · exact hinv.sound call hold
      · rw [List.mem_singleton.1 hnew]
        exact sound_start _ signals
  · constructor
    · intro signalId
      have hsum := sum_map_set hcall ⟨call.signals, pc⟩ fun call : InsertCall =>
        call.insertions.count signalId
      have hmove := hmoves.account signalId
      have haccount := hinv.account signalId
      have heta : InsertCall.insertions ⟨call.signals, call.pc⟩ = call.insertions := rfl
      rw [heta] at hmove
      show (List.map _ (s.calls.set k ⟨call.signals, pc⟩)).sum + _
        = if mongo.Has signalId then 1 else 0
      omega
    · intro call' hmem
      rcases List.mem_or_eq_of_mem_set hmem with hold | rfl
      · exact Sound.mono (hinv.sound call' hold) fun _ => hmoves.mono
      · exact hmoves.sound (hinv.sound call (List.mem_of_getElem? hcall))

lemma insertionInv_of_run {initially : Mongo} {s : InsertionSystem} {es : List InsertionEvent}
    (hrun : lts.run (initial initially) es = some s) : InsertionInv initially s := by
  refine Lts.run_invariant (I := InsertionInv initially) InsertionInv.step hrun ⟨?_, ?_⟩
  · intro signalId
    exact Nat.zero_add _
  · exact fun _ hmem => (nomatch hmem)

/-! ### The reports -/

/-- The calls report the id among them just once. -/
def ReportedOnce (s : InsertionSystem) (signalId : SignalId) : Prop :=
  ∃ (k : ℕ) (call : InsertCall), s.calls[k]? = some call ∧ call.reported.count signalId = 1 ∧
    ∀ (k' : ℕ) (call' : InsertCall), s.calls[k']? = some call' → k' ≠ k →
      signalId ∉ call'.reported

lemma insertions_of_finished {call : InsertCall} (h : call.finished = true) :
    call.insertions = call.reported := by
  obtain ⟨signals, pc⟩ := call
  cases pc with
  | finding _ _ | inserting _ => cases h
  | returned _ | threw _ => rfl

lemma count_of_has {m : Mongo} {signalId : SignalId} (h : m.Has signalId) :
    (m.documents.map (·.signalId)).count signalId = 1 :=
  List.count_eq_one_of_mem m.signalId_unique h

lemma reported_sum {initially : Mongo} {s : InsertionSystem}
    (hinv : InsertionInv initially s) (hdone : ∀ call ∈ s.calls, call.finished = true)
    {signalId : SignalId} (hhas : s.mongo.Has signalId) :
    (s.calls.map fun call => call.reported.count signalId).sum
      + (if initially.Has signalId then 1 else 0) = 1 := by
  have haccount := hinv.account signalId
  rw [if_pos hhas] at haccount
  rw [← haccount]
  congr 2
  refine List.map_congr_left fun call hmem => ?_
  rw [insertions_of_finished (hdone call hmem)]

/-- When all calls are over, no call has thrown, and an id of one of their lists is
stored once; it was reported once by one of them, unless it was stored before they
began, and then by none. -/
theorem insertion_reports {initially : Mongo} {s : InsertionSystem}
    {es : List InsertionEvent} (hrun : lts.run (initial initially) es = some s)
    (hdone : ∀ call ∈ s.calls, call.finished = true) {call : InsertCall}
    (hcall : call ∈ s.calls) {signal : SignalDocument} (hsignal : signal ∈ call.signals) :
    (∃ ids, call.pc = .returned ids) ∧
      (s.mongo.documents.map (·.signalId)).count signal.signalId = 1 ∧
      (¬ initially.Has signal.signalId → s.ReportedOnce signal.signalId) ∧
      (initially.Has signal.signalId → ∀ call ∈ s.calls, signal.signalId ∉ call.reported) := by
  have hinv := insertionInv_of_run hrun
  have hreturned : ∃ ids, call.pc = .returned ids := by
    have hsound := hinv.sound call hcall
    have hfinished := hdone call hcall
    obtain ⟨signals, pc⟩ := call
    cases pc with
    | returned ids => exact ⟨ids, rfl⟩
    | threw _ => exact absurd hsound id
    | finding _ _ | inserting _ => cases hfinished
  have hhas : s.mongo.Has signal.signalId := by
    obtain ⟨ids, hpc⟩ := hreturned
    have hsound := hinv.sound call hcall
    simp only [InsertCall.Sound, hpc] at hsound
    exact hsound signal hsignal
  have hsum := reported_sum hinv hdone hhas
  refine ⟨hreturned, count_of_has hhas, ?_, ?_⟩
  · intro hnew
    rw [if_neg hnew, Nat.add_zero] at hsum
    obtain ⟨k, call, hk, hone, hothers⟩ := exists_unique_of_sum_map_eq_one hsum
    exact ⟨k, call, hk, hone, fun k' call' hk' hne =>
      List.count_eq_zero.1 (hothers k' call' hk' hne)⟩
  · intro hold call hmem
    rw [if_pos hold] at hsum
    have hzero : (s.calls.map fun call => call.reported.count signal.signalId).sum = 0 := by
      omega
    exact List.count_eq_zero.1 (List.sum_eq_zero_iff.1 hzero _ (List.mem_map_of_mem hmem))

/-- A document with the id. -/
def documentOf (signalId : SignalId) : SignalDocument :=
  ⟨signalId, "db-1", .RDBMS, .P1, .null, 0, 0, none⟩

/-- Two lists overlap, one of them twice; both calls look up before either inserts. -/
def overlappingEvents : List InsertionEvent :=
  [.call [documentOf "a", documentOf "b", documentOf "a"],
    .call [documentOf "c", documentOf "b"],
    .moves 0 (.lookUp 1), .moves 1 (.lookUp 1), .moves 0 (.lookUp 1), .moves 1 (.lookUp 0),
    .moves 0 (.lookUp 0), .moves 0 .found, .moves 1 .found,
    .moves 0 (.attempt 2), .moves 1 (.attempt 1), .moves 0 (.attempt 1), .moves 0 (.attempt 0),
    .moves 0 (.settle false), .moves 1 (.attempt 0), .moves 1 (.settle true)]

/-- The reports of the calls, if they are over. -/
def allReported (s : InsertionSystem) : Option (List (List SignalId)) :=
  if s.calls.all (·.finished) then some (s.calls.map (·.reported)) else none

lemma overlappingEvents_run :
    (lts.run (initial Mongo.empty) overlappingEvents).bind allReported
      = some [["a"], ["c", "b"]] := by
  decide +kernel

theorem insertion_reports_overlapping : ∃ s,
    lts.run (initial Mongo.empty) overlappingEvents = some s ∧
      ∀ call ∈ s.calls, ∀ signal ∈ call.signals,
        (s.mongo.documents.map (·.signalId)).count signal.signalId = 1 ∧
          s.ReportedOnce signal.signalId := by
  obtain ⟨s, hrun, hall⟩ := Option.bind_eq_some_iff.1 overlappingEvents_run
  have hdone : ∀ call ∈ s.calls, call.finished = true := by
    simp only [allReported, Option.ite_none_right_eq_some] at hall
    exact List.all_eq_true.1 hall.1
  refine ⟨s, hrun, fun call hcall signal hsignal => ?_⟩
  have hreports := insertion_reports hrun hdone hcall hsignal
  exact ⟨hreports.2.1, hreports.2.2.1 (fun h => (nomatch h))⟩

end InsertionSystem

end InveniOps.Workers
