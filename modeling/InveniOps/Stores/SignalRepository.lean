import Mathlib.Data.List.Enum
import InveniOps.Stores.Mongo

/-!
# Reports of an idempotent insert

`insertManyIdempotent` of `repositories/mongo/signalRepository.ts` sends the
documents that its look-up has not found.  Which of them are new it concludes
from the indexes of the write errors, if there are any.
-/

namespace InveniOps.Stores

/-- MongoDB's code of a unique index violation. -/
def DUPLICATE_KEY_ERROR_CODE : ℕ := 11000

/-- The failure of one document of a bulk write. -/
structure WriteError where
  index : ℕ
  code : ℕ
deriving DecidableEq

/-- `OneOrMore` of the driver. -/
inductive OneOrMore (α : Type)
  | one (a : α)
  | many (as : List α)

/-- What `insertMany` throws if some documents failed. -/
structure MongoBulkWriteError where
  writeErrors : OneOrMore WriteError

/-- The driver gives one error or an array of them. -/
def asWriteErrorArray : OneOrMore WriteError → List WriteError
  | .one writeError => [writeError]
  | .many writeErrors => writeErrors

/-- The documents that were not inserted, by their index. -/
def writeErrorIndexes (error : MongoBulkWriteError) : List ℕ :=
  (asWriteErrorArray error.writeErrors).map (·.index)

/-- Whether every failed document was there already. -/
def isAllDuplicateKeyErrors (error : MongoBulkWriteError) : Bool :=
  let writeErrors := asWriteErrorArray error.writeErrors
  decide (writeErrors.length > 0) &&
    writeErrors.all (·.code = DUPLICATE_KEY_ERROR_CODE)

/-- The `insertedSignalIds` that `insertManyIdempotent` returns behind its `insertMany`, or
the error that it throws again. -/
def insertedSignalIds (newDocs : List SignalDocument) :
    Option MongoBulkWriteError → Except MongoBulkWriteError (List SignalId)
  | none => .ok (newDocs.map (·.signalId))
  | some error =>
    if isAllDuplicateKeyErrors error then
      let failedIndexes := writeErrorIndexes error
      .ok ((newDocs.zipIdx.filter fun entry => ¬ failedIndexes.contains entry.2).map
        (·.1.signalId))
    else .error error

/-! ### The bookkeeping of the indexes -/

/-- A document of an unordered insert, and whether it was inserted once it was attempted. -/
abbrev Attempt := SignalDocument × Option Bool

/-- The errors of the attempts that have met a duplicate, by their indexes in the list. -/
def duplicateErrors (attempts : List Attempt) : List WriteError :=
  (attempts.zipIdx.filter fun entry => entry.1.2 = some false).map fun entry =>
    ⟨entry.2, DUPLICATE_KEY_ERROR_CODE⟩

/-- The reply to the insert when all documents were attempted; the driver can report a
single error by itself. -/
def insertManyReply (attempts : List Attempt) (byItself : Bool) : Option MongoBulkWriteError :=
  match duplicateErrors attempts with
  | [] => none
  | [writeError] => some ⟨if byItself then .one writeError else .many [writeError]⟩
  | writeErrors => some ⟨.many writeErrors⟩

/-- The ids of the documents that were inserted. -/
def newlyInserted (attempts : List Attempt) : List SignalId :=
  (attempts.filter (·.2 = some true)).map (·.1.signalId)

lemma mem_duplicateErrors_index {attempts : List Attempt} {index : ℕ} {attempt : Attempt}
    (h : attempts[index]? = some attempt) :
    index ∈ (duplicateErrors attempts).map (·.index) ↔ attempt.2 = some false := by
  simp only [duplicateErrors, List.map_map, List.mem_map, List.mem_filter, Prod.exists,
    List.mem_zipIdx_iff_getElem?, Function.comp_def, decide_eq_true_eq]
  constructor
  · rintro ⟨attempt', flag, index', ⟨hattempt, hfalse⟩, rfl⟩
    obtain rfl := Option.some.inj (h.symm.trans hattempt)
    exact hfalse
  · intro hfalse
    exact ⟨attempt.1, attempt.2, index, ⟨h, hfalse⟩, rfl⟩

lemma filter_zipIdx {α : Type} (l : List α) (p : α → Bool) :
    (l.zipIdx.filter fun entry => p entry.1).map (·.1) = l.filter p := by
  have hfilter := List.filter_map (f := Prod.fst) (p := p) (l := l.zipIdx)
  rw [List.zipIdx_map_fst] at hfilter
  exact hfilter.symm

/-- The complement of the failed indexes holds the inserted documents. -/
lemma filter_not_failed {attempts : List Attempt} (hall : ∀ attempt ∈ attempts,
      attempt.2.isSome = true) :
    (((attempts.map (·.1)).zipIdx.filter fun entry =>
      ¬ ((duplicateErrors attempts).map (·.index)).contains entry.2).map (·.1.signalId))
        = newlyInserted attempts := by
  have hkept : ∀ entry ∈ attempts.zipIdx,
      (decide ¬ ((duplicateErrors attempts).map (·.index)).contains entry.2 = true)
        = decide (entry.1.2 = some true) := by
    rintro ⟨attempt, index⟩ hmem
    have hattempt : attempts[index]? = some attempt := List.mem_zipIdx_iff_getElem?.1 hmem
    obtain ⟨flag, hflag⟩ := Option.isSome_iff_exists.1
      (hall attempt (List.mem_of_getElem? hattempt))
    simp only [List.contains_iff_mem, mem_duplicateErrors_index hattempt, hflag]
    cases flag <;> simp
  have hcongr := List.filter_congr hkept
  rw [List.zipIdx_map, List.filter_map, List.map_map]
  simp only [Function.comp_def, Prod.map_snd, Prod.map_fst, id_eq]
  rw [hcongr, newlyInserted, ← filter_zipIdx attempts, List.map_map]
  rfl

/-- What the method reports are the documents that it has inserted. -/
lemma insertedSignalIds_eq {attempts : List Attempt} (hall : ∀ attempt ∈ attempts,
      attempt.2.isSome = true) (byItself : Bool) :
    insertedSignalIds (attempts.map (·.1)) (insertManyReply attempts byItself)
      = .ok (newlyInserted attempts) := by
  have hcodes : ∀ writeError ∈ duplicateErrors attempts,
      writeError.code = DUPLICATE_KEY_ERROR_CODE := by
    intro writeError hmem
    obtain ⟨entry, -, rfl⟩ := List.mem_map.1 hmem
    rfl
  -- an error whose array lists the duplicates
  have herror : ∀ writeErrors, asWriteErrorArray writeErrors = duplicateErrors attempts →
      duplicateErrors attempts ≠ [] →
        insertedSignalIds (attempts.map (·.1)) (some ⟨writeErrors⟩)
          = .ok (newlyInserted attempts) := by
    intro writeErrors harray hne
    have hduplicates : isAllDuplicateKeyErrors ⟨writeErrors⟩ = true := by
      simp only [isAllDuplicateKeyErrors, harray, Bool.and_eq_true, decide_eq_true_eq,
        List.all_eq_true, gt_iff_lt, List.length_pos_iff]
      exact ⟨hne, hcodes⟩
    simp only [insertedSignalIds, hduplicates, if_true, writeErrorIndexes, harray]
    exact congrArg Except.ok (filter_not_failed hall)
  simp only [insertManyReply]
  split
  · rename_i hnone
    have hnewly := filter_not_failed hall
    have hkept : ((attempts.map (·.1)).zipIdx.filter fun entry =>
        ¬ ((duplicateErrors attempts).map (·.index)).contains entry.2)
          = (attempts.map (·.1)).zipIdx :=
      List.filter_eq_self.2 fun entry _ => by simp [hnone]
    have hmap := congrArg (List.map (·.signalId)) (List.zipIdx_map_fst 0 (attempts.map (·.1)))
    rw [hkept] at hnewly
    rw [insertedSignalIds, ← hnewly, ← hmap, List.map_map]
    rfl
  · rename_i writeError hone
    cases byItself
    · exact herror _ hone.symm (by simp [hone])
    · exact herror _ hone.symm (by simp [hone])
  · rename_i writeErrors hempty hmore
    exact herror _ rfl hempty

end InveniOps.Stores
