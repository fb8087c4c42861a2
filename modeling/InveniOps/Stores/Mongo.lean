import Mathlib.Data.List.Nodup
import InveniOps.Stores.Prisma

/-!
# Mongo

The `signals` collection of `repositories/mongo/signalRepository.ts` with its
unique index on `signalId`.  An unordered bulk insert attempts every document
by itself, so one document is one step.
-/

namespace InveniOps.Stores

/-- A document of the signals collection. -/
structure SignalDocument where
  signalId : SignalId
  componentId : ComponentId
  componentType : ComponentType
  severity : Severity
  rawPayload : Json
  occurredAt : Instant
  receivedAt : Instant
  workItemId : Option WorkItemId

/-- The collection; the unique index holds. -/
structure Mongo where
  documents : List SignalDocument
  signalId_unique : (documents.map (·.signalId)).Nodup

namespace Mongo

/-- The store before its first signal. -/
def empty : Mongo := ⟨[], List.nodup_nil⟩

variable (m : Mongo)

/-- A document with the id is stored. -/
def Has (signalId : SignalId) : Prop := signalId ∈ m.documents.map (·.signalId)

instance (signalId : SignalId) : Decidable (m.Has signalId) :=
  inferInstanceAs (Decidable (signalId ∈ m.documents.map (·.signalId)))

/-- How many signals of a work item are stored. -/
def countByWorkItemId (workItemId : WorkItemId) : ℕ :=
  m.documents.countP (·.workItemId = some workItemId)

/-- A document of the work item is stored. -/
def HasDocumentOf (workItemId : WorkItemId) : Prop :=
  ∃ doc ∈ m.documents, doc.workItemId = some workItemId

instance (workItemId : WorkItemId) : Decidable (m.HasDocumentOf workItemId) :=
  inferInstanceAs (Decidable (∃ doc ∈ m.documents, doc.workItemId = some workItemId))

/-- Attempt one document: the collection behind it, and whether it was inserted
rather than refused as a duplicate. -/
def insert (doc : SignalDocument) : Mongo × Bool :=
  if h : m.Has doc.signalId then (m, false)
  else
    (⟨m.documents ++ [doc], by
      rw [List.map_append]
      exact m.signalId_unique.append (List.nodup_singleton _) (by simpa [Has] using h)⟩, true)

variable {m} {doc : SignalDocument}

lemma insert_of_has (h : m.Has doc.signalId) : m.insert doc = (m, false) := dif_pos h

lemma insert_of_not_has (h : ¬ m.Has doc.signalId) :
    (m.insert doc).2 = true ∧ (m.insert doc).1.documents = m.documents ++ [doc] := by
  rw [insert, dif_neg h]
  exact ⟨rfl, rfl⟩

lemma insert_snd : (m.insert doc).2 = true ↔ ¬ m.Has doc.signalId := by
  by_cases h : m.Has doc.signalId
  · simp [insert_of_has h, h]
  · simp [insert_of_not_has h, h]

lemma documents_subset_insert : m.documents ⊆ (m.insert doc).1.documents := by
  by_cases h : m.Has doc.signalId
  · rw [insert_of_has h]
    exact List.Subset.refl _
  · rw [(insert_of_not_has h).2]
    exact List.subset_append_left _ _

lemma has_insert (signalId : SignalId) :
    (m.insert doc).1.Has signalId ↔ m.Has signalId ∨ signalId = doc.signalId := by
  by_cases h : m.Has doc.signalId
  · rw [insert_of_has h]
    exact ⟨.inl, fun hor => hor.elim id fun heq => heq ▸ h⟩
  · simp only [Has, (insert_of_not_has h).2, List.map_append, List.map_cons, List.map_nil,
      List.mem_append, List.mem_singleton]

lemma countByWorkItemId_insert (w : WorkItemId) :
    (m.insert doc).1.countByWorkItemId w = m.countByWorkItemId w
      + if (m.insert doc).2 = true ∧ doc.workItemId = some w then 1 else 0 := by
  by_cases h : m.Has doc.signalId
  · simp [insert_of_has h]
  · obtain ⟨hflag, hdocs⟩ := insert_of_not_has h
    simp only [countByWorkItemId, hdocs, hflag, List.countP_append, List.countP_singleton,
      decide_eq_true_eq, true_and]

lemma hasDocumentOf_insert (w : WorkItemId) :
    (m.insert doc).1.HasDocumentOf w ↔
      m.HasDocumentOf w ∨ ((m.insert doc).2 = true ∧ doc.workItemId = some w) := by
  by_cases h : m.Has doc.signalId
  · simp [insert_of_has h]
  · obtain ⟨hflag, hdocs⟩ := insert_of_not_has h
    simp [HasDocumentOf, hdocs, hflag, or_and_right, exists_or]

end Mongo

end InveniOps.Stores
