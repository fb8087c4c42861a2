import Mathlib.Data.List.Basic

/-!
# Bounded first-in-first-out lists

A queue of bounded size is a list: new items come in at its end and leave at its
front.  An implementation refines the list when it answers each operation as the
list does and goes on standing for it; it then does so in every sequence of
operations.  Of the items that come in some may be removed again before they are
handed out; the others are handed out in their order.
-/

namespace InveniOps.Lib

/-- The operations of a queue. -/
inductive FifoOp (α : Type*)
  | push (item : α)
  | popOldest
  | popBatch (maxItems : ℕ)

/-- What each operation answers. -/
inductive FifoReply (α : Type*)
  | pushed (ok : Bool)
  | popped (item : Option α)
  | batch (items : List α)

variable {α σ τ : Type*}

/-- One operation on the list.  A full list refuses a new item. -/
def FifoOp.onList (capacity : ℕ) : FifoOp α → List α → FifoReply α × List α
  | .push item, items =>
    if items.length = capacity then (.pushed false, items) else (.pushed true, items ++ [item])
  | .popOldest, items => (.popped items.head?, items.tail)
  | .popBatch maxItems, items => (.batch (items.take maxItems), items.drop maxItems)

/-- The replies to a sequence of operations, and the queue behind it. -/
def FifoOp.run (apply : FifoOp α → σ → FifoReply α × σ) :
    List (FifoOp α) → σ → List (FifoReply α) × σ
  | [], s => ([], s)
  | op :: ops, s =>
    let (reply, s') := apply op s
    let (replies, t) := run apply ops s'
    (reply :: replies, t)

/-- Two queues that answer alike and stay related in every operation do so in every
sequence of operations. -/
theorem FifoOp.run_of_simulates {apply : FifoOp α → σ → FifoReply α × σ}
    {apply' : FifoOp α → τ → FifoReply α × τ} {R : σ → τ → Prop}
    (hsim : ∀ op s t, R s t →
      (apply op s).1 = (apply' op t).1 ∧ R (apply op s).2 (apply' op t).2)
    {s : σ} {t : τ} (h : R s t) (ops : List (FifoOp α)) :
    (run apply ops s).1 = (run apply' ops t).1 ∧ R (run apply ops s).2 (run apply' ops t).2 := by
  induction ops generalizing s t with
  | nil => exact ⟨rfl, h⟩
  | cons op ops ih =>
    obtain ⟨hreply, hnext⟩ := hsim op s t h
    obtain ⟨hreplies, hlast⟩ := ih hnext
    simp only [run]
    exact ⟨by rw [hreply, hreplies], hlast⟩

/-! ### Removals -/

/-- Without the occurrences that are removed, in their order, the list `l` is `rest`. -/
inductive Removal : List α → List α → List α → Prop
  | nil : Removal [] [] []
  | remove (x : α) {l removed rest : List α} (h : Removal l removed rest) :
    Removal (x :: l) (x :: removed) rest
  | keep (x : α) {l removed rest : List α} (h : Removal l removed rest) :
    Removal (x :: l) removed (x :: rest)

namespace Removal

variable {l l' removed removed' rest rest' : List α}

/-- Nothing is removed. -/
lemma refl (l : List α) : Removal l [] l := by
  induction l with
  | nil => exact .nil
  | cons x l ih => exact .keep x ih

lemma append (h : Removal l removed rest) (h' : Removal l' removed' rest') :
    Removal (l ++ l') (removed ++ removed') (rest ++ rest') := by
  induction h with
  | nil => exact h'
  | remove x _ ih => exact .remove x ih
  | keep x _ ih => exact .keep x ih

/-- What is removed comes first. -/
lemma append_self (removed rest : List α) : Removal (removed ++ rest) removed rest := by
  induction removed with
  | nil => exact refl rest
  | cons x removed ih => exact .remove x ih

lemma perm (h : Removal l removed rest) : l.Perm (removed ++ rest) := by
  induction h with
  | nil => exact .nil
  | remove x _ ih => exact ih.cons x
  | keep x _ ih => exact (ih.cons x).trans List.perm_middle.symm

lemma filter (h : Removal l removed rest) (p : α → Bool) :
    Removal (l.filter p) (removed.filter p) (rest.filter p) := by
  induction h with
  | nil => exact .nil
  | remove x _ ih =>
    cases hx : p x with
    | true => simpa [hx] using Removal.remove x ih
    | false => simpa [hx] using ih
  | keep x _ ih =>
    cases hx : p x with
    | true => simpa [hx] using Removal.keep x ih
    | false => simpa [hx] using ih

lemma map {β : Type*} (h : Removal l removed rest) (f : α → β) :
    Removal (l.map f) (removed.map f) (rest.map f) := by
  induction h with
  | nil => exact .nil
  | remove x _ ih => exact .remove (f x) ih
  | keep x _ ih => exact .keep (f x) ih

/-- Where all items differ, the others are those that are not removed. -/
lemma eq_filter [DecidableEq α] (h : Removal l removed rest) (hl : l.Nodup) :
    rest = l.filter (· ∉ removed) := by
  induction h with
  | nil => rfl
  | @remove x l removed rest h ih =>
    obtain ⟨hx, hl⟩ := List.nodup_cons.1 hl
    have hsame : l.filter (· ∉ x :: removed) = l.filter (· ∉ removed) := by
      refine List.filter_congr ?_
      intro y hy
      have hne : y ≠ x := fun heq => hx (heq ▸ hy)
      simp [hne]
    rw [List.filter_cons_of_neg (by simp), hsame]
    exact ih hl
  | @keep x l removed rest h ih =>
    obtain ⟨hx, hl⟩ := List.nodup_cons.1 hl
    have hnot : x ∉ removed := fun hmem => hx (h.perm.mem_iff.2 (List.mem_append_left _ hmem))
    rw [List.filter_cons_of_pos (by simpa using hnot), ← ih hl]

end Removal

end InveniOps.Lib
