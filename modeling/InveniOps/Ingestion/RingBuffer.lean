import Mathlib.Data.List.Range
import Mathlib.Data.Nat.ModEq
import Mathlib.Logic.Function.Basic
import InveniOps.Lib.Fifo
import InveniOps.Lib.ListFacts

/-!
# The ring buffer of one severity

`RingBuffer` of `services/ingestion/buffer.ts`: a preallocated array with a
wrapping head index and a count.  The fields of the structure state what the
class keeps: the head is an index, the count is bounded, and a slot is filled
exactly when it lies in the live window.  `contents` is the FIFO list the
buffer stands for; each operation is then described on that list.
-/

namespace InveniOps.Ingestion

open Lib

/-- Fixed-capacity circular buffer.  A slot of the JavaScript array reads
`undefined`, here `none`, where nothing is stored. -/
structure RingBuffer (T : Type) (capacity : ℕ) where
  slots : ℕ → Option T
  head : ℕ
  count : ℕ
  head_lt : head < capacity
  count_le : count ≤ capacity
  live : ∀ i < capacity, (slots ((head + i) % capacity)).isSome ↔ i < count

namespace RingBuffer

variable {T : Type} {capacity : ℕ}

/-! ### Index arithmetic -/

/-- Offsets within one revolution name distinct slots. -/
lemma index_inj {h i j : ℕ} (hi : i < capacity) (hj : j < capacity)
    (heq : (h + i) % capacity = (h + j) % capacity) : i = j := by
  have hij : i ≡ j [MOD capacity] := Nat.ModEq.add_left_cancel' h heq
  rwa [Nat.ModEq, Nat.mod_eq_of_lt hi, Nat.mod_eq_of_lt hj] at hij

lemma index_succ_head (h i : ℕ) :
    ((h + 1) % capacity + i) % capacity = (h + (i + 1)) % capacity := by
  rw [Nat.mod_add_mod, Nat.add_assoc, Nat.add_comm 1 i]

/-! ### The operations -/

/-- `new RingBuffer(capacity)`. -/
def new (hcap : 0 < capacity) : RingBuffer T capacity where
  slots := fun _ => none
  head := 0
  count := 0
  head_lt := hcap
  count_le := Nat.zero_le _
  live := by simp

/-- `get size()`. -/
def size (b : RingBuffer T capacity) : ℕ := b.count

/-- `push`: refuses to grow past the preallocated size. -/
def push (b : RingBuffer T capacity) (item : T) : Bool × RingBuffer T capacity :=
  if hfull : b.count = capacity then
    (false, b)
  else
    let tail := (b.head + b.count) % capacity
    have hlt : b.count < capacity := lt_of_le_of_ne b.count_le hfull
    (true,
      { slots := Function.update b.slots tail (some item)
        head := b.head
        count := b.count + 1
        head_lt := b.head_lt
        count_le := hlt
        live := by
          intro i hi
          -- the only slot that is written is the first one behind the window
          rcases eq_or_ne i b.count with rfl | hne
          · simp [tail]
          · have htail : (b.head + i) % capacity ≠ tail := fun h => hne (index_inj hi hlt h)
            rw [Function.update_of_ne htail, b.live i hi]
            omega })

/-- `popOldest`: the slot is cleared behind the item. -/
def popOldest (b : RingBuffer T capacity) : Option T × RingBuffer T capacity :=
  if hempty : b.count = 0 then
    (none, b)
  else
    (b.slots b.head,
      { slots := Function.update b.slots b.head none
        head := (b.head + 1) % capacity
        count := b.count - 1
        head_lt := Nat.mod_lt _ (Nat.zero_lt_of_lt b.head_lt)
        count_le := le_trans (Nat.sub_le _ _) b.count_le
        live := by
          intro i hi
          rw [index_succ_head]
          have hhead : b.head = (b.head + 0) % capacity := by
            rw [Nat.add_zero, Nat.mod_eq_of_lt b.head_lt]
          rcases Nat.lt_or_ge (i + 1) capacity with hlt | hge
          · have hne : (b.head + (i + 1)) % capacity ≠ b.head := by
              intro h
              have := index_inj hlt (Nat.zero_lt_of_lt b.head_lt) (h.trans hhead)
              omega
            rw [Function.update_of_ne hne, b.live (i + 1) hlt]
            omega
          · -- around the ring the cleared slot is the last one of the shifted window
            have hwrap : i + 1 = capacity := by omega
            have hcount := b.count_le
            rw [hwrap, Nat.add_mod_right, Nat.mod_eq_of_lt b.head_lt]
            simp only [Function.update_self, Option.isSome_none, Bool.false_eq_true, false_iff,
              not_lt]
            omega })

/-- The loop of `popBatch`: `n` calls of `popOldest`, keeping the items that are
not `undefined`. -/
def popLoop : ℕ → RingBuffer T capacity → List T × RingBuffer T capacity
  | 0, b => ([], b)
  | n + 1, b =>
    let (item, b') := b.popOldest
    let (rest, b'') := popLoop n b'
    (item.toList ++ rest, b'')

/-- `popBatch`. -/
def popBatch (b : RingBuffer T capacity) (maxItems : ℕ) : List T × RingBuffer T capacity :=
  popLoop (min maxItems b.count) b

/-! ### The list a ring buffer stands for -/

/-- The items of the live window, oldest first. -/
def contents (b : RingBuffer T capacity) : List T :=
  (List.range b.count).filterMap fun i => b.slots ((b.head + i) % capacity)

@[simp] lemma contents_new (hcap : 0 < capacity) :
    (new hcap : RingBuffer T capacity).contents = [] := rfl

/-- The live window is filled. -/
lemma map_some_contents (b : RingBuffer T capacity) :
    b.contents.map some = (List.range b.count).map fun i => b.slots ((b.head + i) % capacity) := by
  refine map_some_filterMap ?_
  intro i hi
  have hi' : i < b.count := List.mem_range.1 hi
  exact (b.live i (lt_of_lt_of_le hi' b.count_le)).2 hi'

@[simp] lemma length_contents (b : RingBuffer T capacity) : b.contents.length = b.size := by
  have hlen := congrArg List.length b.map_some_contents
  rwa [List.length_map, List.length_map, List.length_range] at hlen

/-- The slots hold the list from the head on, and nothing outside the live window. -/
lemma slots_eq_getElem? (b : RingBuffer T capacity) {i : ℕ} (hi : i < capacity) :
    b.slots ((b.head + i) % capacity) = b.contents[i]? := by
  rcases Nat.lt_or_ge i b.count with hlt | hge
  · have hwindow := congrArg (·[i]?) b.map_some_contents
    simp only [List.getElem?_map, List.getElem?_range hlt, Option.map_some] at hwindow
    obtain ⟨item, hitem, hslot⟩ := Option.map_eq_some_iff.1 hwindow
    rw [hitem, ← hslot]
  · have hnone : b.slots ((b.head + i) % capacity) = none := by
      rw [← Option.not_isSome_iff_eq_none, b.live i hi]
      omega
    have hlen : b.contents.length ≤ i := by
      rw [length_contents]
      exact hge
    rw [hnone, List.getElem?_eq_none hlen]

lemma contents_eq_nil_iff {b : RingBuffer T capacity} : b.contents = [] ↔ b.size = 0 := by
  rw [← length_contents, List.length_eq_zero_iff]

/-- A push on a buffer with room appends. -/
lemma push_of_lt {b : RingBuffer T capacity} (item : T) (h : b.size < capacity) :
    (b.push item).1 = true ∧ (b.push item).2.contents = b.contents ++ [item] := by
  have hne : b.count ≠ capacity := Nat.ne_of_lt h
  have hslots : ∀ i ∈ List.range b.count,
      Function.update b.slots ((b.head + b.count) % capacity) (some item)
        ((b.head + i) % capacity) = b.slots ((b.head + i) % capacity) := by
    intro i hi
    have hi' : i < b.count := List.mem_range.1 hi
    apply Function.update_of_ne
    intro heq
    exact absurd (index_inj (lt_trans hi' h) h heq) (Nat.ne_of_lt hi')
  refine ⟨by simp [push, hne], ?_⟩
  simp only [push, hne, dite_false, contents]
  rw [List.range_succ, List.filterMap_append]
  congr 1
  · exact List.filterMap_congr hslots
  · simp

/-- A push on a full buffer is refused and changes nothing. -/
lemma push_of_full {b : RingBuffer T capacity} (item : T) (h : b.size = capacity) :
    b.push item = (false, b) := by
  simp [push, show b.count = capacity from h]

lemma popOldest_of_empty {b : RingBuffer T capacity} (h : b.size = 0) :
    b.popOldest = (none, b) := by
  simp [popOldest, show b.count = 0 from h]

/-- Popping takes the oldest item off the list. -/
lemma popOldest_spec (b : RingBuffer T capacity) :
    b.popOldest.1 = b.contents.head? ∧ b.popOldest.2.contents = b.contents.tail := by
  rcases Nat.eq_zero_or_pos b.count with hzero | hpos
  · have hnil : b.contents = [] := contents_eq_nil_iff.2 hzero
    simp [popOldest_of_empty hzero, hnil]
  · obtain ⟨n, hn⟩ : ∃ n, b.count = n + 1 := ⟨b.count - 1, by omega⟩
    have hhead : (b.head + 0) % capacity = b.head := by
      rw [Nat.add_zero, Nat.mod_eq_of_lt b.head_lt]
    obtain ⟨item, hitem⟩ : ∃ item, b.slots b.head = some item := by
      have hsome := (b.live 0 (Nat.zero_lt_of_lt b.head_lt)).2 hpos
      rw [hhead] at hsome
      exact Option.isSome_iff_exists.1 hsome
    have hcontents : b.contents
        = item :: (List.range n).filterMap fun i => b.slots ((b.head + (i + 1)) % capacity) := by
      rw [contents, hn, List.range_succ_eq_map, List.filterMap_cons_some (by rw [hhead, hitem]),
        List.filterMap_map]
      rfl
    have hslots : ∀ i ∈ List.range n,
        Function.update b.slots b.head none (((b.head + 1) % capacity + i) % capacity)
          = b.slots ((b.head + (i + 1)) % capacity) := by
      intro i hi
      have hi' : i + 1 < capacity := by
        have := List.mem_range.1 hi
        have := b.count_le
        omega
      rw [index_succ_head]
      apply Function.update_of_ne
      intro heq
      have := index_inj hi' (Nat.zero_lt_of_lt b.head_lt) (heq.trans hhead.symm)
      omega
    rw [popOldest, dif_neg (Nat.ne_of_gt hpos), hcontents]
    refine ⟨hitem, ?_⟩
    simp only [contents, hn, Nat.add_sub_cancel, List.tail_cons]
    exact List.filterMap_congr hslots

lemma popLoop_spec (n : ℕ) (b : RingBuffer T capacity) :
    (popLoop n b).1 = b.contents.take n ∧ (popLoop n b).2.contents = b.contents.drop n := by
  induction n generalizing b with
  | zero => simp [popLoop]
  | succ n ih =>
    obtain ⟨hitem, hrest⟩ := popOldest_spec b
    obtain ⟨ih₁, ih₂⟩ := ih b.popOldest.2
    rw [hrest] at ih₁ ih₂
    simp only [popLoop]
    rw [ih₁, ih₂, hitem]
    cases b.contents <;> simp

/-- A batch is a prefix of the list, and the rest stays. -/
lemma popBatch_spec (b : RingBuffer T capacity) (maxItems : ℕ) :
    (b.popBatch maxItems).1 = b.contents.take maxItems ∧
      (b.popBatch maxItems).2.contents = b.contents.drop maxItems := by
  obtain ⟨h₁, h₂⟩ := popLoop_spec (min maxItems b.count) b
  have hlen : b.contents.length = b.count := length_contents b
  rw [popBatch, h₁, h₂]
  rcases le_total maxItems b.count with hle | hle
  · rw [min_eq_left hle]
    exact ⟨rfl, rfl⟩
  · rw [min_eq_right hle]
    exact ⟨by rw [List.take_of_length_le hlen.le, List.take_of_length_le (hlen.le.trans hle)],
      by rw [List.drop_of_length_le hlen.le, List.drop_of_length_le (hlen.le.trans hle)]⟩

/-! ### Refinement of the bounded list -/

/-- One operation of the class. -/
def apply : FifoOp T → RingBuffer T capacity → FifoReply T × RingBuffer T capacity
  | .push item, b => (.pushed (b.push item).1, (b.push item).2)
  | .popOldest, b => (.popped b.popOldest.1, b.popOldest.2)
  | .popBatch maxItems, b => (.batch (b.popBatch maxItems).1, (b.popBatch maxItems).2)

/-- An operation does to the buffer what it does to the list. -/
lemma apply_simulates (op : FifoOp T) (b : RingBuffer T capacity) :
    (apply op b).1 = (op.onList capacity b.contents).1 ∧
      (apply op b).2.contents = (op.onList capacity b.contents).2 := by
  cases op with
  | push item =>
    simp only [apply, FifoOp.onList, length_contents]
    split_ifs with hfull
    · rw [push_of_full item hfull]
      exact ⟨rfl, rfl⟩
    · have hlt : b.size < capacity := lt_of_le_of_ne b.count_le hfull
      obtain ⟨hok, hcontents⟩ := push_of_lt item hlt
      exact ⟨by rw [hok], hcontents⟩
  | popOldest =>
    obtain ⟨hitem, hrest⟩ := b.popOldest_spec
    exact ⟨by rw [apply, FifoOp.onList, hitem], hrest⟩
  | popBatch maxItems =>
    obtain ⟨hbatch, hrest⟩ := b.popBatch_spec maxItems
    exact ⟨by rw [apply, FifoOp.onList, hbatch], hrest⟩

/-- A ring buffer is laid out as the list `items`: the list starts at the head, and
the slots behind it are cleared. -/
structure Represents (b : RingBuffer T capacity) (items : List T) : Prop where
  size : b.size = items.length
  bounded : items.length ≤ capacity
  window : ∀ i < capacity, b.slots ((b.head + i) % capacity) = items[i]?

lemma represents_contents (b : RingBuffer T capacity) : b.Represents b.contents where
  size := b.length_contents.symm
  bounded := b.length_contents.trans_le b.count_le
  window _ hi := b.slots_eq_getElem? hi

/-- Whatever operations follow, a ring buffer answers them as the bounded list does,
and stays laid out as it. -/
theorem run_refines (b : RingBuffer T capacity) (ops : List (FifoOp T)) :
    (FifoOp.run apply ops b).1 = (FifoOp.run (FifoOp.onList capacity) ops b.contents).1 ∧
      (FifoOp.run apply ops b).2.Represents
        (FifoOp.run (FifoOp.onList capacity) ops b.contents).2 := by
  have hsim : ∀ op (b : RingBuffer T capacity) items, b.contents = items →
      (apply op b).1 = (FifoOp.onList capacity op items).1 ∧
        (apply op b).2.contents = (FifoOp.onList capacity op items).2 := by
    rintro op b _ rfl
    exact apply_simulates op b
  obtain ⟨hreplies, hlast⟩ := FifoOp.run_of_simulates hsim rfl ops
  exact ⟨hreplies, hlast ▸ represents_contents _⟩

end RingBuffer

end InveniOps.Ingestion
