import Mathlib.Data.List.Nodup
import Mathlib.Data.List.Sort
import Mathlib.Data.Rat.Cast.Order

/-!
# Sorted sets

A set whose members carry scores.  The order of a range is by score, and by member
among equal scores.  A score may pack two keys; it is a double, so it has to be a number
that a double holds.
-/

namespace InveniOps.Lib

/-- The members of a sorted set of Redis with their scores. -/
structure SortedSet (α : Type*) where
  entries : List (α × ℤ)
  /-- A member has one score. -/
  unique : (entries.map (·.1)).Nodup

namespace SortedSet

variable {α : Type*} [DecidableEq α]

/-- The set without members. -/
def empty : SortedSet α := ⟨[], List.nodup_nil⟩

variable (s : SortedSet α)

/-- The members, whatever their scores. -/
def members : List α := s.entries.map (·.1)

/-- `ZREM`. -/
def remove (x : α) : SortedSet α where
  entries := s.entries.filter (·.1 ≠ x)
  unique := (List.filter_sublist.map _).nodup s.unique

/-- Add a member, or give it another score. -/
def add (x : α) (score : ℤ) : SortedSet α where
  entries := (s.remove x).entries ++ [(x, score)]
  unique := by
    rw [List.map_append]
    refine (s.remove x).unique.append (List.nodup_singleton _) ?_
    simp [remove, List.disjoint_singleton]

/-- `ZCARD`. -/
def card : ℕ := s.entries.length

/-- The members from position `start` to `stop`, as `ZRANGE` counts them: a negative
`stop` counts from the end. -/
def range [LinearOrder α] (start : ℕ) (stop : ℤ) : List α :=
  let sorted := s.entries.insertionSort fun a b => a.2 < b.2 ∨ a.2 = b.2 ∧ a.1 ≤ b.1
  let stop := if stop < 0 then stop + s.card else stop
  ((sorted.take (stop + 1).toNat).drop start).map (·.1)

variable {s} {x y : α}

@[simp] lemma mem_members_remove : y ∈ (s.remove x).members ↔ y ∈ s.members ∧ y ≠ x := by
  simp only [members, remove, List.mem_map, List.mem_filter, decide_eq_true_eq]
  constructor
  · rintro ⟨entry, ⟨hmem, hne⟩, rfl⟩
    exact ⟨⟨entry, hmem, rfl⟩, hne⟩
  · rintro ⟨⟨entry, hmem, rfl⟩, hne⟩
    exact ⟨entry, ⟨hmem, hne⟩, rfl⟩

@[simp] lemma mem_members_add {score : ℤ} :
    y ∈ (s.add x score).members ↔ y ∈ s.members ∨ y = x := by
  have hadd : (s.add x score).members = (s.remove x).members ++ [x] := by
    simp [members, add]
  rw [hadd, List.mem_append, mem_members_remove, List.mem_singleton]
  tauto

lemma mem_entries_add {score : ℤ} {entry : α × ℤ} :
    entry ∈ (s.add x score).entries ↔
      (entry ∈ s.entries ∧ entry.1 ≠ x) ∨ entry = (x, score) := by
  simp only [add, remove, List.mem_append, List.mem_filter, decide_eq_true_eq,
    List.mem_singleton]

/-- Adding an entry of the set again changes no entry. -/
lemma mem_entries_add_of_mem {score : ℤ} (h : (x, score) ∈ s.entries) {entry : α × ℤ} :
    entry ∈ (s.add x score).entries ↔ entry ∈ s.entries := by
  rw [mem_entries_add]
  constructor
  · rintro (⟨hmem, -⟩ | rfl)
    · exact hmem
    · exact h
  · intro hmem
    by_cases hx : entry.1 = x
    · exact .inr (List.inj_on_of_nodup_map s.unique hmem h hx)
    · exact .inl ⟨hmem, hx⟩

end SortedSet

/-! ### Ranges -/

namespace SortedSet

variable {α : Type*} [LinearOrder α] {a b c : α × ℤ}

/-- The order of a range. -/
def Precedes (a b : α × ℤ) : Prop := a.2 < b.2 ∨ a.2 = b.2 ∧ a.1 ≤ b.1

lemma precedes_total (a b : α × ℤ) : Precedes a b ∨ Precedes b a := by
  rcases lt_trichotomy a.2 b.2 with hlt | heq | hgt
  · exact .inl (.inl hlt)
  · exact (le_total a.1 b.1).imp (.inr ⟨heq, ·⟩) (.inr ⟨heq.symm, ·⟩)
  · exact .inr (.inl hgt)

lemma Precedes.trans (hab : Precedes a b) (hbc : Precedes b c) : Precedes a c := by
  rcases hab with hab | ⟨hab, hab'⟩ <;> rcases hbc with hbc | ⟨hbc, hbc'⟩
  · exact .inl (hab.trans hbc)
  · exact .inl (hbc ▸ hab)
  · exact .inl (hab ▸ hbc)
  · exact .inr ⟨hab.trans hbc, hab'.trans hbc'⟩

lemma Precedes.antisymm (hab : Precedes a b) (hba : Precedes b a) : a = b := by
  rcases hab with hab | ⟨hab, hab'⟩ <;> rcases hba with hba | ⟨hba, hba'⟩
  · exact absurd hab hba.not_gt
  · exact absurd hab (hba ▸ lt_irrefl _)
  · exact absurd hba (hab ▸ lt_irrefl _)
  · exact Prod.ext (hab'.antisymm hba') hab

/-- Entries in the order of a range. -/
def sorted (entries : List (α × ℤ)) : List (α × ℤ) :=
  entries.insertionSort fun a b => a.2 < b.2 ∨ a.2 = b.2 ∧ a.1 ≤ b.1

lemma sorted_perm (entries : List (α × ℤ)) : (sorted entries).Perm entries :=
  List.perm_insertionSort _ _

lemma pairwise_sorted (entries : List (α × ℤ)) : (sorted entries).Pairwise Precedes := by
  have htotal : Std.Total fun a b : α × ℤ => a.2 < b.2 ∨ a.2 = b.2 ∧ a.1 ≤ b.1 :=
    ⟨precedes_total⟩
  have htrans : IsTrans (α × ℤ) fun a b => a.2 < b.2 ∨ a.2 = b.2 ∧ a.1 ≤ b.1 :=
    ⟨fun _ _ _ => Precedes.trans⟩
  exact List.pairwise_insertionSort
    (fun a b : α × ℤ => a.2 < b.2 ∨ a.2 = b.2 ∧ a.1 ≤ b.1) entries

/-- The order of a range depends on what the entries are, not on how they are listed. -/
lemma sorted_eq_of_perm {entries entries' : List (α × ℤ)} (h : entries.Perm entries') :
    sorted entries = sorted entries' :=
  List.Perm.eq_of_pairwise (fun _ _ _ _ => Precedes.antisymm) (pairwise_sorted _)
    (pairwise_sorted _) ((sorted_perm entries).trans (h.trans (sorted_perm entries').symm))

/-- A range of `limit` positions from `start` on. -/
lemma range_eq (s : SortedSet α) (start : ℕ) {limit : ℕ} (hlimit : 0 < limit) :
    s.range start (start + limit - 1)
      = (((sorted s.entries).map (·.1)).drop start).take limit := by
  have hstop : ¬ ((start : ℤ) + limit - 1 < 0) := by omega
  have hlast : ((start : ℤ) + limit - 1 + 1).toNat = start + limit := by omega
  simp only [range, if_neg hstop, hlast]
  rw [List.drop_take, Nat.add_sub_cancel_left, ← List.map_drop, ← List.map_take]
  rfl

end SortedSet

/-! ### Scores -/

/-- A number that a double holds exactly. -/
def IsDouble (q : ℚ) : Prop :=
  ∃ m e : ℤ, |m| < 2 ^ 53 ∧ -1074 ≤ e ∧ e ≤ 971 ∧ q = m * 2 ^ e

lemma isDouble_intCast {n : ℤ} (h : |n| < 2 ^ 53) : IsDouble n :=
  ⟨n, 0, h, by decide, by decide, by rw [zpow_zero, mul_one]⟩

/-- A score that packs two keys orders by the first key, and by the second one where the
first keys are equal. -/
lemma packed_le_iff {B a b x y : ℤ} (hx : 0 ≤ x ∧ x < B) (hy : 0 ≤ y ∧ y < B) :
    a * B + x ≤ b * B + y ↔ a < b ∨ a = b ∧ x ≤ y := by
  rcases lt_trichotomy a b with hlt | rfl | hgt
  · have hband : (a + 1) * B ≤ b * B := Int.mul_le_mul_of_nonneg_right hlt (hx.1.trans hx.2.le)
    rw [Int.add_mul] at hband
    constructor
    · intro _
      exact .inl hlt
    · intro _
      omega
  · simp
  · have hband : (b + 1) * B ≤ a * B := Int.mul_le_mul_of_nonneg_right hgt (hx.1.trans hx.2.le)
    rw [Int.add_mul] at hband
    constructor
    · intro hle
      omega
    · intro hkeys
      omega

end InveniOps.Lib
