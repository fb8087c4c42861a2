import Mathlib.Algebra.BigOperators.Group.List.Basic
import Mathlib.Data.List.Dedup
import Mathlib.Data.List.Sort

/-!
# Grouping

The rows of a list are grouped by a key, each group is reduced to one value, and
the groups come out in the order of their keys.  Such a result depends on the
keys that occur and on the values of their groups only, and that decides when two
groupings agree: in another order of the rows, in parts, or by a coarser key.
-/

namespace InveniOps.Lib

variable {α β κ κ' ν : Type*} [LinearOrder κ] [LinearOrder κ']

/-- The keys that occur, in their order. -/
def keys (key : α → κ) (l : List α) : List κ := (l.map key).dedup.insertionSort (· ≤ ·)

/-- The rows of a group. -/
def members (key : α → κ) (l : List α) (k : κ) : List α := l.filter (key · = k)

/-- Every key with the aggregate of its members, in the order of their first occurrence. -/
def groupBy (key : α → κ) (agg : List α → β) (l : List α) : List (κ × β) :=
  (keys key l).map fun k => (k, agg (members key l k))

section Keys

variable {key : α → κ} {l : List α}

@[simp] lemma mem_keys {k : κ} : k ∈ keys key l ↔ ∃ x ∈ l, key x = k := by
  simp [keys]

lemma keys_pairwise (key : α → κ) (l : List α) : (keys key l).Pairwise (· < ·) := by
  have hle := (l.map key).dedup.pairwise_insertionSort (· ≤ ·)
  have hne : (keys key l).Pairwise (· ≠ ·) :=
    ((List.perm_insertionSort (· ≤ ·) _).nodup_iff).2 (List.nodup_dedup _)
  exact hle.imp₂ (fun _ _ => lt_of_le_of_ne) hne

/-- The keys are determined by which of them occur. -/
lemma keys_congr {key' : β → κ} {l' : List β}
    (h : ∀ k, (∃ x ∈ l, key x = k) ↔ ∃ x ∈ l', key' x = k) : keys key l = keys key' l' :=
  (keys_pairwise key l).eq_of_mem_iff (keys_pairwise key' l') fun k => by
    rw [mem_keys, mem_keys, h]

@[simp] lemma mem_members {k : κ} {x : α} : x ∈ members key l k ↔ x ∈ l ∧ key x = k := by
  simp [members]

lemma members_filter (p : α → Bool) (k : κ) :
    members key (l.filter p) k = (members key l k).filter p := by
  rw [members, members, List.filter_filter, List.filter_filter]
  exact List.filter_congr fun x _ => Bool.and_comm _ _

/-- Keys without rows add nothing to what the groups are flattened to. -/
lemma flatMap_keys_filter (p : α → Bool) {f : List α → List β} (hnil : f [] = []) :
    (keys key (l.filter p)).flatMap (fun k => f (members key (l.filter p) k)) =
      (keys key l).flatMap fun k => f (members key (l.filter p) k) := by
  have hkeys : keys key (l.filter p) =
      (keys key l).filter fun k => !(members key (l.filter p) k).isEmpty := by
    refine (keys_pairwise _ _).eq_of_mem_iff ((keys_pairwise _ _).filter _) fun k => ?_
    simp only [mem_keys, List.mem_filter, Bool.not_eq_true', List.isEmpty_eq_false_iff_exists_mem,
      mem_members]
    exact ⟨fun ⟨x, hx, hk⟩ => ⟨⟨x, hx.1, hk⟩, x, hx, hk⟩, fun ⟨_, x, hx, hk⟩ => ⟨x, hx, hk⟩⟩
  rw [hkeys]
  induction keys key l with
  | nil => rfl
  | cons k ks ih =>
    cases hk : members key (l.filter p) k with
    | nil => simp [hk, hnil, ih]
    | cons x xs => simp [hk, ih]

lemma members_append (m : List α) (k : κ) :
    members key (l ++ m) k = members key l k ++ members key m k :=
  List.filter_append ..

end Keys

/-! ### Groups -/

section GroupBy

variable {key : α → κ} {agg : List α → β} {l : List α}

@[simp] lemma map_fst_groupBy : (groupBy key agg l).map Prod.fst = keys key l := by
  simp [groupBy, Function.comp_def]

/-- The groups come out in the order of their keys, each once. -/
theorem groupBy_pairwise : ((groupBy key agg l).map Prod.fst).Pairwise (· < ·) := by
  rw [map_fst_groupBy]
  exact keys_pairwise key l

lemma mem_groupBy {k : κ} {b : β} :
    (k, b) ∈ groupBy key agg l ↔ (∃ x ∈ l, key x = k) ∧ b = agg (members key l k) := by
  simp only [groupBy, List.mem_map, mem_keys, Prod.mk.injEq]
  constructor
  · rintro ⟨k', hk', rfl, rfl⟩
    exact ⟨hk', rfl⟩
  · rintro ⟨hk, rfl⟩
    exact ⟨k, hk, rfl, rfl⟩

/-- Two groupings with the same keys and the same values agree. -/
theorem groupBy_congr {α' : Type*} {key' : α' → κ} {agg' : List α' → β} {l' : List α'}
    (hkeys : ∀ k, (∃ x ∈ l, key x = k) ↔ ∃ x ∈ l', key' x = k)
    (hagg : ∀ k ∈ keys key l, agg (members key l k) = agg' (members key' l' k)) :
    groupBy key agg l = groupBy key' agg' l' := by
  rw [groupBy, groupBy, ← keys_congr hkeys]
  exact List.map_congr_left fun k hk => by rw [hagg k hk]

/-- To filter the rows by their key is to filter the groups by it. -/
theorem groupBy_filter (p : κ → Bool) :
    groupBy key agg (l.filter fun x => p (key x)) =
      (groupBy key agg l).filter fun row => p row.1 := by
  have hkeys : keys key (l.filter fun x => p (key x)) = (keys key l).filter p := by
    refine (keys_pairwise _ _).eq_of_mem_iff ((keys_pairwise _ _).filter p) fun k => ?_
    simp only [mem_keys, List.mem_filter]
    constructor
    · rintro ⟨x, ⟨hx, hp⟩, rfl⟩
      exact ⟨⟨x, hx, rfl⟩, hp⟩
    · rintro ⟨⟨x, hx, rfl⟩, hp⟩
      exact ⟨x, ⟨hx, hp⟩, rfl⟩
  rw [groupBy, groupBy, hkeys, List.filter_map]
  refine List.map_congr_left fun k hk => ?_
  have hp : p k = true := (List.mem_filter.1 hk).2
  have hrows : members key (l.filter fun x => p (key x)) k = members key l k := by
    rw [members, members, List.filter_filter]
    refine List.filter_congr fun x _ => ?_
    by_cases hx : key x = k <;> simp [hx, hp]
  rw [hrows]

end GroupBy

/-! ### Totals -/

section GroupSum

variable [AddCommMonoid ν] {key : α → κ} {val : α → ν} {l : List α}

/-- `$group` with `$sum`. -/
def groupSum (key : α → κ) (val : α → ν) (l : List α) : List (κ × ν) :=
  groupBy key (fun rows => (rows.map val).sum) l

/-- What the rows of a key add up to. -/
def total (key : α → κ) (val : α → ν) (l : List α) (k : κ) : ν :=
  ((members key l k).map val).sum

lemma total_append (m : List α) (k : κ) :
    total key val (l ++ m) k = total key val l k + total key val m k := by
  rw [total, members_append, List.map_append, List.sum_append]
  rfl

lemma total_cons (x : α) (l : List α) (k : κ) :
    total key val (x :: l) k = (if key x = k then val x else 0) + total key val l k := by
  by_cases h : key x = k <;> simp [total, members, h]

lemma mem_groupSum {k : κ} {n : ν} :
    (k, n) ∈ groupSum key val l ↔ (∃ x ∈ l, key x = k) ∧ n = total key val l k :=
  mem_groupBy

lemma groupSum_congr {α' : Type*} {key' : α' → κ} {val' : α' → ν} {l' : List α'}
    (hkeys : ∀ k, (∃ x ∈ l, key x = k) ↔ ∃ x ∈ l', key' x = k)
    (htotal : ∀ k, total key val l k = total key' val' l' k) :
    groupSum key val l = groupSum key' val' l' :=
  groupBy_congr hkeys fun k _ => htotal k

/-- A list of keys without duplicates shares the rows out: what they add up to is the sum
over the keys. -/
lemma sum_total (val : α → ν) {ks : List κ} (hks : ks.Nodup) (h : ∀ x ∈ l, key x ∈ ks) :
    (ks.map (total key val l)).sum = (l.map val).sum := by
  induction l with
  | nil =>
    have hzero : ks.map (total key val []) = ks.map fun _ => (0 : ν) :=
      List.map_congr_left fun k _ => rfl
    rw [hzero]
    simp
  | cons x l ih =>
    have hone : (ks.map fun k => if key x = k then val x else 0).sum = val x := by
      rw [List.sum_map_eq_nsmul_single (key x) _ fun k hk _ => if_neg (Ne.symm hk),
        List.count_eq_one_of_mem hks (h x (by simp)), if_pos rfl, one_nsmul]
    have hcons : ks.map (total key val (x :: l)) =
        ks.map fun k => (if key x = k then val x else 0) + total key val l k :=
      List.map_congr_left fun k _ => total_cons x l k
    rw [hcons, List.sum_map_add, hone, ih fun y hy => h y (List.mem_cons_of_mem _ hy)]
    simp

/-- Nothing is lost and nothing counted twice. -/
theorem sum_groupSum (key : α → κ) (val : α → ν) (l : List α) :
    ((groupSum key val l).map Prod.snd).sum = (l.map val).sum := by
  have hnodup : (keys key l).Nodup := (keys_pairwise key l).imp ne_of_lt
  have h := sum_total val hnodup fun x hx => mem_keys.2 ⟨x, hx, rfl⟩
  rw [← h, groupSum, groupBy, List.map_map]
  rfl

/-- The groups of a grouping add up, by any coarser key, to what the rows do. -/
lemma total_groupSum (f : κ → κ') (k : κ') :
    total (fun row : κ × ν => f row.1) Prod.snd (groupSum key val l) k =
      total (fun x => f (key x)) val l k := by
  have hnodup : ((keys key l).filter (f · = k)).Nodup :=
    ((keys_pairwise key l).imp ne_of_lt).filter _
  have hmem : ∀ x ∈ members (fun x => f (key x)) l k, key x ∈ (keys key l).filter (f · = k) := by
    intro x hx
    obtain ⟨hx, hk⟩ := mem_members.1 hx
    exact List.mem_filter.2 ⟨mem_keys.2 ⟨x, hx, rfl⟩, by simpa using hk⟩
  have hshare := sum_total val hnodup hmem
  refine Eq.trans ?_ hshare
  rw [total, members, groupSum, groupBy, List.filter_map, List.map_map]
  refine congrArg List.sum (List.map_congr_left fun k' hk' => ?_)
  have hk' : f k' = k := by simpa using (List.mem_filter.1 hk').2
  have hrows : members key (members (fun x => f (key x)) l k) k' = members key l k' := by
    rw [members, members, members, List.filter_filter]
    refine List.filter_congr fun x _ => ?_
    by_cases hx : key x = k' <;> simp [hx, hk']
  rw [total, hrows]
  rfl

lemma exists_mem_groupSum (key : α → κ) (val : α → ν) {k : κ} :
    (∃ row ∈ groupSum key val l, row.1 = k) ↔ ∃ x ∈ l, key x = k := by
  constructor
  · rintro ⟨⟨k, n⟩, hrow, rfl⟩
    exact (mem_groupSum.1 hrow).1
  · intro h
    exact ⟨(k, _), mem_groupSum.2 ⟨h, rfl⟩, rfl⟩

/-- Grouping the groups by a coarser key is grouping the rows by it. -/
theorem groupSum_groupSum (key : α → κ) (val : α → ν) (l : List α) (f : κ → κ') :
    groupSum (fun row : κ × ν => f row.1) Prod.snd (groupSum key val l) =
      groupSum (fun x => f (key x)) val l := by
  refine groupSum_congr (fun k => ⟨?_, ?_⟩) (total_groupSum f)
  · rintro ⟨row, hrow, rfl⟩
    obtain ⟨x, hx, hk⟩ := (exists_mem_groupSum key val).1 ⟨row, hrow, rfl⟩
    exact ⟨x, hx, by rw [hk]⟩
  · rintro ⟨x, hx, rfl⟩
    obtain ⟨row, hrow, hk⟩ := (exists_mem_groupSum key val).2 ⟨x, hx, rfl⟩
    exact ⟨row, hrow, by rw [hk]⟩

/-- The groups of two lists, merged, are the groups of both lists together. -/
theorem groupSum_append (key : α → κ) (val : α → ν) (l m : List α) :
    groupSum Prod.fst Prod.snd (groupSum key val l ++ groupSum key val m) =
      groupSum key val (l ++ m) := by
  refine groupSum_congr (fun k => ?_) fun k => ?_
  · simp only [List.mem_append, or_and_right, exists_or]
    rw [exists_mem_groupSum key val, exists_mem_groupSum key val]
  · rw [total_append, total_append]
    have htotal : ∀ l : List α,
        total Prod.fst Prod.snd (groupSum key val l) k = total key val l k :=
      fun l => total_groupSum (fun k : κ => k) k
    rw [htotal, htotal]

lemma groupSum_map {α' : Type*} (g : α' → α) (l : List α') :
    groupSum key val (l.map g) = groupSum (fun x => key (g x)) (fun x => val (g x)) l := by
  refine groupSum_congr (fun k => by simp) fun k => ?_
  simp only [total, members, List.filter_map, List.map_map]
  rfl

/-- Lists with the same groups have, extended by lists with the same groups, the same groups. -/
lemma groupSum_append_congr {l' m m' : List α} (hl : groupSum key val l = groupSum key val l')
    (hm : groupSum key val m = groupSum key val m') :
    groupSum key val (l ++ m) = groupSum key val (l' ++ m') := by
  rw [← groupSum_append key val l m, hl, hm, groupSum_append]

/-- The order of the rows does not matter. -/
lemma groupSum_perm {l' : List α} (h : l.Perm l') : groupSum key val l = groupSum key val l' :=
  groupSum_congr (fun k => by simp only [h.mem_iff]) fun k => ((h.filter _).map val).sum_eq

/-- The groups of the rows whose key passes a test. -/
lemma groupSum_filter (p : κ → Bool) :
    groupSum key val (l.filter fun x => p (key x)) =
      (groupSum key val l).filter fun row => p row.1 :=
  groupBy_filter p

end GroupSum

/-! ### Windows -/

/-- Every entry with what `f` makes of it and the `n` entries before it. -/
def windowed {γ : Type*} (n : ℕ) (f : List β → γ) (l : List β) : List (β × γ) :=
  l.zipIdx.map fun entry => (entry.1, f ((l.take (entry.2 + 1)).drop (entry.2 - n)))

section Windows

variable {γ : Type*} {n : ℕ} {f : List β → γ}

@[simp] lemma map_fst_windowed (l : List β) : (windowed n f l).map Prod.fst = l := by
  simp [windowed, Function.comp_def]

@[simp] lemma length_windowed (l : List β) : (windowed n f l).length = l.length := by
  simp [windowed]

lemma getElem_windowed {l : List β} {i : ℕ} (hi : i < (windowed n f l).length)
    (hl : i < l.length) :
    (windowed n f l)[i] = (l[i], f ((l.take (i + 1)).drop (i - n))) := by
  simp [windowed]

/-- A window looks back only. -/
lemma windowed_take (l : List β) (k : ℕ) : windowed n f (l.take k) = (windowed n f l).take k := by
  refine List.ext_getElem (by simp) fun i hi hi' => ?_
  obtain ⟨hik, hil⟩ : i < k ∧ i < l.length := by
    simp only [length_windowed, List.length_take] at hi
    omega
  rw [List.getElem_take, getElem_windowed _ (by simp [hik, hil]), getElem_windowed _ hil,
    List.getElem_take, List.take_take, Nat.min_eq_left hik]

/-- In a sorted list the entries below a bound come first. -/
lemma filter_append_filter_not {r : β → β → Prop} {p : β → Bool} {l : List β}
    (h : l.Pairwise r) (hp : ∀ x y, r x y → p y = true → p x = true) :
    l.filter p ++ l.filter (fun x => !p x) = l := by
  induction l with
  | nil => rfl
  | cons x l ih =>
    obtain ⟨hx, hl⟩ := List.pairwise_cons.1 h
    cases hpx : p x with
    | true => simp [hpx, ih hl]
    | false =>
      have habove : ∀ y ∈ l, p y = false := fun y hy =>
        Bool.eq_false_iff.2 fun hpy => by
          rw [hp x y (hx y hy) hpy] at hpx
          cases hpx
      have hnone : l.filter p = [] := List.filter_eq_nil_iff.2 fun y hy => by simp [habove y hy]
      have hall : l.filter (fun x => !p x) = l :=
        List.filter_eq_self.2 fun y hy => by simp [habove y hy]
      simp [hpx, hnone, hall]

/-- The windows of the entries below a bound do not see the entries above it. -/
theorem windowed_filter {r : β → β → Prop} {p : β → Bool} {l : List β} (h : l.Pairwise r)
    (hp : ∀ x y, r x y → p y = true → p x = true) :
    windowed n f (l.filter p) = (windowed n f l).filter fun entry => p entry.1 := by
  have hsplit := filter_append_filter_not h hp
  have hbelow : l.take (l.filter p).length = l.filter p :=
    calc l.take (l.filter p).length
        = (l.filter p ++ l.filter fun x => !p x).take (l.filter p).length := by rw [hsplit]
      _ = l.filter p := List.take_left
  have habove : l.drop (l.filter p).length = l.filter (fun x => !p x) :=
    calc l.drop (l.filter p).length
        = (l.filter p ++ l.filter fun x => !p x).drop (l.filter p).length := by rw [hsplit]
      _ = l.filter (fun x => !p x) := List.drop_left
  have hwindows : windowed n f (l.filter p) = (windowed n f l).take (l.filter p).length := by
    rw [← windowed_take, hbelow]
  have hkept : ((windowed n f l).take (l.filter p).length).filter (fun entry => p entry.1) =
      (windowed n f l).take (l.filter p).length := by
    refine List.filter_eq_self.2 fun entry hentry => ?_
    rw [← hwindows] at hentry
    have hfst := List.mem_map_of_mem (f := Prod.fst) hentry
    rw [map_fst_windowed] at hfst
    exact (List.mem_filter.1 hfst).2
  have hdropped : ((windowed n f l).drop (l.filter p).length).filter (fun entry => p entry.1) =
      [] := by
    refine List.filter_eq_nil_iff.2 fun entry hentry => ?_
    have hfst := List.mem_map_of_mem (f := Prod.fst) hentry
    rw [List.map_drop, map_fst_windowed, habove] at hfst
    simpa using (List.mem_filter.1 hfst).2
  conv_rhs => rw [← List.take_append_drop (l.filter p).length (windowed n f l)]
  rw [List.filter_append, hkept, hdropped, List.append_nil, hwindows]

end Windows

end InveniOps.Lib
