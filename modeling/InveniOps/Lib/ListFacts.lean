import Mathlib.Algebra.Order.Group.Nat
import Mathlib.Algebra.GroupWithZero.Nat
import Mathlib.Data.List.Perm.Subperm
import Mathlib.Data.List.Nodup
import Mathlib.Data.List.TakeWhile
import Mathlib.Order.Bounds.Basic
import Mathlib.Algebra.Order.BigOperators.Group.List

/-!
# Lists of processes

A list whose entries are processes changes one entry at a time.  These lemmas
say how a total over the list, or the concatenation of what its entries hold,
changes with the entry, and what filters, partial maps and pages keep of a list.
-/

namespace InveniOps.Lib

open scoped List

variable {α β : Type*}

lemma exists_lt_of_getElem? {l : List α} {k : ℕ} {x : α} (h : l[k]? = some x) :
    ∃ hk : k < l.length, l[k] = x :=
  List.getElem?_eq_some_iff.1 h

lemma perm_cons_eraseIdx {l : List α} {k : ℕ} {x : α} (h : l[k]? = some x) :
    l ~ x :: l.eraseIdx k := by
  obtain ⟨hk, rfl⟩ := exists_lt_of_getElem? h
  exact (List.getElem_cons_eraseIdx_perm hk).symm

lemma set_perm_of_getElem? {l : List α} {k : ℕ} {x : α} (h : l[k]? = some x) (y : α) :
    l.set k y ~ y :: l.eraseIdx k := by
  obtain ⟨hk, -⟩ := exists_lt_of_getElem? h
  exact List.set_perm_cons_eraseIdx hk y

/-- A `filterMap` that loses nothing is a `map`. -/
lemma map_some_filterMap {l : List α} {f : α → Option β} (h : ∀ x ∈ l, (f x).isSome) :
    (l.filterMap f).map some = l.map f := by
  induction l with
  | nil => rfl
  | cons x l ih =>
    obtain ⟨y, hy⟩ := Option.isSome_iff_exists.1 (h x List.mem_cons_self)
    have hrest := ih fun z hz => h z (List.mem_cons_of_mem _ hz)
    rw [List.filterMap_cons_some hy, List.map_cons, List.map_cons, hy, hrest]

/-- What a `mapM` returns are values of the function at entries of the list. -/
lemma exists_of_mem_mapM {l : List α} {f : α → Option β} {l' : List β} (h : l.mapM f = some l')
    {y : β} (hy : y ∈ l') : ∃ x ∈ l, f x = some y := by
  induction l generalizing l' with
  | nil =>
    obtain rfl := Option.some.inj h
    cases hy
  | cons x l ih =>
    rw [List.mapM_cons] at h
    obtain ⟨z, hz, h⟩ := Option.bind_eq_some_iff.1 h
    obtain ⟨rest, hrest, h⟩ := Option.bind_eq_some_iff.1 h
    obtain rfl := Option.some.inj h
    rcases List.mem_cons.1 hy with rfl | hmem
    · exact ⟨x, List.mem_cons_self, hz⟩
    · obtain ⟨x', hx', hfx'⟩ := ih hrest hmem
      exact ⟨x', List.mem_cons_of_mem _ hx', hfx'⟩

lemma flatMap_eraseIdx_perm {l : List α} {k : ℕ} {x : α} (h : l[k]? = some x)
    (f : α → List β) : l.flatMap f ~ f x ++ (l.eraseIdx k).flatMap f := by
  simpa using (perm_cons_eraseIdx h).flatMap_right f

lemma flatMap_set_perm {l : List α} {k : ℕ} {x : α} (h : l[k]? = some x) (y : α)
    (f : α → List β) : (l.set k y).flatMap f ~ f y ++ (l.eraseIdx k).flatMap f := by
  simpa using (set_perm_of_getElem? h y).flatMap_right f

/-- An entry of an updated list is the new one or an old one at another place. -/
lemma getElem?_set_cases {l : List α} {k i : ℕ} {x y : α} (h : (l.set k y)[i]? = some x) :
    (i = k ∧ x = y) ∨ (i ≠ k ∧ l[i]? = some x) := by
  rw [List.getElem?_set] at h
  split_ifs at h with hi hk
  · exact .inl ⟨hi.symm, (Option.some.inj h).symm⟩
  · exact .inr ⟨fun heq => hi heq.symm, h⟩

lemma getElem?_of_prefix {l l' : List α} {i : ℕ} {x : α} (hinitial : l <+: l')
    (h : l[i]? = some x) : l'[i]? = some x := by
  obtain ⟨rest, rfl⟩ := hinitial
  rw [List.getElem?_append_left (List.getElem?_eq_some_iff.1 h).1, h]

/-- An entry of an extended list is the new one or an old one. -/
lemma getElem?_concat_cases {l : List α} {i : ℕ} {x y : α} (h : (l ++ [y])[i]? = some x) :
    (i = l.length ∧ x = y) ∨ l[i]? = some x := by
  rw [List.getElem?_append] at h
  split_ifs at h with hi
  · exact .inr h
  · rw [List.getElem?_singleton] at h
    split_ifs at h with hlen
    exact .inl ⟨by omega, (Option.some.inj h).symm⟩

lemma getElem?_set_self_of {l : List α} {k : ℕ} {x : α} (h : l[k]? = some x) (y : α) :
    (l.set k y)[k]? = some y := by
  obtain ⟨hk, -⟩ := exists_lt_of_getElem? h
  rw [List.getElem?_set_self hk]

/-- Changing an entry loses that entry alone. -/
lemma eq_or_mem_set_of_mem {l : List α} {k : ℕ} {x z : α} (h : l[k]? = some x) (hz : z ∈ l)
    (y : α) : z = x ∨ z ∈ l.set k y := by
  have hperm := (perm_cons_eraseIdx h).mem_iff.1 hz
  rcases List.mem_cons.1 hperm with hx | hrest
  · exact .inl hx
  · exact .inr ((set_perm_of_getElem? h y).mem_iff.2 (List.mem_cons_of_mem _ hrest))

lemma mem_set_self_of {l : List α} {k : ℕ} {x : α} (h : l[k]? = some x) (y : α) :
    y ∈ l.set k y :=
  (set_perm_of_getElem? h y).mem_iff.2 List.mem_cons_self

lemma getElem?_concat_of {l : List α} {i : ℕ} {x : α} (h : l[i]? = some x) (y : α) :
    (l ++ [y])[i]? = some x := by
  obtain ⟨hi, -⟩ := exists_lt_of_getElem? h
  rw [List.getElem?_append_left hi, h]

/-- Changing an entry without changing its key changes no key. -/
lemma map_set_of_eq {l : List α} {k : ℕ} {x y : α} {f : α → β} (h : l[k]? = some x)
    (hf : f y = f x) : (l.set k y).map f = l.map f := by
  refine List.ext_getElem? ?_
  intro i
  rw [List.getElem?_map, List.getElem?_map]
  by_cases hi : k = i
  · subst hi
    rw [getElem?_set_self_of h, h, Option.map_some, Option.map_some, hf]
  · rw [List.getElem?_set_ne hi]

/-- In an increasing list the first entry that passes a test is the least one that does. -/
lemma find?_eq_some_iff_isLeast [LinearOrder α] {l : List α} (h : l.Pairwise (· < ·))
    {p : α → Bool} {x : α} : l.find? p = some x ↔ IsLeast {y | y ∈ l ∧ p y = true} x := by
  induction l with
  | nil => simp [IsLeast]
  | cons z l ih =>
    obtain ⟨hz, hl⟩ := List.pairwise_cons.1 h
    cases hp : p z with
    | true =>
      have hleast : IsLeast {y | y ∈ z :: l ∧ p y = true} z := by
        refine ⟨⟨List.mem_cons_self, hp⟩, ?_⟩
        rintro y ⟨hy, -⟩
        rcases List.mem_cons.1 hy with rfl | hy
        · exact le_refl y
        · exact (hz y hy).le
      rw [List.find?_cons, hp, Option.some.injEq]
      constructor
      · rintro rfl
        exact hleast
      · intro hx
        exact hleast.unique hx
    | false =>
      have hset : {y | y ∈ z :: l ∧ p y = true} = {y | y ∈ l ∧ p y = true} := by
        ext y
        show (y ∈ z :: l ∧ p y = true) ↔ (y ∈ l ∧ p y = true)
        rw [List.mem_cons, or_and_right, or_iff_right_iff_imp]
        rintro ⟨rfl, hy⟩
        rw [hp] at hy
        cases hy
      rw [List.find?_cons, hp, hset]
      exact ih hl

/-- Two images of a list, read side by side. -/
lemma map_zipIdx_getD {γ δ : Type*} (l : List α) (f : α → β) (g : α → γ) (h : β → γ → δ) (z : γ) :
    ((l.map f).zipIdx.map fun (x, i) => h x ((l.map g)[i]?.getD z))
      = l.map fun a => h (f a) (g a) := by
  refine List.ext_getElem? ?_
  intro i
  rw [List.getElem?_map, List.getElem?_zipIdx, List.getElem?_map, List.getElem?_map]
  cases hi : l[i]? with
  | none => rfl
  | some a => simp [hi]

/-- What holds of an entry exactly if it held of the old one under a condition, holds of the
list exactly if it held under the condition. -/
lemma forall_mem_set_iff {l : List α} {k : ℕ} {x y : α} (h : l[k]? = some x) {Q : α → Prop}
    {P : Prop} (hQ : Q y ↔ Q x ∧ P) : (∀ z ∈ l.set k y, Q z) ↔ (∀ z ∈ l, Q z) ∧ P := by
  have hset : (∀ z ∈ l.set k y, Q z) ↔ ∀ z ∈ y :: l.eraseIdx k, Q z :=
    forall_congr' fun z => imp_congr_left (set_perm_of_getElem? h y).mem_iff
  have hold : (∀ z ∈ l, Q z) ↔ ∀ z ∈ x :: l.eraseIdx k, Q z :=
    forall_congr' fun z => imp_congr_left (perm_cons_eraseIdx h).mem_iff
  rw [hset, hold, List.forall_mem_cons, List.forall_mem_cons, hQ]
  tauto

/-- A total over the list moves by the difference of the entry. -/
lemma sum_map_set {l : List α} {k : ℕ} {x : α} (h : l[k]? = some x) (y : α) (f : α → ℕ) :
    ((l.set k y).map f).sum + f x = (l.map f).sum + f y := by
  have h₁ := ((set_perm_of_getElem? h y).map f).sum_eq
  have h₂ := ((perm_cons_eraseIdx h).map f).sum_eq
  rw [h₁, h₂, List.map_cons, List.map_cons, List.sum_cons, List.sum_cons]
  omega

/-- If the total is one, a single entry contributes it. -/
lemma exists_unique_of_sum_map_eq_one {l : List α} {f : α → ℕ} (h : (l.map f).sum = 1) :
    ∃ (k : ℕ) (x : α), l[k]? = some x ∧ f x = 1 ∧
      ∀ (k' : ℕ) (y : α), l[k']? = some y → k' ≠ k → f y = 0 := by
  induction l with
  | nil => cases h
  | cons x l ih =>
    rw [List.map_cons, List.sum_cons] at h
    rcases Nat.eq_zero_or_pos (f x) with hzero | hpos
    · -- the entry is further back
      obtain ⟨k, y, hk, hone, hothers⟩ := ih (by omega)
      refine ⟨k + 1, y, by simpa using hk, hone, ?_⟩
      intro k' z hk' hne
      cases k' with
      | zero =>
        obtain rfl : x = z := by simpa using hk'
        exact hzero
      | succ k' => exact hothers k' z (by simpa using hk') (by omega)
    · have hrest : (l.map f).sum = 0 := by omega
      refine ⟨0, x, rfl, by omega, ?_⟩
      intro k' z hk' hne
      cases k' with
      | zero => exact absurd rfl hne
      | succ k' =>
        have hmem : z ∈ l := List.mem_of_getElem? (by simpa using hk')
        exact List.sum_eq_zero_iff.1 hrest _ (List.mem_map_of_mem hmem)

/-- A count over the list moves by what the entry counts. -/
lemma countP_set_of {l : List α} {k : ℕ} {x : α} (h : l[k]? = some x) (y : α) (p : α → Bool) :
    (l.set k y).countP p + (if p x then 1 else 0) = l.countP p + (if p y then 1 else 0) := by
  rw [(set_perm_of_getElem? h y).countP_eq p, (perm_cons_eraseIdx h).countP_eq p,
    List.countP_cons, List.countP_cons]
  omega

/-- A sublist whose keys each occur once in the list is what the list has with
these keys. -/
lemma filter_eq_of_sublist [DecidableEq β] (f : α → β) {l F : List α} (hsub : F <+ l)
    (hone : ∀ x ∈ F, (l.map f).count (f x) = 1) :
    l.filter (fun x => (F.map f).contains (f x)) = F := by
  have hall : F.filter (fun x => (F.map f).contains (f x)) = F := by
    rw [List.filter_eq_self]
    intro x hx
    simpa using ⟨x, hx, rfl⟩
  have hle : F <+ l.filter fun x => (F.map f).contains (f x) := by
    have hfilter := hsub.filter fun x => (F.map f).contains (f x)
    rwa [hall] at hfilter
  have hnodup : ((l.filter fun x => (F.map f).contains (f x)).map f).Nodup := by
    rw [List.nodup_iff_count_le_one]
    intro y
    by_cases hy : y ∈ (l.filter fun x => (F.map f).contains (f x)).map f
    · obtain ⟨x, hx, rfl⟩ := List.mem_map.1 hy
      obtain ⟨z, hz, hzx⟩ : ∃ z ∈ F, f z = f x := by simpa using (List.mem_filter.1 hx).2
      rw [← hzx, ← hone z hz]
      exact (List.filter_sublist.map f).count_le _
    · rw [List.count_eq_zero.2 hy]
      exact Nat.zero_le _
  have hlength : (l.filter fun x => (F.map f).contains (f x)).length ≤ F.length := by
    have hsubset : (l.filter fun x => (F.map f).contains (f x)).map f ⊆ F.map f := by
      intro y hy
      obtain ⟨x, hx, rfl⟩ := List.mem_map.1 hy
      simpa using (List.mem_filter.1 hx).2
    simpa using (hnodup.subperm hsubset).length_le
  exact (hle.eq_of_length_le hlength).symm

/-! ### Texts with separators -/

lemma mem_intercalate_of_ne {ls : List (List α)} {x y : α} (h : y ≠ x) :
    y ∈ [x].intercalate ls ↔ ∃ l ∈ ls, y ∈ l := by
  induction ls with
  | nil => simp
  | cons l ls ih =>
    cases ls with
    | nil => simp
    | cons l' ls =>
      rw [List.intercalate_cons_cons, List.mem_append, List.mem_append, List.mem_singleton, ih,
        List.exists_mem_cons_iff]
      simp [h]

/-- A `filterMap` is a `map` if every entry is mapped. -/
lemma filterMap_eq_map_iff {l : List α} {f : α → Option β} {g : α → β} :
    l.filterMap f = l.map g ↔ ∀ x ∈ l, f x = some (g x) := by
  induction l with
  | nil => simp
  | cons x l ih =>
    rw [List.forall_mem_cons, ← ih, List.map_cons]
    cases hx : f x with
    | none =>
      rw [List.filterMap_cons_none hx]
      simp only [reduceCtorEq, false_and, iff_false]
      intro heq
      have hlength := congrArg List.length heq
      have hle := List.length_filterMap_le f l
      simp only [List.length_cons, List.length_map] at hlength
      omega
    | some y =>
      rw [List.filterMap_cons_some hx, List.cons.injEq, Option.some.injEq]

/-- A text whose characters are replaced is the same if all of them are kept. -/
lemma flatMap_eq_self_iff {l : List α} {f : α → List α} (h : ∀ x, f x = [x] ∨ 1 < (f x).length) :
    l.flatMap f = l ↔ ∀ x ∈ l, f x = [x] := by
  have hlength : ∀ m : List α, m.length ≤ (m.flatMap f).length := by
    intro m
    induction m with
    | nil => exact Nat.le_refl 0
    | cons x m ih =>
      rw [List.flatMap_cons, List.length_append, List.length_cons]
      rcases h x with hx | hx
      · rw [hx, List.length_singleton]
        omega
      · omega
  constructor
  · intro heq
    induction l with
    | nil => simp
    | cons x l ih =>
      rw [List.flatMap_cons] at heq
      rcases h x with hx | hx
      · rw [hx, List.singleton_append, List.cons.injEq] at heq
        exact List.forall_mem_cons.2 ⟨hx, ih heq.2⟩
      · have hlist := congrArg List.length heq
        have hle := hlength l
        rw [List.length_append, List.length_cons] at hlist
        omega
  · intro hall
    rw [List.flatMap_congr hall, List.flatMap_singleton']

/-- What is dropped from the start does not reach beyond an entry that is kept. -/
lemma dropWhile_append_of_mem {p : α → Bool} {l m : List α} {x : α} (hx : x ∈ l)
    (hp : p x = false) : (l ++ m).dropWhile p = l.dropWhile p ++ m := by
  have hne : l.dropWhile p ≠ [] := by
    intro hnil
    have hall := List.dropWhile_eq_nil_iff.1 hnil x hx
    rw [hp] at hall
    cases hall
  rw [List.dropWhile_append, if_neg (by simpa using hne)]

/-- Consecutive pages are the list from its start on. -/
lemma flatMap_pages (l : List α) (limit n : ℕ) :
    ((List.range n).flatMap fun i => (l.drop (i * limit)).take limit) = l.take (n * limit) := by
  induction n with
  | zero => simp
  | succ n ih =>
    rw [List.range_succ, List.flatMap_append, ih, List.flatMap_singleton, Nat.add_one_mul,
      List.take_add]

/-- Two lists of the same entries, sorted by their keys, have the same sequence of keys. -/
lemma map_eq_of_pairwise {r : β → β → Prop} (hantisymm : ∀ x y, r x y → r y x → x = y)
    {l l' : List α} {key : α → β} (h : (l.map key).Pairwise r) (h' : (l'.map key).Pairwise r)
    (hperm : l ~ l') : l.map key = l'.map key :=
  List.Perm.eq_of_pairwise (fun x y _ _ => hantisymm x y) h h' (hperm.map key)

/-- A kind whose members all have one key is there at most once. -/
lemma countP_le_one_of_nodup_map {f : α → β} {l : List α} {p : α → Bool}
    (hnodup : (l.map f).Nodup)
    (hsame : ∀ x ∈ l, ∀ y ∈ l, p x = true → p y = true → f x = f y) : l.countP p ≤ 1 := by
  induction l with
  | nil => simp
  | cons x l ih =>
    rw [List.map_cons, List.nodup_cons] at hnodup
    have hrest := ih hnodup.2 fun y hy z hz =>
      hsame y (List.mem_cons_of_mem _ hy) z (List.mem_cons_of_mem _ hz)
    cases hp : p x with
    | false =>
      rw [List.countP_cons, hp]
      simpa using hrest
    | true =>
      have hzero : l.countP p = 0 := by
        refine List.countP_eq_zero.2 fun y hy hpy => hnodup.1 ?_
        rw [hsame x (by simp) y (List.mem_cons_of_mem _ hy) hp hpy]
        exact List.mem_map_of_mem hy
      rw [List.countP_cons, hp, hzero]
      simp

/-- Where keys are unique, an entry is found by its key. -/
lemma find?_of_nodup_map [DecidableEq β] {key : α → β} {l : List α} (hnodup : (l.map key).Nodup)
    {x : α} (hx : x ∈ l) : l.find? (fun y => key y = key x) = some x := by
  cases h : l.find? (fun y => key y = key x) with
  | none => exact absurd (List.find?_eq_none.1 h x hx) (by simp)
  | some y =>
    have hkey : key y = key x := by simpa using List.find?_some h
    rw [List.inj_on_of_nodup_map hnodup (List.mem_of_find?_eq_some h) hx hkey]

/-- What an inverse reads back of the images of a list is the list. -/
lemma mapM_map_of_inverse {l : List α} {f : α → β} {g : β → Option α}
    (h : ∀ x ∈ l, g (f x) = some x) : (l.map f).mapM g = some l := by
  induction l with
  | nil => rfl
  | cons x l ih =>
    have hrest := ih fun y hy => h y (List.mem_cons_of_mem _ hy)
    rw [List.map_cons, List.mapM_cons, h x List.mem_cons_self, hrest]
    rfl

/-- Wherever `y` occurs in the list, `x` occurs before it. -/
def Before (x y : α) : List α → Prop
  | [] => True
  | z :: l => z = x ∨ (z ≠ y ∧ Before x y l)

lemma Before.of_not_mem {x y : α} {l : List α} (h : y ∉ l) : Before x y l := by
  induction l with
  | nil => trivial
  | cons z l ih =>
    rw [List.mem_cons, not_or] at h
    exact .inr ⟨fun heq => h.1 heq.symm, ih h.2⟩

lemma before_append {x y : α} {l m : List α} :
    Before x y (l ++ m) ↔ Before x y l ∧ (x ∈ l ∨ Before x y m) := by
  induction l with
  | nil => simp [Before]
  | cons z l ih =>
    simp only [List.cons_append, Before, ih, List.mem_cons]
    by_cases hz : z = x
    · simp [hz]
    · have hx : x ≠ z := fun heq => hz heq.symm
      simp [hz, hx, and_assoc]

end InveniOps.Lib
