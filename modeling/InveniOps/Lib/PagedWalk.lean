import InveniOps.Lib.ListFacts
import InveniOps.Lib.Lts

/-!
# Walks over the pages of a changing collection

A reader takes page after page by offsets while the collection goes on changing.  Each page
is cut from a listing of the whole collection at some instant; how ties are ordered may differ
from one listing to the next.  An entry whose position never decreases is on one of the pages,
whatever is inserted before it meanwhile.
-/

namespace InveniOps.Lib

variable {σ ε α : Type*}

/-! ### Positions -/

/-- In a sorted list an entry stands behind as many others as are to come before it. -/
lemma getElem?_countP_of_pairwise {r : α → α → Prop} {l : List α} (hnodup : l.Nodup)
    (hsorted : l.Pairwise r) {x : α} {before : α → Bool} (hx : x ∈ l)
    (hfront : ∀ y ∈ l, y ≠ x → r y x → before y = true)
    (hback : ∀ y ∈ l, r x y → before y = false) (hself : before x = false) :
    l[l.countP before]? = some x := by
  induction l with
  | nil => cases hx
  | cons z l ih =>
    obtain ⟨hz, hl⟩ := List.pairwise_cons.1 hsorted
    obtain ⟨hfresh, hnodup⟩ := List.nodup_cons.1 hnodup
    rcases List.mem_cons.1 hx with rfl | hmem
    · have hzero : l.countP before = 0 := by
        refine List.countP_eq_zero.2 fun y hy => ?_
        rw [hback y (List.mem_cons_of_mem _ hy) (hz y hy)]
        exact Bool.false_ne_true
      rw [List.countP_cons, hself, hzero]
      rfl
    · have hne : z ≠ x := by
        rintro rfl
        exact hfresh hmem
      rw [List.countP_cons, hfront z List.mem_cons_self hne (hz x hmem), if_pos rfl,
        List.getElem?_cons_succ]
      exact ih hnodup hl hmem (fun y hy => hfront y (List.mem_cons_of_mem _ hy))
        fun y hy => hback y (List.mem_cons_of_mem _ hy)

lemma mem_page {l : List α} {i offset limit : ℕ} {x : α} (h : l[i]? = some x) (hle : offset ≤ i)
    (hlt : i < offset + limit) : x ∈ (l.drop offset).take limit := by
  refine List.mem_of_getElem? (i := i - offset) ?_
  rw [List.getElem?_take_of_lt (by omega), List.getElem?_drop, ← h]
  congr 1
  omega

/-! ### Walks -/

/-- The pages from an offset on.  In between the system moves; the walk is over when a count,
taken behind the listing of a page, does not exceed the end of this page. -/
inductive PagedWalk (A : Lts σ ε) (listed : σ → List α → Prop) (count : σ → ℕ) (limit : ℕ) :
    ℕ → σ → List (List α) → σ → Prop
  | last {offset : ℕ} {s s₁ t : σ} {es fs : List ε} {l : List α}
      (runs : A.run s es = some s₁) (lists : listed s₁ l) (counts : A.run s₁ fs = some t)
      (ends : count t ≤ offset + limit) :
    PagedWalk A listed count limit offset s [(l.drop offset).take limit] t
  | more {offset : ℕ} {s s₁ s₂ t : σ} {es fs : List ε} {l : List α} {pages : List (List α)}
      (runs : A.run s es = some s₁) (lists : listed s₁ l) (counts : A.run s₁ fs = some s₂)
      (rest : PagedWalk A listed count limit (offset + limit) s₂ pages t) :
    PagedWalk A listed count limit offset s ((l.drop offset).take limit :: pages) t

namespace PagedWalk

variable {A : Lts σ ε} {listed : σ → List α → Prop} {count : σ → ℕ} {limit offset : ℕ} {s t : σ}
  {pages : List (List α)}

/-- The walk is a run of the system. -/
lemma exists_run (h : PagedWalk A listed count limit offset s pages t) :
    ∃ es, A.run s es = some t := by
  induction h with
  | @last offset s s₁ t es fs l runs lists counts ends =>
    exact ⟨es ++ fs, by rw [Lts.run_append, runs, Option.bind_some, counts]⟩
  | @more offset s s₁ s₂ t es fs l pages runs lists counts rest ih =>
    obtain ⟨gs, hgs⟩ := ih
    refine ⟨es ++ (fs ++ gs), ?_⟩
    rw [Lts.run_append, runs, Option.bind_some, Lts.run_append, counts, Option.bind_some, hgs]

/-- The entry `x` is there from `s` to `t`: listings have it at its position, which is below
the count and does not decrease. -/
structure Lasts (A : Lts σ ε) (listed : σ → List α → Prop) (count : σ → ℕ) (position : σ → ℕ)
    (x : α) (t s : σ) : Prop where
  lists : ∀ l, listed s l → l[position s]? = some x
  lt_count : position s < count s
  le_later : ∀ es s', A.run s es = some s' → (∃ fs, A.run s' fs = some t) →
    position s ≤ position s'

/-- An entry that lasts is on a page. -/
theorem exists_mem {position : σ → ℕ} {x : α}
    (hlasts : ∀ s' es fs, A.run s es = some s' → A.run s' fs = some t →
      Lasts A listed count position x t s')
    (hwalk : PagedWalk A listed count limit offset s pages t) (hoffset : offset ≤ position s) :
    ∃ page ∈ pages, x ∈ page := by
  induction hwalk with
  | @last offset s s₁ t es fs l runs lists counts ends =>
    have hrun : A.run s (es ++ fs) = some t := by
      rw [Lts.run_append, runs, Option.bind_some, counts]
    have hs := hlasts s [] (es ++ fs) rfl hrun
    have hs₁ := hlasts s₁ es fs runs counts
    have hle₁ := hs.le_later es s₁ runs ⟨fs, counts⟩
    have hle₂ := hs₁.le_later fs t counts ⟨[], rfl⟩
    have hlt := (hlasts t (es ++ fs) [] hrun rfl).lt_count
    refine ⟨_, List.mem_singleton_self _, mem_page (hs₁.lists l lists) ?_ ?_⟩
    · omega
    · omega
  | @more offset s s₁ s₂ t es fs l pages runs lists counts rest ih =>
    obtain ⟨gs, hgs⟩ := rest.exists_run
    have hrest : A.run s₁ (fs ++ gs) = some t := by
      rw [Lts.run_append, counts, Option.bind_some, hgs]
    have hs := hlasts s [] (es ++ (fs ++ gs)) rfl
      (by rw [Lts.run_append, runs, Option.bind_some, hrest])
    have hs₁ := hlasts s₁ es (fs ++ gs) runs hrest
    have hle₁ := hs.le_later es s₁ runs ⟨fs ++ gs, hrest⟩
    by_cases hpage : position s₁ < offset + limit
    · exact ⟨_, List.mem_cons_self, mem_page (hs₁.lists l lists) (by omega) hpage⟩
    · -- the entry stands behind this page, and will not come forward
      have hle₂ := hs₁.le_later fs s₂ counts ⟨gs, hgs⟩
      have hlater : ∀ s' es' fs', A.run s₂ es' = some s' → A.run s' fs' = some t →
          Lasts A listed count position x t s' := by
        intro s' es' fs' hrun' hend
        refine hlasts s' (es ++ (fs ++ es')) fs' ?_ hend
        rw [Lts.run_append, runs, Option.bind_some, Lts.run_append, counts, Option.bind_some,
          hrun']
      obtain ⟨page, hpage, hx⟩ := ih hlater (by omega)
      exact ⟨page, List.mem_cons_of_mem _ hpage, hx⟩

end PagedWalk

end InveniOps.Lib
