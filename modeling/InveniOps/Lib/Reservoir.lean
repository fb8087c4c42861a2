import Mathlib.Algebra.Order.Group.Defs
import Mathlib.Algebra.Order.Monoid.Unbundled.MinMax
import Mathlib.Tactic.Abel
import InveniOps.Lib.Lts
import InveniOps.Lib.ListFacts

/-!
# Reservoirs that refill up to a capacity

A reservoir is refilled by a supply that never falls, up to a capacity, and its
content is drawn off.  The file has the algebra of refilling and the law of a
metered system: what is drawn within a window of time is at most the capacity and
what is supplied within the window.
-/

namespace InveniOps.Lib

variable {α : Type*} [AddCommGroup α] [LinearOrder α] [IsOrderedAddMonoid α]

/-- The content of a reservoir after a gain. -/
def refilled (capacity content gain : α) : α := min capacity (content + gain)

section

variable {capacity content content' gain gain' : α}

omit [IsOrderedAddMonoid α] in
lemma refilled_le : refilled capacity content gain ≤ capacity := min_le_left _ _

omit [IsOrderedAddMonoid α] in
lemma refilled_le_add : refilled capacity content gain ≤ content + gain := min_le_right _ _

lemma refilled_nonneg (hcapacity : 0 ≤ capacity) (hcontent : 0 ≤ content) (hgain : 0 ≤ gain) :
    0 ≤ refilled capacity content gain :=
  le_min hcapacity (add_nonneg hcontent hgain)

/-- More content fills a reservoir by no more. -/
lemma refilled_le_refilled_add {δ : α} (hδ : 0 ≤ δ) (h : content' ≤ content + δ) :
    refilled capacity content' gain ≤ refilled capacity content gain + δ := by
  unfold refilled
  rw [← min_add_add_right, add_right_comm]
  exact min_le_min (le_add_of_nonneg_right hδ) (add_le_add_left h gain)

/-- More gain fills a reservoir by no more. -/
lemma refilled_add_le {δ : α} (hδ : 0 ≤ δ) :
    refilled capacity content (gain + δ) ≤ refilled capacity content gain + δ := by
  unfold refilled
  rw [← min_add_add_right, ← add_assoc]
  exact min_le_min_right _ (le_add_of_nonneg_right hδ)

omit [IsOrderedAddMonoid α] in
lemma refilled_zero (h : content ≤ capacity) : refilled capacity content 0 = content := by
  rw [refilled, add_zero, min_eq_right h]

/-- A gain that would fill the empty reservoir fills every one. -/
lemma refilled_eq_capacity (hcontent : 0 ≤ content) (h : capacity ≤ gain) :
    refilled capacity content gain = capacity :=
  min_eq_left (h.trans (le_add_of_nonneg_left hcontent))

lemma refilled_capacity (hgain : 0 ≤ gain) : refilled capacity capacity gain = capacity :=
  min_eq_left (le_add_of_nonneg_right hgain)

/-- Two gains are one, wherever the first is accounted. -/
lemma refilled_refilled (hgain' : 0 ≤ gain') :
    refilled capacity (refilled capacity content gain) gain'
      = refilled capacity content (gain + gain') := by
  unfold refilled
  rw [← min_add_add_right, ← min_assoc, min_eq_left (le_add_of_nonneg_right hgain'), add_assoc]

end

/-! ### Metered systems -/

variable {σ ε β τ : Type*} [LinearOrder τ]

/-- A transition system that draws from a reservoir as its clock moves on. -/
structure Reservoir (A : Lts σ ε) (β τ α : Type*) [AddCommGroup α] [LinearOrder α]
    [IsOrderedAddMonoid α] [LinearOrder τ] where
  inv : σ → Prop
  clock : σ → τ
  /-- What was supplied until an instant. -/
  supply : τ → α
  capacity : α
  content : σ → α
  /-- What an event draws. -/
  drawn : σ → ε → List β
  time : β → τ
  amount : β → α
  supply_mono : Monotone supply
  capacity_nonneg : 0 ≤ capacity
  content_nonneg : ∀ s, inv s → 0 ≤ content s
  inv_step : ∀ s e s', inv s → A.step s e = some s' → inv s'
  clock_step : ∀ s e s', inv s → A.step s e = some s' → clock s ≤ clock s'
  time_drawn : ∀ s e s', inv s → A.step s e = some s' → ∀ x ∈ drawn s e, time x = clock s'
  draw_le : ∀ s e s', inv s → A.step s e = some s' →
    ((drawn s e).map amount).sum + content s'
      ≤ refilled capacity (content s) (supply (clock s') - supply (clock s))

namespace Reservoir

variable {A : Lts σ ε} (R : Reservoir A β τ α)

/-- What is drawn in the window from `a` to `b`. -/
def window (a b : τ) (drawn : List β) : α :=
  ((drawn.filter fun x => a ≤ R.time x ∧ R.time x ≤ b).map R.amount).sum

lemma window_append (a b : τ) (drawn drawn' : List β) :
    R.window a b (drawn ++ drawn') = R.window a b drawn + R.window a b drawn' := by
  simp [window]

variable {R} {a b : τ} {s s' t : σ} {e : ε} {es : List ε}

lemma window_drawn (hs : R.inv s) (hstep : A.step s e = some s') :
    R.window a b (R.drawn s e)
      = if a ≤ R.clock s' ∧ R.clock s' ≤ b then ((R.drawn s e).map R.amount).sum else 0 := by
  have htime := R.time_drawn s e s' hs hstep
  unfold window
  split_ifs with hwindow
  · rw [List.filter_eq_self.2 fun x hx => by simpa [htime x hx] using hwindow]
  · rw [List.filter_eq_nil_iff.2 fun x hx => by simpa [htime x hx] using hwindow]
    rfl

/-- Behind the window nothing is drawn in it. -/
lemma window_eq_zero (hb : b < R.clock s) (hs : R.inv s) (hrun : A.run s es = some t) :
    R.window a b (A.emitted R.drawn s es) = 0 := by
  induction es generalizing s with
  | nil => rfl
  | cons e es ih =>
    obtain ⟨s', hstep, hes⟩ := Lts.run_cons_inv hrun
    have hclock := hb.trans_le (R.clock_step s e s' hs hstep)
    rw [Lts.emitted_cons hstep, window_append, window_drawn hs hstep,
      if_neg fun h => absurd h.2 (not_le.2 hclock), ih hclock (R.inv_step s e s' hs hstep) hes,
      add_zero]

/-- Inside the window the content and the supply that is left bound what is drawn. -/
lemma window_le_content (ha : a ≤ R.clock s) (hb : R.clock s ≤ b) (hs : R.inv s)
    (hrun : A.run s es = some t) : R.window a b (A.emitted R.drawn s es)
      ≤ R.content s + (R.supply b - R.supply (R.clock s)) := by
  induction es generalizing s with
  | nil => exact add_nonneg (R.content_nonneg s hs) (sub_nonneg.2 (R.supply_mono hb))
  | cons e es ih =>
    obtain ⟨s', hstep, hes⟩ := Lts.run_cons_inv hrun
    have hs' := R.inv_step s e s' hs hstep
    have ha' := ha.trans (R.clock_step s e s' hs hstep)
    rw [Lts.emitted_cons hstep, window_append, window_drawn hs hstep]
    rcases le_or_gt (R.clock s') b with hb' | hb'
    · rw [if_pos ⟨ha', hb'⟩]
      have hdraw := (R.draw_le s e s' hs hstep).trans refilled_le_add
      calc ((R.drawn s e).map R.amount).sum + R.window a b (A.emitted R.drawn s' es)
          _ ≤ ((R.drawn s e).map R.amount).sum
              + (R.content s' + (R.supply b - R.supply (R.clock s'))) :=
            add_le_add_right (ih ha' hb' hs' hes) _
          _ = (((R.drawn s e).map R.amount).sum + R.content s')
              + (R.supply b - R.supply (R.clock s')) := (add_assoc _ _ _).symm
          _ ≤ (R.content s + (R.supply (R.clock s') - R.supply (R.clock s)))
              + (R.supply b - R.supply (R.clock s')) := add_le_add_left hdraw _
          _ = R.content s + (R.supply b - R.supply (R.clock s)) := by abel
    · -- the event steps behind the window
      rw [if_neg fun h => absurd h.2 (not_le.2 hb'), zero_add, window_eq_zero hb' hs' hes]
      exact add_nonneg (R.content_nonneg s hs) (sub_nonneg.2 (R.supply_mono hb))

/-- What is drawn in a window is at most the capacity and what is supplied in it. -/
theorem window_le (hab : a ≤ b) (hs : R.inv s) (hrun : A.run s es = some t) :
    R.window a b (A.emitted R.drawn s es) ≤ R.capacity + (R.supply b - R.supply a) := by
  induction es generalizing s with
  | nil => exact add_nonneg R.capacity_nonneg (sub_nonneg.2 (R.supply_mono hab))
  | cons e es ih =>
    obtain ⟨s', hstep, hes⟩ := Lts.run_cons_inv hrun
    have hs' := R.inv_step s e s' hs hstep
    rw [Lts.emitted_cons hstep, window_append, window_drawn hs hstep]
    split_ifs with hwindow
    · -- the event opens the window, on a content that the capacity bounds
      obtain ⟨ha', hb'⟩ := hwindow
      have hdraw := (R.draw_le s e s' hs hstep).trans refilled_le
      calc ((R.drawn s e).map R.amount).sum + R.window a b (A.emitted R.drawn s' es)
          _ ≤ ((R.drawn s e).map R.amount).sum
              + (R.content s' + (R.supply b - R.supply (R.clock s'))) :=
            add_le_add_right (window_le_content ha' hb' hs' hes) _
          _ = (((R.drawn s e).map R.amount).sum + R.content s')
              + (R.supply b - R.supply (R.clock s')) := (add_assoc _ _ _).symm
          _ ≤ R.capacity + (R.supply b - R.supply a) :=
            add_le_add hdraw (sub_le_sub_left (R.supply_mono ha') _)
    · rw [zero_add]
      exact ih hs' hes

end Reservoir

end InveniOps.Lib
