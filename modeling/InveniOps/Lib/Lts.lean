import Mathlib.Data.List.Induction

/-!
# Transition systems driven by events

A system here is a partial step function: an event names everything that the
environment decides (which process moves, what a store answers, what the clock
shows), and an event that cannot happen in a state has no successor there.  A
run is a list of events.  The file provides the induction rules for invariants,
for runs all of whose steps meet a condition, for variants that bound a run, for
facts about some earlier instant of a run, for history variables, for what
enters and leaves a queue over a run, and for one system refining another.
-/

namespace InveniOps.Lib

/-- A transition system whose events carry all of its nondeterminism. -/
structure Lts (σ ε : Type*) where
  /-- The state after an event, if the event can happen. -/
  step : σ → ε → Option σ

namespace Lts

variable {σ ε : Type*} (A : Lts σ ε)

/-- The state after a list of events. -/
def run : σ → List ε → Option σ
  | s, [] => some s
  | s, e :: es =>
    match A.step s e with
    | none => none
    | some s' => run s' es

@[simp] lemma run_nil (s : σ) : A.run s [] = some s := rfl

lemma run_cons (s : σ) (e : ε) (es : List ε) :
    A.run s (e :: es) = (A.step s e).bind (A.run · es) := by
  cases h : A.step s e <;> simp [run, h]

variable {A}

lemma run_cons_inv {s t : σ} {e : ε} {es : List ε} (h : A.run s (e :: es) = some t) :
    ∃ s', A.step s e = some s' ∧ A.run s' es = some t := by
  rw [run_cons] at h
  exact Option.bind_eq_some_iff.1 h

lemma run_append {s : σ} {es fs : List ε} :
    A.run s (es ++ fs) = (A.run s es).bind (A.run · fs) := by
  induction es generalizing s with
  | nil => simp
  | cons e es ih =>
    cases h : A.step s e with
    | none => simp [run_cons, h]
    | some s' => simp [run_cons, h, ih]

lemma run_append_inv {s t : σ} {es fs : List ε} (h : A.run s (es ++ fs) = some t) :
    ∃ s', A.run s es = some s' ∧ A.run s' fs = some t := by
  rw [run_append] at h
  exact Option.bind_eq_some_iff.1 h

lemma run_concat_inv {s t : σ} {es : List ε} {e : ε} (h : A.run s (es ++ [e]) = some t) :
    ∃ s', A.run s es = some s' ∧ A.step s' e = some t := by
  obtain ⟨s', h₁, h₂⟩ := run_append_inv h
  obtain ⟨t', h₃, h₄⟩ := run_cons_inv h₂
  obtain rfl : t' = t := Option.some.inj h₄
  exact ⟨s', h₁, h₃⟩

lemma run_concat {s s' t : σ} {es : List ε} {e : ε} (h : A.run s es = some s')
    (he : A.step s' e = some t) : A.run s (es ++ [e]) = some t := by
  rw [run_append, h, Option.bind_some, run_cons, he]
  rfl

/-- A run of a part is a run of the whole. -/
lemma run_embed {τ δ : Type*} {B : Lts τ δ} (put : σ → τ) {f : ε → δ} {s t : σ} {es : List ε}
    (hstep : ∀ s s', ∀ e ∈ es, A.step s e = some s' → B.step (put s) (f e) = some (put s'))
    (hrun : A.run s es = some t) : B.run (put s) (es.map f) = some (put t) := by
  induction es generalizing s with
  | nil =>
    obtain rfl : s = t := Option.some.inj hrun
    rfl
  | cons e es ih =>
    obtain ⟨s', he, hes⟩ := run_cons_inv hrun
    rw [List.map_cons, run_cons, hstep s s' e List.mem_cons_self he]
    exact ih (fun s s' e' he' => hstep s s' e' (List.mem_cons_of_mem _ he')) hes

/-! ### Invariants -/

/-- What holds at the start and is kept by every step holds after every run. -/
theorem run_invariant {I : σ → Prop} (hstep : ∀ s e s', I s → A.step s e = some s' → I s')
    {s t : σ} {es : List ε} (hrun : A.run s es = some t) (h₀ : I s) : I t := by
  induction es generalizing s with
  | nil =>
    obtain rfl : s = t := Option.some.inj hrun
    exact h₀
  | cons e es ih =>
    obtain ⟨s', he, hes⟩ := run_cons_inv hrun
    exact ih hes (hstep s e s' h₀ he)

variable (A) in
/-- Every step of the run meets the condition `P`, which sees the state before
the step and the event. -/
def Meets (P : σ → ε → Prop) : σ → List ε → Prop
  | _, [] => True
  | s, e :: es => P s e ∧ ∀ s', A.step s e = some s' → Meets P s' es

/-- Whether a run meets a decidable condition can be computed. -/
instance decidableMeets (P : σ → ε → Prop) [∀ s e, Decidable (P s e)] :
    ∀ s es, Decidable (A.Meets P s es)
  | _, [] => isTrue trivial
  | s, e :: es =>
    match h : A.step s e with
    | none => decidable_of_iff (P s e) (by simp [Meets, h])
    | some s' =>
      have := decidableMeets P s' es
      decidable_of_iff (P s e ∧ A.Meets P s' es) (by simp [Meets, h])

/-- The invariant rule for the runs all of whose steps meet a condition. -/
theorem run_invariant_of_meets {I : σ → Prop} {P : σ → ε → Prop}
    (hstep : ∀ s e s', I s → P s e → A.step s e = some s' → I s')
    {s t : σ} {es : List ε} (hrun : A.run s es = some t) (hmeets : A.Meets P s es)
    (h₀ : I s) : I t := by
  induction es generalizing s with
  | nil =>
    obtain rfl : s = t := Option.some.inj hrun
    exact h₀
  | cons e es ih =>
    obtain ⟨s', he, hes⟩ := run_cons_inv hrun
    exact ih hes (hmeets.2 s' he) (hstep s e s' h₀ hmeets.1 he)

lemma meets_of_forall {P : σ → ε → Prop} (h : ∀ s e, P s e) (s : σ) (es : List ε) :
    A.Meets P s es := by
  induction es generalizing s with
  | nil => trivial
  | cons e es ih => exact ⟨h s e, fun s' _ => ih s'⟩

lemma Meets.imp {P Q : σ → ε → Prop} {s : σ} {es : List ε} (h : A.Meets P s es)
    (himp : ∀ s e, P s e → Q s e) : A.Meets Q s es := by
  induction es generalizing s with
  | nil => trivial
  | cons e es ih => exact ⟨himp s e h.1, fun s' hs' => ih (h.2 s' hs')⟩

/-- A condition on the events alone can be added. -/
lemma Meets.and_of_forall {P : σ → ε → Prop} {Q : ε → Prop} {s : σ} {es : List ε}
    (h : A.Meets P s es) (hQ : ∀ e ∈ es, Q e) : A.Meets (fun s e => Q e ∧ P s e) s es := by
  induction es generalizing s with
  | nil => trivial
  | cons e es ih =>
    refine ⟨⟨hQ e List.mem_cons_self, h.1⟩, fun s' hs' => ih (h.2 s' hs') ?_⟩
    intro e' he'
    exact hQ e' (List.mem_cons_of_mem _ he')

lemma Meets.append {P : σ → ε → Prop} {s t : σ} {es fs : List ε} (h : A.Meets P s es)
    (hrun : A.run s es = some t) (h' : A.Meets P t fs) : A.Meets P s (es ++ fs) := by
  induction es generalizing s with
  | nil =>
    obtain rfl : s = t := Option.some.inj hrun
    exact h'
  | cons e es ih =>
    obtain ⟨s', he, hes⟩ := run_cons_inv hrun
    refine ⟨h.1, fun s'' he' => ?_⟩
    obtain rfl : s' = s'' := Option.some.inj (he.symm.trans he')
    exact ih (h.2 s' he) hes

/-- The invariant rule for the runs all of whose events are of a kind. -/
theorem run_invariant_of_events {I : σ → Prop} {Q : ε → Prop}
    (hstep : ∀ s e s', I s → Q e → A.step s e = some s' → I s')
    {s t : σ} {es : List ε} (hrun : A.run s es = some t) (hes : ∀ e ∈ es, Q e) (h₀ : I s) :
    I t := by
  have hmeets := (A.meets_of_forall (fun (_ : σ) _ => trivial) s es).and_of_forall hes
  exact run_invariant_of_meets (fun s e s' hs hQ he => hstep s e s' hs hQ.1 he) hrun hmeets h₀

/-- An invariant may mention the events so far. -/
theorem run_invariant_history {s₀ : σ} {I : List ε → σ → Prop} (h₀ : I [] s₀)
    (hstep : ∀ es s e s', A.run s₀ es = some s → I es s → A.step s e = some s' →
      I (es ++ [e]) s')
    {t : σ} {es : List ε} (hrun : A.run s₀ es = some t) : I es t := by
  induction es using List.reverseRecOn generalizing t with
  | nil =>
    obtain rfl : s₀ = t := Option.some.inj hrun
    exact h₀
  | append_singleton es e ih =>
    obtain ⟨s, hs, he⟩ := run_concat_inv hrun
    exact hstep es s e t hs (ih hs) he

/-- A run that meets a condition met it up to its last step. -/
lemma Meets.of_concat {P : σ → ε → Prop} {s t : σ} {es : List ε} {e : ε}
    (h : A.Meets P s (es ++ [e])) (hrun : A.run s es = some t) : A.Meets P s es ∧ P t e := by
  induction es generalizing s with
  | nil =>
    obtain rfl : s = t := Option.some.inj hrun
    exact ⟨trivial, h.1⟩
  | cons e' es ih =>
    obtain ⟨s', he', hes⟩ := run_cons_inv hrun
    obtain ⟨hmeets, hlast⟩ := ih (h.2 s' he') hes
    refine ⟨⟨h.1, fun s'' hs'' => ?_⟩, hlast⟩
    obtain rfl := Option.some.inj (he'.symm.trans hs'')
    exact hmeets

/-- An invariant that mentions the events so far, for the runs that meet a condition. -/
theorem run_invariant_history_of_meets {s₀ : σ} {I : List ε → σ → Prop} {P : σ → ε → Prop}
    (h₀ : I [] s₀)
    (hstep : ∀ es s e s', A.run s₀ es = some s → I es s → P s e → A.step s e = some s' →
      I (es ++ [e]) s')
    {t : σ} {es : List ε} (hrun : A.run s₀ es = some t) (hmeets : A.Meets P s₀ es) : I es t := by
  induction es using List.reverseRecOn generalizing t with
  | nil =>
    obtain rfl : s₀ = t := Option.some.inj hrun
    exact h₀
  | append_singleton es e ih =>
    obtain ⟨s, hs, he⟩ := run_concat_inv hrun
    obtain ⟨hmeets, hlast⟩ := hmeets.of_concat hs
    exact hstep es s e t hs (ih hs hmeets) hlast he

/-! ### Variants -/

section

variable {V : ℕ → σ → Prop} {P : σ → ε → Prop}

/-- If no step raises the variant, and some events lower it, a run has at most as many
of these as the variant allows. -/
theorem countP_le_variant {counts : ε → Bool}
    (hstep : ∀ n s e s', V n s → P s e → A.step s e = some s' →
      ∃ m, V m s' ∧ m + (if counts e then 1 else 0) ≤ n)
    {s t : σ} {es : List ε} {n : ℕ} (hrun : A.run s es = some t) (hmeets : A.Meets P s es)
    (h : V n s) : ∃ m, V m t ∧ m + es.countP counts ≤ n := by
  induction es generalizing s n with
  | nil =>
    obtain rfl : s = t := Option.some.inj hrun
    exact ⟨n, h, Nat.le_refl n⟩
  | cons e es ih =>
    obtain ⟨s', he, hes⟩ := run_cons_inv hrun
    obtain ⟨m, hm, hle⟩ := hstep n s e s' h hmeets.1 he
    obtain ⟨m', hm', hle'⟩ := ih hes (hmeets.2 s' he) hm
    refine ⟨m', hm', ?_⟩
    rw [List.countP_cons]
    omega

/-- If outside the goal some step lowers the variant, some run ends in the goal. -/
theorem exists_run_of_variant {goal : σ → Prop}
    (hstep : ∀ n s, V n s → goal s ∨ ∃ e s' m, P s e ∧ A.step s e = some s' ∧ V m s' ∧ m < n)
    {s : σ} {n : ℕ} (h : V n s) :
    ∃ es t m, A.run s es = some t ∧ A.Meets P s es ∧ V m t ∧ goal t := by
  induction n using Nat.strongRecOn generalizing s with
  | ind n ih =>
    rcases hstep n s h with hgoal | ⟨e, s', m, hP, he, hm, hlt⟩
    · exact ⟨[], s, n, rfl, trivial, h, hgoal⟩
    · obtain ⟨es, t, m', hrun, hmeets, hm', hgoal⟩ := ih m hlt hm
      refine ⟨e :: es, t, m', ?_, ⟨hP, ?_⟩, hm', hgoal⟩
      · rw [run_cons, he, Option.bind_some, hrun]
      · intro s'' he'
        obtain rfl := Option.some.inj (he.symm.trans he')
        exact hmeets

end

/-! ### Earlier instants of a run -/

variable (A) in
/-- At some instant of the run from `s` the state satisfied `P`. -/
def Passed (s : σ) (es : List ε) (P : List ε → σ → Prop) : Prop :=
  ∃ pre post t, es = pre ++ post ∧ A.run s pre = some t ∧ P pre t

lemma Passed.mono {s : σ} {es : List ε} {P : List ε → σ → Prop} (h : A.Passed s es P)
    (fs : List ε) : A.Passed s (es ++ fs) P := by
  obtain ⟨pre, post, t, rfl, hrun, hP⟩ := h
  exact ⟨pre, post ++ fs, t, List.append_assoc _ _ _, hrun, hP⟩

lemma Passed.now {s t : σ} {es : List ε} {P : List ε → σ → Prop} (hrun : A.run s es = some t)
    (hP : P es t) : A.Passed s es P :=
  ⟨es, [], t, (List.append_nil es).symm, hrun, hP⟩

lemma Passed.imp {s : σ} {es : List ε} {P Q : List ε → σ → Prop} (h : A.Passed s es P)
    (hPQ : ∀ pre t, P pre t → Q pre t) : A.Passed s es Q := by
  obtain ⟨pre, post, t, hes, hrun, hP⟩ := h
  exact ⟨pre, post, t, hes, hrun, hPQ pre t hP⟩

variable (A) in
/-- The states that a run visits. -/
def visited : σ → List ε → List σ
  | s, [] => [s]
  | s, e :: es =>
    s :: match A.step s e with
      | none => []
      | some s' => visited s' es

lemma mem_visited {s t : σ} {pre post : List ε} (hrun : A.run s pre = some t) :
    t ∈ A.visited s (pre ++ post) := by
  induction pre generalizing s with
  | nil =>
    obtain rfl : s = t := Option.some.inj hrun
    cases post <;> simp [visited]
  | cons e pre ih =>
    obtain ⟨s', he, hpre⟩ := run_cons_inv hrun
    simp only [List.cons_append, visited, he]
    exact List.mem_cons_of_mem _ (ih hpre)

lemma visited_concat {s t t' : σ} {es : List ε} {e : ε} (hrun : A.run s es = some t)
    (he : A.step t e = some t') : A.visited s (es ++ [e]) = A.visited s es ++ [t'] := by
  induction es generalizing s with
  | nil =>
    obtain rfl : s = t := Option.some.inj hrun
    simp [visited, he]
  | cons e' es ih =>
    obtain ⟨s', he', hes⟩ := run_cons_inv hrun
    simp only [List.cons_append, visited, he', ih hes]

/-- Where a condition on the steps is exactly what keeps a property, a run meets the
condition if and only if all its states have the property. -/
lemma meets_iff_visited {I : σ → Prop} {P : σ → ε → Prop}
    (hstep : ∀ s e s', I s → A.step s e = some s' → (P s e ↔ I s'))
    {s t : σ} {es : List ε} (hrun : A.run s es = some t) (h₀ : I s) :
    A.Meets P s es ↔ ∀ u ∈ A.visited s es, I u := by
  induction es generalizing s with
  | nil => simpa [Meets, visited] using h₀
  | cons e es ih =>
    obtain ⟨s', he, hes⟩ := run_cons_inv hrun
    simp only [visited, he, List.forall_mem_cons, h₀, true_and]
    have hhead : s' ∈ A.visited s' es := by
      cases es <;> simp [visited]
    constructor
    · rintro ⟨hP, hmeets⟩
      exact (ih hes ((hstep s e s' h₀ he).1 hP)).1 (hmeets s' he)
    · intro hall
      refine ⟨(hstep s e s' h₀ he).2 (hall s' hhead), ?_⟩
      intro s'' hs''
      obtain rfl := Option.some.inj (he.symm.trans hs'')
      exact (ih hes (hall _ hhead)).2 hall

/-- A test that fails in every visited state refutes that something was passed. -/
lemma not_passed_of_visited {s : σ} {es : List ε} {P : List ε → σ → Prop} (test : σ → Bool)
    (htest : ∀ pre t, P pre t → test t = true) (hall : (A.visited s es).all (!test ·) = true) :
    ¬ A.Passed s es P := by
  rintro ⟨pre, post, t, rfl, hrun, hP⟩
  have hfalse := List.all_eq_true.1 hall t (mem_visited hrun)
  simp [htest pre t hP] at hfalse

/-- Where a step has the property behind it exactly if it had it and met a condition, a run
has it at its end exactly if it had it at its start and met the condition throughout. -/
lemma last_iff_meets {I J : σ → Prop} {P : σ → ε → Prop}
    (hinv : ∀ s e s', J s → A.step s e = some s' → J s')
    (hstep : ∀ s e s', J s → A.step s e = some s' → (I s' ↔ I s ∧ P s e))
    {s t : σ} {es : List ε} (hrun : A.run s es = some t) (h₀ : J s) :
    I t ↔ I s ∧ A.Meets P s es := by
  induction es generalizing s with
  | nil =>
    obtain rfl : s = t := Option.some.inj hrun
    simp [Meets]
  | cons e es ih =>
    obtain ⟨s', he, hes⟩ := run_cons_inv hrun
    rw [ih hes (hinv s e s' h₀ he), hstep s e s' h₀ he, and_assoc]
    simp only [Meets, he, Option.some.injEq, forall_eq']

/-! ### History variables -/

variable {τ : Type*}

variable (A) in
/-- The system with a variable that records its events and that it does not read. -/
def withHistory (f : σ → ε → τ → τ) : Lts (σ × τ) ε where
  step s e := (A.step s.1 e).map (·, f s.1 e s.2)

lemma step_withHistory {f : σ → ε → τ → τ} {s t : σ × τ} {e : ε}
    (h : (A.withHistory f).step s e = some t) : A.step s.1 e = some t.1 ∧ t.2 = f s.1 e s.2 := by
  obtain ⟨s', hs', rfl⟩ := Option.map_eq_some_iff.1 h
  exact ⟨hs', rfl⟩

/-- A recorded run is a run. -/
lemma run_of_withHistory {f : σ → ε → τ → τ} {s t : σ × τ} {es : List ε}
    (hrun : (A.withHistory f).run s es = some t) : A.run s.1 es = some t.1 := by
  induction es generalizing s with
  | nil =>
    obtain rfl : s = t := Option.some.inj hrun
    rfl
  | cons e es ih =>
    obtain ⟨s', he, hes⟩ := run_cons_inv hrun
    rw [run_cons, (step_withHistory he).1, Option.bind_some]
    exact ih hes

/-- The invariant rule for recorded runs that meet a condition. -/
theorem run_withHistory_invariant {f : σ → ε → τ → τ} {I : σ → τ → Prop} {P : σ → ε → Prop}
    (hstep : ∀ s e s' x, I s x → P s e → A.step s e = some s' → I s' (f s e x))
    {s t : σ × τ} {es : List ε} (hrun : (A.withHistory f).run s es = some t)
    (hmeets : A.Meets P s.1 es) (h₀ : I s.1 s.2) : I t.1 t.2 := by
  induction es generalizing s with
  | nil =>
    obtain rfl : s = t := Option.some.inj hrun
    exact h₀
  | cons e es ih =>
    obtain ⟨s', he, hes⟩ := run_cons_inv hrun
    obtain ⟨hs', hhistory⟩ := step_withHistory he
    refine ih hes (hmeets.2 _ hs') ?_
    rw [hhistory]
    exact hstep _ _ _ _ h₀ hmeets.1 hs'

/-! ### Ledgers of a run -/

variable {β : Type*}

variable (A) in
/-- What the events of a run emit, one after the other. -/
def emitted (f : σ → ε → List β) : σ → List ε → List β
  | _, [] => []
  | s, e :: es =>
    f s e ++ match A.step s e with
      | none => []
      | some s' => emitted f s' es

lemma emitted_cons {f : σ → ε → List β} {s s' : σ} {e : ε} (he : A.step s e = some s')
    (es : List ε) : A.emitted f s (e :: es) = f s e ++ A.emitted f s' es := by
  simp only [emitted, he]

lemma filter_emitted (p : β → Bool) (f : σ → ε → List β) (s : σ) (es : List ε) :
    (A.emitted f s es).filter p = A.emitted (fun s e => (f s e).filter p) s es := by
  induction es generalizing s with
  | nil => rfl
  | cons e es ih =>
    simp only [emitted, List.filter_append]
    cases A.step s e with
    | none => rfl
    | some s' => rw [ih]

lemma map_emitted {γ : Type*} (g : β → γ) (f : σ → ε → List β) (s : σ) (es : List ε) :
    (A.emitted f s es).map g = A.emitted (fun s e => (f s e).map g) s es := by
  induction es generalizing s with
  | nil => rfl
  | cons e es ih =>
    simp only [emitted, List.map_append]
    cases A.step s e with
    | none => rfl
    | some s' => rw [ih]

/-- A run emits nothing if and only if none of its steps does. -/
lemma emitted_eq_nil_iff {f : σ → ε → List β} {s t : σ} {es : List ε}
    (hrun : A.run s es = some t) :
    A.emitted f s es = [] ↔ A.Meets (fun s e => f s e = []) s es := by
  induction es generalizing s with
  | nil => exact ⟨fun _ => trivial, fun _ => rfl⟩
  | cons e es ih =>
    obtain ⟨s', he, hes⟩ := run_cons_inv hrun
    rw [emitted_cons he, List.append_eq_nil_iff, ih hes]
    refine and_congr_right fun _ => ⟨fun h s'' he' => ?_, fun h => h s' he⟩
    obtain rfl := Option.some.inj (he.symm.trans he')
    exact h

/-- An invariant may mention what the run has emitted. -/
theorem run_invariant_emitted {f : σ → ε → List β} {I : σ → List β → Prop} {P : σ → ε → Prop}
    (hstep : ∀ s e s' l, I s l → P s e → A.step s e = some s' → I s' (l ++ f s e))
    {s t : σ} {es : List ε} (hrun : A.run s es = some t) (hmeets : A.Meets P s es) {l : List β}
    (h₀ : I s l) : I t (l ++ A.emitted f s es) := by
  induction es generalizing s l with
  | nil =>
    obtain rfl : s = t := Option.some.inj hrun
    rwa [emitted, List.append_nil]
  | cons e es ih =>
    obtain ⟨s', he, hes⟩ := run_cons_inv hrun
    rw [emitted_cons he, ← List.append_assoc]
    exact ih hes (hmeets.2 s' he) (hstep s e s' l h₀ hmeets.1 he)

/-- Where a condition on the steps is exactly what makes true all that a step emits, a run
meets the condition if and only if all that it has emitted is true at its end.  What is emitted
is settled: its truth does not change any more. -/
theorem forall_emitted_iff_meets {f : σ → ε → List β} {J : σ → Prop} {P : σ → ε → Prop}
    {Settled Q : σ → β → Prop} (hinv : ∀ s e s', J s → A.step s e = some s' → J s')
    (hemit : ∀ s e s', J s → A.step s e = some s' →
      (∀ b ∈ f s e, Settled s' b) ∧ ((∀ b ∈ f s e, Q s' b) ↔ P s e))
    (hkept : ∀ s e s' b, Settled s b → A.step s e = some s' →
      Settled s' b ∧ (Q s' b ↔ Q s b))
    {s t : σ} {es : List ε} (hrun : A.run s es = some t) (h₀ : J s) :
    (∀ b ∈ A.emitted f s es, Q t b) ↔ A.Meets P s es := by
  induction es generalizing s with
  | nil => simp [emitted, Meets]
  | cons e es ih =>
    obtain ⟨s', he, hes⟩ := run_cons_inv hrun
    obtain ⟨hsettled, hiff⟩ := hemit s e s' h₀ he
    have hlater : (∀ b ∈ f s e, Q t b) ↔ ∀ b ∈ f s e, Q s' b := by
      refine forall₂_congr fun b hb => ?_
      refine (run_invariant (I := fun u => Settled u b ∧ (Q u b ↔ Q s' b)) ?_ hes
        ⟨hsettled b hb, Iff.rfl⟩).2
      rintro u e' u' ⟨hu, hQ⟩ he'
      obtain ⟨hu', hQ'⟩ := hkept u e' u' b hu he'
      exact ⟨hu', hQ'.trans hQ⟩
    simp only [emitted_cons he, List.forall_mem_append, hlater, hiff,
      ih hes (hinv s e s' h₀ he), Meets, he, Option.some.injEq, forall_eq']

/-- If every step lets one measure run ahead of another by what it emits, a run does by
all that it emits. -/
theorem run_ahead {ahead behind : σ → ℕ} {p : β → Bool} {f : σ → ε → List β}
    (hstep : ∀ s e s', A.step s e = some s' →
      ahead s' + behind s = behind s' + ahead s + (f s e).countP p)
    {s t : σ} {es : List ε} (hrun : A.run s es = some t) :
    ahead t + behind s = behind t + ahead s + (A.emitted f s es).countP p := by
  induction es generalizing s with
  | nil =>
    obtain rfl : s = t := Option.some.inj hrun
    simp [emitted, Nat.add_comm]
  | cons e es ih =>
    obtain ⟨s', he, hes⟩ := run_cons_inv hrun
    have hone := hstep s e s' he
    have hrest := ih hes
    rw [emitted_cons he, List.countP_append]
    omega

/-- What a queue held and what came into it is what left it and what it holds: if
every step keeps this account, every run does. -/
theorem run_balance {I : σ → Prop} {contents : σ → List β} {enters leaves : σ → ε → List β}
    (hinv : ∀ s e s', I s → A.step s e = some s' → I s')
    (hstep : ∀ s e s', I s → A.step s e = some s' →
      contents s ++ enters s e = leaves s e ++ contents s')
    {s t : σ} {es : List ε} (hrun : A.run s es = some t) (h₀ : I s) :
    contents s ++ A.emitted enters s es = A.emitted leaves s es ++ contents t := by
  induction es generalizing s with
  | nil =>
    obtain rfl : s = t := Option.some.inj hrun
    simp [emitted]
  | cons e es ih =>
    obtain ⟨s', he, hes⟩ := run_cons_inv hrun
    rw [emitted_cons he, emitted_cons he, ← List.append_assoc, hstep s e s' h₀ he,
      List.append_assoc, ih hes (hinv s e s' h₀ he), List.append_assoc]

/-! ### Refinement -/

lemma emitted_append {f : σ → ε → List β} {s s' : σ} {es : List ε} (hrun : A.run s es = some s')
    (fs : List ε) : A.emitted f s (es ++ fs) = A.emitted f s es ++ A.emitted f s' fs := by
  induction es generalizing s with
  | nil =>
    obtain rfl : s = s' := Option.some.inj hrun
    simp [emitted]
  | cons e es ih =>
    obtain ⟨s₁, he, hes⟩ := run_cons_inv hrun
    rw [List.cons_append, emitted_cons he, emitted_cons he, ih hes, List.append_assoc]

lemma emitted_concat {f : σ → ε → List β} {s s' t : σ} {es : List ε} {e : ε}
    (hrun : A.run s es = some s') (hstep : A.step s' e = some t) :
    A.emitted f s (es ++ [e]) = A.emitted f s es ++ f s' e := by
  rw [emitted_append hrun, emitted_cons hstep, emitted, List.append_nil]

lemma forall_mem_emitted {f : σ → ε → List β} {P : β → Prop} {s : σ} {es : List ε}
    (h : ∀ s, ∀ e ∈ es, ∀ b ∈ f s e, P b) : ∀ b ∈ A.emitted f s es, P b := by
  induction es generalizing s with
  | nil => simp [emitted]
  | cons e es ih =>
    intro b hb
    rw [emitted, List.mem_append] at hb
    rcases hb with hb | hb
    · exact h s e (by simp) b hb
    · cases hstep : A.step s e with
      | none => simp [hstep] at hb
      | some s' =>
        rw [hstep] at hb
        exact ih (fun s e he => h s e (List.mem_cons_of_mem _ he)) b hb

lemma run_singleton (s : σ) (e : ε) : A.run s [e] = A.step s e := by
  rw [run_cons]
  cases A.step s e <;> rfl

variable {υ δ : Type*} {B : Lts υ δ}

/-- If each step of `A` is matched by steps of `B` on what is viewed of its state, each run
of `A` is matched by a run of `B`, and `B` emits in it what the matching steps emit. -/
theorem run_refines {view : σ → υ} {f : σ → ε → List δ} {g : υ → δ → List β} {I : σ → Prop}
    (hinv : ∀ s e s', I s → A.step s e = some s' → I s')
    (hstep : ∀ s e s', I s → A.step s e = some s' →
      B.run (view s) (f s e) = some (view s'))
    {s t : σ} {es : List ε} (hrun : A.run s es = some t) (h₀ : I s) :
    B.run (view s) (A.emitted f s es) = some (view t) ∧
      B.emitted g (view s) (A.emitted f s es) =
        A.emitted (fun s e => B.emitted g (view s) (f s e)) s es := by
  induction es generalizing s with
  | nil =>
    obtain rfl : s = t := Option.some.inj hrun
    exact ⟨rfl, rfl⟩
  | cons e es ih =>
    obtain ⟨s', he, hes⟩ := run_cons_inv hrun
    obtain ⟨hruns, hemits⟩ := ih hes (hinv s e s' h₀ he)
    have hone := hstep s e s' h₀ he
    rw [emitted_cons he, emitted_cons he]
    constructor
    · rw [run_append, hone, Option.bind_some, hruns]
    · rw [emitted_append hone, hemits]

end Lts

end InveniOps.Lib
