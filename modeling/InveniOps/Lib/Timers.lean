import InveniOps.Lib.ListFacts

/-!
# Timers

The timers of a JavaScript host: `setTimeout` and `setInterval` hand out an id,
a clear takes the id back, and a timer that is due may fire at any later moment.
An interval is armed again, one period behind the firing.
-/

namespace InveniOps.Lib

/-- An armed timer, and what it will do. -/
structure Timer (κ : Type*) where
  id : ℕ
  due : ℕ
  /-- The period of an interval. -/
  every : Option ℕ
  task : κ
deriving DecidableEq

/-- The clock, the next id and what is armed. -/
structure Timers (κ : Type*) where
  now : ℕ
  next : ℕ
  pending : List (Timer κ)
deriving DecidableEq

namespace Timers

variable {κ : Type*}

/-- Nothing armed, at time zero. -/
def start : Timers κ := ⟨0, 0, []⟩

/-- The timers with one more, under the id `next`. -/
def arm (T : Timers κ) (task : κ) (ms : ℕ) (every : Option ℕ) : Timers κ :=
  { T with next := T.next + 1, pending := T.pending ++ [⟨T.next, T.now + ms, every, task⟩] }

/-- Arms a timer that fires once. -/
def setTimeout (T : Timers κ) (task : κ) (ms : ℕ) : Timers κ := T.arm task ms none

/-- Arms a timer that fires again and again. -/
def setInterval (T : Timers κ) (task : κ) (ms : ℕ) : Timers κ := T.arm task ms (some ms)

/-- `clearTimeout` and `clearInterval`; an id that is not armed changes nothing. -/
def clear (T : Timers κ) (id : Option ℕ) : Timers κ :=
  { T with pending := T.pending.filter fun x => some x.id ≠ id }

/-- What is armed again when a timer fires. -/
def rearm (T : Timers κ) (x : Timer κ) : List (Timer κ) :=
  match x.every with
  | none => []
  | some ms => [{ x with due := T.now + ms }]

/-- The timers behind the firing of `x`. -/
def fired (T : Timers κ) (x : Timer κ) : Timers κ :=
  { T with pending := (T.clear (some x.id)).pending ++ T.rearm x }

/-- The task of a timer that is due, and the timers it leaves. -/
def fire (T : Timers κ) (id : ℕ) : Option (κ × Timers κ) :=
  match T.pending.find? fun x => x.id = id with
  | none => none
  | some x => if x.due ≤ T.now then some (x.task, T.fired x) else none

/-- Lets time go by. -/
def pass (T : Timers κ) (ms : ℕ) : Timers κ := { T with now := T.now + ms }

@[simp] lemma now_arm (T : Timers κ) (k : κ) (ms : ℕ) (e : Option ℕ) :
    (T.arm k ms e).now = T.now := rfl

@[simp] lemma next_arm (T : Timers κ) (k : κ) (ms : ℕ) (e : Option ℕ) :
    (T.arm k ms e).next = T.next + 1 := rfl

@[simp] lemma now_clear (T : Timers κ) (id : Option ℕ) : (T.clear id).now = T.now := rfl

@[simp] lemma next_clear (T : Timers κ) (id : Option ℕ) : (T.clear id).next = T.next := rfl

@[simp] lemma now_pass (T : Timers κ) (ms : ℕ) : (T.pass ms).now = T.now + ms := rfl

@[simp] lemma next_pass (T : Timers κ) (ms : ℕ) : (T.pass ms).next = T.next := rfl

@[simp] lemma pending_pass (T : Timers κ) (ms : ℕ) : (T.pass ms).pending = T.pending := rfl

@[simp] lemma mem_arm {T : Timers κ} {k : κ} {ms : ℕ} {e : Option ℕ} {x : Timer κ} :
    x ∈ (T.arm k ms e).pending ↔ x ∈ T.pending ∨ x = ⟨T.next, T.now + ms, e, k⟩ := by
  simp [arm]

@[simp] lemma mem_clear {T : Timers κ} {id : Option ℕ} {x : Timer κ} :
    x ∈ (T.clear id).pending ↔ x ∈ T.pending ∧ some x.id ≠ id := by
  simp [clear]

@[simp] lemma clear_none (T : Timers κ) : T.clear none = T := by
  simp [clear]

@[simp] lemma now_fired (T : Timers κ) (x : Timer κ) : (T.fired x).now = T.now := rfl

@[simp] lemma next_fired (T : Timers κ) (x : Timer κ) : (T.fired x).next = T.next := rfl

lemma mem_rearm {T : Timers κ} {x y : Timer κ} :
    y ∈ T.rearm x ↔ ∃ ms, x.every = some ms ∧ y = { x with due := T.now + ms } := by
  cases h : x.every <;> simp [rearm, h]

lemma mem_fired {T : Timers κ} {x y : Timer κ} :
    y ∈ (T.fired x).pending ↔ (y ∈ T.pending ∧ y.id ≠ x.id) ∨
      ∃ ms, x.every = some ms ∧ y = { x with due := T.now + ms } := by
  rw [fired, List.mem_append, mem_clear, mem_rearm]
  simp

/-! ### Ids -/

/-- Every armed timer has an id of its own, below the next one. -/
structure Fresh (T : Timers κ) : Prop where
  lt_next : ∀ x ∈ T.pending, x.id < T.next
  nodup : (T.pending.map Timer.id).Nodup

namespace Fresh

variable {T : Timers κ}

lemma start : Fresh (Timers.start : Timers κ) := ⟨by simp [Timers.start], by simp [Timers.start]⟩

lemma eq_of_id (h : T.Fresh) {x y : Timer κ} (hx : x ∈ T.pending) (hy : y ∈ T.pending)
    (hid : x.id = y.id) : x = y :=
  List.inj_on_of_nodup_map h.nodup hx hy hid

lemma arm (h : T.Fresh) (k : κ) (ms : ℕ) (e : Option ℕ) : (T.arm k ms e).Fresh := by
  constructor
  · intro x hx
    rcases mem_arm.1 hx with hx | rfl
    · exact Nat.lt_succ_of_lt (h.lt_next x hx)
    · exact Nat.lt_succ_self _
  · have hnew : T.next ∉ T.pending.map Timer.id := by
      intro hmem
      obtain ⟨x, hx, hid⟩ := List.mem_map.1 hmem
      have := h.lt_next x hx
      omega
    simpa [Timers.arm, List.nodup_append, h.nodup] using fun x hx hid => hnew
      (List.mem_map.2 ⟨x, hx, hid⟩)

lemma clear (h : T.Fresh) (id : Option ℕ) : (T.clear id).Fresh := by
  constructor
  · intro x hx
    exact h.lt_next x (mem_clear.1 hx).1
  · exact h.nodup.sublist (List.Sublist.map _ List.filter_sublist)

lemma pass (h : T.Fresh) (ms : ℕ) : (T.pass ms).Fresh := ⟨h.lt_next, h.nodup⟩

lemma fired (h : T.Fresh) {x : Timer κ} (hx : x ∈ T.pending) : (T.fired x).Fresh := by
  constructor
  · intro y hy
    rcases mem_fired.1 hy with ⟨hy, -⟩ | ⟨ms, -, rfl⟩
    · exact h.lt_next y hy
    · exact h.lt_next x hx
  · have hclear := (h.clear (some x.id)).nodup
    cases hevery : x.every with
    | none => simpa [Timers.fired, rearm, hevery] using hclear
    | some ms =>
      simp only [Timers.fired, rearm, hevery, List.map_append, List.map_cons, List.map_nil,
        List.nodup_append, List.mem_singleton]
      refine ⟨hclear, List.nodup_singleton _, ?_⟩
      rintro i hi j rfl rfl
      obtain ⟨y, hy, hid⟩ := List.mem_map.1 hi
      exact (mem_clear.1 hy).2 (by rw [hid])

/-- A kind of timer that has one id is armed once. -/
lemma countP_eq_one (h : T.Fresh) {p : Timer κ → Bool} {x : Timer κ} (hx : x ∈ T.pending)
    (hp : p x = true) (hid : ∀ y ∈ T.pending, p y = true → y.id = x.id) :
    T.pending.countP p = 1 := by
  have hpos : 0 < T.pending.countP p := List.countP_pos_iff.2 ⟨x, hx, hp⟩
  have hle := countP_le_one_of_nodup_map h.nodup fun y hy z hz hy' hz' =>
    (hid y hy hy').trans (hid z hz hz').symm
  omega

end Fresh

/-! ### Firing -/

lemma fire_inv {T T' : Timers κ} {id : ℕ} {k : κ} (h : T.fire id = some (k, T')) :
    ∃ x ∈ T.pending, x.id = id ∧ x.due ≤ T.now ∧ x.task = k ∧ T' = T.fired x := by
  unfold fire at h
  split at h
  · cases h
  · rename_i x hx
    split at h
    · rename_i hdue
      cases h
      exact ⟨x, List.mem_of_find?_eq_some hx, by simpa using List.find?_some hx, hdue, rfl, rfl⟩
    · cases h

/-- A timer that is due can fire. -/
lemma fire_of_due {T : Timers κ} (hT : T.Fresh) {x : Timer κ} (hx : x ∈ T.pending)
    (hdue : x.due ≤ T.now) : T.fire x.id = some (x.task, T.fired x) := by
  have hfind : T.pending.find? (fun y => y.id = x.id) = some x := find?_of_nodup_map hT.nodup hx
  simp [fire, hfind, hdue]

end Timers

end InveniOps.Lib
