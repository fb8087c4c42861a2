import InveniOps.Lib.Lts

/-!
# The latest read wins

A reader asks a server again and again; an answer can take any time, and answers
can come out of order.  To ask revokes every read before it, so an answer is
taken only from the read asked for last.  Whatever the order, the answers that
are taken come from later and later reads.
-/

namespace InveniOps.Lib

/-- How many reads were asked for, and the one whose answer would be taken. -/
structure LatestRead where
  asked : ℕ
  current : Option ℕ
deriving DecidableEq

namespace LatestRead

/-- A read is asked for or settles, or the answer of the last one is no longer wanted. -/
inductive Event
  | ask
  /-- An answer to the given read, or its failure. -/
  | settle (read : ℕ)
  | revoke
deriving DecidableEq

/-- Nothing asked for yet. -/
def start : LatestRead := ⟨0, none⟩

/-- One event; only the answer that is waited for is taken. -/
def apply (s : LatestRead) : Event → LatestRead
  | .ask => ⟨s.asked + 1, some s.asked⟩
  | .settle read => if s.current = some read then { s with current := none } else s
  | .revoke => { s with current := none }

/-- The reads as a system; every event is possible. -/
def lts : Lts LatestRead Event := ⟨fun s e => some (s.apply e)⟩

/-- The read whose answer an event takes. -/
def taken (s : LatestRead) : Event → List ℕ
  | .settle read => if s.current = some read then [read] else []
  | _ => []

/-- The answers taken so far go up, and the read under way is newer than all of them. -/
structure Ascending (s : LatestRead) (reads : List ℕ) : Prop where
  sorted : reads.Pairwise (· < ·)
  asked : ∀ r ∈ reads, r < s.asked
  current : ∀ c, s.current = some c → c < s.asked ∧ ∀ r ∈ reads, r < c

lemma ascending_start : Ascending start [] where
  sorted := List.Pairwise.nil
  asked := by simp
  current := by simp [start]

lemma Ascending.step {s : LatestRead} {reads : List ℕ} (h : Ascending s reads) (e : Event) :
    Ascending (s.apply e) (reads ++ taken s e) := by
  cases e with
  | ask =>
    simp only [taken, List.append_nil]
    refine ⟨h.sorted, fun r hr => Nat.lt_succ_of_lt (h.asked r hr), ?_⟩
    rintro c hc
    obtain rfl : s.asked = c := Option.some.inj hc
    exact ⟨Nat.lt_succ_self _, h.asked⟩
  | settle read =>
    by_cases hread : s.current = some read
    · obtain ⟨hasked, hnewest⟩ := h.current read hread
      simp only [taken, apply, if_pos hread]
      refine ⟨?_, ?_, by simp⟩
      · refine List.pairwise_append.2 ⟨h.sorted, List.pairwise_singleton _ _, ?_⟩
        intro r hr r' hr'
        obtain rfl := List.mem_singleton.1 hr'
        exact hnewest r hr
      · intro r hr
        rcases List.mem_append.1 hr with hr | hr
        · exact h.asked r hr
        · rwa [List.mem_singleton.1 hr]
    · simpa only [taken, apply, if_neg hread, List.append_nil] using h
  | revoke =>
    simp only [taken, List.append_nil]
    exact ⟨h.sorted, h.asked, by simp [apply]⟩

/-- Over every run the answers that are taken come from later and later reads. -/
theorem taken_ascending {t : LatestRead} {es : List Event} (hrun : lts.run start es = some t) :
    Ascending t (lts.emitted taken start es) := by
  have hstep : ∀ s e s' l, Ascending s l → True → lts.step s e = some s' →
      Ascending s' (l ++ taken s e) := by
    intro s e s' l hs _ he
    obtain rfl : s.apply e = s' := Option.some.inj he
    exact hs.step e
  have := Lts.run_invariant_emitted hstep hrun (lts.meets_of_forall (fun _ _ => trivial) _ _)
    ascending_start
  simpa using this

end LatestRead

end InveniOps.Lib
