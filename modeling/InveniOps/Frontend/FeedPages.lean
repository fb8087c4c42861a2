import InveniOps.Lib.LatestRead
import InveniOps.Frontend.FeedTransport

/-!
# The pages of the live feed

What the feed shows is made of the answers of later and later list reads, and
once it has settled it was asked for behind every incident event.
-/

namespace InveniOps.Frontend

open Lib

variable {WorkItem : Type}

/-- What became of a read. -/
abbrev Settled (WorkItem : Type) := ℕ × Except Rejection (List WorkItem)

/-- The read that is not aborted. -/
def underWay (reads : List ListRead) : Option ℕ :=
  (reads.find? (·.aborted = false)).map ListRead.id

namespace Reading

variable {reads : List ListRead} {nextRead : ℕ} {controller : Option ℕ}

lemma underWay_eq_some_iff (h : Reading reads nextRead controller) {i : ℕ} :
    underWay reads = some i ↔ ⟨i, false⟩ ∈ reads := by
  constructor
  · intro hcurrent
    obtain ⟨r, hfind, rfl⟩ := Option.map_eq_some_iff.1 hcurrent
    have haborted : r.aborted = false := by simpa using List.find?_some hfind
    have hr := List.mem_of_find?_eq_some hfind
    rwa [← haborted]
  · intro hi
    cases hfind : reads.find? (·.aborted = false) with
    | none => exact absurd (List.find?_eq_none.1 hfind _ hi) (by simp)
    | some r =>
      have haborted : r.aborted = false := by simpa using List.find?_some hfind
      have hr := h.current r (List.mem_of_find?_eq_some hfind) haborted
      have hi := h.current _ hi rfl
      rw [underWay, hfind, Option.map_some]
      exact hr.symm.trans hi

lemma underWay_ask (h : Reading reads nextRead controller) :
    underWay (abortRead controller reads ++ [⟨nextRead, false⟩]) = some nextRead :=
  h.ask.underWay_eq_some_iff.2 (by simp)

/-- Without a read there is a current one only if it is another. -/
lemma underWay_take (h : Reading reads nextRead controller) (i : ℕ) :
    underWay (reads.filter fun r => r.id ≠ i) =
      if underWay reads = some i then none else underWay reads := by
  refine Option.ext fun j => ?_
  rw [(h.take i).underWay_eq_some_iff]
  by_cases hi : underWay reads = some i
  · have hmem := h.underWay_eq_some_iff.1 hi
    rw [if_pos hi]
    constructor
    · intro hj
      obtain ⟨hj, hne⟩ := List.mem_filter.1 hj
      have hij : some j = some i := (h.current _ hj rfl).symm.trans (h.current _ hmem rfl)
      simp [Option.some.inj hij] at hne
    · intro hj
      cases hj
  · rw [if_neg hi, h.underWay_eq_some_iff, List.mem_filter]
    refine ⟨And.left, fun hj => ⟨hj, ?_⟩⟩
    have hne : j ≠ i := fun hij => hi (hij ▸ h.underWay_eq_some_iff.2 hj)
    simpa using hne

end Reading

namespace Feed

/-- The read whose answer would be shown.  Nothing is shown behind the cleanup. -/
def latest (s : Feed WorkItem) : LatestRead :=
  ⟨s.nextRead, if s.mountedRef then underWay s.reads else none⟩

/-- What an event of the provider does to its reads. -/
def asks (s : Feed WorkItem) : FeedEvent WorkItem → List LatestRead.Event
  | .mount => [.ask]
  | .unmount => [.revoke]
  | .fire i =>
    match s.timers.fire i with
    | some (.fetchList, _) => [.ask]
    | _ => []
  | .page read _ | .rejected read _ => [.settle read]
  | .refresh => if s.mountedRef then [.ask] else [.ask, .revoke]
  | .pass _ | .opened _ | .incidentEvent _ | .failed _ => []

/-- The answer that an event of the provider takes, or the failure. -/
def takes (s : Feed WorkItem) : FeedEvent WorkItem → List (Settled WorkItem)
  | .page read items => if s.latest.current = some read then [(read, .ok items)] else []
  | .rejected read err => if s.latest.current = some read then [(read, .error err)] else []
  | _ => []

variable {s s' t : Feed WorkItem} {es : List (FeedEvent WorkItem)}

lemma latest_fetchList (h : Wired s) :
    s.fetchList.latest = ⟨s.nextRead + 1, if s.mountedRef then some s.nextRead else none⟩ := by
  simp only [latest]
  rw [← h.reading.underWay_ask]
  rfl

lemma latest_take (h : Wired s) (i : ℕ) :
    latest { s with reads := s.reads.filter fun r => r.id ≠ i } = s.latest.apply (.settle i) := by
  simp only [latest, h.reading.underWay_take, LatestRead.apply]
  split_ifs <;> simp_all

/-- Each step of the provider is matched by its reads. -/
lemma latest_step (h : Wired s) {e : FeedEvent WorkItem} (hstep : s.step e = some s') :
    LatestRead.lts.run s.latest (s.asks e) = some s'.latest := by
  cases e with
  | mount =>
    obtain ⟨-, rfl⟩ := step_mount_inv h hstep
    have hask := h.reading.underWay_ask
    simp only [latest, if_true]
    exact congrArg (fun c => some (LatestRead.mk (s.nextRead + 1) c)) hask.symm
  | unmount =>
    obtain ⟨-, timers, -, -, -, rfl⟩ := step_unmount_inv h hstep
    rfl
  | pass ms =>
    obtain rfl := Option.some.inj hstep
    rfl
  | fire i =>
    obtain ⟨x, hx, rfl, hdue, ⟨htask, -, -, rfl⟩ | ⟨htask, rfl⟩⟩ := step_fire_inv h hstep
    · rw [asks, Timers.fire_of_due h.timers.fresh hx hdue, htask]
      rfl
    · rw [asks, Timers.fire_of_due h.timers.fresh hx hdue, htask]
      have hmounted : s.mountedRef = true := h.mounted (h.effect_of_pending hx)
      rw [latest_fetchList (h.fired_fetchList hx htask)]
      simp only [hmounted, if_true]
      rfl
  | opened i =>
    obtain ⟨-, -, rfl⟩ := step_opened_inv h hstep
    rfl
  | incidentEvent i =>
    obtain ⟨-, rfl⟩ := step_incidentEvent_inv hstep
    rfl
  | failed i =>
    obtain ⟨-, hnext⟩ := step_failed_inv h hstep
    split_ifs at hnext <;> subst hnext <;> rfl
  | page i items | rejected i err =>
    obtain ⟨data, loading, error, rfl⟩ := step_settled_inv (i := i) (by simp) hstep
    exact congrArg some (latest_take h i).symm
  | refresh =>
    obtain rfl := Option.some.inj hstep
    rw [latest_fetchList h, asks]
    cases s.mountedRef <;> rfl

/-! ### What is displayed -/

/-- An answer is taken if its read is not aborted and the provider is mounted. -/
lemma taken_iff (h : Wired s) {i : ℕ} {r : ListRead} (htake : s.takeRead i = some (r, s')) :
    s.latest.current = some i ↔ ¬(r.aborted = true ∨ s'.mountedRef = false) := by
  obtain ⟨hr, rfl, rfl⟩ := takeRead_inv htake
  have hcurrent := h.reading.underWay_eq_some_iff (i := r.id)
  cases hmounted : s.mountedRef with
  | false => simp [latest, hmounted]
  | true =>
    simp only [latest, hmounted, if_true, hcurrent, Bool.true_eq_false, or_false,
      Bool.not_eq_true]
    refine ⟨fun hmem => ?_, fun haborted => by rwa [← haborted]⟩
    rw [h.reading.eq_of_id hr hmem rfl]

/-- What the answers taken so far have put on display. -/
def lastPage (taken : List (Settled WorkItem)) : List WorkItem :=
  taken.foldl (fun data settled =>
    match settled.2 with
    | .ok items => items
    | .error _ => data) []

/-- The error of the last read, unless a later one succeeded; aborted reads do not count. -/
def lastError (taken : List (Settled WorkItem)) : Option ApiErrorInfo :=
  taken.foldl (fun error settled =>
    match settled.2 with
    | .ok _ => none
    | .error err => if err = .abortError then error else some (toErrorInfo err)) none

/-- The provider shows the answers that it has taken. -/
structure Displays (s : Feed WorkItem) (taken : List (Settled WorkItem)) : Prop where
  data : s.data = lastPage taken
  error : s.error = lastError taken
  loading : s.loading = taken.isEmpty

/-- Where nothing is taken the display stays. -/
lemma Displays.kept {taken : List (Settled WorkItem)} (h : Displays s taken)
    (hdata : s'.data = s.data) (herror : s'.error = s.error) (hloading : s'.loading = s.loading) :
    Displays s' (taken ++ []) := by
  rw [List.append_nil]
  exact ⟨hdata.trans h.data, herror.trans h.error, hloading.trans h.loading⟩

lemma displays_step {taken : List (Settled WorkItem)} (hs : Displays s taken) (h : Wired s)
    {e : FeedEvent WorkItem} (hstep : s.step e = some s') :
    Displays s' (taken ++ s.takes e) := by
  cases e with
  | mount =>
    obtain ⟨-, rfl⟩ := step_mount_inv h hstep
    exact hs.kept rfl rfl rfl
  | unmount =>
    obtain ⟨-, timers, -, -, -, rfl⟩ := step_unmount_inv h hstep
    exact hs.kept rfl rfl rfl
  | pass ms | refresh =>
    obtain rfl := Option.some.inj hstep
    exact hs.kept rfl rfl rfl
  | fire i =>
    obtain ⟨x, -, -, -, ⟨-, -, -, rfl⟩ | ⟨-, rfl⟩⟩ := step_fire_inv h hstep <;>
      exact hs.kept rfl rfl rfl
  | opened i =>
    obtain ⟨-, -, rfl⟩ := step_opened_inv h hstep
    exact hs.kept rfl rfl rfl
  | incidentEvent i =>
    obtain ⟨-, rfl⟩ := step_incidentEvent_inv hstep
    exact hs.kept rfl rfl rfl
  | failed i =>
    obtain ⟨-, hnext⟩ := step_failed_inv h hstep
    split_ifs at hnext <;> subst hnext <;>
      exact hs.kept rfl rfl rfl
  | page i items =>
    obtain ⟨r, s₁, htake, rfl⟩ := step_page_inv hstep
    have htaken := taken_iff h htake
    obtain ⟨-, -, rfl⟩ := takeRead_inv htake
    simp only [takes, settle]
    by_cases hcurrent : s.latest.current = some i
    · rw [if_pos hcurrent, if_neg (htaken.1 hcurrent)]
      refine ⟨?_, ?_, ?_⟩ <;> simp [lastPage, lastError, List.foldl_append]
    · rw [if_neg hcurrent, if_pos (not_not.1 fun hne => hcurrent (htaken.2 hne))]
      exact hs.kept rfl rfl rfl
  | rejected i err =>
    obtain ⟨r, s₁, htake, rfl⟩ := step_rejected_inv hstep
    have htaken := taken_iff h htake
    obtain ⟨-, -, rfl⟩ := takeRead_inv htake
    simp only [takes, settle]
    by_cases hcurrent : s.latest.current = some i
    · rw [if_pos hcurrent, if_neg (htaken.1 hcurrent)]
      split_ifs with habort
      · refine ⟨?_, ?_, ?_⟩ <;>
          simp [lastPage, lastError, List.foldl_append, habort, hs.data, hs.error]
      · refine ⟨?_, ?_, ?_⟩ <;> simp [lastPage, lastError, List.foldl_append, habort, hs.data]
    · rw [if_neg hcurrent, if_pos (not_not.1 fun hne => hcurrent (htaken.2 hne))]
      exact hs.kept rfl rfl rfl

lemma emitted_taken (e : FeedEvent WorkItem) :
    LatestRead.lts.emitted LatestRead.taken s.latest (s.asks e) = (s.takes e).map Prod.fst := by
  cases e with
  | page i items | rejected i err =>
    simp only [asks, takes, Lts.emitted, LatestRead.lts, LatestRead.taken, List.append_nil]
    split_ifs <;> rfl
  | fire i =>
    simp only [asks, takes]
    split <;> rfl
  | refresh =>
    simp only [asks, takes]
    split_ifs <;> rfl
  | mount | unmount | pass ms | opened i | incidentEvent i | failed i => rfl

end Feed

/-- Whatever the order in which list reads are asked for, answered, fail and are aborted, the
feed takes answers of later and later reads only, and what it shows is what these made of it:
the last page, the failures behind it, and whether there was an answer at all. -/
theorem newest_page_shown {t : Feed WorkItem} {es : List (FeedEvent WorkItem)}
    (hrun : Feed.lts.run Feed.rendered es = some t) :
    Feed.Displays t (Feed.lts.emitted Feed.takes Feed.rendered es) ∧
      ((Feed.lts.emitted Feed.takes Feed.rendered es).map Prod.fst).Pairwise (· < ·) := by
  constructor
  · have hinv := Lts.run_invariant_emitted (f := Feed.takes) (P := fun _ _ => True)
      (I := fun (s : Feed WorkItem) taken => Wired s ∧ Feed.Displays s taken)
      (fun s e s' taken hs _ hstep => ⟨hs.1.step hstep, Feed.displays_step hs.2 hs.1 hstep⟩)
      hrun (Feed.lts.meets_of_forall (fun _ _ => trivial) _ _) (l := [])
      ⟨Wired.rendered, rfl, rfl, rfl⟩
    simpa using hinv.2
  · obtain ⟨hlatest, htaken⟩ := Lts.run_refines (B := LatestRead.lts) (g := LatestRead.taken)
      (I := Wired) (fun _ _ _ hs he => hs.step he) (fun _ _ _ hs he => Feed.latest_step hs he)
      hrun Wired.rendered
    have hsorted := (LatestRead.taken_ascending hlatest).sorted
    have hmap : Feed.lts.emitted
        (fun s e => LatestRead.lts.emitted LatestRead.taken s.latest (s.asks e))
        (Feed.rendered : Feed WorkItem) es =
        (Feed.lts.emitted Feed.takes Feed.rendered es).map Prod.fst := by
      rw [Lts.map_emitted]
      exact congrArg (fun f => Feed.lts.emitted f Feed.rendered es)
        (funext fun s => funext fun e => Feed.emitted_taken e)
    rw [← hmap, ← htaken]
    exact hsorted

/-- The answer to the first read comes behind the answer to the second one. -/
theorem newest_page_shown_of_late_answer : ∃ t,
    Feed.lts.run (Feed.rendered : Feed Unit) [.mount, .refresh, .page 1 [()], .page 0 []] = some t ∧
      t.data = [()] := by
  have hobserved : (Feed.lts.run (Feed.rendered : Feed Unit)
      [.mount, .refresh, .page 1 [()], .page 0 []]).isSome = true := by decide
  obtain ⟨t, hrun⟩ := Option.isSome_iff_exists.1 hobserved
  exact ⟨t, hrun, (newest_page_shown hrun).1.data.trans (by decide)⟩

/-! ### Freshness -/

namespace Feed

variable {s s' t : Feed WorkItem} {es : List (FeedEvent WorkItem)}

/-- The number of the next read, at every incident event that arrives. -/
def marks (s : Feed WorkItem) : FeedEvent WorkItem → List ℕ
  | .incidentEvent _ => [s.nextRead]
  | _ => []

/-- How the reads keep up with the incident events that arrived so far. -/
structure KeepsUp (s : Feed WorkItem) (marks : List ℕ) (taken : List (Settled WorkItem)) :
    Prop where
  controller : ∀ c, s.listControllerRef = some c → c + 1 = s.nextRead
  marked : ∀ m ∈ marks, m ≤ s.nextRead
  /-- Behind the latest event either a refetch is armed or a read was asked for. -/
  follows : s.effect = true →
    (∃ x ∈ s.timers.pending, x.task = .fetchList ∧ x.every = none) ∨ ∀ m ∈ marks, m < s.nextRead
  /-- The newest read is under way, or its answer is the last one taken. -/
  newest : s.effect = true → ∃ n, s.nextRead = n + 1 ∧
    (⟨n, false⟩ ∈ s.reads ∨ taken.getLast?.map Prod.fst = some n)

namespace KeepsUp

variable {ms : List ℕ} {taken : List (Settled WorkItem)}

/-- To ask for a read catches up with all events. -/
lemma asked (h : KeepsUp s ms taken) (hcontroller : s'.listControllerRef = some s.nextRead)
    (hnext : s'.nextRead = s.nextRead + 1) (hread : ⟨s.nextRead, false⟩ ∈ s'.reads) :
    KeepsUp s' ms taken where
  controller := by
    intro c hc
    rw [hcontroller] at hc
    rw [← Option.some.inj hc, hnext]
  marked := fun m hm => (h.marked m hm).trans (by omega)
  follows := fun _ => .inr fun m hm => (Nat.lt_succ_of_le (h.marked m hm)).trans_eq hnext.symm
  newest := fun _ => ⟨s.nextRead, hnext, .inl hread⟩

/-- Where neither reads nor timers change. -/
lemma same (h : KeepsUp s ms taken) (hcontroller : s'.listControllerRef = s.listControllerRef)
    (hnext : s'.nextRead = s.nextRead) (hreads : s'.reads = s.reads)
    (heffect : s'.effect = true → s.effect = true)
    (htimers : ∀ x ∈ s.timers.pending, x.task = .fetchList ∧ x.every = none →
      x ∈ s'.timers.pending) : KeepsUp s' ms taken where
  controller := by rw [hcontroller, hnext]; exact h.controller
  marked := by rw [hnext]; exact h.marked
  follows := by
    intro hup
    rw [hnext]
    refine (h.follows (heffect hup)).imp_left ?_
    rintro ⟨x, hx, hrefetch⟩
    exact ⟨x, htimers x hx hrefetch, hrefetch⟩
  newest := by
    intro hup
    rw [hnext, hreads]
    exact h.newest (heffect hup)

/-- A read settles: if it is the newest its answer is taken. -/
lemma settled (h : KeepsUp s ms taken) (hwired : Wired s) {i : ℕ} {r : ListRead}
    (htake : s.takeRead i = some (r, s')) (outcome : Except Rejection (List WorkItem)) :
    KeepsUp (s'.settle r.aborted outcome) ms
      (taken ++ if s.latest.current = some i then [(i, outcome)] else []) := by
  have htaken := taken_iff hwired htake
  obtain ⟨hr, rfl, rfl⟩ := takeRead_inv htake
  suffices h' : KeepsUp { s with reads := s.reads.filter fun x => x.id ≠ r.id } ms
      (taken ++ if s.latest.current = some r.id then [(r.id, outcome)] else []) by
    obtain ⟨data, loading, error, hsettle⟩ :=
      settle_spec { s with reads := s.reads.filter fun x => x.id ≠ r.id } r.aborted outcome
    rw [hsettle]
    exact ⟨h'.controller, h'.marked, h'.follows, h'.newest⟩
  refine ⟨h.controller, h.marked, h.follows, fun hup => ?_⟩
  obtain ⟨n, hn, hnewest⟩ := h.newest hup
  refine ⟨n, hn, ?_⟩
  by_cases hcurrent : s.latest.current = some r.id
  · right
    have haborted : r.aborted = false := by
      have := htaken.1 hcurrent
      simpa using (not_or.1 this).1
    have hnext := h.controller r.id (hwired.reading.current r hr haborted)
    have hid : r.id = n := by omega
    rw [if_pos hcurrent, List.getLast?_append]
    simp [hid]
  · rw [if_neg hcurrent, List.append_nil]
    refine hnewest.imp_left fun hmem => List.mem_filter.2 ⟨hmem, ?_⟩
    have hne : n ≠ r.id := by
      rintro rfl
      refine hcurrent ?_
      simp only [latest, hwired.mounted hup, if_true]
      exact hwired.reading.underWay_eq_some_iff.2 hmem
    simpa using hne

lemma step (h : KeepsUp s ms taken) (hwired : Wired s) {e : FeedEvent WorkItem}
    (hstep : s.step e = some s') : KeepsUp s' (ms ++ s.marks e) (taken ++ s.takes e) := by
  cases e with
  | mount =>
    obtain ⟨-, rfl⟩ := step_mount_inv hwired hstep
    simp only [marks, takes, List.append_nil]
    exact h.asked rfl rfl (List.mem_append_right _ (List.mem_singleton_self _))
  | unmount =>
    obtain ⟨-, timers, -, -, -, rfl⟩ := step_unmount_inv hwired hstep
    simp only [marks, takes, List.append_nil]
    exact ⟨h.controller, h.marked, by simp, by simp⟩
  | pass ms =>
    obtain rfl := Option.some.inj hstep
    simp only [marks, takes, List.append_nil]
    exact h.same rfl rfl rfl id fun _ hx _ => hx
  | fire i =>
    obtain ⟨x, hx, -, -, ⟨htask, -, -, rfl⟩ | ⟨-, rfl⟩⟩ := step_fire_inv hwired hstep
    · simp only [marks, takes, List.append_nil]
      refine h.same rfl rfl rfl id fun y hy hrefetch =>
        Timers.mem_fired.2 (.inl ⟨hy, fun hid => ?_⟩)
      rw [hwired.timers.fresh.eq_of_id hy hx hid, htask] at hrefetch
      cases hrefetch.1
    · simp only [marks, takes, List.append_nil]
      exact h.asked rfl rfl (List.mem_append_right _ (List.mem_singleton_self _))
  | opened i =>
    obtain ⟨-, -, rfl⟩ := step_opened_inv hwired hstep
    simp only [marks, takes, List.append_nil]
    exact h.same rfl rfl rfl id fun _ hx _ => hx
  | incidentEvent i =>
    obtain ⟨hmem, rfl⟩ := step_incidentEvent_inv hstep
    simp only [marks, takes, List.append_nil]
    refine ⟨h.controller, ?_, fun _ => .inl ⟨_, Timers.mem_arm.2 (.inr rfl), rfl, rfl⟩, h.newest⟩
    intro m hm
    rcases List.mem_append.1 hm with hm | hm
    · exact h.marked m hm
    · rw [List.mem_singleton.1 hm]
      exact Nat.le_refl _
  | failed i =>
    obtain ⟨-, hnext⟩ := step_failed_inv hwired hstep
    simp only [marks, takes, List.append_nil]
    split_ifs at hnext <;> subst hnext <;>
      exact h.same rfl rfl rfl id fun _ hx _ => Timers.mem_arm.2 (.inl hx)
  | page i items =>
    obtain ⟨r, s₁, htake, rfl⟩ := step_page_inv hstep
    simp only [marks, takes, List.append_nil]
    exact h.settled hwired htake _
  | rejected i err =>
    obtain ⟨r, s₁, htake, rfl⟩ := step_rejected_inv hstep
    simp only [marks, takes, List.append_nil]
    exact h.settled hwired htake _
  | refresh =>
    obtain rfl := Option.some.inj hstep
    simp only [marks, takes, List.append_nil]
    exact h.asked rfl rfl (List.mem_append_right _ (List.mem_singleton_self _))

end KeepsUp

lemma keepsUp_run (hrun : lts.run rendered es = some t) :
    Wired t ∧ KeepsUp t (lts.emitted marks rendered es) (lts.emitted takes rendered es) := by
  refine Lts.run_invariant_history (I := fun es s => Wired s ∧
    KeepsUp s (lts.emitted marks rendered es) (lts.emitted takes rendered es)) ?_ ?_ hrun
  · exact ⟨Wired.rendered, by simp [rendered], by simp [Lts.emitted], by simp [rendered],
      by simp [rendered]⟩
  · rintro es s e s' hrun ⟨hwired, hkeeps⟩ hstep
    rw [Lts.emitted_concat hrun hstep, Lts.emitted_concat hrun hstep]
    exact ⟨hwired.step hstep, hkeeps.step hwired hstep⟩

end Feed

/-- No incident event is forgotten: once a mounted feed has neither a refetch armed nor a read
under way, the last answer that it took is one to a read asked for behind every incident event
that arrived, and if that answer is a page it is what the feed shows. -/
theorem settled_feed_fresh {t : Feed WorkItem} {es : List (FeedEvent WorkItem)}
    (hrun : Feed.lts.run Feed.rendered es = some t) (hmounted : t.effect = true)
    (hrefetch : t.refetches = 0) (hreads : ∀ r ∈ t.reads, r.aborted = true) :
    ∃ read outcome,
      (Feed.lts.emitted Feed.takes Feed.rendered es).getLast? = some (read, outcome) ∧
        (∀ m ∈ Feed.lts.emitted Feed.marks Feed.rendered es, m ≤ read) ∧
        ∀ items, outcome = .ok items → t.data = items ∧ t.error = none := by
  obtain ⟨hwired, hkeeps⟩ := Feed.keepsUp_run hrun
  obtain ⟨n, hn, hnewest⟩ := hkeeps.newest hmounted
  have hlast := hnewest.resolve_left fun hmem => by
    have haborted := hreads _ hmem
    cases haborted
  obtain ⟨⟨read, outcome⟩, hsettled, rfl⟩ := Option.map_eq_some_iff.1 hlast
  refine ⟨read, outcome, hsettled, fun m hm => ?_, ?_⟩
  · have hnone : ¬∃ x ∈ t.timers.pending, x.task = .fetchList ∧ x.every = none := by
      rintro ⟨x, hx, hkind⟩
      exact List.countP_eq_zero.1 hrefetch x hx (by simpa using hkind)
    have hlt := (hkeeps.follows hmounted).resolve_left hnone m hm
    omega
  · rintro items rfl
    obtain ⟨init, hinit⟩ := List.getLast?_eq_some_iff.1 hsettled
    have hdisplays := (newest_page_shown hrun).1
    rw [hinit] at hdisplays
    rw [hdisplays.data, hdisplays.error]
    simp [Feed.lastPage, Feed.lastError, List.foldl_append]

/-- An incident event is followed by its refetch. -/
def refetchedEvents : List (FeedEvent Unit) :=
  [.mount, .opened 0, .page 0 [], .incidentEvent 0, .pass 300, .fire 0, .page 1 [()]]

theorem settled_feed_fresh_of_refetchedEvents : ∃ t read outcome,
    Feed.lts.run Feed.rendered refetchedEvents = some t ∧
      (Feed.lts.emitted Feed.takes Feed.rendered refetchedEvents).getLast? =
        some (read, outcome) ∧ 1 ≤ read := by
  have hobserved : (Feed.lts.run Feed.rendered refetchedEvents).map
      (fun t => (t.effect, t.refetches, t.reads)) = some (true, 0, []) := by decide
  obtain ⟨t, hrun, ht⟩ := Option.map_eq_some_iff.1 hobserved
  simp only [Prod.mk.injEq] at ht
  obtain ⟨hmounted, hrefetches, hreads⟩ := ht
  obtain ⟨read, outcome, hlast, hfresh, -⟩ :=
    settled_feed_fresh hrun hmounted hrefetches (by simp [hreads])
  exact ⟨t, read, outcome, hrun, hlast, hfresh 1 (by decide)⟩

end InveniOps.Frontend
