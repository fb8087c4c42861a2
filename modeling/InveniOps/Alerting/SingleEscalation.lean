import InveniOps.Alerting.EscalationRuns

/-!
# At most one escalation

The first `SADD` of a work item makes its key, without a time-to-live until some
`EXPIRE` sets one.  As long as every `EXPIRE` comes while the key is alive, no
second `SADD` adds the level, whichever replica sends it.  When the key is left
to die, a second candidate may add the level, but its `EXPIRE` comes too late.
-/

namespace InveniOps.Alerting.EscalationSystem

open Lib Stores Incidents

/-- The candidate has added the level and stands before its `EXPIRE`. -/
def claims : EscalatePc → Bool
  | .expire added => added = 1
  | _ => false

/-- The candidate stands before `EXPIRE`. -/
def expires : EscalatePc → Bool
  | .expire _ => true
  | _ => false

/-- The candidate has claimed the level and is on its way to `return true`. -/
def sends : EscalatePc → Bool
  | .fanOut | .sending => true
  | _ => false

variable (services : EscalationServices) (s : EscalationSystem) (w : WorkItemId)

/-- The escalations that have passed `claimEscalationLevel`. -/
def passed : ℕ := s.pending w sends + s.deeds w EscalationDeed.isEscalated

/-- The time-to-live that an `EXPIRE` at an instant sets ends here. -/
def windowEnd (last : Instant) : Instant :=
  last + services.alerting.suppressionWindowSeconds * 1000

/-- The stages in the life of an escalation key. -/
inductive KeyStage : Prop
  | unclaimed (key : s.keys w = none) (last : s.lastExpire w = none)
      (none_expires : s.pending w expires = 0) (none_claims : s.pending w claims = 0)
      (none_passed : s.passed w = 0)
  | lasting {key : EscalationKey} (key_eq : s.keys w = some key)
      (level : ESCALATION_LEVEL ∈ key.levels) (forever : key.expiresAt = none)
      (last : s.lastExpire w = none) (one_claims : s.pending w claims ≤ 1)
      (none_passed : s.passed w = 0)
  | refreshed {key : EscalationKey} {last : Instant} (key_eq : s.keys w = some key)
      (level : ESCALATION_LEVEL ∈ key.levels)
      (expiresAt : key.expiresAt = some (windowEnd services last))
      (last_eq : s.lastExpire w = some last) (alive : s.clock ≤ windowEnd services last)
      (one : s.pending w claims + s.passed w ≤ 1)
  | expired {last : Instant} (last_eq : s.lastExpire w = some last)
      (dead : windowEnd services last < s.clock) (one : s.passed w ≤ 1)

/-- An `EXPIRE` is carried out before the time-to-live that the one before it has set has
passed. -/
def KeepsKeys (s : EscalationSystem) : EscalationEvent → Prop
  | .escalate k io => ∀ candidate ∈ s.candidates[k]?, candidate.onExpire = true →
      carriedOut io.outcome = true →
        ∀ last ∈ s.lastExpire candidate.workItem.id, io.now ≤ windowEnd services last
  | _ => True

instance (e : EscalationEvent) : Decidable (KeepsKeys services s e) :=
  match e with
  | .escalate k io => decidable_of_iff ((s.candidates[k]?.all fun candidate =>
      !candidate.onExpire || !carriedOut io.outcome ||
        (s.lastExpire candidate.workItem.id).all fun last => io.now ≤ windowEnd services last)
        = true) (by simp [KeepsKeys, Option.all_eq_true, or_iff_not_imp_left])
  | .incidents _ | .startTick _ | .query _ _ | .crash _ => isTrue trivial

variable {services s w} {s' : EscalationSystem}

/-- A step that keeps the key keeps its stage, unless the time-to-live runs out. -/
lemma KeyStage.mono (h : s.KeyStage services w) (hkeys : s'.keys w = s.keys w)
    (hlast : s'.lastExpire w = s.lastExpire w) (hclock : s.clock ≤ s'.clock)
    (hexpires : s.keys w = none → s'.pending w expires ≤ s.pending w expires)
    (hclaims : s'.pending w claims + s'.passed w ≤ s.pending w claims + s.passed w)
    (hpassed : s'.passed w ≤ s.passed w) : s'.KeyStage services w := by
  cases h with
  | unclaimed key last none_expires none_claims none_passed =>
    have hnone := hexpires key
    exact .unclaimed (hkeys.trans key) (hlast.trans last) (by omega) (by omega) (by omega)
  | lasting key_eq level forever last one_claims none_passed =>
    exact .lasting (hkeys.trans key_eq) level forever (hlast.trans last) (by omega) (by omega)
  | @refreshed key last key_eq level expiresAt last_eq alive one =>
    by_cases hdead : windowEnd services last < s'.clock
    · exact .expired (hlast.trans last_eq) hdead (by omega)
    · exact .refreshed (hkeys.trans key_eq) level expiresAt (hlast.trans last_eq)
        (not_lt.1 hdead) (by omega)
  | expired last_eq dead one =>
    exact .expired (hlast.trans last_eq) (dead.trans_le hclock) (by omega)

/-- How the counts of a work item move when one of its candidates takes a step. -/
structure Counts (s s' : EscalationSystem) (w : WorkItemId) (pc : EscalatePc)
    (step : EscalateStep) : Prop where
  expires : s'.pending w expires + (if expires pc then 1 else 0)
    = s.pending w expires + if EscalationSystem.expires step.pc then 1 else 0
  claims : s'.pending w claims + (if claims pc then 1 else 0)
    = s.pending w claims + if EscalationSystem.claims step.pc then 1 else 0
  passed : s'.passed w + (if sends pc then 1 else 0)
    = s.passed w + (if sends step.pc then 1 else 0)
      + step.deeds.countP EscalationDeed.isEscalated

lemma counts_onEscalate {k : ℕ} {candidate : Candidate}
    (hcandidate : s.candidates[k]? = some candidate) (io : StepIo) (step : EscalateStep) :
    Counts s (s.onEscalate k io candidate step) candidate.workItem.id candidate.pc step := by
  have hexpires := pending_onEscalate (w := candidate.workItem.id) expires hcandidate io step
  have hclaims := pending_onEscalate (w := candidate.workItem.id) claims hcandidate io step
  have hsends := pending_onEscalate (w := candidate.workItem.id) sends hcandidate io step
  have hdeeds := deeds_onEscalate (s := s) (w := candidate.workItem.id)
    EscalationDeed.isEscalated k io candidate step
  simp only [true_and, if_true] at hexpires hclaims hsends hdeeds
  refine ⟨hexpires, hclaims, ?_⟩
  simp only [passed]
  omega

/-- The key of a work item is untouched by the candidates of others. -/
lemma keys_of_ne {prisma : PrismaClient} {alerting : AlertingInstance} {io : StepIo}
    {candidate : Candidate} {pc : EscalatePc} {step : EscalateStep} {pg : Postgres}
    {keys : EscalationKeys} (h : candidate.Runs prisma alerting io pg keys pc step)
    (hne : w ≠ candidate.workItem.id) : step.keys w = keys w := by
  cases h with
  | claimed adds => exact EscalationKeys.sadd_of_ne hne adds
  | expired expires => exact EscalationKeys.expire_of_ne hne expires
  | _ => rfl

/-- A candidate of another work item. -/
lemma KeyStage.of_other {k : ℕ} {io : StepIo} {candidate : Candidate} {step : EscalateStep}
    (h : s.KeyStage services w) (hcandidate : s.candidates[k]? = some candidate)
    (hclock : candidate.onRedis = true → s.clock ≤ io.now)
    (hruns : candidate.Runs services.incidents.workflow.prisma services.alerting io s.postgres
      s.keys candidate.pc step) (hne : w ≠ candidate.workItem.id) :
    (s.onEscalate k io candidate step).KeyStage services w := by
  have hpending : ∀ p, (s.onEscalate k io candidate step).pending w p = s.pending w p := by
    intro p
    simpa [hne.symm] using pending_onEscalate (w := w) p hcandidate io step
  have hdeeds := deeds_onEscalate (s := s) (w := w) EscalationDeed.isEscalated k io candidate step
  rw [if_neg hne.symm, Nat.add_zero] at hdeeds
  refine h.mono (keys_of_ne hruns hne) ?_ ?_ (fun _ => (hpending _).le) ?_ ?_
  · simp only [onEscalate]
    split_ifs
    · exact Function.update_of_ne hne _ _
    · rfl
  · simp only [onEscalate]
    split_ifs with hredis
    · exact hclock hredis
    · exact le_rfl
  · simp only [passed, hpending, hdeeds, le_refl]
  · simp only [passed, hpending, hdeeds, le_refl]

/-- `SADD` adds the level to a key that was never claimed, or whose time has passed. -/
lemma KeyStage.of_claim {now : Instant} {added : ℕ} (h : s.KeyStage services w)
    (hclock : s.clock ≤ now) (hclock' : s'.clock = now)
    (hadds : EscalationKeys.sadd w ESCALATION_LEVEL now s.keys = .ok (added, s'.keys))
    (hlast : s'.lastExpire w = s.lastExpire w)
    (hclaims : s'.pending w claims ≤ s.pending w claims + if added = 1 then 1 else 0)
    (hpassed : s'.passed w = s.passed w) : s'.KeyStage services w := by
  cases h with
  | unclaimed key last none_expires none_claims none_passed =>
    refine .lasting (EscalationKeys.sadd_of_none key hadds) (List.mem_singleton_self _) rfl
      (hlast.trans last) ?_ (hpassed.trans none_passed)
    split_ifs at hclaims <;> omega
  | @lasting key key_eq level forever last one_claims none_passed =>
    have hlive : s.keys.live w now = some key :=
      EscalationKeys.live_eq_some.2 ⟨key_eq, by simp [forever]⟩
    obtain ⟨rfl, hkeys⟩ := EscalationKeys.sadd_of_live hlive level hadds
    exact .lasting (hkeys ▸ key_eq) level forever (hlast.trans last) (hclaims.trans one_claims)
      (hpassed.trans none_passed)
  | @refreshed key last key_eq level expiresAt last_eq alive one =>
    by_cases hnow : now ≤ windowEnd services last
    · have hlive : s.keys.live w now = some key :=
        EscalationKeys.live_eq_some.2 ⟨key_eq, by simpa [expiresAt] using hnow⟩
      obtain ⟨rfl, hkeys⟩ := EscalationKeys.sadd_of_live hlive level hadds
      refine .refreshed (hkeys ▸ key_eq) level expiresAt (hlast.trans last_eq)
        (hclock'.le.trans hnow) ?_
      simp only [zero_ne_one, if_false] at hclaims
      omega
    · -- the key was left to die: its next `EXPIRE` is too late
      exact .expired (hlast.trans last_eq) (hclock'.symm ▸ not_le.1 hnow) (by omega)
  | expired last_eq dead one =>
    exact .expired (hlast.trans last_eq) (hclock'.symm ▸ dead.trans_le hclock)
      (hpassed.le.trans one)

/-- `EXPIRE` on a live key starts a new window. -/
lemma KeyStage.of_expire {now : Instant} (h : s.KeyStage services w) (hclock : s.clock ≤ now)
    (hclock' : s'.clock = now)
    (hexpires : EscalationKeys.expire w services.alerting.suppressionWindowSeconds now s.keys
      = .ok ((), s'.keys))
    (hlast : s'.lastExpire w = some now) (hpending : 0 < s.pending w expires)
    (hkept : ∀ last ∈ s.lastExpire w, now ≤ windowEnd services last)
    (hcounts : s'.pending w claims + s'.passed w ≤ s.pending w claims + s.passed w) :
    s'.KeyStage services w := by
  have hwindow : now ≤ windowEnd services now := by
    refine le_add_of_nonneg_right ?_
    exact Int.mul_nonneg (Int.natCast_nonneg _) (by decide)
  have hrefreshed : ∀ key, s.keys.live w now = some key → ESCALATION_LEVEL ∈ key.levels →
      s.pending w claims + s.passed w ≤ 1 → s'.KeyStage services w := by
    intro key hlive hlevel hone
    exact .refreshed (EscalationKeys.expire_of_live hlive hexpires) hlevel rfl hlast
      (hclock'.le.trans hwindow) (hcounts.trans hone)
  cases h with
  | unclaimed key last none_expires none_claims none_passed => omega
  | @lasting key key_eq level forever last one_claims none_passed =>
    refine hrefreshed key (EscalationKeys.live_eq_some.2 ⟨key_eq, ?_⟩) level (by omega)
    simp [forever]
  | @refreshed key last key_eq level expiresAt last_eq alive one =>
    refine hrefreshed key (EscalationKeys.live_eq_some.2 ⟨key_eq, ?_⟩) level one
    simpa [expiresAt] using hkept last last_eq
  | @expired last last_eq dead one =>
    exact absurd (hclock.trans (hkept last last_eq)) (not_le.2 dead)

/-- A candidate of the work item itself whose step reaches no key. -/
lemma KeyStage.of_idle {k : ℕ} {io : StepIo} {candidate : Candidate}
    (h : s.KeyStage services candidate.workItem.id) (step : EscalateStep)
    (hcandidate : s.candidates[k]? = some candidate)
    (hclock : candidate.onRedis = true → s.clock ≤ io.now) (hkeys : step.keys = s.keys)
    (hlast : ¬ (candidate.onExpire = true ∧ carriedOut io.outcome = true))
    (hexpires : expires step.pc = false) (hclaims : claims step.pc = false)
    (hpassed : (if sends step.pc then 1 else 0) + step.deeds.countP EscalationDeed.isEscalated
      ≤ if sends candidate.pc then 1 else 0) :
    (s.onEscalate k io candidate step).KeyStage services candidate.workItem.id := by
  obtain ⟨hexpires', hclaims', hpassed'⟩ := counts_onEscalate hcandidate io step
  simp only [hexpires, hclaims, Bool.false_eq_true, if_false] at hexpires' hclaims'
  refine h.mono (congrFun hkeys _) ?_ ?_ (fun _ => by omega) (by omega) (by omega)
  · simp only [onEscalate, if_neg hlast]
  · simp only [onEscalate]
    split_ifs with hredis
    · exact hclock hredis
    · exact le_rfl

lemma counts_afterRecord (attempt : ℕ) (reply : Except Thrown Unit) :
    expires (.afterRecord attempt reply) = false ∧ claims (.afterRecord attempt reply) = false ∧
      sends (.afterRecord attempt reply) = false := by
  simp only [EscalatePc.afterRecord]
  split <;> exact ⟨rfl, rfl, rfl⟩

/-- A candidate of the work item itself. -/
lemma KeyStage.of_own {k : ℕ} {io : StepIo} {candidate : Candidate} {step : EscalateStep}
    (h : s.KeyStage services candidate.workItem.id)
    (hcandidate : s.candidates[k]? = some candidate)
    (hclock : candidate.onRedis = true → s.clock ≤ io.now)
    (hruns : candidate.Runs services.incidents.workflow.prisma services.alerting io s.postgres
      s.keys candidate.pc step) (hkept : KeepsKeys services s (.escalate k io)) :
    (s.onEscalate k io candidate step).KeyStage services candidate.workItem.id := by
  obtain ⟨hexpires', hclaims', hpassed'⟩ := counts_onEscalate hcandidate io step
  have hidle := h.of_idle step hcandidate hclock
  have hpos : expires candidate.pc = true → 0 < s.pending candidate.workItem.id expires := by
    intro hexpires
    refine List.countP_pos_iff.2 ⟨candidate, List.mem_of_getElem? hcandidate, ?_⟩
    simpa using hexpires
  have hkept := hkept candidate hcandidate
  simp only [Candidate.onRedis, Candidate.onExpire] at hidle hclock hkept
  generalize hpc : candidate.pc = pc at *
  cases hruns with
  | claimed adds hpc' =>
    refine h.of_claim (hclock rfl) (by simp [onEscalate, Candidate.onRedis, hpc]) adds
      (by simp [onEscalate, Candidate.onExpire, hpc]) ?_ ?_
    · rcases hpc' with rfl | rfl
      · simpa [claims] using hclaims'.le
      · exact Nat.le_add_right_of_le hclaims'.le
    · rcases hpc' with rfl | rfl <;> simpa [sends] using hpassed'
  | expired hexpire hpc' hcarried =>
    have hout : carriedOut io.outcome = true := by
      cases hio : io.outcome with
      | ok => rfl
      | fault applied e => cases applied with
        | true => rfl
        | false => exact absurd hio (hcarried e)
    refine h.of_expire (hclock rfl) (by simp [onEscalate, Candidate.onRedis, hpc]) hexpire
      (by simp [onEscalate, Candidate.onExpire, hpc, hout]) (hpos rfl) (hkept rfl hout) ?_
    rcases hpc' with ⟨rfl, rfl⟩ | rfl
    · simp [claims, sends] at hclaims' hpassed'
      omega
    · simp [claims, sends] at hclaims' hpassed'
      omega
  | unclaimed => exact hidle rfl (by simp) rfl rfl (by simp [sends])
  | unexpired hlost =>
    obtain ⟨e, he⟩ := hlost
    exact hidle rfl (by simp [he, carriedOut]) rfl rfl (by simp [sends])
  | dispatched => exact hidle rfl (by simp) rfl rfl (by simp [sends, EscalationDeed.isEscalated])
  | settled => exact hidle rfl (by simp) rfl rfl (by simp [sends, EscalationDeed.isEscalated])
  | rejected => exact hidle rfl (by simp) rfl rfl (by simp [sends])
  | @unrecorded attempt e =>
    obtain ⟨hexpires, hclaims, hsends⟩ := counts_afterRecord attempt (.error e)
    exact hidle rfl (by simp) hexpires hclaims (by simp [hsends])
  | @recorded attempt pg' reply =>
    obtain ⟨hexpires, hclaims, hsends⟩ := counts_afterRecord attempt reply
    exact hidle rfl (by simp) hexpires hclaims (by simp [hsends, EscalationDeed.isEscalated])

/-- Every step keeps every key in one of its stages. -/
lemma KeyStage.step (h : s.KeyStage services w) {e : EscalationEvent}
    (hkept : KeepsKeys services s e) (hstep : s.step services e = some s') :
    s'.KeyStage services w := by
  cases e with
  | incidents e' =>
    obtain ⟨-, incidents, -, rfl⟩ := step_incidents_inv hstep
    exact h.mono rfl rfl le_rfl (fun _ => le_rfl) le_rfl le_rfl
  | startTick now =>
    cases hstep
    exact h.mono rfl rfl le_rfl (fun _ => le_rfl) le_rfl le_rfl
  | query tick outcome =>
    have hexpires := pending_query (w := w) (p := expires) rfl rfl hstep
    have hclaims := pending_query (w := w) (p := claims) rfl rfl hstep
    have hsends := pending_query (w := w) (p := sends) rfl rfl hstep
    obtain ⟨now, -, rfl | rfl⟩ := step_query_inv hstep
    · exact h.mono rfl rfl le_rfl (fun _ => le_rfl) le_rfl le_rfl
    · refine h.mono rfl rfl le_rfl (fun _ => hexpires.le) ?_ ?_
      · simp only [passed, hclaims, hsends]
        rfl
      · simp only [passed, hsends]
        rfl
  | escalate k io =>
    obtain ⟨candidate, step, hcandidate, hclock, hruns, rfl⟩ := step_escalate_inv hstep
    by_cases hw : w = candidate.workItem.id
    · subst hw
      exact h.of_own hcandidate hclock hruns hkept
    · exact h.of_other hcandidate hclock hruns hw
  | crash tick =>
    cases hstep
    have hexpires := pending_crash_le (w := w) (p := expires) rfl tick (l := s.candidates)
    have hclaims := pending_crash_le (w := w) (p := claims) rfl tick (l := s.candidates)
    have hsends := pending_crash_le (w := w) (p := sends) rfl tick (l := s.candidates)
    exact h.mono rfl rfl le_rfl (fun _ => hexpires)
      (Nat.add_le_add hclaims (Nat.add_le_add_right hsends _)) (Nat.add_le_add_right hsends _)

lemma KeyStage.passed_le_one (h : s.KeyStage services w) : s.passed w ≤ 1 := by
  cases h <;> omega

/-- When no `EXPIRE` comes too late, `dispatchEscalation` returns `true` at most once for
a work item. -/
theorem escalated_at_most_once {events : List EscalationEvent}
    (hrun : (lts services).run empty events = some s)
    (hkept : (lts services).Meets (KeepsKeys services) empty events) (w : WorkItemId) :
    s.deeds w EscalationDeed.isEscalated ≤ 1 := by
  have hempty : empty.KeyStage services w := .unclaimed rfl rfl rfl rfl rfl
  have hstage := Lts.run_invariant_of_meets
    (fun _ _ _ hstage hkept hstep => KeyStage.step hstage hkept hstep) hrun hkept hempty
  exact (Nat.le_add_left _ _).trans hstage.passed_le_one

/-- Two ticks race for an overdue work item.  Two more come later, each before the window
of the tick before it ends. -/
def racingEvents : List EscalationEvent :=
  .incidents itemCreated :: tickEvents 0 902000 ++ tickEvents 1 902000 ++
    escalateEvents 0 902010 1 ++ escalateEvents 1 902020 2 ++ escalateEvents 0 902030 4 ++
      tickEvents 2 86000000 ++ escalateEvents 2 86000000 2 ++
      tickEvents 3 172000000 ++ escalateEvents 3 172000000 2

theorem escalated_once_of_racingEvents : ∃ s, (lts .standard).run empty racingEvents = some s ∧
    s.deeds "w" EscalationDeed.isEscalated = 1 ∧ s.deeds "w" EscalationDeed.isEscalated ≤ 1 := by
  have hobserved : ((lts .standard).run empty racingEvents).map
      (fun s => s.deeds "w" EscalationDeed.isEscalated) = some 1 := by
    decide +kernel
  have hkept : (lts .standard).Meets (KeepsKeys .standard) empty racingEvents := by
    decide +kernel
  obtain ⟨s, hrun, hs⟩ := Option.map_eq_some_iff.1 hobserved
  exact ⟨s, hrun, hs, escalated_at_most_once hrun hkept "w"⟩

end InveniOps.Alerting.EscalationSystem
