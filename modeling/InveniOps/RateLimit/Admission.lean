import InveniOps.RateLimit.SignalLimits

/-!
# What the rate limiter admits

Requests of any IPs check the bucket of their IP and the global one while the clock
moves on, and keys expire behind their TTL.  Each bucket is a reservoir, so that what
it admits within an interval is bounded by its capacity and its refill; and a denied
request leaves both reservoirs as it has found them.  Counts are exact here.
-/

namespace InveniOps.RateLimit

open Lib

/-- The TTL outlives the refill of an empty bucket. -/
structure RateLimits.Refills (limits : RateLimits) : Prop where
  ip : limits.ip.capacity ≤ limits.ttlSeconds * limits.ip.refillPerSecond
  global : limits.global.capacity ≤ limits.ttlSeconds * limits.global.refillPerSecond

lemma RateLimits.Refills.configOf {limits : RateLimits} (h : limits.Refills) (key : String) :
    (limits.configOf key).capacity
      ≤ limits.ttlSeconds * (limits.configOf key).refillPerSecond := by
  unfold RateLimits.configOf
  split_ifs
  · exact h.global
  · exact h.ip

/-! ### Debits without rounding -/

namespace RateLimits

/-- What a request takes from the bucket under a key. -/
def debitOf (limits : RateLimits) (buckets : Buckets) (r : Request) (key : String) : ℚ :=
  if r.Uses key ∧ (limits.reply .exact buckets r).allowed then r.cost else 0

variable {limits : RateLimits} {buckets : Buckets} {r : Request} {key : String} {now : Instant}

lemma debitOf_nonneg : 0 ≤ limits.debitOf buckets r key := by
  unfold debitOf
  split_ifs
  · exact r.cost_pos.le
  · exact le_rfl

/-- No bucket is debited more than it holds. -/
lemma debitOf_le (h : 0 ≤ limits.tokens .exact buckets key r.now) :
    limits.debitOf buckets r key ≤ limits.tokens .exact buckets key r.now := by
  unfold debitOf
  split_ifs with hallowed
  · exact allowed_iff_tokens.1 hallowed.2 key hallowed.1
  · exact h

lemma debitOf_of_denied (h : (limits.reply .exact buckets r).allowed = false) :
    limits.debitOf buckets r key = 0 :=
  if_neg fun hallowed => by simp [h] at hallowed

/-- A request takes its debit from what its buckets hold, and stamps them. -/
lemma check_exact_of_uses (h : r.Uses key) : limits.check .exact buckets r key
    = some ⟨limits.tokens .exact buckets key r.now - limits.debitOf buckets r key, r.now,
        limits.ttlSeconds⟩ := by
  rw [check_of_uses h, Numbers.exact_reread]
  cases hallowed : (limits.reply .exact buckets r).allowed with
  | false => rw [leftOf_of_denied hallowed, debitOf_of_denied hallowed, sub_zero]
  | true => rw [leftOf_of_allowed hallowed, debitOf, if_pos ⟨h, hallowed⟩, Numbers.exact_round]

/-- What a bucket holds behind a request, at an instant that is not before it. -/
lemma tokens_check_of_uses (h : r.Uses key) : limits.tokens .exact (limits.check .exact buckets r)
      key now
    = refilled (limits.configOf key).capacity
        (limits.tokens .exact buckets key r.now - limits.debitOf buckets r key)
        ((limits.configOf key).supply (max r.now now) - (limits.configOf key).supply r.now) := by
  rw [tokens, check_exact_of_uses h]
  exact refill_some _ _

end RateLimits

/-- The buckets and the clock that the callers share. -/
structure Limiter where
  buckets : Buckets
  clock : Instant

/-- What changes the buckets. -/
inductive LimiterEvent
  | request (r : Request)
  /-- Redis drops a key whose TTL has passed. -/
  | expire (key : String) (now : Instant)

namespace Limiter

/-- No bucket has been used. -/
def init (now : Instant) : Limiter := ⟨fun _ => none, now⟩

variable (limits : RateLimits)

/-- Clocks do not run backwards, and keys expire behind their TTL. -/
def step : Limiter → LimiterEvent → Option Limiter
  | s, .request r =>
    if s.clock ≤ r.now then some ⟨limits.check .exact s.buckets r, r.now⟩ else none
  | s, .expire key now =>
    match s.buckets key with
    | none => none
    | some bucket =>
      if s.clock ≤ now ∧ bucket.ts + bucket.ttlSeconds * 1000 ≤ now then
        some ⟨Function.update s.buckets key none, now⟩
      else none

/-- The rate limiter as a transition system. -/
def lts : Lts Limiter LimiterEvent := ⟨step limits⟩

/-- The reply that an event gets. -/
def replies (s : Limiter) : LimiterEvent → List TokenBucketResult
  | .request r => [limits.reply .exact s.buckets r]
  | .expire _ _ => []

/-- The request that an event admits. -/
def admitted (s : Limiter) : LimiterEvent → List Request
  | .request r => if (limits.reply .exact s.buckets r).allowed then [r] else []
  | .expire _ _ => []

/-- The requests among some events. -/
def requests (es : List LimiterEvent) : List Request :=
  es.filterMap fun
    | .request r => some r
    | .expire _ _ => none

/-- The cost of the requests that were made within an interval. -/
def costWithin (a b : Instant) (rs : List Request) : ℚ :=
  ((rs.filter fun r => a ≤ r.now ∧ r.now ≤ b).map (·.cost)).sum

/-- Keys outlive a refill, and the buckets are within their bounds and not of the future. -/
structure Valid (s : Limiter) : Prop where
  refills : limits.Refills
  bounded : ∀ key, ∀ bucket ∈ s.buckets key,
    0 ≤ bucket.tokens ∧ bucket.tokens ≤ (limits.configOf key).capacity
  ts : ∀ key, ∀ bucket ∈ s.buckets key, bucket.ts ≤ s.clock
  ttlSeconds : ∀ key, ∀ bucket ∈ s.buckets key, bucket.ttlSeconds = limits.ttlSeconds

/-- What an event takes from the bucket under a key. -/
def debitOf (s : Limiter) (key : String) : LimiterEvent → ℚ
  | .request r => limits.debitOf s.buckets r key
  | .expire _ _ => 0

variable {limits} {s s' t : Limiter} {e : LimiterEvent} {key : String} {now n m : Instant}

lemma valid_init (h : limits.Refills) : (init now).Valid limits := by
  refine ⟨h, ?_, ?_, ?_⟩
  all_goals
    intro key bucket hbucket
    cases hbucket

/-! ### Steps -/

lemma request_inv {r : Request} (hstep : s.step limits (.request r) = some s') :
    s.clock ≤ r.now ∧ s'.clock = r.now ∧ s'.buckets = limits.check .exact s.buckets r := by
  simp only [step, Option.ite_none_right_eq_some, Option.some.injEq] at hstep
  obtain ⟨hclock, rfl⟩ := hstep
  exact ⟨hclock, rfl, rfl⟩

lemma expire_inv (hstep : s.step limits (.expire key now) = some s') :
    ∃ bucket, s.buckets key = some bucket ∧ s.clock ≤ now ∧
      bucket.ts + bucket.ttlSeconds * 1000 ≤ now ∧ s'.clock = now ∧
      s'.buckets = Function.update s.buckets key none := by
  simp only [step] at hstep
  split at hstep
  · cases hstep
  · rename_i bucket hbucket
    simp only [Option.ite_none_right_eq_some, Option.some.injEq] at hstep
    obtain ⟨⟨hclock, hexpired⟩, rfl⟩ := hstep
    exact ⟨bucket, hbucket, hclock, hexpired, rfl, rfl⟩

lemma clock_of_step (hstep : s.step limits e = some s') : s.clock ≤ s'.clock := by
  cases e with
  | request r =>
    obtain ⟨hclock, hclock', -⟩ := request_inv hstep
    rwa [hclock']
  | expire key now =>
    obtain ⟨bucket, -, hclock, -, hclock', -⟩ := expire_inv hstep
    rwa [hclock']

/-- Behind an event a bucket is the old one or the one that the event has written. -/
lemma bucket_of_step (hstep : s.step limits e = some s') {bucket : TokenBucket}
    (h : bucket ∈ s'.buckets key) : bucket ∈ s.buckets key ∨
      bucket = ⟨limits.tokens .exact s.buckets key s'.clock - s.debitOf limits key e, s'.clock,
        limits.ttlSeconds⟩ := by
  cases e with
  | request r =>
    obtain ⟨-, hclock, hbuckets⟩ := request_inv hstep
    rw [hbuckets] at h
    by_cases huses : r.Uses key
    · rw [RateLimits.check_exact_of_uses huses] at h
      rw [hclock]
      exact .inr (Option.some.inj h).symm
    · rw [RateLimits.check_of_not_uses huses] at h
      exact .inl h
  | expire key' now =>
    obtain ⟨-, -, -, -, -, hbuckets⟩ := expire_inv hstep
    rw [hbuckets] at h
    rcases eq_or_ne key key' with rfl | hne
    · rw [Function.update_self] at h
      cases h
    · rw [Function.update_of_ne hne] at h
      exact .inl h

/-! ### The tokens over time -/

lemma Valid.tokens_later (hs : s.Valid limits) (hn : s.clock ≤ n) (hm : n ≤ m) :
    limits.tokens .exact s.buckets key m
      = refilled (limits.configOf key).capacity (limits.tokens .exact s.buckets key n)
          ((limits.configOf key).supply m - (limits.configOf key).supply n) :=
  refill_later (fun bucket h => (hs.ts key bucket h).trans hn) hm

lemma Valid.tokens_nonneg (hs : s.Valid limits) (hm : s.clock ≤ m) :
    0 ≤ limits.tokens .exact s.buckets key m := by
  have hcapacity := (limits.configOf key).capacity_pos.le
  unfold RateLimits.tokens
  cases hbucket : s.buckets key with
  | none => rwa [refill_none]
  | some bucket =>
    have hts := (hs.ts key bucket hbucket).trans hm
    rw [refill_some_of_le hts]
    exact refilled_nonneg hcapacity (hs.bounded key bucket hbucket).1
      (sub_nonneg.2 (supply_mono hts))

lemma debitOf_le (hs : s.Valid limits) (hstep : s.step limits e = some s') (key : String) :
    0 ≤ s.debitOf limits key e ∧
      s.debitOf limits key e ≤ limits.tokens .exact s.buckets key s'.clock := by
  have hheld : 0 ≤ limits.tokens .exact s.buckets key s'.clock :=
    hs.tokens_nonneg (clock_of_step hstep)
  cases e with
  | request r =>
    obtain ⟨-, hclock, -⟩ := request_inv hstep
    rw [hclock] at hheld ⊢
    exact ⟨RateLimits.debitOf_nonneg, RateLimits.debitOf_le hheld⟩
  | expire key' now => exact ⟨le_rfl, hheld⟩

/-- An event takes its debit from each bucket, which refills from there on. -/
lemma tokens_of_step (hs : s.Valid limits) (hstep : s.step limits e = some s')
    (hm : s'.clock ≤ m) : limits.tokens .exact s'.buckets key m
      = refilled (limits.configOf key).capacity
          (limits.tokens .exact s.buckets key s'.clock - s.debitOf limits key e)
          ((limits.configOf key).supply m - (limits.configOf key).supply s'.clock) := by
  have hclock := clock_of_step hstep
  cases e with
  | request r =>
    obtain ⟨-, hnow, hbuckets⟩ := request_inv hstep
    by_cases huses : r.Uses key
    · -- a debited or merely refilled bucket: a denied request debits 0 and rewrites `ts`
      rw [hbuckets, RateLimits.tokens_check_of_uses huses, hnow, max_eq_right (hnow ▸ hm)]
      rfl
    · have hdebit : s.debitOf limits key (.request r) = 0 := if_neg fun h => huses h.1
      rw [hbuckets, RateLimits.tokens_check_of_not_uses huses, hdebit, sub_zero]
      exact hs.tokens_later hclock hm
  | expire key' now =>
    obtain ⟨bucket, hbucket, -, hexpired, hnow, hbuckets⟩ := expire_inv hstep
    rw [debitOf, sub_zero, ← hs.tokens_later hclock hm, RateLimits.tokens, RateLimits.tokens,
      hbuckets]
    rcases eq_or_ne key key' with rfl | hne
    · -- the bucket had filled up when its key expired
      have hrefills := hs.refills.configOf key
      rw [← hs.ttlSeconds key bucket hbucket] at hrefills
      have hfull := refill_of_expired (hs.bounded key bucket hbucket).1 hrefills
        (hexpired.trans (hnow.symm.le.trans hm))
      rw [Function.update_self, refill_none, hbucket, hfull]
    · rw [Function.update_of_ne hne]

lemma Valid.step (hs : s.Valid limits) (hstep : s.step limits e = some s') : s'.Valid limits := by
  have hclock := clock_of_step hstep
  refine ⟨hs.refills, fun key bucket h => ?_, fun key bucket h => ?_, fun key bucket h => ?_⟩
  all_goals rcases bucket_of_step hstep h with hold | rfl
  · exact hs.bounded key bucket hold
  · obtain ⟨hdebit, hdebit'⟩ := debitOf_le hs hstep key
    exact ⟨sub_nonneg.2 hdebit', (sub_le_self _ hdebit).trans RateLimits.tokens_le⟩
  · exact (hs.ts key bucket hold).trans hclock
  · exact le_rfl
  · exact hs.ttlSeconds key bucket hold
  · rfl

/-! ### The buckets as reservoirs -/

variable (limits) in
/-- The admitted request of an event, if it is debited from the bucket under a key. -/
def drawn (key : String) (s : Limiter) (e : LimiterEvent) : List Request :=
  (s.admitted limits e).filter fun r => r.Uses key

lemma sum_drawn (s : Limiter) (key : String) (e : LimiterEvent) :
    ((s.drawn limits key e).map (·.cost)).sum = s.debitOf limits key e := by
  cases e with
  | request r =>
    dsimp only [drawn, admitted, debitOf, RateLimits.debitOf]
    by_cases hallowed : (limits.reply .exact s.buckets r).allowed = true
    all_goals by_cases huses : r.Uses key
    all_goals simp [hallowed, huses]
  | expire key' now => rfl

lemma now_of_drawn (hstep : s.step limits e = some s') {r : Request}
    (h : r ∈ s.drawn limits key e) : r.now = s'.clock := by
  have hadmitted := (List.mem_filter.1 h).1
  cases e with
  | request r' =>
    obtain ⟨-, hclock, -⟩ := request_inv hstep
    dsimp only [admitted] at hadmitted
    split_ifs at hadmitted
    · rw [List.mem_singleton.1 hadmitted, hclock]
    · cases hadmitted
  | expire key' now => cases hadmitted

variable (limits) in
/-- The bucket under a key, with what the admitted requests take from it. -/
def reservoir (key : String) : Reservoir (lts limits) Request Instant ℚ where
  inv := Valid limits
  clock := clock
  supply := (limits.configOf key).supply
  capacity := (limits.configOf key).capacity
  content s := limits.tokens .exact s.buckets key s.clock
  drawn := drawn limits key
  time := Request.now
  amount := Request.cost
  supply_mono _ _ hab := supply_mono hab
  capacity_nonneg := (limits.configOf key).capacity_pos.le
  content_nonneg _ hs := hs.tokens_nonneg le_rfl
  inv_step _ _ _ hs hstep := hs.step hstep
  clock_step _ _ _ _ hstep := clock_of_step hstep
  time_drawn _ _ _ _ hstep _ h := now_of_drawn hstep h
  draw_le s e s' hs hstep := by
    obtain ⟨hdebit, -⟩ := debitOf_le hs hstep key
    have hcontent : limits.tokens .exact s.buckets key s'.clock - s.debitOf limits key e
        ≤ (limits.configOf key).capacity := (sub_le_self _ hdebit).trans RateLimits.tokens_le
    rw [sum_drawn, tokens_of_step hs hstep le_rfl, sub_self, refilled_zero hcontent,
      ← hs.tokens_later le_rfl (clock_of_step hstep)]
    linarith

/-- What a bucket admits in an interval is at most its capacity and its refill. -/
lemma costWithin_le (hlimits : limits.Refills) {es : List LimiterEvent}
    (hrun : (lts limits).run (init n) es = some s) (key : String) {a b : Instant} (hab : a ≤ b) :
    costWithin a b ((lts limits).emitted (drawn limits key) (init n) es)
      ≤ (limits.configOf key).capacity
        + (limits.configOf key).refillPerSecond * ((b - a : ℤ) / 1000) := by
  have hwindow := (reservoir limits key).window_le hab (valid_init hlimits) hrun
  refine hwindow.trans (le_of_eq ?_)
  simp only [reservoir, TokenBucketConfig.supply]
  push_cast
  ring

/-! ### Denied requests -/

/-- From the clock of `s` on, both states have the same tokens to offer. -/
structure SameTokens (limits : RateLimits) (s t : Limiter) : Prop where
  clock : t.clock ≤ s.clock
  tokens : ∀ key m, s.clock ≤ m →
    limits.tokens .exact s.buckets key m = limits.tokens .exact t.buckets key m

/-- An event without a debit changes no bucket's tokens from then on. -/
lemma tokens_of_debit_eq_zero (hs : s.Valid limits) (hstep : s.step limits e = some s')
    (hdebit : s.debitOf limits key e = 0) (hm : s'.clock ≤ m) :
    limits.tokens .exact s'.buckets key m = limits.tokens .exact s.buckets key m := by
  rw [tokens_of_step hs hstep hm, hdebit, sub_zero,
    ← hs.tokens_later (clock_of_step hstep) hm]

/-- The replies to a run are those to its requests alone, wherever the keys expire. -/
lemma SameTokens.replies {fs : List LimiterEvent} (h : SameTokens limits s t)
    (hs : s.Valid limits) (ht : t.Valid limits) (hrun : (lts limits).run s fs = some s') :
    (lts limits).emitted (replies limits) s fs
      = (lts limits).emitted (replies limits) t ((requests fs).map .request) := by
  induction fs generalizing s t with
  | nil => rfl
  | cons e fs ih =>
    obtain ⟨s₁, hlts, hfs⟩ := Lts.run_cons_inv hrun
    have hstep : s.step limits e = some s₁ := hlts
    have hs₁ := hs.step hstep
    rw [Lts.emitted_cons hlts]
    cases e with
    | request r =>
      obtain ⟨hclock, hnow, -⟩ := request_inv hstep
      obtain ⟨t₁, hlts'⟩ : ∃ t₁, (lts limits).step t (.request r) = some t₁ :=
        ⟨_, if_pos (h.clock.trans hclock)⟩
      have hstep' : t.step limits (.request r) = some t₁ := hlts'
      have hnow' := (request_inv hstep').2.1
      have hreply : limits.reply .exact s.buckets r = limits.reply .exact t.buckets r :=
        RateLimits.reply_congr_tokens fun key _ => h.tokens key r.now hclock
      have hsame : SameTokens limits s₁ t₁ := by
        refine ⟨(hnow'.trans hnow.symm).le, ?_⟩
        intro key m hm
        have hdebit : s.debitOf limits key (.request r) = t.debitOf limits key (.request r) := by
          simp only [debitOf, RateLimits.debitOf, hreply]
        rw [tokens_of_step hs hstep hm, tokens_of_step ht hstep' (hnow'.trans hnow.symm ▸ hm),
          hnow, hnow', hdebit, h.tokens key r.now hclock]
      have hcons : (requests (.request r :: fs)).map LimiterEvent.request
          = .request r :: (requests fs).map .request := rfl
      rw [hcons, Lts.emitted_cons hlts', ih hsame hs₁ (ht.step hstep') hfs, Limiter.replies,
        Limiter.replies, hreply]
    | expire key now =>
      have hclock := clock_of_step hstep
      refine ih ⟨h.clock.trans hclock, ?_⟩ hs₁ ht hfs
      intro key' m hm
      rw [tokens_of_debit_eq_zero hs hstep rfl hm, h.tokens key' m (hclock.trans hm)]

/-- A denied request leaves the tokens as they are. -/
lemma sameTokens_of_denied (hs : s.Valid limits) {r : Request}
    (hstep : s.step limits (.request r) = some s')
    (hdenied : (limits.reply .exact s.buckets r).allowed = false) : SameTokens limits s' s :=
  ⟨clock_of_step hstep, fun _ _ hm =>
    tokens_of_debit_eq_zero hs hstep (RateLimits.debitOf_of_denied hdenied) hm⟩

/-! ### The bound -/

/-- What holds of the limiter behind a run that starts without buckets. -/
structure AdmissionBounded (limits : RateLimits) (start : Instant) (es : List LimiterEvent)
    (s : Limiter) : Prop where
  tokens : ∀ key, ∀ bucket ∈ s.buckets key,
    0 ≤ bucket.tokens ∧ bucket.tokens ≤ (limits.configOf key).capacity
  perIp : ∀ (ip : String) (a b : Instant), a ≤ b →
    costWithin a b (((lts limits).emitted (admitted limits) (init start) es).filter (·.ip = ip))
      ≤ limits.ip.capacity + limits.ip.refillPerSecond * ((b - a : ℤ) / 1000)
  total : ∀ a b : Instant, a ≤ b →
    costWithin a b ((lts limits).emitted (admitted limits) (init start) es)
      ≤ limits.global.capacity + limits.global.refillPerSecond * ((b - a : ℤ) / 1000)
  /-- Later requests get the replies that they would get without the denied one. -/
  denied : ∀ (r : Request) (s' : Limiter), s.step limits (.request r) = some s' →
    (limits.reply .exact s.buckets r).allowed = false →
    ∀ (fs fs' : List LimiterEvent) (t t' : Limiter),
      (lts limits).run s' fs = some t → (lts limits).run s fs' = some t' →
      requests fs = requests fs' →
      (lts limits).emitted (replies limits) s' fs = (lts limits).emitted (replies limits) s fs'

/-- The rate limiter admits no more than capacity and refill, and a denied request costs
nothing. -/
theorem admissionBounded_of_run (hlimits : limits.Refills) {start : Instant}
    {es : List LimiterEvent} (hrun : (lts limits).run (init start) es = some s) :
    AdmissionBounded limits start es s := by
  have hs : s.Valid limits :=
    Lts.run_invariant (fun _ _ _ h hstep => h.step hstep) hrun (valid_init hlimits)
  refine ⟨hs.bounded, ?_, ?_, ?_⟩
  · intro ip a b hab
    have hip := costWithin_le hlimits hrun (ipKey ip) hab
    rw [RateLimits.configOf_ipKey] at hip
    have hdrawn : drawn limits (ipKey ip)
        = fun s e => (s.admitted limits e).filter (·.ip = ip) := by
      funext s e
      refine List.filter_congr ?_
      intro r _
      simp only [decide_eq_decide]
      refine ⟨?_, fun h => .inl (h ▸ rfl)⟩
      intro h
      exact (ipKey_injective (h.resolve_right (ipKey_ne_globalKey ip))).symm
    rw [Lts.filter_emitted]
    rw [hdrawn] at hip
    exact hip
  · intro a b hab
    have hglobal := costWithin_le hlimits hrun globalKey hab
    rw [RateLimits.configOf_globalKey] at hglobal
    have hdrawn : drawn limits globalKey = admitted limits := by
      funext s e
      exact List.filter_eq_self.2 fun r _ => by simp [Request.Uses]
    rw [hdrawn] at hglobal
    exact hglobal
  · intro r s' hstep hdenied fs fs' t t' hfs hfs' hrequests
    rw [(sameTokens_of_denied hs hstep hdenied).replies (hs.step hstep) hs hfs,
      SameTokens.replies ⟨le_rfl, fun _ _ _ => rfl⟩ hs hs hfs', hrequests]

/-- One token for each IP and for all of them, refilled within a second. -/
def tinyLimits : RateLimits where
  ip := ⟨1, 1, by norm_num, by norm_num⟩
  global := ⟨1, 1, by norm_num, by norm_num⟩
  ttlSeconds := 1

/-- The token is taken, a second request is denied, and a key expires. -/
def tinyRequests : List LimiterEvent :=
  [.request ⟨"a", 1, 0, by norm_num⟩, .request ⟨"a", 1, 0, by norm_num⟩,
    .expire (ipKey "a") 1000, .request ⟨"b", 1, 1000, by norm_num⟩]

theorem admissionBounded_of_tinyRequests : ∃ s,
    (lts tinyLimits).run (init 0) tinyRequests = some s ∧
      AdmissionBounded tinyLimits 0 tinyRequests s := by
  have hran : ((lts tinyLimits).run (init 0) tinyRequests).isSome = true := by
    decide +kernel
  obtain ⟨s, hrun⟩ := Option.isSome_iff_exists.1 hran
  have hlimits : tinyLimits.Refills := ⟨by norm_num [tinyLimits], by norm_num [tinyLimits]⟩
  exact ⟨s, hrun, admissionBounded_of_run hlimits hrun⟩

end Limiter

end InveniOps.RateLimit
