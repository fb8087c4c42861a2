import InveniOps.RateLimit.ExpiringKeys

/-!
# The `Retry-After` header

`handleIngest` (`api/routes/signals.ts`) answers a denied request with the seconds until
the bucket that denied it holds the cost.  The header speaks of that bucket only, and
of its refill only.
-/

namespace InveniOps.RateLimit

open Lib FloatFormat Numbers

/-- `secondsUntilAvailable`; the config loader admits positive refills only. -/
def secondsUntilAvailable (bucket : Remaining) (refillPerSecond cost : ℚ) : ℤ :=
  let deficit := doubles.round (cost - bucket.remaining)
  if deficit ≤ 0 then 0 else ⌈doubles.round (deficit / refillPerSecond)⌉

/-- The bucket as messages name it. -/
def LimitedBy.name : LimitedBy → String
  | .ip => "ip"
  | .global => "global"

/-- The headers of `setRateLimitHeaders`. -/
structure RateLimitHeaders where
  limit : ℚ
  remaining : ℤ
  reset : ℤ
deriving DecidableEq

/-- The answer 429. -/
structure RateLimited where
  retryAfter : ℤ
  error : String
  message : String
deriving DecidableEq

namespace RateLimits

variable (limits : RateLimits)

/-- `setRateLimitHeaders` -/
def rateLimitHeaders (result : TokenBucketResult) : RateLimitHeaders where
  limit := result.ip.capacity
  remaining := max 0 ⌊result.ip.remaining⌋
  reset := secondsUntilAvailable result.ip limits.ip.refillPerSecond result.ip.capacity

/-- The answer of `handleIngest` to a reply that does not allow the request. -/
def rateLimited (result : TokenBucketResult) (cost : ℚ) : Option RateLimited :=
  if result.allowed then none
  else
    let limitedByGlobal : Bool := result.limitedBy = some .global
    let limitedBucket := if limitedByGlobal then result.global else result.ip
    let refillPerSecond :=
      if limitedByGlobal then limits.global.refillPerSecond else limits.ip.refillPerSecond
    some
      ⟨secondsUntilAvailable limitedBucket refillPerSecond cost, "rate_limited",
        "rate limit exceeded (" ++ (result.limitedBy.map (·.name)).getD "unknown" ++ ")"⟩

/-- The refills that the config loader admits: positive integers. -/
structure Loaded : Prop where
  ip : ∃ n : ℕ, 0 < n ∧ limits.ip.refillPerSecond = n
  global : ∃ n : ℕ, 0 < n ∧ limits.global.refillPerSecond = n

/-- The request once more, some seconds later on every clock. -/
def again (a : Arrival) (seconds : ℤ) : Arrival where
  request := { a.request with now := a.request.now + seconds * 1000 }
  servedAt := a.servedAt + seconds * 1000

/-- The reply to the request once more, with no other traffic in between. -/
def retried (s : Keyspace) (a : Arrival) (seconds : ℤ) : TokenBucketResult :=
  limits.answer (limits.served s a) (again a seconds)

/-- What a bucket holds some seconds after a request has been denied, if its key is still there:
what the request has found, as it was printed, and the refill of these seconds. -/
def held (s : Keyspace) (a : Arrival) (key : String) (seconds : ℕ) : ℚ :=
  refill doubles (some ⟨doubles.reread (limits.found s key a), a.request.now, limits.ttlSeconds⟩)
    (limits.configOf key) (a.request.now + seconds * 1000)

/-- Both buckets can hold the cost; and if the bucket of the IP is short of it, the global one
holds it behind all whole seconds whose refill makes up for what the IP lacks, unless both
keys have expired by then. -/
structure HonestWhen (s : Keyspace) (a : Arrival) : Prop where
  ip : a.request.cost ≤ limits.ip.capacity
  global : a.request.cost ≤ limits.global.capacity
  refilled : limits.found s (ipKey a.request.ip) a < a.request.cost → ∀ seconds : ℕ,
    doubles.round (a.request.cost - doubles.reread (limits.found s (ipKey a.request.ip) a))
        ≤ seconds * limits.ip.refillPerSecond →
      limits.ttlSeconds < seconds ∨ a.request.cost ≤ limits.held s a globalKey seconds

/-! ### Waiting -/

section

variable {n rate : ℕ} {tokens : ℚ}

/-- The header is the least number of seconds whose refill makes up for the deficit. -/
lemma secondsUntilAvailable_spec (hn : n < 2 ^ 32) (hrate : 0 < rate) (htokens : 0 ≤ tokens)
    (capacity : ℚ) : ∃ seconds : ℕ, secondsUntilAvailable ⟨tokens, capacity⟩ rate n = seconds ∧
      ∀ k : ℕ, doubles.round (n - tokens) ≤ k * rate ↔ seconds ≤ k := by
  have hdeficit : doubles.round (n - tokens) ≤ n :=
    round_le_natCast (hn.trans (by norm_num [binary64])) (by linarith)
  have hrate' : (0 : ℚ) < rate := by exact_mod_cast hrate
  by_cases hnone : doubles.round (n - tokens) ≤ 0
  · refine ⟨0, if_pos hnone, fun k => ⟨fun _ => k.zero_le, fun _ => hnone.trans ?_⟩⟩
    positivity
  · have hpos : 0 < doubles.round (doubles.round (n - tokens) / rate) :=
      round_pos (div_pos (not_le.1 hnone) hrate')
    obtain ⟨seconds, hseconds⟩ := Int.eq_ofNat_of_zero_le (Int.ceil_pos.2 hpos).le
    refine ⟨seconds, (if_neg hnone).trans hseconds, fun k => ?_⟩
    have hceil : seconds ≤ k ↔ doubles.round (doubles.round (n - tokens) / rate) ≤ (k : ℤ) := by
      rw [← Int.ceil_le, hseconds]
      exact Int.ofNat_le.symm
    rw [hceil, Int.cast_natCast]
    constructor
    · intro hle
      have hquotient : doubles.round (n - tokens) / rate ≤ k := (div_le_iff₀ hrate').2 hle
      rcases lt_or_ge k (2 ^ 53) with hk | hk
      · exact round_le_natCast hk hquotient
      · have hsmall : doubles.round (n - tokens) / rate ≤ n :=
          (div_le_self (not_le.1 hnone).le (by exact_mod_cast hrate)).trans hdeficit
        refine (round_le_natCast (hn.trans (by norm_num [binary64])) hsmall).trans ?_
        exact_mod_cast hn.le.trans ((by norm_num : 2 ^ 32 ≤ 2 ^ 53).trans hk)
    · -- otherwise the quotient exceeds the integer, also as it is rounded
      intro hle
      by_contra hnot
      refine absurd hle (not_le.2 (natCast_lt_round_div (F := binary64) rfl hrate ?_ ?_))
      · have hlarge : (n : ℚ) < (2 ^ 52 : ℕ) := by
          exact_mod_cast hn.trans (by norm_num)
        exact lt_of_le_of_lt (sub_le_self _ htokens) hlarge
      · rw [Nat.cast_mul]
        exact not_le.1 hnot

/-- The gain of whole seconds. -/
lemma refill_seconds (config : TokenBucketConfig) (now : Instant) (ttlSeconds : ℕ) {k : ℕ}
    (hk : k ≤ 2 ^ 32) :
    refill doubles (some ⟨tokens, now, ttlSeconds⟩) config (now + k * 1000)
      = min config.capacity
          (doubles.round (tokens + doubles.round (k * config.refillPerSecond))) := by
  have hround : ∀ m : ℕ, m < 2 ^ 53 → doubles.round (m : ℚ) = m := fun m hm => round_natCast hm
  have hms : doubles.round ((now + k * 1000 - now : ℤ) : ℚ) = (k * 1000 : ℕ) := by
    rw [← hround (k * 1000) (by omega)]
    congr 1
    push_cast
    ring
  have hseconds : doubles.round (((k * 1000 : ℕ) : ℚ) / 1000) = k := by
    rw [← hround k (by omega)]
    congr 1
    push_cast
    ring
  have hnonneg : (0 : ℚ) ≤ (k * 1000 : ℕ) := Nat.cast_nonneg _
  simp only [refill, hms, max_eq_right hnonneg, hseconds]

/-- Behind as many seconds as make up for the deficit the cost is there, as doubles add up. -/
lemma le_refill_of_deficit_le {config : TokenBucketConfig} {now : Instant} {ttlSeconds k : ℕ}
    (hn : n < 2 ^ 32) (htokens : 0 ≤ tokens) (hk : k ≤ 2 ^ 32)
    (hrate : config.refillPerSecond = rate) (hcapacity : n ≤ config.capacity)
    (h : doubles.round (n - tokens) ≤ k * rate) :
    (n : ℚ) ≤ refill doubles (some ⟨tokens, now, ttlSeconds⟩) config (now + k * 1000) := by
  have hsmall : n < binary64.base ^ binary64.digits := hn.trans (by norm_num [binary64])
  rw [refill_seconds config now ttlSeconds hk, hrate, ← Nat.cast_mul]
  refine le_min hcapacity ?_
  rcases lt_or_ge (k * rate) n with hlt | hge
  · have hgain : doubles.round ((k * rate : ℕ) : ℚ) = (k * rate : ℕ) :=
      round_natCast (hlt.trans hsmall)
    rw [hgain]
    refine natCast_le_round_add (F := binary64) (by decide) (hn.trans ?_) htokens ?_
    · norm_num [binary64]
    · rwa [Nat.cast_mul]
  · -- the gain alone is the cost
    have hgain : (n : ℚ) ≤ doubles.round ((k * rate : ℕ) : ℚ) :=
      natCast_le_round hsmall (by exact_mod_cast hge)
    exact natCast_le_round hsmall (by linarith)

lemma le_refill_none_iff {config : TokenBucketConfig} {now : Instant} (hn : n < 2 ^ 32) :
    (n : ℚ) ≤ refill doubles none config now ↔ n ≤ config.capacity := by
  refine ⟨fun h => h.trans refill_le_capacity, fun h => le_min h ?_⟩
  refine natCast_le_round (hn.trans (by norm_num [binary64])) (h.trans ?_)
  have hgain : 0 ≤ doubles.round (doubles.round (max 0 (doubles.round ((now - now : ℤ) : ℚ)) / 1000)
      * config.refillPerSecond) := by
    refine doubles_nonneg (mul_nonneg (doubles_nonneg ?_) config.refillPerSecond_nonneg)
    exact div_nonneg (le_max_left _ _) (by norm_num)
  exact le_add_of_nonneg_right hgain

/-- A bucket holds no less later. -/
lemma refill_mono {bucket : TokenBucket} {config : TokenBucketConfig} {now now' : Instant}
    (h : now ≤ now') :
    refill doubles (some bucket) config now ≤ refill doubles (some bucket) config now' := by
  have hcast : ((now - bucket.ts : ℤ) : ℚ) ≤ ((now' - bucket.ts : ℤ) : ℚ) := by
    exact_mod_cast sub_le_sub_right h bucket.ts
  have helapsed := max_le_max_left 0 (doubles_mono hcast)
  refine min_le_min_left _ (doubles_mono (add_le_add_right (doubles_mono ?_) _))
  refine mul_le_mul_of_nonneg_right (doubles_mono ?_) config.refillPerSecond_nonneg
  exact div_le_div_of_nonneg_right helapsed (by norm_num)

/-- A cost is printed as it is. -/
lemma reread_natCast (hn : n < 2 ^ 32) : doubles.reread (n : ℚ) = n := by
  have hprinted : decimal14.round (n : ℚ) = n :=
    round_natCast (hn.trans (by norm_num [decimal14]))
  show binary64.round (decimal14.round (n : ℚ)) = n
  rw [hprinted]
  exact round_natCast (hn.trans (by norm_num [binary64]))

end

/-! ### The request once more -/

variable {limits} {s : Keyspace} {a : Arrival} {key : String} {clock : Instant} {n k : ℕ}
  {answer : RateLimited}

/-- The reply to a denied request. -/
lemma answer_of_denied (h : (limits.answer s a).allowed = false) :
    (limits.answer s a).ip.remaining
        = doubles.reread (limits.found s (ipKey a.request.ip) a) ∧
      (limits.answer s a).global.remaining = doubles.reread (limits.found s globalKey a) ∧
      (limits.found s (ipKey a.request.ip) a < a.request.cost ∧
          (limits.answer s a).limitedBy = some .ip ∨
        a.request.cost ≤ limits.found s (ipKey a.request.ip) a ∧
          limits.found s globalKey a < a.request.cost ∧
          (limits.answer s a).limitedBy = some .global) := by
  simp only [found, tokens, configOf_ipKey, configOf_globalKey]
  simp only [RateLimits.answer, reply, checkTokenBuckets, params] at h ⊢
  by_cases hip : refill doubles (s.live a.servedAt (ipKey a.request.ip)) limits.ip a.request.now
      < a.request.cost
  · simp [hip]
  · by_cases hglobal : refill doubles (s.live a.servedAt globalKey) limits.global a.request.now
        < a.request.cost
    · simp [hip, hglobal, not_lt.1 hip]
    · simp [hip, hglobal] at h

/-- The header is the wait for the bucket that denied the request. -/
lemma rateLimited_cases
    (h : limits.rateLimited (limits.answer s a) a.request.cost = some answer) :
    (limits.answer s a).allowed = false ∧
      ((limits.found s (ipKey a.request.ip) a < a.request.cost ∧
          ∃ capacity, answer.retryAfter = secondsUntilAvailable
            ⟨doubles.reread (limits.found s (ipKey a.request.ip) a), capacity⟩
            limits.ip.refillPerSecond a.request.cost) ∨
        (a.request.cost ≤ limits.found s (ipKey a.request.ip) a ∧
          limits.found s globalKey a < a.request.cost ∧
          ∃ capacity, answer.retryAfter = secondsUntilAvailable
            ⟨doubles.reread (limits.found s globalKey a), capacity⟩
            limits.global.refillPerSecond a.request.cost)) := by
  simp only [rateLimited] at h
  split_ifs at h with hallowed hglobal
  all_goals
    have hdenied := eq_false_of_ne_true hallowed
    obtain ⟨hip, hglob, hcases⟩ := answer_of_denied hdenied
    obtain rfl := Option.some.inj h
    refine ⟨hdenied, ?_⟩
  · rcases hcases with ⟨-, hby⟩ | ⟨hle, hlt, -⟩
    · simp [hby] at hglobal
    · refine .inr ⟨hle, hlt, (limits.answer s a).global.capacity, ?_⟩
      rw [← hglob]
  · rcases hcases with ⟨hlt, -⟩ | ⟨-, -, hby⟩
    · refine .inl ⟨hlt, (limits.answer s a).ip.capacity, ?_⟩
      rw [← hip]
    · simp [hby] at hglobal

/-- What the request finds under a key when it comes again. -/
lemma found_again (hdenied : (limits.answer s a).allowed = false) (huses : a.request.Uses key) :
    limits.found (limits.served s a) key (again a k)
      = if limits.ttlSeconds < k then
          refill doubles none (limits.configOf key) (again a k).request.now
        else limits.held s a key k := by
  have hlive : (again a k).servedAt ≤ a.servedAt + limits.ttlSeconds * 1000
      ↔ k ≤ limits.ttlSeconds := by
    have hms : (k : ℤ) * 1000 ≤ (limits.ttlSeconds : ℤ) * 1000 ↔ k ≤ limits.ttlSeconds := by
      omega
    exact (add_le_add_iff_left a.servedAt).trans hms
  rw [found, tokens, live_served_of_uses huses, leftOf_of_denied hdenied]
  split_ifs with hthere hgone hgone
  · exact absurd (hlive.1 hthere) (not_le.2 hgone)
  · rfl
  · rfl
  · exact absurd (hlive.2 (not_lt.1 hgone)) hthere

lemma retried_allowed_iff (hcost : a.request.cost = n) (hn : n < 2 ^ 32)
    (hdenied : (limits.answer s a).allowed = false) :
    (limits.retried s a k).allowed = true ↔ ∀ key, a.request.Uses key →
      a.request.cost ≤ (limits.configOf key).capacity ∧
        (limits.ttlSeconds < k ∨ a.request.cost ≤ limits.held s a key k) := by
  refine allowed_iff_tokens.trans (forall₂_congr fun key huses => ?_)
  have huses' : a.request.Uses key := huses
  have hfound : limits.tokens doubles ((limits.served s a).live (again a k).servedAt) key
      (again a k).request.now = limits.found (limits.served s a) key (again a k) := rfl
  have hcost' : (again a k).request.cost = n := hcost
  rw [hfound, hcost', hcost, found_again hdenied huses']
  split_ifs with hgone
  · rw [le_refill_none_iff hn]
    simp [hgone]
  · simp only [hgone, false_or]
    exact ⟨fun h => ⟨h.trans refill_le_capacity, h⟩, fun h => h.2⟩

lemma held_mono {k' : ℕ} (h : k ≤ k') : limits.held s a key k ≤ limits.held s a key k' := by
  refine refill_mono (add_le_add_right ?_ _)
  exact mul_le_mul_of_nonneg_right (by exact_mod_cast h) (by norm_num)

/-- The bucket that denied a request holds its cost when the header says. -/
lemma held_of_deficit_le {rate : ℕ} (hs : s.Valid limits clock) (hn : n < 2 ^ 32)
    (hrate : (limits.configOf key).refillPerSecond = rate) (hpos : 0 < rate)
    (hcapacity : n ≤ (limits.configOf key).capacity)
    (hleast : ∀ j : ℕ,
      doubles.round (n - doubles.reread (limits.found s key a)) ≤ j * rate ↔ k ≤ j) :
    (n : ℚ) ≤ limits.held s a key k := by
  have htokens : 0 ≤ doubles.reread (limits.found s key a) :=
    doubles_reread_nonneg (found_nonneg hs)
  have hk : k ≤ n := by
    refine (hleast n).1 ?_
    have hdeficit : doubles.round (n - doubles.reread (limits.found s key a)) ≤ n :=
      round_le_natCast (hn.trans (by norm_num [binary64])) (sub_le_self _ htokens)
    exact hdeficit.trans (le_mul_of_one_le_right n.cast_nonneg (by exact_mod_cast hpos))
  exact le_refill_of_deficit_le hn htokens (hk.trans hn.le) hrate hcapacity ((hleast k).2 le_rfl)

/-- A bucket that holds the cost when its request is denied still does when it comes again. -/
lemma held_of_le {rate : ℕ} (hs : s.Valid limits clock) (hn : n < 2 ^ 32)
    (hrate : (limits.configOf key).refillPerSecond = rate) (h : n ≤ limits.found s key a) :
    (n : ℚ) ≤ limits.held s a key k := by
  have hprinted : (n : ℚ) ≤ doubles.reread (limits.found s key a) := by
    rw [← reread_natCast hn]
    exact doubles_reread_mono h
  have hzero : (n : ℚ) ≤ limits.held s a key 0 := by
    refine le_refill_of_deficit_le hn (doubles_reread_nonneg (found_nonneg hs)) (Nat.zero_le _)
      hrate (h.trans found_le) ?_
    have hdeficit := doubles_mono (sub_nonpos.2 hprinted)
    rw [Nat.cast_zero, zero_mul]
    exact hdeficit.trans_eq round_zero
  exact hzero.trans (held_mono k.zero_le)

/-- The retry of a request that the bucket of its IP has denied. -/
lemma retried_iff_of_ip (hlimits : limits.Loaded) (hs : s.Valid limits clock)
    (hcost : a.request.cost = n) (hn : n < 2 ^ 32)
    (hdenied : (limits.answer s a).allowed = false)
    (hshort : limits.found s (ipKey a.request.ip) a < a.request.cost) (capacity : ℚ) :
    (limits.retried s a (secondsUntilAvailable
      ⟨doubles.reread (limits.found s (ipKey a.request.ip) a), capacity⟩
      limits.ip.refillPerSecond a.request.cost)).allowed = true ↔ limits.HonestWhen s a := by
  obtain ⟨rate, hpos, hrate⟩ := hlimits.ip
  have htokens : 0 ≤ doubles.reread (limits.found s (ipKey a.request.ip) a) :=
    doubles_reread_nonneg (found_nonneg hs)
  obtain ⟨k, hk, hleast⟩ := secondsUntilAvailable_spec hn hpos htokens capacity
  rw [hcost, hrate, hk, retried_allowed_iff hcost hn hdenied]
  constructor
  · intro hall
    obtain ⟨hcapacity, -⟩ := hall _ (.inl rfl)
    obtain ⟨hcapacity', hlater⟩ := hall _ (.inr rfl)
    rw [configOf_ipKey] at hcapacity
    rw [configOf_globalKey] at hcapacity'
    refine ⟨hcapacity, hcapacity', ?_⟩
    intro _ seconds hseconds
    rw [hcost, hrate] at hseconds
    have hle := (hleast seconds).1 hseconds
    exact hlater.imp (fun hgone => hgone.trans_le hle) fun hthere => hthere.trans (held_mono hle)
  · rintro hhonest key (rfl | rfl)
    · have hcapacity := hhonest.ip
      rw [hcost] at hcapacity ⊢
      rw [configOf_ipKey]
      refine ⟨hcapacity, .inr (held_of_deficit_le hs hn ?_ hpos ?_ hleast)⟩
      · rwa [configOf_ipKey]
      · rwa [configOf_ipKey]
    · rw [configOf_globalKey]
      refine ⟨hhonest.global, hhonest.refilled hshort k ?_⟩
      rw [hcost, hrate]
      exact (hleast k).2 le_rfl

/-- The retry of a request that the global bucket alone has denied. -/
lemma retried_iff_of_global (hlimits : limits.Loaded) (hs : s.Valid limits clock)
    (hcost : a.request.cost = n) (hn : n < 2 ^ 32)
    (hdenied : (limits.answer s a).allowed = false)
    (henough : a.request.cost ≤ limits.found s (ipKey a.request.ip) a) (capacity : ℚ) :
    (limits.retried s a (secondsUntilAvailable
      ⟨doubles.reread (limits.found s globalKey a), capacity⟩
      limits.global.refillPerSecond a.request.cost)).allowed = true ↔ limits.HonestWhen s a := by
  obtain ⟨rate, hpos, hrate⟩ := hlimits.global
  have htokens : 0 ≤ doubles.reread (limits.found s globalKey a) :=
    doubles_reread_nonneg (found_nonneg hs)
  obtain ⟨k, hk, hleast⟩ := secondsUntilAvailable_spec hn hpos htokens capacity
  rw [hcost, hrate, hk, retried_allowed_iff hcost hn hdenied]
  have hcapacity : a.request.cost ≤ limits.ip.capacity := by
    have hle := henough.trans found_le
    rwa [configOf_ipKey] at hle
  constructor
  · intro hall
    obtain ⟨hcapacity', -⟩ := hall _ (.inr rfl)
    rw [configOf_globalKey] at hcapacity'
    exact ⟨hcapacity, hcapacity', fun hlt => absurd hlt (not_lt.2 henough)⟩
  · rintro hhonest key (rfl | rfl)
    · -- the bucket of the IP holds the cost already, also as it is printed
      obtain ⟨rate', -, hrate'⟩ := hlimits.ip
      rw [← configOf_ipKey a.request.ip] at hrate'
      rw [configOf_ipKey]
      rw [hcost] at henough
      exact ⟨hhonest.ip, .inr (hcost ▸ held_of_le hs hn hrate' henough)⟩
    · have hcapacity' := hhonest.global
      rw [hcost] at hcapacity' ⊢
      rw [configOf_globalKey]
      refine ⟨hcapacity', .inr (held_of_deficit_le hs hn ?_ hpos ?_ hleast)⟩
      · rwa [configOf_globalKey]
      · rwa [configOf_globalKey]

/-- A request that is answered 429 and made once more when the header says, with no other
traffic in between, is allowed if and only if the condition holds. -/
theorem retried_allowed_iff_honestWhen (hlimits : limits.Loaded) (hs : s.Valid limits clock)
    (hcost : a.request.cost = n) (hn : n < 2 ^ 32)
    (h : limits.rateLimited (limits.answer s a) a.request.cost = some answer) :
    (limits.retried s a answer.retryAfter).allowed = true ↔ limits.HonestWhen s a := by
  obtain ⟨hdenied, ⟨hshort, capacity, hwait⟩ | ⟨henough, -, capacity, hwait⟩⟩ :=
    rateLimited_cases h
  · rw [hwait]
    exact retried_iff_of_ip hlimits hs hcost hn hdenied hshort capacity
  · rw [hwait]
    exact retried_iff_of_global hlimits hs hcost hn hdenied henough capacity

/-- The bucket of an IP is empty. -/
def drained : Keyspace where
  buckets key := if key = ipKey "ip" then some ⟨0, 0, 3600⟩ else none
  writtenAt _ := 0

/-- A request for 20 signals of this IP. -/
def drainedRequest : Arrival := ⟨⟨"ip", 20, 500, by norm_num⟩, 500⟩

lemma valid_drained : drained.Valid standard 0 := by
  have hbucket : ∀ key, ∀ bucket ∈ drained.buckets key, bucket = ⟨0, 0, 3600⟩ := by
    rintro key bucket h
    simp only [drained] at h
    split_ifs at h
    · exact (Option.some.inj h).symm
    · cases h
  refine ⟨fun key bucket h => ?_, fun _ _ _ => le_rfl, fun key bucket h => ?_⟩
  all_goals
    obtain rfl := hbucket key bucket h
    rfl

theorem retried_of_drained : (standard.retried drained drainedRequest 1).allowed = true := by
  have h429 : standard.rateLimited (standard.answer drained drainedRequest)
      drainedRequest.request.cost
        = some ⟨1, "rate_limited", "rate limit exceeded (ip)"⟩ := by
    decide +kernel
  have hlimits : standard.Loaded := ⟨⟨20, by norm_num, rfl⟩, ⟨2000, by norm_num, rfl⟩⟩
  have hcost : drainedRequest.request.cost = (20 : ℕ) := by norm_num [drainedRequest]
  refine (retried_allowed_iff_honestWhen hlimits valid_drained hcost (by norm_num) h429).2
    ⟨?_, ?_, ?_⟩
  · decide +kernel
  · decide +kernel
  · rintro - seconds -
    -- the global bucket is full from the start
    have hfull : drainedRequest.request.cost
        ≤ standard.held drained drainedRequest globalKey 0 := by
      decide +kernel
    exact .inr (hfull.trans (held_mono seconds.zero_le))

/-- A batch that is larger than the bucket of an IP is told to come again in a second, in
vain. -/
theorem large_batch_retried_in_vain : ¬ ∀ (s : Keyspace) (a : Arrival) (n : ℕ)
    (answer : RateLimited), s.Valid standard a.servedAt → a.request.cost = n → 1 ≤ n → n ≤ 500 →
      standard.rateLimited (standard.answer s a) a.request.cost = some answer →
        (standard.retried s a answer.retryAfter).allowed = true := by
  intro hclaim
  have h429 : standard.rateLimited
      (standard.answer .empty ⟨⟨"ip", 51, 0, by norm_num⟩, 0⟩) 51
        = some ⟨1, "rate_limited", "rate limit exceeded (ip)"⟩ := by
    decide +kernel
  have hretried : (standard.retried .empty ⟨⟨"ip", 51, 0, by norm_num⟩, 0⟩ 1).allowed
      = false := by
    decide +kernel
  have hallowed := hclaim _ _ 51 _ (valid_empty _) (by norm_num) (by norm_num) (by norm_num) h429
  rw [hretried] at hallowed
  cases hallowed

end RateLimits

end InveniOps.RateLimit
