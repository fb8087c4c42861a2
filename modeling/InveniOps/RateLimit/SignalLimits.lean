import InveniOps.RateLimit.TokenBucket

/-!
# The limits of the ingestion route

`handleIngest` (`api/routes/signals.ts`) checks each request against the bucket of its IP
and against the global one, with limits that the configuration fixes.
-/

namespace InveniOps.RateLimit

open Lib

/-- The limits that all requests are checked against. -/
structure RateLimits where
  ip : TokenBucketConfig
  global : TokenBucketConfig
  ttlSeconds : ℕ

/-- The key of the bucket of an IP. -/
def ipKey (ip : String) : String := "ratelimit:signals:ip:" ++ ip

/-- The key of the bucket that all requests share. -/
def globalKey : String := "ratelimit:signals:global"

lemma ipKey_ne_globalKey (ip : String) : ipKey ip ≠ globalKey := by
  intro h
  have hlist := congrArg (fun key => key.toList.take 19) h
  dsimp only [ipKey, globalKey] at hlist
  rw [String.toList_append, List.take_append_of_le_length (by decide)] at hlist
  exact absurd hlist (by decide)

lemma ipKey_injective : Function.Injective ipKey := by
  intro ip ip' h
  exact (String.append_right_inj _).1 h

/-- A request to the ingestion route, as the limiter sees it. -/
structure Request where
  ip : String
  cost : ℚ
  now : Instant
  cost_pos : 0 < cost

/-- The request checks the bucket under a key. -/
def Request.Uses (r : Request) (key : String) : Prop := key = ipKey r.ip ∨ key = globalKey

instance (r : Request) (key : String) : Decidable (r.Uses key) :=
  inferInstanceAs (Decidable (key = ipKey r.ip ∨ key = globalKey))

namespace RateLimits

variable (limits : RateLimits)

/-- The parameters that the route passes. -/
def params (r : Request) : TokenBucketCheckParams where
  ipKey := ipKey r.ip
  globalKey := globalKey
  ip := limits.ip
  global := limits.global
  cost := r.cost
  now := r.now
  ttlSeconds := limits.ttlSeconds

/-- The reply to a request. -/
def reply (N : Numbers) (buckets : Buckets) (r : Request) : TokenBucketResult :=
  (checkTokenBuckets N buckets (limits.params r)).1

/-- The buckets behind a request. -/
def check (N : Numbers) (buckets : Buckets) (r : Request) : Buckets :=
  (checkTokenBuckets N buckets (limits.params r)).2

/-- The limit of the bucket under a key. -/
def configOf (key : String) : TokenBucketConfig :=
  if key = globalKey then limits.global else limits.ip

/-- The tokens that a request at an instant finds under a key. -/
def tokens (N : Numbers) (buckets : Buckets) (key : String) (now : Instant) : ℚ :=
  refill N (buckets key) (limits.configOf key) now

/-- What a request leaves of the tokens that it finds under a key. -/
def leftOf (N : Numbers) (buckets : Buckets) (r : Request) (key : String) : ℚ :=
  remainder N buckets (limits.params r) (limits.tokens N buckets key r.now)

variable {limits} {N : Numbers} {buckets buckets' : Buckets} {r : Request} {key : String}
  {now : Instant}

@[simp] lemma configOf_globalKey : limits.configOf globalKey = limits.global := if_pos rfl

@[simp] lemma configOf_ipKey (ip : String) : limits.configOf (ipKey ip) = limits.ip :=
  if_neg (ipKey_ne_globalKey ip)

lemma tokens_ipKey : limits.tokens N buckets (ipKey r.ip) now
    = refill N (buckets (ipKey r.ip)) limits.ip now := by
  rw [tokens, configOf_ipKey]

lemma tokens_globalKey :
    limits.tokens N buckets globalKey now = refill N (buckets globalKey) limits.global now := by
  rw [tokens, configOf_globalKey]

lemma tokens_le : limits.tokens N buckets key now ≤ (limits.configOf key).capacity :=
  refill_le_capacity

/-- A request is allowed if both of its buckets hold its cost. -/
lemma allowed_iff_tokens : (limits.reply N buckets r).allowed = true ↔
    ∀ key, r.Uses key → r.cost ≤ limits.tokens N buckets key r.now := by
  refine allowed_iff.trans ⟨?_, ?_⟩
  · rintro ⟨h, h'⟩ key (rfl | rfl)
    · rw [tokens_ipKey]
      exact h
    · rw [tokens_globalKey]
      exact h'
  · intro h
    have hip := h _ (.inl rfl)
    have hglobal := h _ (.inr rfl)
    rw [tokens_ipKey] at hip
    rw [tokens_globalKey] at hglobal
    exact ⟨hip, hglobal⟩

/-- The reply depends on what the two buckets hold. -/
lemma reply_congr_tokens (h : ∀ key, r.Uses key →
    limits.tokens N buckets key r.now = limits.tokens N buckets' key r.now) :
    limits.reply N buckets r = limits.reply N buckets' r := by
  have hip := h _ (.inl rfl)
  have hglobal := h _ (.inr rfl)
  simp only [tokens, configOf_ipKey, configOf_globalKey] at hip hglobal
  exact reply_congr hip hglobal

lemma leftOf_of_allowed (h : (limits.reply N buckets r).allowed = true) :
    limits.leftOf N buckets r key = N.round (limits.tokens N buckets key r.now - r.cost) :=
  if_pos h

lemma leftOf_of_denied (h : (limits.reply N buckets r).allowed = false) :
    limits.leftOf N buckets r key = limits.tokens N buckets key r.now :=
  if_neg (ne_true_of_eq_false h)

/-- A request writes what it leaves of its buckets, and stamps them. -/
lemma check_of_uses (h : r.Uses key) : limits.check N buckets r key
    = some ⟨N.reread (limits.leftOf N buckets r key), r.now, limits.ttlSeconds⟩ := by
  rcases h with rfl | rfl
  · rw [leftOf, tokens_ipKey]
    exact check_ipKey (ipKey_ne_globalKey r.ip)
  · rw [leftOf, tokens_globalKey]
    exact check_globalKey

lemma check_of_not_uses (h : ¬ r.Uses key) : limits.check N buckets r key = buckets key :=
  check_of_ne (fun hip => h (.inl hip)) fun hglobal => h (.inr hglobal)

lemma tokens_check_of_not_uses (h : ¬ r.Uses key) :
    limits.tokens N (limits.check N buckets r) key now = limits.tokens N buckets key now := by
  rw [tokens, check_of_not_uses h]
  rfl

/-- The defaults of `config/index.ts` and of `checkTokenBuckets`. -/
def standard : RateLimits where
  ip := ⟨50, 20, by norm_num, by norm_num⟩
  global := ⟨5000, 2000, by norm_num, by norm_num⟩
  ttlSeconds := 3600

end RateLimits

end InveniOps.RateLimit
