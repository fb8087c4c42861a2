import Mathlib.Data.Rat.Floor
import Mathlib.Tactic.Positivity
import Mathlib.Tactic.Ring
import InveniOps.Domain.Types
import InveniOps.Lib.FloatRounding
import InveniOps.Lib.Reservoir

/-!
# The token buckets

`TOKEN_BUCKET_SCRIPT` and `checkTokenBuckets` of `rateLimit/tokenBucket.ts`: the script
refills the bucket of an IP and the global one, debits both or neither, and writes
both back.  Counts are doubles, and `tostring` prints 14 digits of them.  The script takes
its arithmetic as a parameter, so that it can be compared with exact counts.
-/

namespace InveniOps.RateLimit

open Lib

/-- How the script and its caller compute with counts. -/
structure Numbers where
  /-- What the result of an operation is rounded to. -/
  round : ℚ → ℚ
  /-- What is read from the text that a count is printed as. -/
  reread : ℚ → ℚ

/-- Arithmetic without rounding. -/
def Numbers.exact : Numbers := ⟨id, id⟩

@[simp] lemma Numbers.exact_round (q : ℚ) : Numbers.exact.round q = q := rfl

@[simp] lemma Numbers.exact_reread (q : ℚ) : Numbers.exact.reread q = q := rfl

/-- The doubles of Lua and of ECMAScript.  Their range is not bounded here: counts are cut off
at a capacity, and differ from 0 and from their bounds by far more than the least double. -/
def Numbers.doubles : Numbers where
  round := FloatFormat.binary64.round
  reread q := FloatFormat.binary64.round (FloatFormat.decimal14.round q)

/-- The hash under a key, with the TTL that `EXPIRE` sets whenever it is written. -/
structure TokenBucket where
  tokens : ℚ
  ts : Instant
  ttlSeconds : ℕ

/-- `TokenBucketConfig`, as the config loader admits it. -/
structure TokenBucketConfig where
  capacity : ℚ
  refillPerSecond : ℚ
  capacity_pos : 0 < capacity
  refillPerSecond_nonneg : 0 ≤ refillPerSecond

/-- The keys of the rate limiter in Redis. -/
abbrev Buckets := String → Option TokenBucket

/-- The bucket that a request is denied by. -/
inductive LimitedBy
  | ip | global
deriving DecidableEq, Repr

/-- `TokenBucketCheckParams`, with the defaults of `now` and `ttlSeconds` filled in. -/
structure TokenBucketCheckParams where
  ipKey : String
  globalKey : String
  ip : TokenBucketConfig
  global : TokenBucketConfig
  cost : ℚ
  now : Instant
  ttlSeconds : ℕ

/-- What is left in a bucket, as `TokenBucketResult` has it. -/
structure Remaining where
  remaining : ℚ
  capacity : ℚ
deriving DecidableEq

/-- `TokenBucketResult` -/
structure TokenBucketResult where
  allowed : Bool
  limitedBy : Option LimitedBy
  ip : Remaining
  global : Remaining
deriving DecidableEq

/-- `refill` of the script. -/
def refill (N : Numbers) (bucket : Option TokenBucket) (config : TokenBucketConfig)
    (nowMs : Instant) : ℚ :=
  let tokens := match bucket with
    | none => config.capacity
    | some bucket => bucket.tokens
  let ts := match bucket with
    | none => nowMs
    | some bucket => bucket.ts
  let elapsed := max 0 (N.round (nowMs - ts : ℤ))
  min config.capacity
    (N.round (tokens + N.round (N.round (elapsed / 1000) * config.refillPerSecond)))

/-- `checkTokenBuckets`, with the buckets as the script leaves them. -/
def checkTokenBuckets (N : Numbers) (buckets : Buckets) (params : TokenBucketCheckParams) :
    TokenBucketResult × Buckets :=
  let ipTokens := refill N (buckets params.ipKey) params.ip params.now
  let globalTokens := refill N (buckets params.globalKey) params.global params.now
  let limitedBy : Option LimitedBy :=
    if ipTokens < params.cost then some .ip
    else if globalTokens < params.cost then some .global
    else none
  let allowed := limitedBy.isNone
  let ipTokens := if allowed then N.round (ipTokens - params.cost) else ipTokens
  let globalTokens := if allowed then N.round (globalTokens - params.cost) else globalTokens
  let buckets := Function.update buckets params.ipKey
    (some ⟨N.reread ipTokens, params.now, params.ttlSeconds⟩)
  let buckets := Function.update buckets params.globalKey
    (some ⟨N.reread globalTokens, params.now, params.ttlSeconds⟩)
  (⟨allowed, limitedBy, ⟨N.reread ipTokens, params.ip.capacity⟩,
    ⟨N.reread globalTokens, params.global.capacity⟩⟩, buckets)

/-! ### Refilling without rounding -/

/-- What a bucket would have gained until an instant without a capacity. -/
def TokenBucketConfig.supply (config : TokenBucketConfig) (instant : Instant) : ℚ :=
  (instant : ℚ) / 1000 * config.refillPerSecond

section

variable {config : TokenBucketConfig}

lemma supply_mono {a b : Instant} (hab : a ≤ b) : config.supply a ≤ config.supply b := by
  have hab' : (a : ℚ) ≤ b := by exact_mod_cast hab
  exact mul_le_mul_of_nonneg_right (by linarith) config.refillPerSecond_nonneg

@[simp] lemma refill_none (now : Instant) : refill .exact none config now = config.capacity := by
  simp [refill]

/-- A clock behind the stored timestamp gains nothing. -/
lemma refill_some (bucket : TokenBucket) (now : Instant) : refill .exact (some bucket) config now
    = refilled config.capacity bucket.tokens
        (config.supply (max bucket.ts now) - config.supply bucket.ts) := by
  have helapsed : max 0 (now - bucket.ts) = max bucket.ts now - bucket.ts := by
    rcases le_total bucket.ts now with h | h
    · rw [max_eq_right (sub_nonneg.2 h), max_eq_right h]
    · rw [max_eq_left (sub_nonpos.2 h), max_eq_left h, sub_self]
  have hgain : max 0 (((now - bucket.ts : ℤ) : ℚ)) / 1000 * config.refillPerSecond
      = config.supply (max bucket.ts now) - config.supply bucket.ts := by
    have hcast : max 0 (((now - bucket.ts : ℤ) : ℚ))
        = ((max bucket.ts now - bucket.ts : ℤ) : ℚ) := by
      rw [← helapsed, Int.cast_max, Int.cast_zero]
    rw [hcast, TokenBucketConfig.supply, TokenBucketConfig.supply]
    push_cast
    ring
  rw [← hgain]
  rfl

lemma refill_some_of_le {bucket : TokenBucket} {now : Instant} (h : bucket.ts ≤ now) :
    refill .exact (some bucket) config now
      = refilled config.capacity bucket.tokens (config.supply now - config.supply bucket.ts) := by
  rw [refill_some, max_eq_right h]

/-- What a bucket holds at an instant decides what it holds later. -/
lemma refill_later {bucket : Option TokenBucket} {n m : Instant}
    (hn : ∀ b ∈ bucket, b.ts ≤ n) (hm : n ≤ m) :
    refill .exact bucket config m
      = refilled config.capacity (refill .exact bucket config n)
          (config.supply m - config.supply n) := by
  have hgain : 0 ≤ config.supply m - config.supply n := sub_nonneg.2 (supply_mono hm)
  cases bucket with
  | none => rw [refill_none, refill_none, refilled_capacity hgain]
  | some b =>
    have hts := hn b rfl
    rw [refill_some_of_le hts, refill_some_of_le (hts.trans hm), refilled_refilled hgain]
    congr 1
    ring

/-- The TTL lets an empty bucket fill up. -/
lemma refill_of_expired {bucket : TokenBucket} {now : Instant} (htokens : 0 ≤ bucket.tokens)
    (hrefills : config.capacity ≤ bucket.ttlSeconds * config.refillPerSecond)
    (h : bucket.ts + bucket.ttlSeconds * 1000 ≤ now) :
    refill .exact (some bucket) config now = config.capacity := by
  have hlive : bucket.ts ≤ now := by
    have : (0 : ℤ) ≤ bucket.ttlSeconds * 1000 := by positivity
    exact le_trans (le_add_of_nonneg_right this) h
  rw [refill_some_of_le hlive]
  refine refilled_eq_capacity htokens ?_
  have hsupply : config.supply (bucket.ts + bucket.ttlSeconds * 1000)
      = config.supply bucket.ts + bucket.ttlSeconds * config.refillPerSecond := by
    simp only [TokenBucketConfig.supply]
    push_cast
    ring
  have hmono : config.supply _ ≤ config.supply _ := supply_mono h
  rw [hsupply] at hmono
  linarith

end

lemma refill_le_capacity {N : Numbers} {bucket : Option TokenBucket} {config : TokenBucketConfig}
    {now : Instant} : refill N bucket config now ≤ config.capacity :=
  min_le_left _ _

/-! ### The script -/

section

variable (N : Numbers) (buckets : Buckets) (params : TokenBucketCheckParams)

/-- What the script leaves of the tokens in a bucket. -/
def remainder (tokens : ℚ) : ℚ :=
  if (checkTokenBuckets N buckets params).1.allowed then N.round (tokens - params.cost) else tokens

variable {N buckets params}

/-- A request is allowed if both buckets hold its cost. -/
lemma allowed_iff : (checkTokenBuckets N buckets params).1.allowed = true ↔
    params.cost ≤ refill N (buckets params.ipKey) params.ip params.now ∧
      params.cost ≤ refill N (buckets params.globalKey) params.global params.now := by
  dsimp only [checkTokenBuckets]
  split_ifs with hip hglobal
  · simp [hip]
  · simp [hglobal]
  · simp [not_lt.1 hip, not_lt.1 hglobal]

/-- The reply depends on what the two refilled buckets hold. -/
lemma reply_congr {buckets' : Buckets}
    (hip : refill N (buckets params.ipKey) params.ip params.now
      = refill N (buckets' params.ipKey) params.ip params.now)
    (hglobal : refill N (buckets params.globalKey) params.global params.now
      = refill N (buckets' params.globalKey) params.global params.now) :
    (checkTokenBuckets N buckets params).1 = (checkTokenBuckets N buckets' params).1 := by
  simp only [checkTokenBuckets, hip, hglobal]

lemma check_globalKey : (checkTokenBuckets N buckets params).2 params.globalKey
    = some ⟨N.reread (remainder N buckets params
          (refill N (buckets params.globalKey) params.global params.now)),
        params.now, params.ttlSeconds⟩ :=
  Function.update_self _ _ _

lemma check_ipKey (h : params.ipKey ≠ params.globalKey) :
    (checkTokenBuckets N buckets params).2 params.ipKey
      = some ⟨N.reread (remainder N buckets params
            (refill N (buckets params.ipKey) params.ip params.now)),
          params.now, params.ttlSeconds⟩ :=
  (Function.update_of_ne h _ _).trans (Function.update_self _ _ _)

lemma check_of_ne {key : String} (hip : key ≠ params.ipKey) (hglobal : key ≠ params.globalKey) :
    (checkTokenBuckets N buckets params).2 key = buckets key := by
  simp only [checkTokenBuckets, Function.update_of_ne hip, Function.update_of_ne hglobal]

end

end InveniOps.RateLimit
