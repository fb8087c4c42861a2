import InveniOps.RateLimit.SignalLimits

/-!
# Counts as doubles

How far the counts of the script are from exact ones.  The operations of a refill and the
text of a count err by parts of the count, and no bucket holds more than its capacity, so
that all of it is within a small part of the capacity.
-/

namespace InveniOps.RateLimit

open Lib FloatFormat

lemma precision_binary64 : binary64.precision = 1 / 2 ^ 53 := by
  norm_num [precision, binary64]

lemma precision_decimal14 : decimal14.precision = 1 / (2 * 10 ^ 13) := by
  norm_num [precision, decimal14]

namespace Numbers

variable {p q : ℚ}

lemma doubles_mono (h : p ≤ q) : doubles.round p ≤ doubles.round q := round_mono h

lemma doubles_nonneg (h : 0 ≤ q) : 0 ≤ doubles.round q := round_nonneg h

lemma doubles_reread_mono (h : p ≤ q) : doubles.reread p ≤ doubles.reread q :=
  round_mono (round_mono h)

lemma doubles_reread_nonneg (h : 0 ≤ q) : 0 ≤ doubles.reread q := round_nonneg (round_nonneg h)

/-- An operation of doubles adds a small part of the result to the error. -/
lemma abs_doubles_round_sub_le {x y : ℚ} {n : ℕ} (hx : 0 ≤ x) (hn : n ≤ 10)
    (h : |y - x| ≤ n / 10 ^ 15 * x) :
    |doubles.round y - x| ≤ (n + 1 : ℕ) / 10 ^ 15 * x := by
  have hn' : (n : ℚ) ≤ 10 := by exact_mod_cast hn
  have herror : (n : ℚ) / 10 ^ 15 ≤ 1 := by
    rw [div_le_one (by norm_num)]
    exact hn'.trans (by norm_num)
  refine (abs_round_sub_le_of_near hx herror h).trans (mul_le_mul_of_nonneg_right ?_ hx)
  rw [precision_binary64]
  push_cast
  linarith

/-- A count that is printed and read is a small part of it away. -/
lemma abs_doubles_reread_sub_le {x y : ℚ} (hx : 0 ≤ x) (h : |y - x| ≤ 1 / 10 ^ 15 * x) :
    |doubles.reread y - x| ≤ 6 / 10 ^ 14 * x := by
  have hprinted := abs_round_sub_le_of_near (F := decimal14) hx (by norm_num) h
  rw [precision_decimal14] at hprinted
  refine (abs_round_sub_le_of_near (F := binary64) hx (by norm_num) hprinted).trans ?_
  rw [precision_binary64]
  exact mul_le_mul_of_nonneg_right (by norm_num) hx

end Numbers

namespace TokenBucketConfig

variable (config : TokenBucketConfig)

/-- What a request may gain or lose by rounding. -/
def slack : ℚ := config.capacity * 2 / 10 ^ 13

/-- What a bucket gains between two instants, if it gains anything. -/
def gain (a b : Instant) : ℚ := ((max 0 (b - a) : ℤ) : ℚ) / 1000 * config.refillPerSecond

lemma slack_nonneg : 0 ≤ config.slack := by
  have := config.capacity_pos
  unfold slack
  positivity

lemma gain_nonneg (a b : Instant) : 0 ≤ config.gain a b := by
  have hnonneg : (0 : ℚ) ≤ ((max 0 (b - a) : ℤ) : ℚ) := by exact_mod_cast le_max_left _ _
  exact mul_nonneg (by positivity) config.refillPerSecond_nonneg

end TokenBucketConfig

open Numbers

section

variable (config : TokenBucketConfig) (bucket : TokenBucket) (now : Instant)

/-- The sum of a refill before it is cut off. -/
lemma abs_refill_sum_sub_le (htokens : 0 ≤ bucket.tokens) :
    ∃ sum, refill doubles (some bucket) config now = min config.capacity sum ∧
      |sum - (bucket.tokens + config.gain bucket.ts now)|
        ≤ 4 / 10 ^ 15 * (bucket.tokens + config.gain bucket.ts now) := by
  refine ⟨_, rfl, ?_⟩
  set elapsed : ℚ := ((max 0 (now - bucket.ts) : ℤ) : ℚ) with helapsed
  have hnonneg : 0 ≤ elapsed := by
    rw [helapsed]
    exact_mod_cast le_max_left _ _
  have hmax : max 0 (doubles.round ((now - bucket.ts : ℤ) : ℚ)) = doubles.round elapsed := by
    rw [helapsed, Int.cast_max, Int.cast_zero]
    exact round_max_zero _
  rw [hmax]
  have hstart : |elapsed - elapsed| ≤ (0 : ℕ) / 10 ^ 15 * elapsed := by simp
  have hms := abs_doubles_round_sub_le hnonneg (by norm_num) hstart
  have hseconds : |doubles.round (doubles.round elapsed / 1000) - elapsed / 1000|
      ≤ (2 : ℕ) / 10 ^ 15 * (elapsed / 1000) := by
    refine abs_doubles_round_sub_le (n := 1) (by positivity) (by norm_num) ?_
    rw [← sub_div, abs_div, abs_of_pos (show (0 : ℚ) < 1000 by norm_num), ← mul_div_assoc]
    exact div_le_div_of_nonneg_right hms (by norm_num)
  have hgain : |doubles.round (doubles.round (doubles.round elapsed / 1000)
      * config.refillPerSecond) - config.gain bucket.ts now|
        ≤ (3 : ℕ) / 10 ^ 15 * config.gain bucket.ts now := by
    refine abs_doubles_round_sub_le (n := 2) (config.gain_nonneg _ _) (by norm_num) ?_
    have hgain_eq : config.gain bucket.ts now = elapsed / 1000 * config.refillPerSecond := rfl
    rw [hgain_eq, ← sub_mul, abs_mul, abs_of_nonneg config.refillPerSecond_nonneg, ← mul_assoc]
    exact mul_le_mul_of_nonneg_right hseconds config.refillPerSecond_nonneg
  refine abs_doubles_round_sub_le (n := 3) ?_ (by norm_num) ?_
  · exact add_nonneg htokens (config.gain_nonneg _ _)
  · rw [add_sub_add_left_eq_sub]
    refine hgain.trans (mul_le_mul_of_nonneg_left ?_ (by positivity))
    exact le_add_of_nonneg_left htokens

/-- A refill is within its slack of the exact one. -/
lemma abs_refill_sub_refilled_le (htokens : 0 ≤ bucket.tokens) :
    |refill doubles (some bucket) config now
        - refilled config.capacity bucket.tokens (config.gain bucket.ts now)|
      ≤ config.slack / 8 := by
  obtain ⟨sum, hsum, herror⟩ := abs_refill_sum_sub_le config bucket now htokens
  obtain ⟨hlo, hhi⟩ := abs_le.1 herror
  have hcapacity := config.capacity_pos
  have hexact : 0 ≤ bucket.tokens + config.gain bucket.ts now :=
    add_nonneg htokens (config.gain_nonneg _ _)
  rw [hsum, refilled, TokenBucketConfig.slack]
  rcases le_total config.capacity (bucket.tokens + config.gain bucket.ts now) with hfull | hroom
  · -- the sum is at least the capacity, less its error
    rw [min_eq_left hfull, abs_of_nonpos (sub_nonpos.2 (min_le_left _ _)), neg_sub, sub_le_comm]
    refine le_min ?_ ?_ <;> linarith
  · rw [min_eq_right hroom, abs_le]
    constructor
    · have : config.capacity * 2 / 10 ^ 13 / 8 ≥ 4 / 10 ^ 15 * config.capacity := by linarith
      have hle : bucket.tokens + config.gain bucket.ts now - config.capacity * 2 / 10 ^ 13 / 8
          ≤ min config.capacity sum := le_min (by linarith) (by linarith)
      linarith
    · have := min_le_right config.capacity sum
      linarith

lemma refill_nonneg (htokens : 0 ≤ bucket.tokens) :
    0 ≤ refill doubles (some bucket) config now := by
  obtain ⟨sum, hsum, herror⟩ := abs_refill_sum_sub_le config bucket now htokens
  have hexact : 0 ≤ bucket.tokens + config.gain bucket.ts now :=
    add_nonneg htokens (config.gain_nonneg _ _)
  rw [hsum]
  refine le_min config.capacity_pos.le ?_
  linarith [(abs_le.1 herror).1]

/-- Without a bucket nearly the capacity is there. -/
lemma le_refill_none : config.capacity - config.slack / 8 ≤ refill doubles none config now := by
  have hfull := abs_refill_sub_refilled_le config ⟨config.capacity, now, 0⟩ now
    config.capacity_pos.le
  rw [refilled_capacity (config.gain_nonneg _ _)] at hfull
  have heq : refill doubles none config now
      = refill doubles (some ⟨config.capacity, now, 0⟩) config now := rfl
  rw [heq]
  linarith [(abs_le.1 hfull).1]

end

namespace RateLimits

/-- What a request takes from each of its buckets. -/
def debit (limits : RateLimits) (buckets : Buckets) (r : Request) : ℚ :=
  if (limits.reply doubles buckets r).allowed then r.cost else 0

variable {limits : RateLimits} {buckets : Buckets} {r : Request} {key : String}

lemma debit_nonneg : 0 ≤ limits.debit buckets r := by
  unfold debit
  split_ifs
  · exact r.cost_pos.le
  · exact le_rfl

lemma debit_le (huses : r.Uses key) (htokens : 0 ≤ limits.tokens doubles buckets key r.now) :
    limits.debit buckets r ≤ limits.tokens doubles buckets key r.now := by
  unfold debit
  split_ifs with hallowed
  · exact allowed_iff_tokens.1 hallowed key huses
  · exact htokens

/-- What is written back is within its slack of what should be left. -/
lemma abs_written_sub_le (huses : r.Uses key)
    (htokens : 0 ≤ limits.tokens doubles buckets key r.now) :
    |doubles.reread (limits.leftOf doubles buckets r key)
        - (limits.tokens doubles buckets key r.now - limits.debit buckets r)|
      ≤ 3 * (limits.configOf key).slack / 8 := by
  have hle : limits.tokens doubles buckets key r.now ≤ (limits.configOf key).capacity := tokens_le
  have hdebit := debit_le huses htokens
  have hleft : 0 ≤ limits.tokens doubles buckets key r.now - limits.debit buckets r :=
    sub_nonneg.2 hdebit
  have hrounded : |limits.leftOf doubles buckets r key
      - (limits.tokens doubles buckets key r.now - limits.debit buckets r)|
        ≤ 1 / 10 ^ 15 * (limits.tokens doubles buckets key r.now - limits.debit buckets r) := by
    cases hallowed : (limits.reply doubles buckets r).allowed with
    | false =>
      have hnone : limits.debit buckets r = 0 := if_neg (ne_true_of_eq_false hallowed)
      rw [leftOf_of_denied hallowed, hnone, sub_zero, sub_self, abs_zero]
      positivity
    | true =>
      have hcost : limits.debit buckets r = r.cost := if_pos hallowed
      rw [hcost] at hleft ⊢
      rw [leftOf_of_allowed hallowed]
      simpa using abs_doubles_round_sub_le (n := 0) hleft (by norm_num) (by simp)
  refine (abs_doubles_reread_sub_le hleft hrounded).trans ?_
  have hnonneg : 0 ≤ limits.debit buckets r := debit_nonneg
  rw [TokenBucketConfig.slack]
  linarith

lemma written_nonneg (huses : r.Uses key)
    (htokens : 0 ≤ limits.tokens doubles buckets key r.now) :
    0 ≤ doubles.reread (limits.leftOf doubles buckets r key) := by
  refine doubles_reread_nonneg ?_
  cases hallowed : (limits.reply doubles buckets r).allowed with
  | false => rwa [leftOf_of_denied hallowed]
  | true =>
    rw [leftOf_of_allowed hallowed]
    exact doubles_nonneg (sub_nonneg.2 (allowed_iff_tokens.1 hallowed key huses))

end RateLimits

end InveniOps.RateLimit
