import InveniOps.RateLimit.ExpiringKeys

/-!
# Requests on clocks that disagree

Every request carries the clock of its caller, and the script stamps the buckets with
it.  Two runs over the same requests are compared, one of them with an additional
request in front.  Time that is credited on both sides of its stamp is all that it gives,
but for the rounding of counts.
-/

namespace InveniOps.RateLimit

open Lib Numbers

/-- The next request to the bucket under a key. -/
def nextUse (key : String) (as : List Arrival) : Option Arrival :=
  as.find? fun a => a.request.Uses key

section

variable {key : String} {a : Arrival} {as : List Arrival}

lemma nextUse_of_uses (h : a.request.Uses key) : nextUse key (a :: as) = some a :=
  List.find?_cons_of_pos (by simpa using h)

lemma nextUse_of_not_uses (h : ¬ a.request.Uses key) :
    nextUse key (a :: as) = nextUse key as :=
  List.find?_cons_of_neg (by simpa using h)

end

/-- The milliseconds for which a bucket is credited twice if it is stamped at an instant and
then used at another. -/
def creditedTwice (bucket : Option TokenBucket) (stamp used : Instant) : ℤ :=
  match bucket with
  | none => 0
  | some bucket =>
    max 0 (stamp - bucket.ts) + max 0 (used - stamp) - max 0 (used - bucket.ts)

private lemma le_gains (a b c : ℤ) : max 0 (c - a) ≤ max 0 (b - a) + max 0 (c - b) := by
  omega

private lemma gains_of_between {a b c : ℤ} (h : a ≤ b ∧ b ≤ c ∨ c ≤ b ∧ b ≤ a) :
    max 0 (b - a) + max 0 (c - b) - max 0 (c - a) = 0 := by
  omega

lemma creditedTwice_nonneg (bucket : Option TokenBucket) (stamp used : Instant) :
    0 ≤ creditedTwice bucket stamp used := by
  cases bucket with
  | none => exact le_rfl
  | some bucket => exact sub_nonneg.2 (le_gains bucket.ts stamp used)

/-- A stamp between what the bucket carries and its use credits no time twice. -/
lemma creditedTwice_eq_zero {bucket : TokenBucket} {stamp used : Instant}
    (h : bucket.ts ≤ stamp ∧ stamp ≤ used ∨ used ≤ stamp ∧ stamp ≤ bucket.ts) :
    creditedTwice (some bucket) stamp used = 0 :=
  gains_of_between h

/-- The gains on both sides of a stamp. -/
lemma gain_add_gain (config : TokenBucketConfig) (bucket : TokenBucket) (stamp used : Instant) :
    config.gain bucket.ts stamp + config.gain stamp used = config.gain bucket.ts used
      + config.refillPerSecond * creditedTwice (some bucket) stamp used / 1000 := by
  have htwice : (creditedTwice (some bucket) stamp used : ℚ) = ((max 0 (stamp - bucket.ts) : ℤ) : ℚ)
      + ((max 0 (used - stamp) : ℤ) : ℚ) - ((max 0 (used - bucket.ts) : ℤ) : ℚ) := by
    rw [← Int.cast_add, ← Int.cast_sub]
    rfl
  rw [htwice, TokenBucketConfig.gain, TokenBucketConfig.gain, TokenBucketConfig.gain]
  ring

/-- A bucket that is stamped before its use is refilled in two parts, which make no more of it
than one refill and the time that is credited twice. -/
lemma refill_in_two {config : TokenBucketConfig} {bucket : TokenBucket} {tokens : ℚ}
    {stamp used : Instant} {ttlSeconds : ℕ} (hbucket : 0 ≤ bucket.tokens) (htokens : 0 ≤ tokens)
    (h : tokens ≤ refill doubles (some bucket) config stamp + 3 * config.slack / 8) :
    refill doubles (some ⟨tokens, stamp, ttlSeconds⟩) config used
      ≤ refill doubles (some bucket) config used
        + (config.refillPerSecond * creditedTwice (some bucket) stamp used / 1000
          + config.slack) := by
  have hslack := config.slack_nonneg
  have htwice : 0 ≤ config.refillPerSecond * creditedTwice (some bucket) stamp used / 1000 := by
    have hcast : (0 : ℚ) ≤ creditedTwice (some bucket) stamp used := by
      exact_mod_cast creditedTwice_nonneg _ _ _
    have := config.refillPerSecond_nonneg
    positivity
  have hfirst := (abs_le.1 (abs_refill_sub_refilled_le config bucket stamp hbucket)).2
  have hsecond := (abs_le.1 (abs_refill_sub_refilled_le config ⟨tokens, stamp, ttlSeconds⟩ used
    htokens)).2
  have hone := (abs_le.1 (abs_refill_sub_refilled_le config bucket used hbucket)).1
  have hparts : refilled config.capacity tokens (config.gain stamp used)
      ≤ refilled config.capacity bucket.tokens (config.gain bucket.ts used)
        + config.refillPerSecond * creditedTwice (some bucket) stamp used / 1000
        + config.slack / 2 :=
    calc refilled config.capacity tokens (config.gain stamp used)
        ≤ refilled config.capacity (refilled config.capacity bucket.tokens
              (config.gain bucket.ts stamp)) (config.gain stamp used) + config.slack / 2 :=
          refilled_le_refilled_add (by linarith) (by linarith)
      _ = refilled config.capacity bucket.tokens (config.gain bucket.ts used
            + config.refillPerSecond * creditedTwice (some bucket) stamp used / 1000)
          + config.slack / 2 := by
          rw [refilled_refilled (config.gain_nonneg _ _), gain_add_gain]
      _ ≤ refilled config.capacity bucket.tokens (config.gain bucket.ts used)
          + config.refillPerSecond * creditedTwice (some bucket) stamp used / 1000
          + config.slack / 2 := by
          have hmore : refilled config.capacity bucket.tokens (config.gain bucket.ts used
                + config.refillPerSecond * creditedTwice (some bucket) stamp used / 1000)
              ≤ refilled config.capacity bucket.tokens (config.gain bucket.ts used)
                + config.refillPerSecond * creditedTwice (some bucket) stamp used / 1000 :=
            refilled_add_le htwice
          linarith
  linarith

namespace RateLimits

variable (limits : RateLimits)

/-- Which of some requests are allowed. -/
def decisions : Keyspace → List Arrival → List Bool
  | _, [] => []
  | s, a :: as => (limits.answer s a).allowed :: decisions (limits.served s a) as

/-- What the next request to a key finds exceeds what it finds in the other run by at most
`δ`. -/
def Exceeds (key : String) (δ : ℚ) (as : List Arrival) (s t : Keyspace) : Prop :=
  ∀ a ∈ nextUse key as, limits.found s key a ≤ limits.found t key a + δ

/-- By how much an additional request may increase the tokens under a key that is next used at
an instant and then in `n` requests. -/
def surplus (s : Keyspace) (extra : Arrival) (key : String) (used : Instant) (n : ℕ) : ℚ :=
  (limits.configOf key).refillPerSecond
      * creditedTwice (s.live extra.servedAt key) extra.request.now used / 1000
    + (n + 1) * (limits.configOf key).slack

variable {limits} {s t : Keyspace} {a b extra : Arrival} {as : List Arrival} {key : String}
  {δ : ℚ} {clock : Instant}

/-- What is found under a key that both runs have written alike. -/
lemma found_served_le (hs : s.Valid limits clock) (ht : t.Valid limits clock)
    (huses : a.request.Uses key)
    (hsame : (limits.answer s a).allowed = (limits.answer t a).allowed) (hδ : 0 ≤ δ)
    (h : limits.found s key a ≤ limits.found t key a + δ) :
    limits.found (limits.served s a) key b
      ≤ limits.found (limits.served t a) key b + (δ + (limits.configOf key).slack) := by
  have hslack := (limits.configOf key).slack_nonneg
  have hheld : 0 ≤ limits.found s key a := found_nonneg hs
  have hheld' : 0 ≤ limits.found t key a := found_nonneg ht
  have hwritten := (abs_le.1 (abs_written_sub_le huses hheld)).2
  have hwritten' := (abs_le.1 (abs_written_sub_le huses hheld')).1
  have hnonneg := written_nonneg huses hheld
  have hnonneg' := written_nonneg huses hheld'
  have hdebit : limits.debit (s.live a.servedAt) a.request
      = limits.debit (t.live a.servedAt) a.request := by
    simp only [answer] at hsame
    simp only [debit, hsame]
  have hfound : limits.tokens doubles (s.live a.servedAt) key a.request.now
      ≤ limits.tokens doubles (t.live a.servedAt) key a.request.now + δ := h
  rw [found, found, tokens, tokens, live_served_of_uses huses, live_served_of_uses huses]
  split_ifs
  · -- the same gain on top of what both runs have left
    have hrefill := (abs_le.1 (abs_refill_sub_refilled_le (limits.configOf key)
      ⟨_, a.request.now, limits.ttlSeconds⟩ b.request.now hnonneg)).2
    have hrefill' := (abs_le.1 (abs_refill_sub_refilled_le (limits.configOf key)
      ⟨_, a.request.now, limits.ttlSeconds⟩ b.request.now hnonneg')).1
    have hmore : refilled (limits.configOf key).capacity
          (doubles.reread (limits.leftOf doubles (s.live a.servedAt) a.request key))
          ((limits.configOf key).gain a.request.now b.request.now)
        ≤ refilled (limits.configOf key).capacity
          (doubles.reread (limits.leftOf doubles (t.live a.servedAt) a.request key))
          ((limits.configOf key).gain a.request.now b.request.now)
            + (δ + 3 * (limits.configOf key).slack / 4) :=
      refilled_le_refilled_add (by linarith) (by linarith)
    linarith
  · linarith

/-- A request that is decided alike in both runs adds its slack to the excess. -/
lemma Exceeds.step (hs : s.Valid limits clock) (ht : t.Valid limits clock) (hδ : 0 ≤ δ)
    (hlater : ∀ b ∈ as, a.servedAt ≤ b.servedAt)
    (hsame : (limits.answer s a).allowed = (limits.answer t a).allowed)
    (h : limits.Exceeds key δ (a :: as) s t) :
    limits.Exceeds key (δ + (limits.configOf key).slack) as (limits.served s a)
      (limits.served t a) := by
  intro b hb
  by_cases huses : a.request.Uses key
  · exact found_served_le hs ht huses hsame hδ (h a (nextUse_of_uses huses))
  · have hmem := hlater b (List.mem_of_find?_eq_some hb)
    have hnext := h b ((nextUse_of_not_uses huses).trans hb)
    rw [found_served_of_not_uses huses hmem, found_served_of_not_uses huses hmem]
    linarith [(limits.configOf key).slack_nonneg]

/-- Requests that are decided alike in both runs add their slack to the excess. -/
lemma Exceeds.run {r : Arrival} (hs : s.Valid limits clock) (ht : t.Valid limits clock) (hδ : 0 ≤ δ)
    (hclock : ∀ a ∈ as, clock ≤ a.servedAt)
    (hsorted : (as ++ [r]).Pairwise fun a b => a.servedAt ≤ b.servedAt)
    (hsame : limits.decisions s as = limits.decisions t as)
    (h : limits.Exceeds key δ (as ++ [r]) s t) (huses : r.request.Uses key) :
    limits.found (limits.servedAll s as) key r ≤ limits.found (limits.servedAll t as) key r
      + (δ + as.length * (limits.configOf key).slack) := by
  induction as generalizing s t δ clock with
  | nil =>
    have hnext := h r (nextUse_of_uses huses)
    simpa [servedAll] using hnext
  | cons a as ih =>
    obtain ⟨hallowed, hrest⟩ := List.cons.inj hsame
    obtain ⟨hlater, hsorted'⟩ := List.pairwise_cons.1 hsorted
    have hslack := (limits.configOf key).slack_nonneg
    have hle := hclock a List.mem_cons_self
    have hstep := ih (valid_served hs hle) (valid_served ht hle) (add_nonneg hδ hslack)
      (fun b hb => hlater b (List.mem_append_left _ hb)) hsorted' hrest
      (h.step hs ht hδ hlater hallowed)
    refine hstep.trans_eq ?_
    simp only [servedAll, List.foldl_cons, List.length_cons]
    push_cast
    ring

lemma slack_le_surplus {used : Instant} :
    (limits.configOf key).slack ≤ limits.surplus s extra key used 0 := by
  have hcast : (0 : ℚ) ≤ creditedTwice (s.live extra.servedAt key) extra.request.now used := by
    exact_mod_cast creditedTwice_nonneg _ _ _
  have hrefill := (limits.configOf key).refillPerSecond_nonneg
  rw [surplus, Nat.cast_zero, zero_add, one_mul]
  exact le_add_of_nonneg_left (by positivity)

/-- What an additional request makes of the tokens that the next one to a key finds. -/
lemma exceeds_extra (hs : s.Valid limits extra.servedAt) (hlater : extra.servedAt ≤ b.servedAt) :
    limits.found (limits.served s extra) key b
      ≤ limits.found s key b + limits.surplus s extra key b.request.now 0 := by
  have hslack := (limits.configOf key).slack_nonneg
  have hsurplus : (limits.configOf key).slack ≤ limits.surplus s extra key b.request.now 0 :=
    slack_le_surplus
  by_cases huses : extra.request.Uses key
  · cases hbucket : s.live b.servedAt key with
    | none =>
      -- a key that is gone is as good as full
      have hfull := le_refill_none (limits.configOf key) b.request.now
      have hle : limits.found (limits.served s extra) key b ≤ (limits.configOf key).capacity :=
        found_le
      rw [found_of_none hbucket]
      linarith
    | some bucket =>
      have hstored := mem_of_mem_live hbucket
      have htokens := hs.tokens key bucket hstored
      have hbucket' : s.live extra.servedAt key = some bucket := live_of_le hlater hbucket
      have hheld : 0 ≤ limits.found s key extra := found_nonneg hs
      have hnonneg := written_nonneg huses hheld
      -- the bucket outlives the one that would have been there
      have hlive : b.servedAt ≤ extra.servedAt + limits.ttlSeconds * 1000 := by
        obtain ⟨-, hstays⟩ := Option.filter_eq_some_iff.1 hbucket
        refine (of_decide_eq_true hstays).trans ?_
        rw [hs.ttlSeconds key bucket hstored]
        exact add_le_add_left (hs.writtenAt key bucket hstored) _
      rw [surplus, hbucket', Nat.cast_zero, zero_add, one_mul, found, tokens,
        live_served_of_uses huses, if_pos hlive, found_of_some hbucket]
      refine refill_in_two htokens hnonneg ?_
      have hleft := (abs_le.1 (abs_written_sub_le huses hheld)).2
      have hdebit : 0 ≤ limits.debit (s.live extra.servedAt) extra.request := debit_nonneg
      have hfound : limits.tokens doubles (s.live extra.servedAt) key extra.request.now
          = refill doubles (some bucket) (limits.configOf key) extra.request.now :=
        found_of_some hbucket'
      linarith
  · rw [found_served_of_not_uses huses hlater]
    linarith

variable (limits) in
/-- An additional request in front of the others makes more tokens available to one
behind them. -/
def Mints (s : Keyspace) (extra : Arrival) (rs : List Arrival) (r : Arrival) : Prop :=
  ∃ key, r.request.Uses key ∧ limits.found (limits.servedAll s rs) key r
    < limits.found (limits.servedAll (limits.served s extra) rs) key r

/-- The additional request is stamped between what a bucket carries and the use of it, in
either direction. -/
def InOrder (s : Keyspace) (extra : Arrival) (key : String) (used : Instant) : Prop :=
  ∀ bucket ∈ s.live extra.servedAt key,
    bucket.ts ≤ extra.request.now ∧ extra.request.now ≤ used ∨
      used ≤ extra.request.now ∧ extra.request.now ≤ bucket.ts

/-- An additional request makes no more tokens available, up to the first request that is
decided differently because of it, than refill in the time that is credited twice, but for
the rounding of counts; and in order no time is. -/
theorem found_le_add_surplus {rs : List Arrival} {r : Arrival}
    (hs : s.Valid limits extra.servedAt)
    (hsorted : (extra :: (rs ++ [r])).Pairwise fun a b => a.servedAt ≤ b.servedAt)
    (hsame : limits.decisions (limits.served s extra) rs = limits.decisions s rs)
    (huses : r.request.Uses key) {m : Arrival} (hm : m ∈ nextUse key (rs ++ [r])) :
    limits.found (limits.servedAll (limits.served s extra) rs) key r
      ≤ limits.found (limits.servedAll s rs) key r
        + limits.surplus s extra key m.request.now rs.length ∧
    (InOrder s extra key m.request.now →
      creditedTwice (s.live extra.servedAt key) extra.request.now m.request.now = 0) := by
  obtain ⟨hlater, hsorted'⟩ := List.pairwise_cons.1 hsorted
  constructor
  · have hfirst : limits.Exceeds key (limits.surplus s extra key m.request.now 0) (rs ++ [r])
        (limits.served s extra) s := by
      intro b hb
      obtain rfl := Option.some.inj (hb.symm.trans hm)
      exact exceeds_extra hs (hlater b (List.mem_of_find?_eq_some hb))
    have hrun := hfirst.run (valid_served hs le_rfl) hs
      ((limits.configOf key).slack_nonneg.trans slack_le_surplus)
      (fun a ha => hlater a (List.mem_append_left _ ha)) hsorted' hsame huses
    refine hrun.trans_eq ?_
    simp only [surplus, Nat.cast_zero]
    ring
  · intro horder
    cases hbucket : s.live extra.servedAt key with
    | none => rfl
    | some bucket => exact creditedTwice_eq_zero (horder bucket hbucket)

/-- Ten tokens, of which one comes back every second. -/
def tenTokens : RateLimits where
  ip := ⟨10, 1, by norm_num, zero_le_one⟩
  global := ⟨10, 1, by norm_num, zero_le_one⟩
  ttlSeconds := 3600

/-- A request of one IP for six tokens that Redis serves when the clock of Redis shows twenty
seconds. -/
def forSix (now : Instant) : Arrival := ⟨⟨"a", 6, now, by norm_num⟩, 20000⟩

/-- Every bucket is empty, on a clock that shows ten seconds. -/
def emptied : Keyspace := ⟨fun _ => some ⟨0, 10000, 3600⟩, fun _ => 10000⟩

theorem found_forSix :
    tenTokens.found (tenTokens.servedAll (tenTokens.served emptied (forSix 11000)) [forSix 12000])
        globalKey (forSix 13000)
      ≤ tenTokens.found (tenTokens.servedAll emptied [forSix 12000]) globalKey (forSix 13000)
        + tenTokens.surplus emptied (forSix 11000) globalKey 12000 1 ∧
    creditedTwice (emptied.live 20000 globalKey) 11000 12000 = 0 := by
  have hvalid : emptied.Valid tenTokens (forSix 11000).servedAt := by
    refine ⟨?_, fun _ _ _ => show (10000 : ℤ) ≤ 20000 by decide, ?_⟩
    all_goals
      rintro key bucket hbucket
      obtain rfl := Option.some.inj hbucket
      rfl
  have hsame : tenTokens.decisions (tenTokens.served emptied (forSix 11000)) [forSix 12000]
      = tenTokens.decisions emptied [forSix 12000] := by
    decide +kernel
  have horder : InOrder emptied (forSix 11000) globalKey 12000 := by
    rintro bucket hbucket
    obtain rfl := Option.some.inj (mem_of_mem_live hbucket)
    exact .inl (by decide)
  have hnext : forSix 12000 ∈ nextUse globalKey ([forSix 12000] ++ [forSix 13000]) :=
    nextUse_of_uses (.inr rfl)
  obtain ⟨hfound, htwice⟩ :=
    found_le_add_surplus hvalid (by decide) hsame (.inr rfl) hnext
  exact ⟨hfound, htwice horder⟩

/-- The bucket of an IP holds a tenth of a token. -/
def tenthLeft : Keyspace where
  buckets key := if key = ipKey "a" then some ⟨doubles.reread (1 / 10), 0, 3600⟩ else none
  writtenAt _ := 0

/-- A request of the IP for one token, 45 milliseconds later. -/
def forOne : Arrival := ⟨⟨"a", 1, 45, zero_lt_one⟩, 45⟩

/-- A request on a clock that lags is denied and mints ten tokens; and on one clock a
request that is allowed makes way for a later one by the denial of the next, and one that is
denied leaves a token where the sum of a tenth and nine tenths had been rounded to less. -/
theorem mints_of_forSix :
    ¬ (∀ (limits : RateLimits) (s : Keyspace) (extra : Arrival) (rs : List Arrival) (r : Arrival),
      ¬ limits.Mints s extra rs r) ∧
    ¬ (∀ (limits : RateLimits) (s : Keyspace) (extra : Arrival) (rs : List Arrival) (r : Arrival),
      (extra :: (rs ++ [r])).Pairwise (fun a b => a.request.now ≤ b.request.now) →
        ¬ limits.Mints s extra rs r) ∧
    ¬ (∀ (s : Keyspace) (extra r : Arrival), extra.request.now = r.request.now →
      (standard.answer s extra).allowed = false → ¬ standard.Mints s extra [] r) := by
  refine ⟨fun h => ?_, fun h => ?_, fun h => ?_⟩
  · refine h tenTokens emptied (forSix 0) [] (forSix 10000) ⟨globalKey, .inr rfl, ?_⟩
    decide +kernel
  · refine h tenTokens ⟨fun _ => none, fun _ => 0⟩ (forSix 0) [forSix 1000] (forSix 1000)
      (by decide) ⟨globalKey, .inr rfl, ?_⟩
    decide +kernel
  · refine h tenthLeft forOne forOne rfl ?_ ⟨ipKey "a", .inl rfl, ?_⟩
    all_goals decide +kernel

end RateLimits

end InveniOps.RateLimit
