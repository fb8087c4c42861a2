import InveniOps.RateLimit.RoundedCounts

/-!
# The keys in Redis

Redis serves one request after the other by its own clock, on which keys expire, while each
request carries the clock of its caller, with which the script stamps the buckets.  Counts
are doubles.
-/

namespace InveniOps.RateLimit

open Lib Numbers

/-- The buckets, with the instants on the clock of Redis at which they were written. -/
structure Keyspace where
  buckets : Buckets
  writtenAt : String → Instant

/-- A request that Redis serves at an instant of its clock. -/
structure Arrival where
  request : Request
  servedAt : Instant

namespace Keyspace

/-- What Redis has under the keys at an instant of its clock; the TTL of a key starts when the
key is written. -/
def live (s : Keyspace) (clock : Instant) : Buckets := fun key =>
  (s.buckets key).filter fun bucket => decide (clock ≤ s.writtenAt key + bucket.ttlSeconds * 1000)

/-- What the script has written until an instant: counts that are not negative, under keys with
the TTL that it always sets. -/
structure Valid (s : Keyspace) (limits : RateLimits) (clock : Instant) : Prop where
  tokens : ∀ key, ∀ bucket ∈ s.buckets key, 0 ≤ bucket.tokens
  writtenAt : ∀ key, ∀ bucket ∈ s.buckets key, s.writtenAt key ≤ clock
  ttlSeconds : ∀ key, ∀ bucket ∈ s.buckets key, bucket.ttlSeconds = limits.ttlSeconds

/-- Nothing has been written. -/
def empty : Keyspace := ⟨fun _ => none, fun _ => 0⟩

end Keyspace

namespace RateLimits

variable (limits : RateLimits)

/-- The reply to a request. -/
def answer (s : Keyspace) (a : Arrival) : TokenBucketResult :=
  limits.reply doubles (s.live a.servedAt) a.request

/-- The keys behind a request, which sets the TTL of those that it writes. -/
def served (s : Keyspace) (a : Arrival) : Keyspace where
  buckets := limits.check doubles (s.live a.servedAt) a.request
  writtenAt key := if a.request.Uses key then a.servedAt else s.writtenAt key

/-- The keys behind some requests. -/
def servedAll (s : Keyspace) (as : List Arrival) : Keyspace := as.foldl limits.served s

/-- The tokens that a request finds under a key. -/
def found (s : Keyspace) (key : String) (a : Arrival) : ℚ :=
  limits.tokens doubles (s.live a.servedAt) key a.request.now

variable {limits} {s : Keyspace} {a b : Arrival} {as : List Arrival} {key : String}
  {bucket : TokenBucket} {clock : Instant}

lemma writtenAt_of_uses (h : a.request.Uses key) :
    (limits.served s a).writtenAt key = a.servedAt := if_pos h

lemma writtenAt_of_not_uses (h : ¬ a.request.Uses key) :
    (limits.served s a).writtenAt key = s.writtenAt key := if_neg h

lemma mem_of_mem_live (h : bucket ∈ s.live clock key) :
    bucket ∈ s.buckets key := by
  obtain ⟨hmem, -⟩ := Option.filter_eq_some_iff.1 h
  exact hmem

/-- What is there for a later request is there for an earlier one. -/
lemma live_of_le {clock' : Instant} (hle : clock ≤ clock')
    (h : s.live clock' key = some bucket) : s.live clock key = some bucket := by
  obtain ⟨hmem, hlive⟩ := Option.filter_eq_some_iff.1 h
  exact Option.filter_eq_some_iff.2 ⟨hmem, decide_eq_true (hle.trans (of_decide_eq_true hlive))⟩

lemma found_of_none (h : s.live a.servedAt key = none) :
    limits.found s key a = refill doubles none (limits.configOf key) a.request.now := by
  rw [found, tokens, h]

lemma found_of_some (h : s.live a.servedAt key = some bucket) :
    limits.found s key a = refill doubles (some bucket) (limits.configOf key) a.request.now := by
  rw [found, tokens, h]

lemma found_le : limits.found s key a ≤ (limits.configOf key).capacity := tokens_le

lemma found_nonneg (hs : s.Valid limits clock) : 0 ≤ limits.found s key a := by
  unfold found tokens
  cases hbucket : s.live a.servedAt key with
  | none =>
    have hcapacity := (limits.configOf key).capacity_pos
    have hslack := le_refill_none (limits.configOf key) a.request.now
    rw [TokenBucketConfig.slack] at hslack
    linarith
  | some bucket => exact refill_nonneg _ _ _ (hs.tokens key bucket (mem_of_mem_live hbucket))

/-- What a later request finds under a key that this one has written. -/
lemma live_served_of_uses (huses : a.request.Uses key) :
    (limits.served s a).live b.servedAt key
      = if b.servedAt ≤ a.servedAt + limits.ttlSeconds * 1000 then
          some ⟨doubles.reread (limits.leftOf doubles (s.live a.servedAt) a.request key),
            a.request.now, limits.ttlSeconds⟩
        else none := by
  have hbucket : (limits.served s a).buckets key = some ⟨doubles.reread
      (limits.leftOf doubles (s.live a.servedAt) a.request key), a.request.now,
        limits.ttlSeconds⟩ := check_of_uses huses
  rw [Keyspace.live, hbucket, writtenAt_of_uses huses]
  split_ifs with hlive
  · exact Option.filter_some_pos (decide_eq_true hlive)
  · exact Option.filter_some_neg (decide_eq_false hlive)

/-- A request leaves the other keys to later ones. -/
lemma found_served_of_not_uses (huses : ¬ a.request.Uses key) (hlater : a.servedAt ≤ b.servedAt) :
    limits.found (limits.served s a) key b = limits.found s key b := by
  have hbucket : (limits.served s a).buckets key = s.live a.servedAt key := check_of_not_uses huses
  have hlive : (limits.served s a).live b.servedAt key = s.live b.servedAt key := by
    rw [Keyspace.live, Keyspace.live, hbucket, writtenAt_of_not_uses huses,
      Keyspace.live, Option.filter_filter]
    congr 1
    funext bucket
    -- a key that is there for the later request was there for this one
    rw [← Bool.decide_and, decide_eq_decide]
    exact ⟨fun h => h.2, fun h => ⟨hlater.trans h, h⟩⟩
  rw [found, found, tokens, tokens, hlive]

/-- A bucket behind a request is one that was there, or one that the request has written. -/
lemma bucket_of_served (h : bucket ∈ (limits.served s a).buckets key) :
    ¬ a.request.Uses key ∧ bucket ∈ s.buckets key ∨
      a.request.Uses key ∧ bucket
        = ⟨doubles.reread (limits.leftOf doubles (s.live a.servedAt) a.request key),
          a.request.now, limits.ttlSeconds⟩ := by
  by_cases huses : a.request.Uses key
  · have hwritten : (limits.served s a).buckets key = some _ := check_of_uses huses
    rw [hwritten] at h
    exact .inr ⟨huses, (Option.some.inj h).symm⟩
  · have hsame : (limits.served s a).buckets key = s.live a.servedAt key := check_of_not_uses huses
    rw [hsame] at h
    exact .inl ⟨huses, mem_of_mem_live h⟩

lemma valid_empty (clock : Instant) : Keyspace.empty.Valid limits clock := by
  refine ⟨?_, ?_, ?_⟩
  all_goals
    intro key bucket hbucket
    cases hbucket

lemma valid_served (hs : s.Valid limits clock) (hclock : clock ≤ a.servedAt) :
    (limits.served s a).Valid limits a.servedAt := by
  refine ⟨fun key bucket h => ?_, fun key bucket h => ?_, fun key bucket h => ?_⟩
  all_goals rcases bucket_of_served h with ⟨huses, hold⟩ | ⟨huses, rfl⟩
  · exact hs.tokens key bucket hold
  · exact written_nonneg huses (found_nonneg hs)
  · rw [writtenAt_of_not_uses huses]
    exact (hs.writtenAt key bucket hold).trans hclock
  · rw [writtenAt_of_uses huses]
  · exact hs.ttlSeconds key bucket hold
  · rfl

/-- Behind requests that Redis has served until an instant, the keys are as the script writes
them. -/
theorem valid_servedAll {start : Instant} (hs : s.Valid limits start) (hstart : start ≤ clock)
    (hsorted : as.Pairwise fun a b => a.servedAt ≤ b.servedAt)
    (has : ∀ a ∈ as, start ≤ a.servedAt ∧ a.servedAt ≤ clock) :
    (limits.servedAll s as).Valid limits clock := by
  induction as generalizing s start with
  | nil =>
    refine ⟨hs.tokens, fun key bucket h => ?_, hs.ttlSeconds⟩
    exact (hs.writtenAt key bucket h).trans hstart
  | cons a as ih =>
    obtain ⟨hlater, hsorted'⟩ := List.pairwise_cons.1 hsorted
    obtain ⟨hle, hend⟩ := has a List.mem_cons_self
    refine ih (valid_served hs hle) hend hsorted' fun b hb => ⟨hlater b hb, ?_⟩
    exact (has b (List.mem_cons_of_mem _ hb)).2

end RateLimits

end InveniOps.RateLimit
