import Mathlib.Algebra.Order.Group.Unbundled.Int
import InveniOps.Domain.Types

/-!
# Time buckets

`toBucketSpec` of `repositories/metrics/bucketing.ts`, and what `$dateTrunc` makes
of its result.  The buckets of a unit and bin size are counted from the start of
the year 2000, so the unit that is picked does not matter: only the length does.
-/

namespace InveniOps.Analytics

/-- The units of `$dateTrunc` in use. -/
inductive IntervalUnit
  | second | minute | hour | day
deriving DecidableEq

/-- The length of a unit. -/
def IntervalUnit.seconds : IntervalUnit → ℕ
  | .second => 1
  | .minute => 60
  | .hour => 3600
  | .day => 86400

/-- The `unit` and `binSize` of a `$dateTrunc`. -/
structure BucketSpec where
  unit : IntervalUnit
  binSize : ℕ
deriving DecidableEq

/-- `toBucketSpec` of an integer; the routes accept no other intervals. -/
def toBucketSpec (intervalSeconds : ℤ) : Except String BucketSpec :=
  if intervalSeconds ≤ 0 then
    .error ("interval must be a positive integer number of seconds, got " ++
      toString intervalSeconds)
  else if intervalSeconds % 86400 = 0 then .ok ⟨.day, (intervalSeconds / 86400).toNat⟩
  else if intervalSeconds % 3600 = 0 then .ok ⟨.hour, (intervalSeconds / 3600).toNat⟩
  else if intervalSeconds % 60 = 0 then .ok ⟨.minute, (intervalSeconds / 60).toNat⟩
  else .ok ⟨.second, intervalSeconds.toNat⟩

/-- The milliseconds of a bucket. -/
def BucketSpec.width (spec : BucketSpec) : ℤ := spec.binSize * spec.unit.seconds * 1000

/-- The start of the year 2000 in milliseconds, from which `$dateTrunc` counts. -/
def TRUNC_REFERENCE : ℤ := 946684800000

/-- `$dateTrunc` in UTC. -/
def dateTrunc (spec : BucketSpec) (t : ℤ) : ℤ :=
  TRUNC_REFERENCE + (t - TRUNC_REFERENCE) / spec.width * spec.width

/-! ### The length of a bucket -/

lemma toBucketSpec_spec {n : ℤ} {spec : BucketSpec} (h : toBucketSpec n = .ok spec) :
    0 < n ∧ spec.width = n * 1000 := by
  unfold toBucketSpec at h
  split_ifs at h with hneg hday hhour hminute <;> cases h <;>
    simp only [BucketSpec.width, IntervalUnit.seconds] <;> omega

lemma toBucketSpec_of_pos {n : ℤ} (hn : 0 < n) : ∃ spec, toBucketSpec n = .ok spec := by
  unfold toBucketSpec
  split_ifs with hneg
  · omega
  all_goals exact ⟨_, rfl⟩

/-! ### Truncation -/

variable {spec : BucketSpec}

lemma dateTrunc_le (hwidth : 0 < spec.width) (t : ℤ) : dateTrunc spec t ≤ t := by
  have h := Int.ediv_mul_le (t - TRUNC_REFERENCE) hwidth.ne'
  rw [dateTrunc]
  omega

lemma dateTrunc_mono (hwidth : 0 < spec.width) {t u : ℤ} (h : t ≤ u) :
    dateTrunc spec t ≤ dateTrunc spec u := by
  have hdiv : (t - TRUNC_REFERENCE) / spec.width ≤ (u - TRUNC_REFERENCE) / spec.width :=
    Int.ediv_le_ediv hwidth (Int.sub_le_sub_right h _)
  exact Int.add_le_add_left (Int.mul_le_mul_of_nonneg_right hdiv hwidth.le) _

/-- A bucket of a coarser interval is made of whole buckets of a finer one. -/
lemma dateTrunc_dateTrunc {coarse : BucketSpec} (hwidth : 0 < spec.width) {m : ℤ}
    (hcoarse : coarse.width = spec.width * m) (t : ℤ) :
    dateTrunc coarse (dateTrunc spec t) = dateTrunc coarse t := by
  have hdiv : (t - TRUNC_REFERENCE) / spec.width * spec.width / (spec.width * m) =
      (t - TRUNC_REFERENCE) / (spec.width * m) := by
    rw [Int.mul_comm _ spec.width, Int.mul_ediv_mul_of_pos _ _ hwidth,
      Int.ediv_ediv_of_nonneg hwidth.le]
  rw [dateTrunc, dateTrunc, dateTrunc, hcoarse, add_sub_cancel_left, hdiv]

/-- Before a bucket starts, and only then, an instant is in an earlier one. -/
lemma dateTrunc_lt_iff (hwidth : 0 < spec.width) {b : ℤ} (hb : dateTrunc spec b = b)
    (t : ℤ) : dateTrunc spec t < b ↔ t < b := by
  constructor
  · intro h
    by_contra hle
    have hmono := dateTrunc_mono hwidth (not_lt.1 hle)
    rw [hb] at hmono
    exact absurd h (not_lt.2 hmono)
  · exact fun h => (dateTrunc_le hwidth t).trans_lt h

end InveniOps.Analytics
