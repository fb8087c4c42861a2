import InveniOps.Analytics.MetricsQueries

/-!
# Ranges of the queries

How the answers to adjacent ranges and to ranges of other intervals fit together.
A range that ends at the start of a bucket shares no bucket with the one behind it.
-/

namespace InveniOps.Analytics

open Lib Domain

variable {since until' b : Instant} {interval : BucketSpec}

lemma inRange_below (hle' : b ≤ until') (t : Instant) :
    inRange since b t = (inRange since until' t && decide (t < b)) := by
  rw [Bool.eq_iff_iff]
  simp only [inRange, Bool.and_eq_true, decide_eq_true_eq]
  exact ⟨fun ⟨h, ht⟩ => ⟨⟨h, ht.trans_le hle'⟩, ht⟩, fun ⟨⟨h, _⟩, ht⟩ => ⟨h, ht⟩⟩

lemma inRange_above (hle : since ≤ b) (t : Instant) :
    inRange b until' t = (inRange since until' t && !decide (t < b)) := by
  rw [Bool.eq_iff_iff]
  simp only [inRange, Bool.and_eq_true, decide_eq_true_eq, Bool.not_eq_true',
    decide_eq_false_iff_not, not_lt]
  exact ⟨fun ⟨h, ht⟩ => ⟨⟨hle.trans h, ht⟩, h⟩, fun ⟨⟨_, ht⟩, h⟩ => ⟨h, ht⟩⟩

/-! ### Counts -/

section BucketCounts

variable {α δ : Type} [LinearOrder δ] {ts : α → Instant} {dims : α → δ} {count : α → ℕ}
  {points : List α}

/-- Below the start of a bucket the rows of a range are those of the shorter range. -/
lemma bucketCounts_below (hwidth : 0 < interval.width) (hb : dateTrunc interval b = b)
    (hle' : b ≤ until') :
    bucketCounts ts dims count points since b interval =
      (bucketCounts ts dims count points since until' interval).filter fun row =>
        decide ((ofLex row.1).1 < b) := by
  rw [bucketCounts, bucketCounts, groupSum, groupSum,
    ← groupBy_filter (fun k : BucketKey δ => decide ((ofLex k).1 < b)), List.filter_filter]
  congr 1
  refine List.filter_congr fun p _ => ?_
  rw [inRange_below hle' (ts p), Bool.and_comm]
  simp only [bucketKey, ofLex_toLex, dateTrunc_lt_iff hwidth hb]

lemma bucketCounts_above (hwidth : 0 < interval.width) (hb : dateTrunc interval b = b)
    (hle : since ≤ b) :
    bucketCounts ts dims count points b until' interval =
      (bucketCounts ts dims count points since until' interval).filter fun row =>
        !decide ((ofLex row.1).1 < b) := by
  rw [bucketCounts, bucketCounts, groupSum, groupSum,
    ← groupBy_filter (fun k : BucketKey δ => !decide ((ofLex k).1 < b)), List.filter_filter]
  congr 1
  refine List.filter_congr fun p _ => ?_
  rw [inRange_above hle (ts p), Bool.and_comm]
  simp only [bucketKey, ofLex_toLex, dateTrunc_lt_iff hwidth hb]

lemma bucketKey_fst_le {k k' : BucketKey δ} (h : k < k') : (ofLex k).1 ≤ (ofLex k').1 := by
  obtain hlt | ⟨heq, _⟩ := Prod.Lex.lt_iff.1 h
  · exact hlt.le
  · exact heq.le

/-- Cut at the start of a bucket, a range has the rows of its two parts. -/
lemma bucketCounts_split (hwidth : 0 < interval.width) (hb : dateTrunc interval b = b)
    (hle : since ≤ b) (hle' : b ≤ until') :
    bucketCounts ts dims count points since b interval ++
        bucketCounts ts dims count points b until' interval =
      bucketCounts ts dims count points since until' interval := by
  have hsorted : ((bucketCounts ts dims count points since until' interval).map
      Prod.fst).Pairwise (· < ·) := by
    rw [bucketCounts, groupSum]
    exact groupBy_pairwise
  rw [bucketCounts_below hwidth hb hle', bucketCounts_above hwidth hb hle]
  refine filter_append_filter_not (List.pairwise_map.1 hsorted) fun row row' hlt hrow => ?_
  simp only [decide_eq_true_eq] at hrow ⊢
  exact (bucketKey_fst_le hlt).trans_lt hrow

end BucketCounts

/-- The starts of the buckets of an interval. -/
def IsBucketStart (intervalSeconds : ℤ) (b : Instant) : Prop :=
  (b - TRUNC_REFERENCE) % (intervalSeconds * 1000) = 0

instance {n : ℤ} : Decidable (IsBucketStart n b) := inferInstanceAs (Decidable (_ = _))

lemma IsBucketStart.dateTrunc_eq {n : ℤ} (h : IsBucketStart n b)
    (hinterval : toBucketSpec n = .ok interval) : dateTrunc interval b = b := by
  have hdiv := Int.ediv_mul_cancel (Int.dvd_of_emod_eq_zero h)
  rw [dateTrunc, (toBucketSpec_spec hinterval).2, hdiv, add_sub_cancel]

lemma width_pos {n : ℤ} (hinterval : toBucketSpec n = .ok interval) : 0 < interval.width := by
  obtain ⟨hn, hwidth⟩ := toBucketSpec_spec hinterval
  omega

/-- **Throughput of adjacent ranges.**  The points of a range are those of its two parts, in
this order, where the cut is the start of a bucket. -/
theorem getThroughput_split {points : List SignalVolumePoint} {n : ℤ}
    {left right whole : RangeResponseDto ThroughputPointDto} (hb : IsBucketStart n b)
    (hle : since ≤ b) (hle' : b ≤ until') (hleft : getThroughput points since b n = .ok left)
    (hright : getThroughput points b until' n = .ok right)
    (hwhole : getThroughput points since until' n = .ok whole) :
    whole.points = left.points ++ right.points := by
  obtain ⟨interval, hinterval, hwhole⟩ := rangeResponse_ok hwhole
  obtain ⟨_, hinterval', hleft⟩ := rangeResponse_ok hleft
  obtain ⟨_, hinterval'', hright⟩ := rangeResponse_ok hright
  rw [hinterval] at hinterval' hinterval''
  cases hinterval'
  cases hinterval''
  rw [hwhole, hleft, hright, ← List.map_append, queryThroughput, queryThroughput,
    queryThroughput, ← List.map_append,
    bucketCounts_split (width_pos hinterval) (hb.dateTrunc_eq hinterval) hle hle']

/-- The volume points of two components on both sides of noon, asked for in hours. -/
def noonPoints : List SignalVolumePoint :=
  [⟨1767268800000, "DB", "P0", 2⟩, ⟨1767265200000, "CACHE", "P1", 5⟩,
    ⟨1767265200001, "CACHE", "P1", 1⟩, ⟨1767268800001, "CACHE", "P1", 4⟩]

theorem getThroughput_split_of_noon :
    ∃ left right whole,
      getThroughput noonPoints 1767225600000 1767268800000 3600 = .ok left ∧
      getThroughput noonPoints 1767268800000 1767312000000 3600 = .ok right ∧
      getThroughput noonPoints 1767225600000 1767312000000 3600 = .ok whole ∧
      whole.points = left.points ++ right.points := by
  obtain ⟨interval, hinterval⟩ := toBucketSpec_of_pos (n := 3600) (by decide)
  obtain ⟨left, hleft⟩ := rangeResponse_of_ok hinterval
  obtain ⟨right, hright⟩ := rangeResponse_of_ok hinterval
  obtain ⟨whole, hwhole⟩ := rangeResponse_of_ok hinterval
  exact ⟨left, right, whole, hleft, hright, hwhole,
    getThroughput_split (by decide) (by decide) (by decide) hleft hright hwhole⟩

/-- Rows of the throughput, grouped again by longer buckets. -/
def regroup (coarse : BucketSpec) (rows : List ThroughputBucket) : List ThroughputBucket :=
  (groupSum (fun row : ThroughputBucket =>
      bucketKey (dateTrunc coarse row.bucket) (toLex (row.componentId, row.severity)))
    (·.count) rows).map fun row =>
      ⟨(ofLex row.1).1, (ofLex (ofLex row.1).2).1, (ofLex (ofLex row.1).2).2, row.2⟩

/-- **Throughput of longer intervals.**  For a multiple of the interval the rows are those of
the interval, grouped again. -/
theorem queryThroughput_regroup {points : List SignalVolumePoint} {n m : ℤ}
    {fine coarse : BucketSpec} (hfine : toBucketSpec n = .ok fine)
    (hcoarse : toBucketSpec (n * m) = .ok coarse) :
    queryThroughput points since until' coarse =
      regroup coarse (queryThroughput points since until' fine) := by
  have hwidth : coarse.width = fine.width * m := by
    rw [(toBucketSpec_spec hfine).2, (toBucketSpec_spec hcoarse).2, Int.mul_assoc,
      Int.mul_assoc, Int.mul_comm m]
  rw [regroup, queryThroughput, queryThroughput, groupSum_map,
    ← bucketCounts_coarse (width_pos hfine) hwidth]
  rfl

theorem queryThroughput_regroup_of_noon :
    toBucketSpec 60 = .ok ⟨.minute, 1⟩ ∧ toBucketSpec (60 * 60) = .ok ⟨.hour, 1⟩ ∧
      queryThroughput noonPoints 1767225600000 1767312000000 ⟨.hour, 1⟩ =
        regroup ⟨.hour, 1⟩
          (queryThroughput noonPoints 1767225600000 1767312000000 ⟨.minute, 1⟩) :=
  ⟨rfl, rfl, queryThroughput_regroup (n := 60) (m := 60) rfl rfl⟩

/-! ### Trend -/

section Trend

variable {ν : Type} {avg : List ν → ν} {points : List (MttrPoint ν)} {dim : IncidentGroupBy}

lemma mttrGroups_below (hwidth : 0 < interval.width) (hb : dateTrunc interval b = b)
    (hle' : b ≤ until') :
    mttrGroups avg points since b interval dim =
      (mttrGroups avg points since until' interval dim).filter fun row =>
        decide ((ofLex row.1).2 < b) := by
  rw [mttrGroups, mttrGroups,
    ← groupBy_filter (fun k : Lex (String × Instant) => decide ((ofLex k).2 < b)),
    List.filter_filter]
  congr 1
  refine List.filter_congr fun p _ => ?_
  rw [inRange_below hle' p.ts, Bool.and_comm]
  simp only [ofLex_toLex, dateTrunc_lt_iff hwidth hb]

/-- The rows of one value come in the order of their buckets. -/
lemma members_pairwise {groups : List (Lex (String × Instant) × ν × ℕ)}
    (hsorted : (groups.map Prod.fst).Pairwise (· < ·)) (value : String) :
    (members (fun row => (ofLex row.1).1) groups value).Pairwise fun row row' =>
      (ofLex row.1).2 ≤ (ofLex row'.1).2 := by
  have hrows := (List.pairwise_map.1 hsorted).filter fun row => (ofLex row.1).1 = value
  refine List.Pairwise.imp_of_mem (fun {row row'} hrow hrow' hlt => ?_) hrows
  have hvalue := (mem_members.1 hrow).2
  have hvalue' := (mem_members.1 hrow').2
  obtain hlt | ⟨_, hlt⟩ := Prod.Lex.lt_iff.1 hlt
  · rw [hvalue, hvalue'] at hlt
    exact absurd hlt (lt_irrefl _)
  · exact hlt.le

/-- The averages of the earlier buckets do not depend on the later ones. -/
lemma rollingAverages_filter {groups : List (Lex (String × Instant) × ν × ℕ)}
    (hsorted : (groups.map Prod.fst).Pairwise (· < ·)) :
    rollingAverages avg (groups.filter fun row => decide ((ofLex row.1).2 < b)) =
      (rollingAverages avg groups).filter fun row => decide ((ofLex row.1.1).2 < b) := by
  rw [rollingAverages, rollingAverages, List.filter_flatMap, flatMap_keys_filter _ rfl]
  refine List.flatMap_congr fun value _ => ?_
  rw [members_filter]
  refine windowed_filter (members_pairwise hsorted value) fun row row' hle hrow => ?_
  simp only [decide_eq_true_eq] at hrow ⊢
  exact hle.trans_lt hrow

/-- **The trend behind a point in time.**  With the start of a bucket as the end of the range,
the rows of the earlier buckets are those of any longer range, rolling averages included. -/
theorem queryMttrTrend_stable {n : ℤ} (hinterval : toBucketSpec n = .ok interval)
    (hb : IsBucketStart n b) (hle' : b ≤ until') :
    queryMttrTrend avg points since b interval dim =
      (queryMttrTrend avg points since until' interval dim).filter fun row =>
        decide (row.bucket < b) := by
  have hsorted :
      ((mttrGroups avg points since until' interval dim).map Prod.fst).Pairwise (· < ·) := by
    rw [mttrGroups]
    exact groupBy_pairwise
  rw [queryMttrTrend, queryMttrTrend, List.filter_map,
    mttrGroups_below (width_pos hinterval) (hb.dateTrunc_eq hinterval) hle',
    rollingAverages_filter hsorted]
  rfl

/-- Two incidents before noon and one behind it. -/
theorem queryMttrTrend_stable_of_noon :
    let points : List (MttrPoint ℕ) :=
      [⟨1767265200000, "CACHE", "P1", "CACHE_1", 600000⟩,
        ⟨1767265200001, "CACHE", "P1", "CACHE_2", 200000⟩,
        ⟨1767268800000, "CACHE", "P1", "CACHE_1", 900000⟩]
    let avg : List ℕ → ℕ := fun xs => xs.sum / xs.length
    queryMttrTrend avg points 1767225600000 1767268800000 ⟨.hour, 1⟩ .severity =
      (queryMttrTrend avg points 1767225600000 1767312000000 ⟨.hour, 1⟩ .severity).filter
        fun row => decide (row.bucket < 1767268800000) := by
  intro points avg
  exact queryMttrTrend_stable (n := 3600) (by decide) (by decide) (by decide)

end Trend

end InveniOps.Analytics
