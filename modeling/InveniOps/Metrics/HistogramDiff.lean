import InveniOps.Lib.ExactNumbers
import InveniOps.Metrics.Recorders
import InveniOps.Metrics.RoundTrip

/-!
# The histogram between two scrapes

`Histogram` of `utils/metrics.ts` prints its cumulative counts on the metrics page;
`findValue`, `diffHistogram` and `histogramPercentile` of `loadtest/orchestrator/metrics.js`
read two pages of one process.  Numbers are exact.
-/

namespace InveniOps.Metrics

open Lib

/-- The histogram of the given boundaries behind the given observations. -/
def Histogram.recorded (boundariesMs observations : List ℚ) : Histogram :=
  observations.foldl Histogram.observe (.new boundariesMs)

/-- `snapshot` of a histogram whose sum is not negative. -/
def Histogram.snapshot (histogram : Histogram) : HistogramSnapshot .decimals where
  boundariesMs := histogram.boundariesMs.map .ofRat
  cumulativeCounts := histogram.counts.map fun (count : ℕ) => .ofRat count
  sum := .ofRat histogram.sumMs
  count := .ofRat histogram.total

/-! ### The load test -/

/-- `scrapeMetrics` of the page that a snapshot is printed on. -/
def scrapeMetrics (input : MetricsSnapshotInput .decimals) : List (Sample .decimals) :=
  parsePrometheusText .decimals (renderPrometheusMetrics input)

/-- `matches` -/
def Sample.matchesFilter (sample : Sample .decimals) (name : Text)
    (labelFilter : List (Text × Text)) : Bool :=
  sample.name = name && labelFilter.all fun (k, v) =>
    (sample.labels.find? (·.1 = k)).map (·.2) = some v

/-- The value of the first sample that fits, zero if none does. -/
def findValue (samples : List (Sample .decimals)) (name : Text)
    (labelFilter : List (Text × Text)) : ExactNumber :=
  match samples.find? (·.matchesFilter name labelFilter) with
  | some found => found.value.exact
  | none => .finite 0

/-- By how much a sample grew between two scrapes. -/
def diffValue (before after : List (Sample .decimals)) (name : Text)
    (labelFilter : List (Text × Text)) : ExactNumber :=
  (findValue after name labelFilter).sub (findValue before name labelFilter)

/-- A bucket's growth between two scrapes. -/
structure DiffedBucket where
  le : ExactNumber
  cumulativeInWindow : ExactNumber
deriving DecidableEq

/-- The histogram of what was observed between two scrapes. -/
structure DiffedHistogram where
  buckets : List DiffedBucket
  count : ExactNumber
  sum : ExactNumber
deriving DecidableEq

/-- The `le` label of a boundary. -/
def leLabel (le : ExactNumber) : Text :=
  if le = .infinite false then "+Inf".toList else le.toChars

/-- The cumulative count of a bucket. -/
def bucketValue (samples : List (Sample .decimals)) (name : Text) (le : ExactNumber) :
    ExactNumber :=
  findValue samples (name ++ "_bucket".toList) [("le".toList, leLabel le)]

/-- Subtracts one scrape from another; nothing falls below zero. -/
def diffHistogram (before after : List (Sample .decimals)) (name : Text)
    (boundariesMs : List ExactNumber) : DiffedHistogram where
  buckets := (boundariesMs ++ [ExactNumber.infinite false]).map fun le =>
    ⟨le, ((bucketValue after name le).sub (bucketValue before name le)).max0⟩
  count := (diffValue before after (name ++ "_count".toList) []).max0
  sum := (diffValue before after (name ++ "_sum".toList) []).max0

/-- The first boundary that covers the share `p` of the observations, if a finite one does. -/
def histogramPercentile (diffedHistogram : DiffedHistogram) (p : ℚ) : Option ExactNumber :=
  if diffedHistogram.count.le (.finite 0) then none
  else
    let target := diffedHistogram.count.scale p
    match diffedHistogram.buckets.find? fun bucket => target.le bucket.cumulativeInWindow with
    | some bucket => if bucket.le = .infinite false then none else some bucket.le
    | none => none

/-- The histogram on one page, in the form of a difference. -/
def scrapedHistogram (samples : List (Sample .decimals)) (name : Text)
    (boundariesMs : List ExactNumber) : DiffedHistogram where
  buckets := (boundariesMs ++ [ExactNumber.infinite false]).map fun le =>
    ⟨le, bucketValue samples name le⟩
  count := findValue samples (name ++ "_count".toList) []
  sum := findValue samples (name ++ "_sum".toList) []

/-- The name of the page's histogram. -/
def latencyName : Text := "ims_signal_e2e_latency_ms".toList

/-! ### The histogram of a process -/

namespace Histogram

lemma recorded_concat (boundariesMs observations : List ℚ) (valueMs : ℚ) :
    recorded boundariesMs (observations ++ [valueMs])
      = (recorded boundariesMs observations).observe valueMs := by
  simp [recorded]

/-- What a histogram holds behind its observations. -/
lemma recorded_spec (boundariesMs observations : List ℚ) :
    (recorded boundariesMs observations).boundariesMs = boundariesMs ∧
      (recorded boundariesMs observations).counts
        = boundariesMs.map (fun boundary => observations.countP (· ≤ boundary)) ∧
      (recorded boundariesMs observations).total = observations.length ∧
      (recorded boundariesMs observations).sumMs = observations.sum := by
  induction observations using List.reverseRecOn with
  | nil => exact ⟨rfl, (List.map_const' ..).symm, rfl, rfl⟩
  | append_singleton observations valueMs ih =>
    obtain ⟨hboundaries, hcounts, htotal, hsum⟩ := ih
    rw [recorded_concat]
    refine ⟨hboundaries, ?_, ?_, ?_⟩
    · show List.zipWith _ _ _ = _
      rw [hboundaries, hcounts, List.zipWith_map_right, List.zipWith_self]
      refine List.map_congr_left fun boundary _ => ?_
      rw [List.countP_append, List.countP_singleton]
      by_cases h : valueMs ≤ boundary <;> simp [h]
    · show _ + 1 = _
      rw [htotal, List.length_append, List.length_singleton]
    · show _ + valueMs = _
      rw [hsum, List.sum_append, List.sum_singleton]

end Histogram

/-! ### The histogram on a page -/

variable {boundaries observations : List ℚ} {input : MetricsSnapshotInput .decimals}

/-- The three names of the histogram's samples. -/
def histogramNames : List Text :=
  ["_bucket".toList, "_sum".toList, "_count".toList].map (latencyName ++ ·)

lemma name_of_mem_family {name name' : Text} {keys : List Text}
    {entries : List (List Text × Amount .decimals)} (h : name ≠ name') :
    ∀ r ∈ family name keys entries, r.name ≠ name' := by
  intro r hr
  obtain ⟨entry, -, rfl⟩ := List.mem_map.1 hr
  exact h

/-- No other family of the page has a name of the histogram. -/
lemma name_of_other_families (input : MetricsSnapshotInput .decimals) {name : Text}
    (hname : name ∈ histogramNames) :
    ∀ r ∈ (input.families.take 11).flatten, r.name ≠ name := by
  have hne : ∀ other ∈ ["ims_signals_received_total".toList, "ims_signals_accepted_total".toList,
      "ims_signals_dropped_total".toList, "ims_buffer_depth".toList,
      "ims_buffer_fill_ratio".toList, "ims_queue_depth".toList, "ims_queue_dlq_size".toList,
      "ims_queue_jobs_total".toList, "ims_work_items".toList, "ims_alerts_total".toList,
      "ims_escalations_triggered_total".toList], other ≠ name := by
    intro other hother heq
    subst heq
    revert other
    decide
  simp only [List.forall_mem_cons] at hne
  obtain ⟨h₁, h₂, h₃, h₄, h₅, h₆, h₇, h₈, h₉, h₁₀, h₁₁, -⟩ := hne
  simp only [List.forall_mem_flatten, MetricsSnapshotInput.families, List.take_succ_cons,
    List.take_zero, List.forall_mem_cons]
  exact ⟨name_of_mem_family h₁, name_of_mem_family h₂, name_of_mem_family h₃,
    name_of_mem_family h₄, name_of_mem_family h₅, name_of_mem_family h₆, name_of_mem_family h₇,
    name_of_mem_family h₈, name_of_mem_family h₉, name_of_mem_family h₁₀,
    name_of_mem_family h₁₁, by simp⟩

lemma not_matchesFilter {sample : Sample .decimals} {name : Text}
    {labelFilter : List (Text × Text)} (h : sample.name ≠ name) :
    sample.matchesFilter name labelFilter = false := by
  simp [Sample.matchesFilter, h]

/-- A sample of the histogram is looked up among the histogram's samples. -/
lemma find?_scrape (input : MetricsSnapshotInput .decimals) {name : Text}
    (hname : name ∈ histogramNames) (labelFilter : List (Text × Text)) :
    (scrapeMetrics input).find? (·.matchesFilter name labelFilter)
      = ((input.latencyHistogram.readings latencyName).map Reading.sample).find?
          (·.matchesFilter name labelFilter) := by
  have hfamilies : input.families.flatten
      = (input.families.take 11).flatten ++ input.latencyHistogram.readings latencyName := by
    rw [← List.flatten_concat]
    rfl
  have hread : (input.latencyHistogram.readings latencyName).filterMap Reading.readBack
      = (input.latencyHistogram.readings latencyName).map Reading.sample :=
    filterMap_eq_map_iff.2 (readBack_histogram _ _)
  have hothers : ((input.families.take 11).flatten.filterMap Reading.readBack).find?
      (·.matchesFilter name labelFilter) = none := by
    rw [List.find?_eq_none]
    intro sample hsample
    obtain ⟨r, hr, hread⟩ := List.mem_filterMap.1 hsample
    have hsame : sample.name = r.name := by
      unfold Reading.readBack at hread
      split_ifs at hread
      obtain rfl := Option.some.inj hread
      rfl
    have hne := name_of_other_families input hname r hr
    rw [← hsame] at hne
    simp [not_matchesFilter hne]
  rw [scrapeMetrics, parse_render, hfamilies, List.filterMap_append, List.find?_append, hothers,
    hread, Option.none_or]

/-- A bucket's sample as it is read back. -/
def bucketSample (label : Text) (count : ℕ) : Sample .decimals :=
  ⟨latencyName ++ "_bucket".toList, [("le".toList, label)], (Amount.ofRat count).toNumber⟩

lemma matchesFilter_bucketSample (label label' : Text) (count : ℕ) :
    (bucketSample label count).matchesFilter (latencyName ++ "_bucket".toList)
      [("le".toList, label')] = decide (label = label') := by
  simp [Sample.matchesFilter, bucketSample]

/-- The samples of a histogram. -/
lemma samples_recorded (boundaries observations : List ℚ) :
    ((Histogram.recorded boundaries observations).snapshot.readings latencyName).map Reading.sample
      = (boundaries.map fun boundary => bucketSample (ExactNumber.finite boundary).toChars
            (observations.countP (· ≤ boundary)))
        ++ [bucketSample "+Inf".toList observations.length,
          ⟨latencyName ++ "_sum".toList, [], (Amount.ofRat observations.sum).toNumber⟩,
          ⟨latencyName ++ "_count".toList, [], (Amount.ofRat observations.length).toNumber⟩] := by
  obtain ⟨hboundaries, hcounts, htotal, hsum⟩ := Histogram.recorded_spec boundaries observations
  have hbuckets := map_zipIdx_getD boundaries (JsNumber.ofRat (F := .decimals))
    (fun boundary => Amount.ofRat (F := .decimals) (observations.countP (· ≤ boundary)))
    (fun boundary count => ([boundary.toChars], count)) (.ofRat 0)
  simp only [HistogramSnapshot.readings, Histogram.snapshot, hboundaries, hcounts, htotal, hsum,
    family, List.map_map, Function.comp_def] at hbuckets ⊢
  rw [hbuckets]
  simp [bucketSample, Reading.sample, ExactNumber.toChars]

/-- A name that is not that of the buckets is looked up behind them. -/
lemma find?_behind_buckets (boundaries observations : List ℚ) {name : Text}
    (hname : latencyName ++ "_bucket".toList ≠ name) :
    (((Histogram.recorded boundaries observations).snapshot.readings latencyName).map
        Reading.sample).find? (·.matchesFilter name [])
      = ([⟨latencyName ++ "_sum".toList, [], (Amount.ofRat observations.sum).toNumber⟩,
          ⟨latencyName ++ "_count".toList, [], (Amount.ofRat observations.length).toNumber⟩] :
          List (Sample .decimals)).find? (·.matchesFilter name []) := by
  have hbuckets : (boundaries.map fun boundary => bucketSample (ExactNumber.finite boundary).toChars
      (observations.countP (· ≤ boundary))).find? (·.matchesFilter name []) = none := by
    rw [List.find?_eq_none]
    intro sample hsample
    obtain ⟨boundary, -, rfl⟩ := List.mem_map.1 hsample
    rw [not_matchesFilter hname]
    exact Bool.false_ne_true
  rw [samples_recorded, List.find?_append, hbuckets, Option.none_or, List.find?_cons,
    not_matchesFilter hname]

section

variable (hinput : input.latencyHistogram = (Histogram.recorded boundaries observations).snapshot)

include hinput

lemma findValue_count : findValue (scrapeMetrics input) (latencyName ++ "_count".toList) []
    = .finite observations.length := by
  have hname : latencyName ++ "_bucket".toList ≠ latencyName ++ "_count".toList := by decide
  have hfind := (find?_scrape input (by decide) []).trans
    (hinput ▸ find?_behind_buckets boundaries observations hname)
  rw [findValue, hfind]
  exact exact_amount (Nat.cast_nonneg _) (.natCast _)

lemma findValue_sum (hnonneg : ∀ x ∈ observations, 0 ≤ x)
    (hdecimal : ∀ x ∈ observations, IsDecimal x) :
    findValue (scrapeMetrics input) (latencyName ++ "_sum".toList) []
      = .finite observations.sum := by
  have hname : latencyName ++ "_bucket".toList ≠ latencyName ++ "_sum".toList := by decide
  have hfind := (find?_scrape input (by decide) []).trans
    (hinput ▸ find?_behind_buckets boundaries observations hname)
  rw [findValue, hfind]
  exact exact_amount (List.sum_nonneg hnonneg) (.sum hdecimal)

/-- The bucket of a boundary shows how many observations are at most the boundary. -/
lemma bucketValue_boundary (hboundaries : ∀ b ∈ boundaries, IsDecimal b) {boundary : ℚ}
    (hmem : boundary ∈ boundaries) :
    bucketValue (scrapeMetrics input) latencyName (.finite boundary)
      = .finite (observations.countP (· ≤ boundary)) := by
  have hfind : (boundaries.map fun boundary => bucketSample (ExactNumber.finite boundary).toChars
      (observations.countP (· ≤ boundary))).find?
        (·.matchesFilter (latencyName ++ "_bucket".toList)
          [("le".toList, (ExactNumber.finite boundary).toChars)])
      = some (bucketSample (ExactNumber.finite boundary).toChars
          (observations.countP (· ≤ boundary))) := by
    simp only [List.find?_map, Function.comp_def, matchesFilter_bucketSample]
    cases hfound : boundaries.find? fun b => decide ((ExactNumber.finite b).toChars
        = (ExactNumber.finite boundary).toChars) with
    | none =>
      have hnone := List.find?_eq_none.1 hfound boundary hmem
      simp at hnone
    | some b =>
      have heq := List.find?_some hfound
      obtain rfl := toChars_injective (hboundaries b (List.mem_of_find?_eq_some hfound))
        (hboundaries boundary hmem) (of_decide_eq_true heq)
      rfl
  have hlabel : leLabel (.finite boundary) = (ExactNumber.finite boundary).toChars :=
    if_neg (by simp)
  rw [bucketValue, findValue, hlabel, find?_scrape input (by decide), hinput, samples_recorded,
    List.find?_append, hfind, Option.some_or]
  exact exact_amount (Nat.cast_nonneg _) (.natCast _)

lemma bucketValue_infinite (hboundaries : ∀ b ∈ boundaries, IsDecimal b) :
    bucketValue (scrapeMetrics input) latencyName (.infinite false)
      = .finite observations.length := by
  have hfind : (boundaries.map fun boundary => bucketSample (ExactNumber.finite boundary).toChars
      (observations.countP (· ≤ boundary))).find?
        (·.matchesFilter (latencyName ++ "_bucket".toList) [("le".toList, "+Inf".toList)])
      = none := by
    rw [List.find?_eq_none]
    intro sample hsample
    obtain ⟨boundary, hmem, rfl⟩ := List.mem_map.1 hsample
    have hne : (ExactNumber.finite boundary).toChars ≠ "+Inf".toList :=
      toChars_ne_of_nan (hboundaries boundary hmem) (by rfl)
    rw [matchesFilter_bucketSample, decide_eq_false hne]
    exact Bool.false_ne_true
  rw [bucketValue, findValue, leLabel, if_pos rfl, find?_scrape input (by decide), hinput,
    samples_recorded, List.find?_append, hfind, Option.none_or]
  exact exact_amount (Nat.cast_nonneg _) (.natCast _)

end

/-! ### The difference -/

/-- The histogram of some observations. -/
def DiffedHistogram.ofObservations (boundaries observations : List ℚ) : DiffedHistogram where
  buckets := (boundaries.map fun boundary =>
      ⟨.finite boundary, .finite (observations.countP (· ≤ boundary))⟩)
    ++ [⟨.infinite false, .finite observations.length⟩]
  count := .finite observations.length
  sum := .finite observations.sum

/-- Two functions of the boundaries that agree on the buckets. -/
lemma map_boundaries (f : ExactNumber → ExactNumber) (boundaries observations : List ℚ)
    (hfinite : ∀ boundary ∈ boundaries,
      f (.finite boundary) = .finite (observations.countP (· ≤ boundary)))
    (hinfinite : f (.infinite false) = .finite observations.length) :
    ((boundaries.map ExactNumber.finite ++ [ExactNumber.infinite false]).map fun le =>
        (⟨le, f le⟩ : DiffedBucket))
      = (DiffedHistogram.ofObservations boundaries observations).buckets := by
  rw [List.map_append, List.map_map, List.map_singleton, hinfinite,
    DiffedHistogram.ofObservations]
  congr 1
  refine List.map_congr_left fun boundary hmem => ?_
  rw [Function.comp_apply, hfinite boundary hmem]

section

variable {before between : List ℚ} {first second : MetricsSnapshotInput .decimals}

/-- A page shows the histogram of the observations that its process has made. -/
lemma scrapedHistogram_eq (hboundaries : ∀ b ∈ boundaries, IsDecimal b)
    (hobservations : ∀ x ∈ observations, 0 ≤ x ∧ IsDecimal x)
    (hinput : input.latencyHistogram = (Histogram.recorded boundaries observations).snapshot) :
    scrapedHistogram (scrapeMetrics input) latencyName (boundaries.map ExactNumber.finite)
      = .ofObservations boundaries observations := by
  have hbuckets := map_boundaries _ boundaries observations
    (fun boundary hmem => bucketValue_boundary hinput hboundaries hmem)
    (bucketValue_infinite hinput hboundaries)
  rw [scrapedHistogram, hbuckets, findValue_count hinput, findValue_sum hinput
    (fun x hx => (hobservations x hx).1) fun x hx => (hobservations x hx).2]
  rfl

lemma max0_sub {a b : ℚ} (h : 0 ≤ b) :
    ((ExactNumber.finite (a + b)).sub (.finite a)).max0 = .finite b := by
  simp [ExactNumber.sub, ExactNumber.max0, h]

/-- What two pages of a process differ by. -/
lemma diffHistogram_eq (hboundaries : ∀ b ∈ boundaries, IsDecimal b)
    (hobservations : ∀ x ∈ before ++ between, 0 ≤ x ∧ IsDecimal x)
    (hfirst : first.latencyHistogram = (Histogram.recorded boundaries before).snapshot)
    (hsecond : second.latencyHistogram
      = (Histogram.recorded boundaries (before ++ between)).snapshot) :
    diffHistogram (scrapeMetrics first) (scrapeMetrics second) latencyName
        (boundaries.map ExactNumber.finite)
      = .ofObservations boundaries between := by
  have hbefore : ∀ x ∈ before, 0 ≤ x ∧ IsDecimal x := fun x hx =>
    hobservations x (List.mem_append_left _ hx)
  have hbetween : ∀ x ∈ between, 0 ≤ x := fun x hx =>
    (hobservations x (List.mem_append_right _ hx)).1
  have hbuckets := map_boundaries (fun le => ((bucketValue (scrapeMetrics second) latencyName
      le).sub (bucketValue (scrapeMetrics first) latencyName le)).max0) boundaries between
    (fun boundary hmem => by
      rw [bucketValue_boundary hsecond hboundaries hmem,
        bucketValue_boundary hfirst hboundaries hmem, List.countP_append, Nat.cast_add]
      exact max0_sub (Nat.cast_nonneg _))
    (by
      rw [bucketValue_infinite hsecond hboundaries, bucketValue_infinite hfirst hboundaries,
        List.length_append, Nat.cast_add]
      exact max0_sub (Nat.cast_nonneg _))
  have hcount : (diffValue (scrapeMetrics first) (scrapeMetrics second)
      (latencyName ++ "_count".toList) []).max0 = .finite between.length := by
    rw [diffValue, findValue_count hsecond, findValue_count hfirst, List.length_append,
      Nat.cast_add]
    exact max0_sub (Nat.cast_nonneg _)
  have hsum : (diffValue (scrapeMetrics first) (scrapeMetrics second)
      (latencyName ++ "_sum".toList) []).max0 = .finite between.sum := by
    rw [diffValue, findValue_sum hsecond (fun x hx => (hobservations x hx).1)
      (fun x hx => (hobservations x hx).2), findValue_sum hfirst (fun x hx => (hbefore x hx).1)
      (fun x hx => (hbefore x hx).2), List.sum_append]
    exact max0_sub (List.sum_nonneg hbetween)
  rw [diffHistogram, hbuckets, hcount, hsum]
  rfl

end

/-- The percentile of a histogram is found among its boundaries. -/
lemma histogramPercentile_eq (boundaries observations : List ℚ) (p : ℚ) :
    histogramPercentile (.ofObservations boundaries observations) p
      = if observations = [] then none
        else (boundaries.find? fun boundary =>
          decide (p * observations.length ≤ observations.countP (· ≤ boundary))).map .finite := by
  by_cases hempty : observations = []
  · subst hempty
    rfl
  · have hcount : (ExactNumber.finite observations.length).le (.finite 0) = false := by
      simp [ExactNumber.le, hempty]
    rw [if_neg hempty, histogramPercentile, DiffedHistogram.ofObservations, hcount,
      if_neg Bool.false_ne_true]
    simp only [ExactNumber.scale, List.find?_append, List.find?_map, Function.comp_def,
      ExactNumber.le]
    cases boundaries.find? fun boundary =>
        decide (p * observations.length ≤ observations.countP (· ≤ boundary)) with
    | some boundary => simp
    | none =>
      -- the bucket of all observations has no boundary to return
      by_cases hall : p * observations.length ≤ observations.length
      · simp [hall]
      · simp [hall]

/-- The values of some numbers of the language. -/
def values (numbers : List FiniteNumber) : List ℚ := numbers.map (·.1)

lemma isDecimal_of_mem_values {numbers : List FiniteNumber} {x : ℚ} (h : x ∈ values numbers) :
    IsDecimal x := by
  obtain ⟨number, -, rfl⟩ := List.mem_map.1 h
  exact number.2

/-- Whatever else the pages show: the difference of two scrapes of a process is the histogram
of what it has observed in between, as a page would show it.  Its percentiles are the least
boundaries that hold their share of these observations, and there is none if there are no
observations or if no boundary holds it. -/
theorem diff_of_scrapes {boundaries before between : List FiniteNumber}
    (hincreasing : (values boundaries).Pairwise (· < ·))
    (hnonneg : ∀ x ∈ values (before ++ between), 0 ≤ x)
    {first second alone : MetricsSnapshotInput .decimals}
    (hfirst : first.latencyHistogram
      = (Histogram.recorded (values boundaries) (values before)).snapshot)
    (hsecond : second.latencyHistogram
      = (Histogram.recorded (values boundaries) (values (before ++ between))).snapshot)
    (halone : alone.latencyHistogram
      = (Histogram.recorded (values boundaries) (values between)).snapshot) :
    let boundariesMs := (values boundaries).map ExactNumber.finite
    let diffed :=
      diffHistogram (scrapeMetrics first) (scrapeMetrics second) latencyName boundariesMs
    diffed = scrapedHistogram (scrapeMetrics alone) latencyName boundariesMs ∧ ∀ p : ℚ,
      (∀ b, histogramPercentile diffed p = some b ↔ between ≠ [] ∧ ∃ boundary,
        b = .finite boundary ∧ IsLeast {x | x ∈ values boundaries ∧
          p * between.length ≤ (values between).countP (· ≤ x)} boundary) ∧
      (histogramPercentile diffed p = none ↔ between = [] ∨ ∀ x ∈ values boundaries,
        (values between).countP (· ≤ x) < p * between.length) := by
  have hboundaries : ∀ b ∈ values boundaries, IsDecimal b := fun b => isDecimal_of_mem_values
  have hobservations : ∀ x ∈ values before ++ values between, 0 ≤ x ∧ IsDecimal x := by
    intro x hx
    have hmem : x ∈ values (before ++ between) := by simpa [values] using hx
    exact ⟨hnonneg x hmem, isDecimal_of_mem_values hmem⟩
  have happend : values (before ++ between) = values before ++ values between := List.map_append
  have hdiff := diffHistogram_eq hboundaries hobservations hfirst (happend ▸ hsecond)
  have hscraped := scrapedHistogram_eq hboundaries
    (fun x hx => hobservations x (List.mem_append_right _ hx)) halone
  have hlength : (values between).length = between.length := List.length_map _
  have hempty : values between = [] ↔ between = [] := List.map_eq_nil_iff
  intro boundariesMs diffed
  refine ⟨hdiff.trans hscraped.symm, fun p => ?_⟩
  have hpercentile : histogramPercentile diffed p = _ :=
    (congrArg (histogramPercentile · p) hdiff).trans (histogramPercentile_eq _ _ p)
  rw [hpercentile]
  simp only [hlength, hempty]
  by_cases hnone : between = []
  · simp [hnone]
  · simp only [hnone, if_false, false_or, ne_eq, not_false_eq_true, true_and]
    constructor
    · intro b
      rw [Option.map_eq_some_iff]
      refine exists_congr fun boundary => ?_
      rw [find?_eq_some_iff_isLeast hincreasing, and_comm, eq_comm]
      simp only [decide_eq_true_eq]
    · rw [Option.map_eq_none_iff, List.find?_eq_none]
      simp only [decide_eq_true_eq, not_le]

/-- A page that shows a histogram. -/
def latencyPage (histogram : Histogram) : MetricsSnapshotInput .decimals where
  signalCounters := ⟨fun _ => .ofRat 0, fun _ => .ofRat 0⟩
  droppedBySeverityAndReason _ _ := .ofRat 0
  bufferDepthBySeverity _ := .ofRat 0
  bufferFillFraction := .ofRat 0
  queueDepth := ⟨.ofRat 0, .ofRat 0, .ofRat 0⟩
  queueJobsCumulative := ⟨.ofRat 0, .ofRat 0⟩
  workItemsByState _ := none
  alertsByChannel := ⟨[], List.nodup_nil, fun _ => ⟨.ofRat 0, .ofRat 0⟩⟩
  escalationsTriggered := .ofRat 0
  latencyHistogram := histogram.snapshot

lemma latencyHistogram_latencyPage (histogram : Histogram) :
    (latencyPage histogram).latencyHistogram = histogram.snapshot := rfl

/-- Whole boundaries as numbers of the format. -/
def wholeNumbers (numbers : List ℕ) : List FiniteNumber :=
  numbers.map fun (n : ℕ) => ⟨n, .natCast n⟩

/-- The median of one observation on a boundary and one beyond the last boundary. -/
theorem diff_of_scrapes_median :
    histogramPercentile (diffHistogram
      (scrapeMetrics (latencyPage (.recorded (values (wholeNumbers [10, 25]))
        (values (wholeNumbers [7])))))
      (scrapeMetrics (latencyPage (.recorded (values (wholeNumbers [10, 25]))
        (values (wholeNumbers [7] ++ wholeNumbers [10, 30])))))
      latencyName ((values (wholeNumbers [10, 25])).map ExactNumber.finite)) (1 / 2)
        = some (.finite 10) := by
  have hincreasing : (values (wholeNumbers [10, 25])).Pairwise (· < ·) := by decide +kernel
  have hnonneg : ∀ x ∈ values (wholeNumbers [7] ++ wholeNumbers [10, 30]), 0 ≤ x := by
    decide +kernel
  have hpercentiles := (diff_of_scrapes hincreasing hnonneg (latencyHistogram_latencyPage _)
    (latencyHistogram_latencyPage _) (latencyHistogram_latencyPage _)).2 (1 / 2)
  refine (hpercentiles.1 (.finite 10)).2 ⟨by decide, 10, rfl, ⟨?_, ?_⟩⟩
  · exact ⟨by decide +kernel, by decide +kernel⟩
  · rintro x ⟨hx, -⟩
    have hall : ∀ x ∈ values (wholeNumbers [10, 25]), 10 ≤ x := by decide +kernel
    exact hall x hx

end InveniOps.Metrics
