import InveniOps.Metrics.LinePatterns

/-!
# The round trip of the metrics page

What the reader of the load test makes of a page that `GET /metrics` has printed.  A line
whose label values have no closing brace gives its sample back, with the line breaks of the
values left escaped; a line with a closing brace in a label value is passed over.
-/

namespace InveniOps.Metrics

open Lib Regex Domain

variable {F : NumberFormat}

/-- A sample of a snapshot. -/
structure Reading (F : NumberFormat) where
  name : Text
  labels : List (Text × Text)
  value : Amount F

namespace Reading

variable (r : Reading F)

/-- The line it is printed as. -/
def text : Text := Metrics.sample r.name r.labels r.value

/-- The sample that the reading stands for. -/
def sample : Sample F := ⟨r.name, r.labels, r.value.toNumber⟩

/-- What the reader makes of the line. -/
def readBack : Option (Sample F) :=
  if ∃ label ∈ r.labels, '}' ∈ label.2 then none
  else some ⟨r.name, r.labels.map fun label => (label.1, readValue label.2), r.value.toNumber⟩

/-- The names are names and the labels' keys are keys, no two of them the same. -/
structure WellNamed : Prop where
  name : isWord isNameStart isNameChar r.name = true
  keys : LabelKeys (r.labels.map (·.1))

end Reading

/-! ### Lines -/

lemma valueText_toChars (x : Amount F) : ValueText x.toChars := by
  refine ⟨x.toChars_ne_nil, fun c hc => ?_⟩
  rcases x.chars c hc with hnumeral | hinfinity
  · simp only [isNumeralChar, Bool.or_eq_true, decide_eq_true_eq, List.mem_cons,
      List.not_mem_nil, or_false] at hnumeral
    rcases hnumeral with hdigit | rfl | rfl | rfl | rfl
    · obtain ⟨hmin, hmax⟩ := ascii_of_isDigit hdigit
      exact isJsSpace_of_ascii hmin hmax
    · rfl
    · rfl
    · rfl
    · rfl
  · have hall : infinityChars.all (fun c => !isJsSpace c) = true := by decide
    simpa using List.all_eq_true.1 hall c hinfinity

lemma parseValue_toChars (x : Amount F) : parseValue F x.toChars = x.toNumber := by
  have hsign : ∀ c, c = '+' ∨ c = '-' → ∀ text : Text, text.head? = some c → x.toChars ≠ text := by
    rintro c hc text hhead rfl
    cases x with
    | infinite =>
      obtain rfl : 'I' = c := Option.some.inj hhead
      exact absurd hc (by decide)
    | finite magnitude =>
      obtain ⟨d, rest, htext, hd, -⟩ := toChars_eq (F.shortest magnitude)
      rw [Amount.toChars, htext] at hhead
      obtain rfl : d = c := Option.some.inj hhead
      rcases hc with rfl | rfl <;> cases hd
  rw [parseValue, if_neg (hsign '+' (.inl rfl) _ rfl), if_neg (hsign '-' (.inr rfl) _ rfl),
    readNumber_toChars]

lemma sampleOf_eq {captures : Captures} (name : Text) (x : Amount F)
    (hname : captures 1 = some name) (hvalue : captures 4 = some x.toChars) :
    sampleOf F captures = some ⟨name, (captures 3).elim [] parseLabels, x.toNumber⟩ := by
  simp only [sampleOf, hname, hvalue, Option.getD_some, parseValue_toChars]
  cases x <;> rcases captures 3 with _ | _ | ⟨c, labelStr⟩ <;> rfl

/-- The name of a line, and what follows it. -/
lemma matchAt_name {name text : Text} {c : Char}
    (hname : isWord isNameStart isNameChar name = true) (hc : isNameChar c = false) :
    lineRegex.matchAt (name ++ c :: text) = (seq labelsRegex valueRegex).run
      ⟨c :: text, Function.update (fun _ => none) 1 (some name)⟩ some := by
  simp only [matchAt, Progress.start, lineRegex]
  rw [run_seq, run_group, nameRegex, run_word hname]
  · simp
  · rintro d ⟨⟩
    exact hc
  · intro d rest hd
    have hbrace : d ≠ '{' := by
      rintro rfl
      cases hd
    rw [Progress.capture_mk, run_seq, run_labelsRegex_of_ne hbrace,
      run_valueRegex_of_not_space (isJsSpace_of_isNameChar hd)]

lemma parseLine_of_isWord {name text : Text} (hname : isWord isNameStart isNameChar name = true) :
    parseLine F (name ++ text)
      = (lineRegex.matchAt (name ++ text)).bind fun m => sampleOf F m.captures := by
  cases name with
  | nil => cases hname
  | cons c name =>
    refine if_neg ?_
    rintro (hnil | hhash)
    · cases hnil
    · obtain rfl : c = '#' := Option.some.inj hhash
      cases hname

lemma mem_labelText {labels : List (Text × Text)} {c : Char} (hc : c ≠ ',') :
    c ∈ labelText labels ↔ ∃ label ∈ labels, c ∈ formatLabel label := by
  rw [labelText, mem_intercalate_of_ne hc]
  simp

lemma not_mem_of_isLabelKey {key : Text} (hkey : isLabelKey key = true) {c : Char}
    (hstart : isLabelStart c = false) (hmore : isLabelChar c = false) : c ∉ key := by
  cases key with
  | nil => cases hkey
  | cons d key =>
    simp only [isLabelKey, isWord, Bool.and_eq_true, List.all_eq_true] at hkey
    rintro (_ | ⟨_, hmem⟩)
    · rw [hkey.1] at hstart
      cases hstart
    · rw [hkey.2 c hmem] at hmore
      cases hmore

lemma mem_formatLabel {label : Text × Text} (hkey : isLabelKey label.1 = true) {c : Char}
    (hstart : isLabelStart c = false) (hmore : isLabelChar c = false) (heq : c ≠ '=')
    (hquote : c ≠ '"') : c ∈ formatLabel label ↔ c ∈ escapeLabelValue label.2 := by
  simp [formatLabel, not_mem_of_isLabelKey hkey hstart hmore, heq, hquote]

/-- A closing brace between the braces is one of a label value. -/
lemma brace_mem_labelText {labels : List (Text × Text)} (hkeys : LabelKeys (labels.map (·.1))) :
    '}' ∈ labelText labels ↔ ∃ label ∈ labels, '}' ∈ label.2 := by
  rw [mem_labelText (by decide)]
  refine exists_congr fun label => and_congr_right fun hmem => ?_
  rw [mem_formatLabel (hkeys.words _ (List.mem_map_of_mem hmem)) rfl rfl (by decide) (by decide),
    brace_mem_escapeLabelValue]

lemma newline_not_mem_labelText {labels : List (Text × Text)}
    (hkeys : LabelKeys (labels.map (·.1))) : '\n' ∉ labelText labels := by
  rw [mem_labelText (by decide)]
  rintro ⟨label, hmem, hnewline⟩
  rw [mem_formatLabel (hkeys.words _ (List.mem_map_of_mem hmem)) rfl rfl (by decide) (by decide)]
    at hnewline
  exact mem_escapeLabelValue hnewline

/-- A line of the page gives back what `readBack` says. -/
lemma parseLine_text {r : Reading F} (hnamed : r.WellNamed) :
    parseLine F r.text = r.readBack := by
  obtain ⟨name, labels, value⟩ := r
  obtain ⟨hname, hkeys⟩ := hnamed
  simp only at hname hkeys
  have hvalue := valueText_toChars value
  rw [Reading.text, Metrics.sample, parseLine_of_isWord hname]
  cases labels with
  | nil =>
    simp only [formatLabels, if_true, List.nil_append]
    rw [matchAt_name hname rfl, run_seq, run_labelsRegex_of_ne (by decide),
      run_valueRegex_value hvalue, Option.bind_some, sampleOf_eq name value (by simp) (by simp)]
    rfl
  | cons label labels =>
    have htext : formatLabels (label :: labels) ++ ' ' :: value.toChars
        = '{' :: (labelText (label :: labels) ++ '}' :: ' ' :: value.toChars) := by
      simp [formatLabels, labelText]
    have hstuck : ∀ captures, valueRegex.run
        ⟨'{' :: (labelText (label :: labels) ++ '}' :: ' ' :: value.toChars), captures⟩ some
          = none := fun _ => run_valueRegex_of_not_space rfl
    rw [htext, matchAt_name hname rfl, run_seq, Reading.readBack]
    by_cases hbrace : '}' ∈ labelText (label :: labels)
    · -- the braces end too early
      rw [if_pos ((brace_mem_labelText hkeys).1 hbrace)]
      obtain ⟨inner, rest, hsplit, hinner⟩ := List.eq_append_cons_of_mem hbrace
      rw [hsplit, List.append_assoc] at hstuck ⊢
      rw [List.cons_append, run_labelsRegex hinner _ _ (hstuck _),
        run_valueRegex_words hvalue]
      rfl
    · rw [if_neg fun hmem => hbrace ((brace_mem_labelText hkeys).2 hmem),
        run_labelsRegex hbrace _ _ (hstuck _), run_valueRegex_value hvalue, Option.bind_some,
        sampleOf_eq name value (by simp) (by simp)]
      simp [parseLabels_labelText hkeys]

/-- What the reader loses of a label value. -/
def Clean (value : Text) : Prop := '}' ∉ value ∧ '\n' ∉ value

instance (value : Text) : Decidable (Clean value) :=
  inferInstanceAs (Decidable ('}' ∉ value ∧ '\n' ∉ value))

lemma readBack_eq_iff {r : Reading F} :
    r.readBack = some r.sample ↔ ∀ label ∈ r.labels, Clean label.2 := by
  have hvalues : (r.labels.map fun label => (label.1, readValue label.2)) = r.labels ↔
      ∀ label ∈ r.labels, '\n' ∉ label.2 := by
    have hid := List.map_inj_left (l := r.labels) (f := fun label => (label.1, readValue label.2))
      (g := id)
    rw [List.map_id] at hid
    simp only [hid, id, Prod.ext_iff, true_and, readValue_eq_iff]
  simp only [Reading.readBack, Reading.sample, Clean]
  split_ifs with hbrace
  · obtain ⟨label, hmem, hbrace⟩ := hbrace
    exact ⟨nofun, fun hall => absurd hbrace (hall label hmem).1⟩
  · push Not at hbrace
    rw [Option.some.injEq, Sample.mk.injEq, hvalues]
    exact ⟨fun h => fun label hmem => ⟨hbrace label hmem, h.2.1 label hmem⟩,
      fun hall => ⟨rfl, fun label hmem => (hall label hmem).2, rfl⟩⟩

/-! ### Families -/

/-- Samples of one name, with values for the same labels. -/
def family (name : Text) (keys : List Text) (entries : List (List Text × Amount F)) :
    List (Reading F) :=
  entries.map fun entry => ⟨name, keys.zip entry.1, entry.2⟩

lemma map_fst_zip_sublist (keys values : List Text) :
    ((keys.zip values).map (·.1)).Sublist keys := by
  induction keys generalizing values with
  | nil => exact List.nil_sublist _
  | cons key keys ih =>
    cases values with
    | nil => exact List.nil_sublist _
    | cons value values => exact (ih values).cons_cons key

lemma wellNamed_family {name : Text} {keys : List Text}
    (hname : isWord isNameStart isNameChar name = true) (hkeys : LabelKeys keys)
    (entries : List (List Text × Amount F)) : ∀ r ∈ family name keys entries, r.WellNamed := by
  intro r hr
  obtain ⟨entry, -, rfl⟩ := List.mem_map.1 hr
  have hsublist := map_fst_zip_sublist keys entry.1
  exact ⟨hname, fun key hmem => hkeys.words key (hsublist.subset hmem),
    fun hmem => hkeys.proto (hsublist.subset hmem), hsublist.nodup hkeys.nodup⟩

lemma readBack_family {name : Text} {keys : List Text} {entries : List (List Text × Amount F)}
    (hclean : ∀ entry ∈ entries, ∀ value ∈ entry.1, Clean value) :
    ∀ r ∈ family name keys entries, r.readBack = some r.sample := by
  intro r hr
  obtain ⟨entry, hmem, rfl⟩ := List.mem_map.1 hr
  refine readBack_eq_iff.2 fun label hlabel => ?_
  exact hclean entry hmem _ (List.of_mem_zip hlabel).2

/-- A histogram's samples in the order of its block. -/
def HistogramSnapshot.readings (histogram : HistogramSnapshot F) (name : Text) :
    List (Reading F) :=
  family (name ++ "_bucket".toList) ["le".toList]
      ((histogram.boundariesMs.zipIdx.map fun (boundary, i) =>
          ([boundary.toChars], histogram.cumulativeCounts[i]?.getD (.ofRat 0)))
        ++ [(["+Inf".toList], histogram.count)])
    ++ (family (name ++ "_sum".toList) [] [([], histogram.sum)]
      ++ family (name ++ "_count".toList) [] [([], histogram.count)])

/-- The samples of a snapshot, by families. -/
def MetricsSnapshotInput.families (input : MetricsSnapshotInput F) : List (List (Reading F)) := [
  family "ims_signals_received_total".toList ["severity".toList]
    (SEVERITIES.map fun s => ([s.name.toList], input.signalCounters.received s)),
  family "ims_signals_accepted_total".toList ["severity".toList]
    (SEVERITIES.map fun s => ([s.name.toList], input.signalCounters.accepted s)),
  family "ims_signals_dropped_total".toList ["severity".toList, "reason".toList]
    (SEVERITIES.flatMap fun s => DROP_REASONS.map fun r =>
      ([s.name.toList, (dropReasonName r).toList], input.droppedBySeverityAndReason s r)),
  family "ims_buffer_depth".toList ["severity".toList]
    (SEVERITIES.map fun s => ([s.name.toList], input.bufferDepthBySeverity s)),
  family "ims_buffer_fill_ratio".toList [] [([], input.bufferFillFraction)],
  family "ims_queue_depth".toList ["state".toList]
    [(["waiting".toList], input.queueDepth.waitingCount),
      (["active".toList], input.queueDepth.activeCount)],
  family "ims_queue_dlq_size".toList [] [([], input.queueDepth.dlqSize)],
  family "ims_queue_jobs_total".toList ["outcome".toList]
    [(["processed".toList], input.queueJobsCumulative.jobsProcessedTotal),
      (["failed".toList], input.queueJobsCumulative.jobsFailedTotal)],
  family "ims_work_items".toList ["state".toList]
    (WORK_ITEM_STATES.map fun s => ([s.name.toList], (input.workItemsByState s).getD (.ofRat 0))),
  family "ims_alerts_total".toList ["channel".toList, "outcome".toList]
    ((input.alertsByChannel.keys.insertionSort fun a b => codeUnits a ≤ codeUnits b).flatMap
      fun channel =>
        [([channel, "delivered".toList], (input.alertsByChannel.get channel).delivered),
          ([channel, "failed".toList], (input.alertsByChannel.get channel).failed)]),
  family "ims_escalations_triggered_total".toList [] [([], input.escalationsTriggered)],
  input.latencyHistogram.readings "ims_signal_e2e_latency_ms".toList]

/-- The samples of a snapshot, block by block. -/
def MetricsSnapshotInput.samples (input : MetricsSnapshotInput F) : List (Sample F) :=
  input.families.flatten.map Reading.sample

/-! ### The page -/

lemma newline_not_mem_name {name : Text} (hname : isWord isNameStart isNameChar name = true) :
    '\n' ∉ name := by
  intro hmem
  cases name with
  | nil => cases hmem
  | cons c name =>
    simp only [isWord, Bool.and_eq_true, List.all_eq_true] at hname
    rcases List.mem_cons.1 hmem with rfl | hmem
    · cases hname.1
    · cases hname.2 _ hmem

lemma newline_not_mem_text {r : Reading F} (hnamed : r.WellNamed) : '\n' ∉ r.text := by
  obtain ⟨name, labels, value⟩ := r
  obtain ⟨hname, hkeys⟩ := hnamed
  have hlabels : '\n' ∉ formatLabels labels := by
    unfold formatLabels
    split_ifs
    · nofun
    · have hinner := newline_not_mem_labelText hkeys
      simpa [labelText] using hinner
  have hvalue : '\n' ∉ value.toChars := fun hmem => by
    have hspace := (valueText_toChars value).no_space _ hmem
    cases hspace
  simp [Reading.text, Metrics.sample, hlabels, hvalue, newline_not_mem_name hname]

lemma parse_readings {readings : List (Reading F)} (hnamed : ∀ r ∈ readings, r.WellNamed) :
    (readings.map Reading.text).flatMap (parsePrometheusText F)
      = readings.filterMap Reading.readBack := by
  rw [List.flatMap_map, List.filterMap_eq_flatMap_toList]
  refine List.flatMap_congr fun r hr => ?_
  rw [parse_line (newline_not_mem_text (hnamed r hr)), parseLine_text (hnamed r hr)]

/-- The reader finds the readings in a block. -/
def Shows (block : Text) (readings : List (Reading F)) : Prop :=
  parsePrometheusText F block = readings.filterMap Reading.readBack

lemma shows_lines {name help type : Text} {lines : List Text} {readings : List (Reading F)}
    (hname : '\n' ∉ name) (hhelp : '\n' ∉ help) (htype : '\n' ∉ type)
    (hlines : lines = readings.map Reading.text) (hnamed : ∀ r ∈ readings, r.WellNamed) :
    Shows (['\n'].intercalate (helpLine name help :: typeLine name type :: lines)) readings := by
  have hhelpLine : parsePrometheusText F (helpLine name help) = [] := by
    show parsePrometheusText F ('#' :: (" HELP ".toList ++ (name ++ ' ' :: help))) = []
    exact parse_comment (by simp [hname, hhelp])
  have htypeLine : parsePrometheusText F (typeLine name type) = [] := by
    show parsePrometheusText F ('#' :: (" TYPE ".toList ++ (name ++ ' ' :: type))) = []
    exact parse_comment (by simp [hname, htype])
  rw [Shows, parse_lines, List.flatMap_cons, List.flatMap_cons, hhelpLine, htypeLine, hlines,
    parse_readings hnamed]
  rfl

lemma shows_metricBlock {name help : Text} {type : MetricType} {lines keys : List Text}
    {entries : List (List Text × Amount F)}
    (hname : isWord isNameStart isNameChar name = true) (hhelp : '\n' ∉ help)
    (hkeys : LabelKeys keys) (hlines : lines = (family name keys entries).map Reading.text) :
    Shows (metricBlock name help type lines) (family name keys entries) := by
  refine shows_lines (newline_not_mem_name hname) hhelp ?_ hlines
    (wellNamed_family hname hkeys entries)
  cases type <;> decide

instance (keys : List Text) : Decidable (LabelKeys keys) :=
  decidable_of_iff ((∀ key ∈ keys, isLabelKey key = true) ∧ "__proto__".toList ∉ keys ∧ keys.Nodup)
    ⟨fun h => ⟨h.1, h.2.1, h.2.2⟩, fun h => ⟨h.words, h.proto, h.nodup⟩⟩

lemma shows_renderHistogram {name help : Text} {histogram : HistogramSnapshot F}
    (hname : '\n' ∉ name) (hhelp : '\n' ∉ help)
    (hwords : ∀ suffix ∈ ["_bucket".toList, "_sum".toList, "_count".toList],
      isWord isNameStart isNameChar (name ++ suffix) = true) :
    Shows (renderHistogram name help histogram) (histogram.readings name) := by
  refine shows_lines hname hhelp (by decide) ?_ ?_
  · simp [HistogramSnapshot.readings, family, Reading.text, Metrics.sample, formatLabels,
      List.map_append]
  · simp only [List.forall_mem_cons] at hwords
    obtain ⟨hbucket, hsum, hcount, -⟩ := hwords
    intro r hr
    rcases List.mem_append.1 hr with hr | hr
    · exact wellNamed_family hbucket (by decide) _ r hr
    · rcases List.mem_append.1 hr with hr | hr
      · exact wellNamed_family hsum (by decide) _ r hr
      · exact wellNamed_family hcount (by decide) _ r hr

lemma shows_blocks (input : MetricsSnapshotInput F) :
    List.Forall₂ Shows (renderBlocks input) input.families := by
  refine .cons ?_ (.cons ?_ (.cons ?_ (.cons ?_ (.cons ?_ (.cons ?_ (.cons ?_ (.cons ?_ (.cons ?_
    (.cons ?_ (.cons ?_ (.cons ?_ .nil)))))))))))
  · exact shows_metricBlock (by decide) (by decide) (by decide) rfl
  · exact shows_metricBlock (by decide) (by decide) (by decide) rfl
  · exact shows_metricBlock (by decide) (by decide +kernel) (by decide) rfl
  · exact shows_metricBlock (by decide) (by decide) (by decide) rfl
  · exact shows_metricBlock (by decide) (by decide) (by decide) rfl
  · exact shows_metricBlock (by decide) (by decide) (by decide) rfl
  · exact shows_metricBlock (by decide) (by decide) (by decide) rfl
  · exact shows_metricBlock (by decide) (by decide) (by decide) rfl
  · exact shows_metricBlock (by decide) (by decide) (by decide) rfl
  · refine shows_metricBlock (by decide) (by decide) (by decide) ?_
    simp [family, List.map_flatMap, Reading.text]
  · exact shows_metricBlock (by decide) (by decide) (by decide) rfl
  · exact shows_renderHistogram (by decide) (by decide) (by decide)

lemma flatMap_parse_of_shows {blocks : List Text} {families : List (List (Reading F))}
    (h : List.Forall₂ Shows blocks families) : blocks.flatMap (parsePrometheusText F)
      = families.flatten.filterMap Reading.readBack := by
  induction h with
  | nil => rfl
  | cons hblock _ ih =>
    rw [List.flatMap_cons, List.flatten_cons, List.filterMap_append, ih, hblock]

/-- What the reader finds on a page. -/
lemma parse_render (input : MetricsSnapshotInput F) :
    parsePrometheusText F (renderPrometheusMetrics input)
      = input.families.flatten.filterMap Reading.readBack := by
  rw [renderPrometheusMetrics, parse_append, parse_nil, List.append_nil, parse_blocks,
    flatMap_parse_of_shows (shows_blocks input)]

lemma clean_toChars (x : JsNumber F) : Clean x.toChars := by
  have hinfinity : Clean infinityChars := by decide
  have hnan : Clean "NaN".toList := by decide
  constructor
  · intro hmem
    rcases x.chars _ hmem with hnumeral | hmem | hmem
    · cases hnumeral
    · exact hinfinity.1 hmem
    · exact hnan.1 hmem
  · intro hmem
    rcases x.chars _ hmem with hnumeral | hmem | hmem
    · cases hnumeral
    · exact hinfinity.2 hmem
    · exact hnan.2 hmem

lemma readBack_histogram (histogram : HistogramSnapshot F) (name : Text) :
    ∀ r ∈ histogram.readings name, r.readBack = some r.sample := by
  simp only [HistogramSnapshot.readings, List.forall_mem_append]
  refine ⟨readBack_family ?_, readBack_family (by simp), readBack_family (by simp)⟩
  simp only [List.forall_mem_append, List.forall_mem_map, List.forall_mem_singleton]
  exact ⟨fun boundary _ => clean_toChars boundary.1, by decide⟩

/-- Samples by severity are read back. -/
lemma readBack_bySeverity (name key : Text) (value : Severity → Amount F) :
    ∀ r ∈ family name [key] (SEVERITIES.map fun s => ([s.name.toList], value s)),
      r.readBack = some r.sample := by
  refine readBack_family ?_
  simp only [List.forall_mem_map]
  decide

lemma readBack_alerts {name : Text} {channels : List Text} {counts : Text → AlertCounts F} :
    (∀ r ∈ family name ["channel".toList, "outcome".toList] (channels.flatMap fun channel =>
        [([channel, "delivered".toList], (counts channel).delivered),
          ([channel, "failed".toList], (counts channel).failed)]),
      r.readBack = some r.sample) ↔ ∀ channel ∈ channels, Clean channel := by
  constructor
  · intro hall channel hmem
    have hreading := hall ⟨name, ["channel".toList, "outcome".toList].zip
      [channel, "delivered".toList], (counts channel).delivered⟩
      (List.mem_map.2 ⟨_, List.mem_flatMap.2 ⟨channel, hmem, List.mem_cons_self⟩, rfl⟩)
    exact readBack_eq_iff.1 hreading _ List.mem_cons_self
  · intro hclean
    have hdelivered : Clean "delivered".toList := by decide
    have hfailed : Clean "failed".toList := by decide
    refine readBack_family fun entry hentry value hvalue => ?_
    obtain ⟨channel, hmem, hentry⟩ := List.mem_flatMap.1 hentry
    simp only [List.mem_cons, List.not_mem_nil, or_false] at hentry
    rcases hentry with rfl | rfl <;>
      simp only [List.mem_cons, List.not_mem_nil, or_false] at hvalue <;>
      rcases hvalue with rfl | rfl
    · exact hclean _ hmem
    · exact hdelivered
    · exact hclean _ hmem
    · exact hfailed

lemma mem_sortedChannels {channels : List Text} {channel : Text} :
    channel ∈ (channels.insertionSort fun a b => codeUnits a ≤ codeUnits b) ↔
      channel ∈ channels :=
  List.mem_insertionSort _

lemma clean_of_parse_render {input : MetricsSnapshotInput F}
    (h : parsePrometheusText F (renderPrometheusMetrics input) = input.samples) :
    ∀ channel ∈ input.alertsByChannel.keys, Clean channel := by
  rw [parse_render, MetricsSnapshotInput.samples, filterMap_eq_map_iff] at h
  simp only [List.forall_mem_flatten, MetricsSnapshotInput.families, List.forall_mem_cons] at h
  obtain ⟨-, -, -, -, -, -, -, -, -, halerts, -⟩ := h
  exact fun channel hmem => readBack_alerts.1 halerts channel (mem_sortedChannels.2 hmem)

lemma parse_render_of_clean {input : MetricsSnapshotInput F}
    (hclean : ∀ channel ∈ input.alertsByChannel.keys, Clean channel) :
    parsePrometheusText F (renderPrometheusMetrics input) = input.samples := by
  rw [parse_render, MetricsSnapshotInput.samples, filterMap_eq_map_iff]
  simp only [List.forall_mem_flatten, MetricsSnapshotInput.families, List.forall_mem_cons]
  have halerts : ∀ channel ∈ (input.alertsByChannel.keys.insertionSort fun a b =>
      codeUnits a ≤ codeUnits b), Clean channel := fun channel hmem =>
    hclean channel (mem_sortedChannels.1 hmem)
  refine ⟨readBack_bySeverity _ _ _, readBack_bySeverity _ _ _, readBack_family ?_,
    readBack_bySeverity _ _ _, readBack_family (by simp), readBack_family ?_,
    readBack_family (by simp), readBack_family ?_, readBack_family ?_,
    readBack_alerts.2 halerts, readBack_family (by simp), readBack_histogram _ _, by simp⟩
  · simp only [List.forall_mem_flatMap, List.forall_mem_map]
    decide
  · simp only [List.forall_mem_cons]
    exact ⟨by decide, by decide, nofun⟩
  · simp only [List.forall_mem_cons]
    exact ⟨by decide, by decide, nofun⟩
  · simp only [List.forall_mem_map]
    decide

/-- The page gives back the samples of the snapshot if and only if no channel of alerts has
a closing brace or a line break in its name. -/
theorem parse_render_eq_samples_iff (input : MetricsSnapshotInput F) :
    parsePrometheusText F (renderPrometheusMetrics input) = input.samples ↔
      ∀ channel ∈ input.alertsByChannel.keys, '}' ∉ channel ∧ '\n' ∉ channel := by
  constructor
  · exact clean_of_parse_render
  · exact parse_render_of_clean

/-- A snapshot with the alerts of one channel. -/
def alertSnapshot (channel : Text) : MetricsSnapshotInput .integers where
  signalCounters := ⟨fun _ => .ofRat 0, fun _ => .ofRat 0⟩
  droppedBySeverityAndReason _ _ := .ofRat 0
  bufferDepthBySeverity _ := .ofRat 0
  bufferFillFraction := .ofRat 0
  queueDepth := ⟨.ofRat 0, .ofRat 0, .ofRat 0⟩
  queueJobsCumulative := ⟨.ofRat 0, .ofRat 0⟩
  workItemsByState _ := none
  alertsByChannel := ⟨[channel], List.nodup_singleton _, fun _ => ⟨.ofRat 8, .ofRat 1⟩⟩
  escalationsTriggered := .ofRat 0
  latencyHistogram := ⟨[], [], .ofRat 0, .ofRat 0⟩

/-- The samples of one channel are lost, and a label of the other one is another text. -/
theorem channels_not_read_back :
    parsePrometheusText .integers (renderPrometheusMetrics (alertSnapshot "pager\x7d".toList))
        ≠ (alertSnapshot "pager\x7d".toList).samples ∧
      parsePrometheusText .integers (renderPrometheusMetrics (alertSnapshot "on\ncall".toList))
        ≠ (alertSnapshot "on\ncall".toList).samples := by
  constructor
  · intro h
    exact absurd (clean_of_parse_render h _ List.mem_cons_self) (by decide)
  · intro h
    exact absurd (clean_of_parse_render h _ List.mem_cons_self) (by decide)

end InveniOps.Metrics
