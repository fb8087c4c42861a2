import InveniOps.Ingestion.SignalRoutes

/-!
# The counters of the ingestion routes

The accepted counter is meant to count the signals that made it into the buffer.  A
request of which the buffer took a part leaves through the 503, and that part is not
counted.
-/

namespace InveniOps.Ingestion

open Lib RateLimit

variable {options : SignalBufferOptions}

/-! ### One request -/

/-- The signals of some submissions that the buffer took. -/
def taken (results : List (IngestionSignal × SubmitResult)) : List IngestionSignal :=
  (results.filter (·.2 = .accepted)).map (·.1)

/-- The signals of some submissions that the buffer did not take. -/
def refusedOf (results : List (IngestionSignal × SubmitResult)) : List IngestionSignal :=
  (results.filter (·.2 ≠ .accepted)).map (·.1)

/-- The signals that the routes count as accepted behind some submissions. -/
def counted (results : List (IngestionSignal × SubmitResult)) : List IngestionSignal :=
  if refusedOf results = [] then taken results else []

/-- The signals that the buffer took and the routes do not count. -/
def uncounted (results : List (IngestionSignal × SubmitResult)) : List IngestionSignal :=
  if refusedOf results = [] then [] else taken results

/-- The buffer takes all of the signals, one after the other, or none. -/
def TakesAllOrNone (buffers : BufferSystem options) (signals : List IngestionSignal) : Prop :=
  (∀ result ∈ buffers.submitResults signals, result.2 = .accepted) ∨
    ∀ result ∈ buffers.submitResults signals, result.2 ≠ .accepted

lemma uncounted_eq_nil_iff {buffers : BufferSystem options} {signals : List IngestionSignal} :
    uncounted (buffers.submitResults signals) = [] ↔ TakesAllOrNone buffers signals := by
  have hall : refusedOf (buffers.submitResults signals) = [] ↔
      ∀ result ∈ buffers.submitResults signals, result.2 = .accepted := by
    simp [refusedOf, List.filter_eq_nil_iff]
  have hnone : taken (buffers.submitResults signals) = [] ↔
      ∀ result ∈ buffers.submitResults signals, result.2 ≠ .accepted := by
    simp [taken, List.filter_eq_nil_iff]
  unfold uncounted TakesAllOrNone
  rw [← hall, ← hnone]
  split_ifs with hrefused
  · simp [hrefused]
  · simp [hrefused]

instance (buffers : BufferSystem options) (signals : List IngestionSignal) :
    Decidable (TakesAllOrNone buffers signals) := by
  delta TakesAllOrNone
  infer_instance

lemma map_fst_submitResults (buffers : BufferSystem options) (signals : List IngestionSignal) :
    (buffers.submitResults signals).map (·.1) = signals := by
  induction signals generalizing buffers with
  | nil => rfl
  | cons signal rest ih => simp [BufferSystem.submitResults, ih]

section

variable {results results' : List (IngestionSignal × SubmitResult)}

lemma taken_append : taken (results ++ results') = taken results ++ taken results' := by
  simp [taken]

lemma refusedOf_append : refusedOf (results ++ results')
    = refusedOf results ++ refusedOf results' := by
  simp [refusedOf]

/-- What the buffer took is counted or not. -/
lemma countP_taken (results : List (IngestionSignal × SubmitResult))
    (p : IngestionSignal → Bool) : (taken results).countP p
    = (counted results).countP p + (uncounted results).countP p := by
  unfold counted uncounted
  split_ifs <;> simp

/-- Every submission was taken or refused. -/
lemma countP_map_fst (results : List (IngestionSignal × SubmitResult))
    (p : IngestionSignal → Bool) : (results.map (·.1)).countP p
    = (taken results).countP p + (refusedOf results).countP p := by
  induction results with
  | nil => rfl
  | cons result rest ih =>
    simp only [taken, refusedOf] at ih ⊢
    by_cases hanswer : result.2 = .accepted
    · simp only [List.map_cons, List.countP_cons, ih, hanswer, List.filter_cons, decide_true,
        if_true, ne_eq, not_true_eq_false, decide_false, Bool.false_eq_true, if_false]
      omega
    · simp only [List.map_cons, List.countP_cons, ih, hanswer, List.filter_cons, decide_false,
        if_true, ne_eq, not_false_eq_true, decide_true, Bool.false_eq_true, if_false]
      omega

end

/-- What the loop of `submitOrReject` returns, by the answers that it got. -/
lemma submitOrReject_eq (buffers : BufferSystem options) (signals : List IngestionSignal) :
    (buffers.submitOrReject signals).1 = taken (buffers.submitResults signals) ∧
      (buffers.submitOrReject signals).2.1
        = (refusedOf (buffers.submitResults signals)).length := by
  induction signals generalizing buffers with
  | nil => exact ⟨rfl, rfl⟩
  | cons signal rest ih =>
    obtain ⟨htaken, hrefused⟩ := ih (buffers.submitted signal)
    simp only [BufferSystem.submitOrReject, BufferSystem.submitResults]
    split
    · rename_i hanswer
      simp only [hanswer, htaken, hrefused, taken, refusedOf]
      simp
    · rename_i hanswer
      simp only [hanswer, htaken, hrefused, taken, refusedOf]
      simp

lemma recordAll_apply (counter : Severity → ℕ) (signals : List IngestionSignal)
    (severity : Severity) : recordAll counter signals severity
      = counter severity + BufferSystem.countOf severity signals := by
  induction signals generalizing counter with
  | nil => rfl
  | cons signal rest ih =>
    have hrest := ih (Function.update counter signal.severity (counter signal.severity + 1))
    simp only [recordAll] at hrest
    rw [recordAll, List.foldl_cons, hrest, Function.update_apply, BufferSystem.countOf,
      BufferSystem.countOf, List.countP_cons]
    by_cases hseverity : severity = signal.severity
    · subst hseverity
      simp
      omega
    · simp [hseverity, Ne.symm hseverity]

namespace IngestSystem

variable {config : RouteConfig} {s s' t : IngestSystem options} {e : IngestEvent}
  {es : List IngestEvent}

/-! ### One event -/

variable (config) in
/-- The signals that an event submits. -/
def offered (s : IngestSystem options) : IngestEvent → List IngestionSignal
  | .limited k buckets now receivedAt uuids =>
    match s.waiting[k]? with
    | some request =>
      let result :=
        checkRateLimitFailOpen config.limits buckets request.ip request.signals.length now
      match config.limits.rateLimited result request.signals.length with
      | some _ => []
      | none => request.ingestionSignals receivedAt uuids
    | none => []
  | .bulkTest correlationId (.ok input) now uuids =>
    if config.bulkTestMaxCount < input.count then []
    else syntheticSignals input now correlationId uuids
  | _ => []

variable (config) in
/-- The answers of the buffer to the submissions of an event. -/
def resultsOf (s : IngestSystem options) (e : IngestEvent) :
    List (IngestionSignal × SubmitResult) :=
  s.buffers.submitResults (s.offered config e)

/-- The counters behind an event with the given submissions. -/
structure Counts (s s' : IngestSystem options) (results : List (IngestionSignal × SubmitResult)) :
    Prop where
  submissions : s'.submissions = s.submissions ++ results
  received : s'.received = recordAll s.received (results.map (·.1))
  accepted : s'.accepted = recordAll s.accepted (counted results)
  throughput : s'.reported + s'.throughput
    = s.reported + s.throughput + (counted results).length

lemma counts_submitSignals (s : IngestSystem options) (signals : List IngestionSignal)
    (headers : Option RateLimitHeaders) (body : List IngestionSignal → ResponseBody) :
    Counts s (s.submitSignals signals headers body) (s.buffers.submitResults signals) := by
  obtain ⟨htaken, hrefused⟩ := submitOrReject_eq s.buffers signals
  have hfst := map_fst_submitResults s.buffers signals
  by_cases hdropped : refusedOf (s.buffers.submitResults signals) = []
  · have hzero : ¬ (s.buffers.submitOrReject signals).2.1 > 0 := by simp [hrefused, hdropped]
    constructor <;>
      simp [submitSignals, respond, hzero, htaken, counted, hdropped, hfst, Nat.add_assoc]
  · have hpos : (s.buffers.submitOrReject signals).2.1 > 0 := by
      rw [hrefused]
      exact List.length_pos_of_ne_nil hdropped
    constructor <;> simp [submitSignals, respond, hpos, counted, hdropped, hfst, recordAll]

lemma Counts.of_same (hsubmissions : s'.submissions = s.submissions)
    (hreceived : s'.received = s.received) (haccepted : s'.accepted = s.accepted)
    (hthroughput : s'.reported + s'.throughput = s.reported + s.throughput) : Counts s s' [] :=
  ⟨by simp [hsubmissions], hreceived, haccepted, hthroughput⟩

/-- What an event does to the counters. -/
lemma counts_of_step (h : s.step config e = some s') : Counts s s' (s.resultsOf config e) := by
  cases e with
  | ingest ip correlationId body =>
    obtain rfl := Option.some.inj h
    simp only [resultsOf, offered, BufferSystem.submitResults, onIngest]
    split <;> exact .of_same rfl rfl rfl rfl
  | limited k buckets now receivedAt uuids =>
    simp only [step] at h
    split at h
    · rename_i request hrequest
      obtain rfl := Option.some.inj h
      simp only [resultsOf, offered, hrequest, onLimited]
      cases config.limits.rateLimited (checkRateLimitFailOpen config.limits buckets request.ip
        request.signals.length now) request.signals.length with
      | some limited => exact .of_same rfl rfl rfl rfl
      | none =>
        have hcounts := counts_submitSignals { s with waiting := s.waiting.eraseIdx k }
        exact ⟨(hcounts _ _ _).submissions, (hcounts _ _ _).received, (hcounts _ _ _).accepted,
          (hcounts _ _ _).throughput⟩
    · cases h
  | bulkTest correlationId input now uuids =>
    obtain rfl := Option.some.inj h
    cases input with
    | error issues => exact .of_same rfl rfl rfl rfl
    | ok input =>
      simp only [resultsOf, offered, onBulkTest]
      split_ifs
      · exact .of_same rfl rfl rfl rfl
      · exact counts_submitSignals s _ _ _
  | report =>
    obtain rfl := Option.some.inj h
    exact .of_same rfl rfl rfl rfl
  | buffer event =>
    cases event with
    | submit signal => cases h
    | start | stop | tick | drainAll _ _ _ | settle _ _ | resume _ _ =>
      simp only [step, Option.map_eq_some_iff] at h
      obtain ⟨buffers, -, rfl⟩ := h
      exact .of_same rfl rfl rfl rfl

/-! ### Runs -/

/-- The calls of `submit` for a severity that returned `accepted: true`. -/
def acceptedSubmits (s : IngestSystem options) (severity : Severity) : ℕ :=
  BufferSystem.countOf severity (taken s.submissions)

/-- The calls of `submit` for a severity that returned `accepted: false`. -/
def rejectedSubmits (s : IngestSystem options) (severity : Severity) : ℕ :=
  BufferSystem.countOf severity (refusedOf s.submissions)

/-- The counters say what the buffer did. -/
structure Truthful (s : IngestSystem options) : Prop where
  accepted : ∀ severity, s.accepted severity = s.acceptedSubmits severity
  throughput : s.reported + s.throughput = (taken s.submissions).length
  received : ∀ severity,
    s.received severity = s.acceptedSubmits severity + s.rejectedSubmits severity

/-- How far the buffer runs ahead of the counter in one event. -/
lemma accepted_of_step (config : RouteConfig) (severity : Severity)
    (s : IngestSystem options) (e : IngestEvent) (s' : IngestSystem options)
    (h : s.step config e = some s') :
    s'.acceptedSubmits severity + s.accepted severity
      = s'.accepted severity + s.acceptedSubmits severity
        + (uncounted (s.resultsOf config e)).countP (·.severity = severity) := by
  have hcounts := counts_of_step h
  rw [acceptedSubmits, acceptedSubmits, hcounts.submissions, hcounts.accepted, recordAll_apply,
    taken_append]
  simp only [BufferSystem.countOf, List.countP_append]
  rw [countP_taken (s.resultsOf config e)]
  omega

lemma throughput_of_step (config : RouteConfig) (s : IngestSystem options) (e : IngestEvent)
    (s' : IngestSystem options) (h : s.step config e = some s') :
    (taken s'.submissions).length + (s.reported + s.throughput)
      = s'.reported + s'.throughput + (taken s.submissions).length
        + (uncounted (s.resultsOf config e)).countP (fun _ => true) := by
  have hcounts := counts_of_step h
  have htaken := countP_taken (s.resultsOf config e) fun _ => true
  simp only [List.countP_true] at htaken ⊢
  rw [hcounts.submissions, hcounts.throughput, taken_append, List.length_append, htaken]
  omega

/-- The received counter counts every submission. -/
lemma received_of_run (hrun : (lts config options).run (init options) es = some s)
    (severity : Severity) :
    s.received severity = s.acceptedSubmits severity + s.rejectedSubmits severity := by
  have hstep : ∀ (s : IngestSystem options) e s',
      s.received severity = s.acceptedSubmits severity + s.rejectedSubmits severity →
      (lts config options).step s e = some s' →
        s'.received severity = s'.acceptedSubmits severity + s'.rejectedSubmits severity := by
    intro s e s' hreceived h
    have hcounts := counts_of_step h
    have hall := countP_map_fst (s.resultsOf config e) (·.severity = severity)
    simp only [acceptedSubmits, rejectedSubmits, BufferSystem.countOf] at hreceived
    rw [acceptedSubmits, rejectedSubmits, hcounts.submissions, hcounts.received, recordAll_apply,
      taken_append, refusedOf_append]
    simp only [BufferSystem.countOf, List.countP_append]
    omega
  exact Lts.run_invariant
    (I := fun s => s.received severity = s.acceptedSubmits severity + s.rejectedSubmits severity)
    hstep hrun rfl

/-- The counters say what the buffer did if and only if it took all of the signals of a
request, or none, whenever one was handled. -/
theorem truthful_iff_of_run (hrun : (lts config options).run (init options) es = some s) :
    s.Truthful ↔ (lts config options).Meets
      (fun s e => TakesAllOrNone s.buffers (s.offered config e)) (init options) es := by
  have hmeets : (fun (s : IngestSystem options) e => TakesAllOrNone s.buffers (s.offered config e))
      = fun s e => uncounted (s.resultsOf config e) = [] := by
    funext s e
    exact propext uncounted_eq_nil_iff.symm
  rw [hmeets, ← Lts.emitted_eq_nil_iff hrun]
  have hthroughput := Lts.run_ahead (throughput_of_step config) hrun
  rw [List.countP_true] at hthroughput
  -- at the start both measures are zero
  change (taken s.submissions).length = s.reported + s.throughput + List.length _ at hthroughput
  constructor
  · intro htruthful
    have hzero := htruthful.throughput
    exact List.length_eq_zero_iff.1 (by omega)
  · intro hnil
    rw [hnil] at hthroughput
    refine ⟨fun severity => ?_, hthroughput.symm, received_of_run hrun⟩
    have haccepted := Lts.run_ahead (accepted_of_step config severity) hrun
    rw [hnil] at haccepted
    exact haccepted.symm

/-- The defaults of `config/index.ts`. -/
def standardConfig : RouteConfig := ⟨500, 20000, RateLimits.standard⟩

/-- A P1 signal of a cache component, as the schema returns it. -/
def cacheInput (signalId : SignalId) : Except (List Issue) SignalInput :=
  .ok ⟨some signalId, "c", .CACHE, .P1, .null, 0⟩

/-- Two requests for one signal each; the second finds the buffer full. -/
def smallEvents : List IngestEvent :=
  [.ingest "ip" "req-1" (.single (cacheInput "a")), .ingest "ip" "req-2" (.single (cacheInput "b")),
    .limited 1 none 0 0 (fun _ => ""), .report, .limited 0 none 0 0 (fun _ => "")]

theorem truthful_of_smallEvents : ∃ s : IngestSystem BufferSystem.tinyOptions,
    (lts standardConfig _).run (init _) smallEvents = some s ∧ s.Truthful ∧
      s.responses.map (·.status) = [202, 503] := by
  have hobserved : ((lts standardConfig BufferSystem.tinyOptions).run (init _) smallEvents).map
      (fun s => s.responses.map (·.status)) = some [202, 503] := by
    decide +kernel
  have hmeets : (lts standardConfig BufferSystem.tinyOptions).Meets
      (fun s e => TakesAllOrNone s.buffers (s.offered standardConfig e)) (init _) smallEvents := by
    decide +kernel
  obtain ⟨s, hrun, hs⟩ := Option.map_eq_some_iff.1 hobserved
  exact ⟨s, hrun, (truthful_iff_of_run hrun).2 hmeets, hs⟩

/-- One request for two signals, of which the buffer takes one. -/
def partlyEvents : List IngestEvent :=
  [.ingest "ip" "req-1" (.batch [cacheInput "a", cacheInput "b"]),
    .limited 0 none 0 0 (fun _ => "")]

/-- The part that the buffer took is not counted as accepted. -/
theorem partly_accepted_uncounted : ¬ ∀ (config : RouteConfig) (options : SignalBufferOptions) es s,
    (lts config options).run (init options) es = some s → s.Truthful := by
  intro hclaim
  have hobserved : ((lts standardConfig BufferSystem.tinyOptions).run (init _) partlyEvents).map
      (fun s => (s.accepted .P1, s.acceptedSubmits .P1)) = some (0, 1) := by
    decide +kernel
  obtain ⟨s, hrun, hs⟩ := Option.map_eq_some_iff.1 hobserved
  have haccepted := (hclaim _ _ _ s hrun).accepted .P1
  simp only [Prod.mk.injEq] at hs
  omega

end IngestSystem

end InveniOps.Ingestion
