import Mathlib.Data.List.Induction
import InveniOps.Analytics.MetricsQueries

/-!
# The volume points of a batch

`buildSignalVolumePoints` of `workers/processBatch.ts` writes one point for each
component and severity of a batch.  The queries give the answers that one point for
each signal would have given.
-/

namespace InveniOps.Analytics

open Lib Domain

/-- An entry of `counts`. -/
structure VolumeEntry where
  componentId : ComponentId
  severity : Severity
  count : ℕ

/-- The key of the map that counts the signals. -/
def volumeKey (componentId : ComponentId) (severity : Severity) : String :=
  componentId ++ "\x00" ++ severity.name

/-- One round of the loop over the signals; a `Map` keeps its keys in the order in which
they came. -/
def addSignal (counts : List (String × VolumeEntry)) (signal : IngestionSignal) :
    List (String × VolumeEntry) :=
  match counts with
  | [] => [(volumeKey signal.componentId signal.severity, ⟨signal.componentId, signal.severity, 1⟩)]
  | (key, entry) :: rest =>
    if key = volumeKey signal.componentId signal.severity then
      (key, { entry with count := entry.count + 1 }) :: rest
    else (key, entry) :: addSignal rest signal

/-- The document of an entry of the map. -/
def VolumeEntry.toPoint (ts : Instant) (entry : VolumeEntry) : SignalVolumePoint :=
  ⟨ts, entry.componentId, entry.severity.name, entry.count⟩

/-- The documents of a batch, all with one timestamp. -/
def buildSignalVolumePoints (ts : Instant) (signals : List IngestionSignal) :
    List SignalVolumePoint :=
  if signals.length = 0 then []
  else (signals.foldl addSignal []).map fun counted => counted.2.toPoint ts

/-- What one point for the signal alone would be. -/
def signalPoint (ts : Instant) (signal : IngestionSignal) : SignalVolumePoint :=
  ⟨ts, signal.componentId, signal.severity.name, 1⟩

/-! ### The keys of the map -/

lemma severityName_injective : Function.Injective Severity.name := by
  intro s s' h
  cases s <;> cases s' <;> first | rfl | exact absurd h (by decide)

lemma length_severityName (s : Severity) : s.name.toList.length = 2 := by
  cases s <;> rfl

/-- The character that separates the two parts of a key may also be in a component's id, yet
the severity at the end has a fixed length. -/
lemma volumeKey_inj {c c' : ComponentId} {s s' : Severity} :
    volumeKey c s = volumeKey c' s' ↔ c = c' ∧ s = s' := by
  constructor
  · intro h
    have hchars := congrArg String.toList h
    simp only [volumeKey, String.toList_append, List.append_assoc] at hchars
    have hlength : ("\x00".toList ++ s.name.toList).length =
        ("\x00".toList ++ s'.name.toList).length := by
      simp only [List.length_append, length_severityName]
    obtain ⟨hc, hs⟩ := List.append_inj' hchars hlength
    exact ⟨String.toList_inj.1 hc,
      severityName_injective (String.toList_inj.1 (List.append_cancel_left hs))⟩
  · rintro ⟨rfl, rfl⟩
    rfl

/-- Every entry is stored under the key of its component and severity. -/
def Keyed (counts : List (String × VolumeEntry)) : Prop :=
  ∀ counted ∈ counts, counted.1 = volumeKey counted.2.componentId counted.2.severity

lemma Keyed.addSignal {counts : List (String × VolumeEntry)} (h : Keyed counts)
    (signal : IngestionSignal) : Keyed (addSignal counts signal) := by
  induction counts with
  | nil => simp [Keyed, Analytics.addSignal]
  | cons counted rest ih =>
    obtain ⟨hhead, hrest⟩ := List.forall_mem_cons.1 h
    unfold Analytics.addSignal
    split_ifs
    · exact List.forall_mem_cons.2 ⟨hhead, hrest⟩
    · exact List.forall_mem_cons.2 ⟨hhead, ih hrest⟩

/-! ### A batch -/

/-- The finest key that the queries group by. -/
def pointKey (p : SignalVolumePoint) : Lex (Instant × Lex (String × String)) :=
  toLex (p.ts, toLex (p.componentId, p.severity))

/-- The points of the entries, together with one for a signal, have the groups of the points
behind the signal's round. -/
lemma groupSum_addSignal {counts : List (String × VolumeEntry)} (h : Keyed counts) (ts : Instant)
    (signal : IngestionSignal) :
    groupSum pointKey (·.count) ((addSignal counts signal).map fun c => c.2.toPoint ts) =
      groupSum pointKey (·.count)
        (signalPoint ts signal :: counts.map fun c => c.2.toPoint ts) := by
  induction counts with
  | nil => rfl
  | cons counted rest ih =>
    obtain ⟨key, entry⟩ := counted
    obtain ⟨hhead, hrest⟩ := List.forall_mem_cons.1 h
    simp only at hhead
    unfold addSignal
    split_ifs with hkey
    · obtain ⟨hcomponent, hseverity⟩ := volumeKey_inj.1 (hhead.symm.trans hkey)
      have hsame : pointKey (signalPoint ts signal) = pointKey (entry.toPoint ts) := by
        simp only [pointKey, signalPoint, VolumeEntry.toPoint, hcomponent, hseverity]
      have hcounted : pointKey ({ entry with count := entry.count + 1 }.toPoint ts) =
        pointKey (entry.toPoint ts) := rfl
      refine groupSum_congr (fun k => ?_) fun k => ?_
      · simp [hsame, hcounted]
      · simp only [List.map_cons, total_cons, hsame, hcounted]
        split_ifs
        · simp only [signalPoint, VolumeEntry.toPoint]
          omega
        · omega
    · have hrows := groupSum_append_congr (rfl : groupSum pointKey (·.count) [entry.toPoint ts] = _)
        (ih hrest)
      exact hrows.trans (groupSum_perm (List.Perm.swap ..))

lemma keyed_foldl (signals : List IngestionSignal) : Keyed (signals.foldl addSignal []) := by
  induction signals using List.reverseRecOn with
  | nil => simp [Keyed]
  | append_singleton signals signal ih =>
    rw [List.foldl_concat]
    exact ih.addSignal signal

/-- The points of a batch have the groups of its signals. -/
lemma groupSum_buildSignalVolumePoints (ts : Instant) (signals : List IngestionSignal) :
    groupSum pointKey (·.count) (buildSignalVolumePoints ts signals) =
      groupSum pointKey (·.count) (signals.map (signalPoint ts)) := by
  have hfold : groupSum pointKey (·.count)
      ((signals.foldl addSignal []).map fun c => c.2.toPoint ts) =
        groupSum pointKey (·.count) (signals.map (signalPoint ts)) := by
    induction signals using List.reverseRecOn with
    | nil => rfl
    | append_singleton signals signal ih =>
      rw [List.foldl_concat, groupSum_addSignal (keyed_foldl signals), List.map_append]
      have hrows := groupSum_append_congr
        (rfl : groupSum pointKey (·.count) [signalPoint ts signal] = _) ih
      exact hrows.trans (groupSum_perm (List.perm_append_comm))
  unfold buildSignalVolumePoints
  split_ifs with hempty
  · rw [List.length_eq_zero_iff.1 hempty]
    rfl
  · exact hfold

/-! ### What the queries see -/

section Queries

variable {points points' : List SignalVolumePoint}
  (h : groupSum pointKey (·.count) points = groupSum pointKey (·.count) points')

include h

lemma groupSum_filter_congr (p : Lex (Instant × Lex (String × String)) → Bool) :
    groupSum pointKey (·.count) (points.filter fun x => p (pointKey x)) =
      groupSum pointKey (·.count) (points'.filter fun x => p (pointKey x)) := by
  rw [groupSum_filter, groupSum_filter, h]

lemma queryThroughput_congr (since until' : Instant) (interval : BucketSpec) :
    queryThroughput points since until' interval =
      queryThroughput points' since until' interval := by
  have hrange := groupSum_filter_congr h fun k => inRange since until' (ofLex k).1
  have hcoarse (l : List SignalVolumePoint) :=
    groupSum_groupSum pointKey (·.count) l fun k =>
      bucketKey (dateTrunc interval (ofLex k).1) (ofLex k).2
  have hrows : bucketCounts (·.ts) (fun p : SignalVolumePoint => toLex (p.componentId, p.severity))
        (·.count) points since until' interval =
      bucketCounts (·.ts) (fun p => toLex (p.componentId, p.severity)) (·.count) points' since
        until' interval :=
    calc _ = _ := (hcoarse (points.filter fun p => inRange since until' p.ts)).symm
      _ = _ := congrArg _ hrange
      _ = _ := hcoarse (points'.filter fun p => inRange since until' p.ts)
  rw [queryThroughput, queryThroughput, hrows]

lemma queryComponentHealth_congr {ν : Type} (avg : List ν → ν) (mttr : List (MttrPoint ν))
    (componentId : String) (recentSince : Instant) :
    queryComponentHealth avg points mttr componentId recentSince =
      queryComponentHealth avg points' mttr componentId recentSince := by
  have hrecent := groupSum_filter_congr h fun k =>
    decide ((ofLex (ofLex k).2).1 = componentId) && decide (recentSince ≤ (ofLex k).1)
  have hsum := congrArg (fun rows => (rows.map Prod.snd).sum) hrecent
  simp only [sum_groupSum] at hsum
  rw [queryComponentHealth, queryComponentHealth]
  exact congrArg (ComponentHealthAggregate.mk · _) hsum

end Queries

/-- The collection after the batches of a history, each with the instant of its write and the
signals that its insertion reported. -/
def volumePoints (history : List (Instant × List IngestionSignal)) : List SignalVolumePoint :=
  history.flatMap fun batch => buildSignalVolumePoints batch.1 batch.2

/-- One point for each signal of the history. -/
def signalPoints (history : List (Instant × List IngestionSignal)) : List SignalVolumePoint :=
  history.flatMap fun batch => batch.2.map (signalPoint batch.1)

lemma groupSum_volumePoints (history : List (Instant × List IngestionSignal)) :
    groupSum pointKey (·.count) (volumePoints history) =
      groupSum pointKey (·.count) (signalPoints history) := by
  induction history with
  | nil => rfl
  | cons batch history ih =>
    exact groupSum_append_congr (groupSum_buildSignalVolumePoints batch.1 batch.2) ih

/-- The signals of a range are those of its batches. -/
lemma sum_signalPoints (history : List (Instant × List IngestionSignal)) (since until' : Instant) :
    (((signalPoints history).filter fun p => inRange since until' p.ts).map (·.count)).sum =
      ((history.filter fun batch => inRange since until' batch.1).map (·.2.length)).sum := by
  induction history with
  | nil => rfl
  | cons batch history ih =>
    have hbatch : (((batch.2.map (signalPoint batch.1)).filter fun p =>
        inRange since until' p.ts).map (·.count)).sum =
          if inRange since until' batch.1 then batch.2.length else 0 := by
      rw [List.filter_map, List.map_map]
      split_ifs with hin <;> simp [Function.comp_def, signalPoint, hin]
    rw [signalPoints, List.flatMap_cons, List.filter_append, List.map_append, List.sum_append,
      hbatch, ← signalPoints, ih, List.filter_cons]
    split_ifs <;> simp

/-- **Points of batches.**  Whatever the batches and the order in which their points were
stored, the queries give the answers that one point for each signal would give, and the counts
of a range add up to its signals. -/
theorem queries_of_batches {ν : Type} (avg : List ν → ν) {stored : List SignalVolumePoint}
    {history : List (Instant × List IngestionSignal)} (h : stored.Perm (volumePoints history)) :
    (∀ since until' n, getThroughput stored since until' n =
      getThroughput (signalPoints history) since until' n) ∧
    (∀ since until' n response, getThroughput stored since until' n = .ok response →
      (response.points.map (·.count)).sum =
        ((history.filter fun batch => inRange since until' batch.1).map (·.2.length)).sum) ∧
    ∀ mttr componentId recentSince,
      queryComponentHealth avg stored mttr componentId recentSince =
        queryComponentHealth avg (signalPoints history) mttr componentId recentSince := by
  have hgroups := (groupSum_perm h).trans (groupSum_volumePoints history)
  have hthroughput : ∀ since until' n, getThroughput stored since until' n =
      getThroughput (signalPoints history) since until' n := fun since until' n => by
    have hquery : queryThroughput stored since until' =
        queryThroughput (signalPoints history) since until' :=
      funext (queryThroughput_congr hgroups since until')
    rw [getThroughput, getThroughput, hquery]
  refine ⟨hthroughput, fun since until' n response hresponse => ?_,
    queryComponentHealth_congr hgroups avg⟩
  rw [hthroughput] at hresponse
  obtain ⟨interval, _, hpoints⟩ := rangeResponse_ok hresponse
  have hsum := sum_bucketCounts (·.ts) (fun p => toLex (p.componentId, p.severity)) (·.count)
    (signalPoints history) since until' interval
  rw [hpoints, queryThroughput, List.map_map, List.map_map, ← sum_signalPoints, ← hsum]
  rfl

/-- Two batches whose points are stored in the reverse order. -/
theorem queries_of_batches_of_reversed :
    let history := [(0, [cacheSignal "s1" "CACHE_1" .P0, cacheSignal "s2" "CACHE_1" .P0]),
      (60000, [cacheSignal "s3" "CACHE_1" .P1, cacheSignal "s4" "CACHE_2" .P1])]
    let stored := (volumePoints history).reverse
    stored ≠ volumePoints history ∧
      ∀ since until' n, getThroughput stored since until' n =
        getThroughput (signalPoints history) since until' n := by
  intro history stored
  exact ⟨by decide +kernel,
    (queries_of_batches (fun xs : List ℕ => xs.sum) (List.reverse_perm _)).1⟩

end InveniOps.Analytics
