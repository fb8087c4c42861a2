import Mathlib.Algebra.BigOperators.Fin
import Mathlib.Algebra.Order.BigOperators.Group.Finset
import Mathlib.Data.List.Nodup
import Mathlib.Logic.Function.Basic
import InveniOps.Lib.Lts

/-!
# The metrics collections

`ensureCollections` of `repositories/metrics/metricsRepository.ts`.  Any number of starting
processes call it on one database; each call lists the collections once and then creates the
missing ones, one command after the other.
-/

namespace InveniOps.Stores

open Lib

/-- A time series and how long its points are kept. -/
structure SeriesDefinition where
  name : String
  retentionSeconds : ℕ
deriving DecidableEq

/-- The shorter retention. -/
def THIRTY_DAYS_SECONDS : ℕ := 30 * 24 * 60 * 60

/-- The longer retention. -/
def NINETY_DAYS_SECONDS : ℕ := 90 * 24 * 60 * 60

/-- The series of signals. -/
def SIGNAL_VOLUME : SeriesDefinition := ⟨"signal_volume_metrics", THIRTY_DAYS_SECONDS⟩

/-- The series of new work items. -/
def WORKITEM_CREATED : SeriesDefinition := ⟨"workitem_created_metrics", NINETY_DAYS_SECONDS⟩

/-- The series of transitions. -/
def STATE_TRANSITION : SeriesDefinition := ⟨"state_transition_metrics", THIRTY_DAYS_SECONDS⟩

/-- The series of repair times. -/
def MTTR : SeriesDefinition := ⟨"mttr_metrics", NINETY_DAYS_SECONDS⟩

/-- The series of alerts. -/
def ALERT_DISPATCH : SeriesDefinition := ⟨"alert_dispatch_metrics", THIRTY_DAYS_SECONDS⟩

/-- The series, in the order of their creation. -/
def ALL_SERIES : List SeriesDefinition :=
  [SIGNAL_VOLUME, WORKITEM_CREATED, STATE_TRANSITION, MTTR, ALERT_DISPATCH]

/-! ### The database -/

/-- The options of a time series. -/
structure TimeSeries where
  timeField : String
  metaField : String
  granularity : String
deriving DecidableEq

/-- A collection with the options it was created with. -/
structure Collection where
  name : String
  timeseries : Option TimeSeries
  expireAfterSeconds : Option ℕ
deriving DecidableEq

/-- What `createCollection` throws if the collection exists. -/
inductive CreateError
  | namespaceExists (name : String)
deriving DecidableEq

/-- The collections of a database, which differ in their names. -/
structure Db where
  collections : List Collection
  name_unique : (collections.map (·.name)).Nodup

namespace Db

/-- The database without collections. -/
def empty : Db := ⟨[], List.nodup_nil⟩

variable (db : Db)

/-- The answer to `listCollections`, by name. -/
def names : List String := db.collections.map (·.name)

/-- `createCollection`; it fails if the name is taken. -/
def createCollection (collection : Collection) : Except CreateError Db :=
  if h : collection.name ∈ db.names then .error (.namespaceExists collection.name)
  else .ok ⟨db.collections ++ [collection], by
    rw [List.map_append]
    exact db.name_unique.append (List.nodup_singleton _) (by simpa [names] using h)⟩

variable {db}

lemma createCollection_of_mem {collection : Collection} (h : collection.name ∈ db.names) :
    db.createCollection collection = .error (.namespaceExists collection.name) := dif_pos h

lemma createCollection_of_not_mem {collection : Collection} (h : collection.name ∉ db.names) :
    ∃ db', db.createCollection collection = .ok db' ∧
      db'.names = db.names ++ [collection.name] := by
  refine ⟨_, dif_neg h, ?_⟩
  simp [names]

end Db

/-- The options of the collection that `ensureCollections` creates for a series. -/
def SeriesDefinition.toCollection (series : SeriesDefinition) : Collection where
  name := series.name
  timeseries := some ⟨"ts", "dims", "minutes"⟩
  expireAfterSeconds := some series.retentionSeconds

/-! ### The calls -/

/-- Where a call of `ensureCollections` is. -/
inductive EnsurePc
  /-- At `listCollections`. -/
  | listing
  /-- At `createCollection` of a series, with the series that the loop has before it. -/
  | creating (existingNames : List String) (series : SeriesDefinition)
      (rest : List SeriesDefinition)
  | returned
  | rejected (e : CreateError)
deriving DecidableEq

namespace EnsurePc

/-- The loop up to its next `await`: series that were listed are skipped. -/
def next (existingNames : List String) : List SeriesDefinition → EnsurePc
  | [] => .returned
  | series :: rest =>
    if series.name ∈ existingNames then next existingNames rest
    else .creating existingNames series rest

/-- Whether the call has resolved or rejected. -/
def isOver : EnsurePc → Bool
  | .returned | .rejected _ => true
  | _ => false

/-- How many commands the call still sends at most. -/
def left : EnsurePc → ℕ
  | .listing => ALL_SERIES.length + 1
  | .creating _ _ rest => rest.length + 1
  | _ => 0

/-- The names of the collections that the call has yet to create. -/
def pending : EnsurePc → List String
  | .creating existingNames series rest =>
    ((series :: rest).filter (·.name ∉ existingNames)).map (·.name)
  | _ => []

end EnsurePc

/-- The database and the calls of `n` processes. -/
structure StartUp (n : ℕ) where
  db : Db
  calls : Fin n → EnsurePc

namespace StartUp

variable {n : ℕ}

/-- All calls made, none listed yet. -/
def start (n : ℕ) (db : Db) : StartUp n := ⟨db, fun _ => .listing⟩

/-- The next command of the `k`-th call. -/
def step (s : StartUp n) (k : Fin n) : Option (StartUp n) :=
  match s.calls k with
  | .listing =>
    some { s with calls := Function.update s.calls k (.next s.db.names ALL_SERIES) }
  | .creating existingNames series rest =>
    match s.db.createCollection series.toCollection with
    | .ok db => some ⟨db, Function.update s.calls k (.next existingNames rest)⟩
    | .error e => some { s with calls := Function.update s.calls k (.rejected e) }
  | .returned | .rejected _ => none

/-- The calls of `n` processes on one database as a transition system. -/
def lts (n : ℕ) : Lts (StartUp n) (Fin n) := ⟨step⟩

/-- How a command of the `k`-th call ends. -/
inductive Steps (s : StartUp n) (k : Fin n) (s' : StartUp n) : Prop
  | listed (listing : s.calls k = .listing) (db : s'.db = s.db)
      (calls : s'.calls = Function.update s.calls k (.next s.db.names ALL_SERIES))
  | created {existingNames : List String} {series : SeriesDefinition}
      {rest : List SeriesDefinition} (creating : s.calls k = .creating existingNames series rest)
      (fresh : series.name ∉ s.db.names) (names : s'.db.names = s.db.names ++ [series.name])
      (calls : s'.calls = Function.update s.calls k (.next existingNames rest))
  | refused {existingNames : List String} {series : SeriesDefinition}
      {rest : List SeriesDefinition} (creating : s.calls k = .creating existingNames series rest)
      (mem : series.name ∈ s.db.names) (db : s'.db = s.db)
      (calls : s'.calls
        = Function.update s.calls k (.rejected (.namespaceExists series.name)))

lemma steps_of_step {s s' : StartUp n} {k : Fin n} (h : s.step k = some s') : Steps s k s' := by
  unfold step at h
  split at h
  · rename_i hlisting
    cases h
    exact .listed hlisting rfl rfl
  · rename_i existingNames series rest hcreating
    by_cases hmem : series.name ∈ s.db.names
    · have hrefused : s.db.createCollection series.toCollection
          = .error (.namespaceExists series.name) := Db.createCollection_of_mem hmem
      rw [hrefused] at h
      cases h
      exact .refused hcreating hmem rfl rfl
    · obtain ⟨db', hok, hnames⟩ : ∃ db', s.db.createCollection series.toCollection = .ok db' ∧
          db'.names = s.db.names ++ [series.name] := Db.createCollection_of_not_mem hmem
      rw [hok] at h
      cases h
      exact .created hcreating hmem hnames rfl
  · cases h
  · cases h

end StartUp

/-! ### What a call has yet to create -/

namespace EnsurePc

variable {existingNames : List String} {series : SeriesDefinition} {rest : List SeriesDefinition}

lemma pending_next (l : List SeriesDefinition) : (next existingNames l).pending
    = (l.filter (·.name ∉ existingNames)).map (·.name) := by
  induction l with
  | nil => rfl
  | cons series rest ih =>
    unfold next
    split_ifs with hmem
    · simp [ih, hmem]
    · rfl

/-- The call is at a series that it has not listed, and comes to no series twice. -/
def Wf : EnsurePc → Prop
  | .creating existingNames series rest =>
    series.name ∉ existingNames ∧ ((series :: rest).map (·.name)).Nodup
  | _ => True

lemma wf_next {l : List SeriesDefinition} (h : (l.map (·.name)).Nodup) :
    (next existingNames l).Wf := by
  induction l with
  | nil => trivial
  | cons series rest ih =>
    unfold next
    split_ifs with hmem
    · exact ih (List.nodup_cons.1 h).2
    · exact ⟨hmem, h⟩

lemma Wf.pending_eq (h : (creating existingNames series rest).Wf) :
    (creating existingNames series rest).pending
      = series.name :: (next existingNames rest).pending := by
  rw [pending_next, pending, List.filter_cons_of_pos (by simpa using h.1), List.map_cons]

lemma Wf.not_mem_pending_next (h : (creating existingNames series rest).Wf) :
    series.name ∉ (next existingNames rest).pending := by
  rw [pending_next]
  intro hmem
  refine (List.nodup_cons.1 h.2).1 ?_
  exact (List.filter_sublist.map _).subset hmem

lemma left_next (l : List SeriesDefinition) : (next existingNames l).left ≤ l.length := by
  induction l with
  | nil => exact Nat.le_refl 0
  | cons series rest ih =>
    unfold next
    split_ifs
    · exact ih.trans (Nat.le_succ _)
    · exact le_rfl

lemma next_ne_rejected (l : List SeriesDefinition) (e : CreateError) :
    next existingNames l ≠ .rejected e := by
  induction l with
  | nil => exact fun h => (nomatch h)
  | cons series rest ih =>
    unfold next
    split_ifs
    · exact ih
    · exact fun h => (nomatch h)

end EnsurePc

namespace StartUp

variable {n : ℕ} {s s' t : StartUp n} {k : Fin n}

/-- Every call that has listed comes to all collections that are still missing. -/
structure Inv (s : StartUp n) : Prop where
  wf : ∀ k, (s.calls k).Wf
  covered : ∀ k, s.calls k ≠ .listing → (∀ e, s.calls k ≠ .rejected e) →
    ∀ series ∈ ALL_SERIES, series.name ∈ s.db.names ∨ series.name ∈ (s.calls k).pending

lemma inv_start (n : ℕ) (db : Db) : (start n db).Inv :=
  ⟨fun _ => trivial, fun _ h => absurd rfl h⟩

/-- The database has only grown, and the place that one call has moved to fits it. -/
lemma Inv.update {pc : EnsurePc} (h : s.Inv) (hcalls : s'.calls = Function.update s.calls k pc)
    (hgrows : ∀ name ∈ s.db.names, name ∈ s'.db.names) (hwf : pc.Wf)
    (hcovered : (∀ e, pc ≠ .rejected e) →
      ∀ series ∈ ALL_SERIES, series.name ∈ s'.db.names ∨ series.name ∈ pc.pending) : s'.Inv := by
  refine ⟨fun j => ?_, fun j hlisting hrejected series hseries => ?_⟩
  · rw [hcalls]
    rcases eq_or_ne j k with rfl | hne
    · rwa [Function.update_self]
    · rw [Function.update_of_ne hne]
      exact h.wf j
  · rw [hcalls] at *
    rcases eq_or_ne j k with rfl | hne
    · rw [Function.update_self] at *
      exact hcovered hrejected series hseries
    · rw [Function.update_of_ne hne] at *
      exact (h.covered j hlisting hrejected series hseries).imp_left (hgrows _)

lemma Inv.step (h : s.Inv) (hstep : s.step k = some s') : s'.Inv := by
  have hdistinct : (ALL_SERIES.map (·.name)).Nodup := by decide
  cases steps_of_step hstep with
  | listed listing db calls =>
    refine h.update calls (by simp [db]) (EnsurePc.wf_next hdistinct) ?_
    intro _ series hseries
    rw [EnsurePc.pending_next, db]
    by_cases hmem : series.name ∈ s.db.names
    · exact .inl hmem
    · exact .inr (List.mem_map_of_mem (List.mem_filter.2 ⟨hseries, by simpa using hmem⟩))
  | @created existingNames series rest creating fresh names calls =>
    have hwf : (EnsurePc.creating existingNames series rest).Wf := creating ▸ h.wf k
    refine h.update calls (fun name hname => ?_) (EnsurePc.wf_next (List.nodup_cons.1 hwf.2).2) ?_
    · rw [names]
      exact List.mem_append_left _ hname
    · intro _ other hother
      have hcovered := h.covered k (by simp [creating]) (by simp [creating]) other hother
      rw [creating, hwf.pending_eq, List.mem_cons] at hcovered
      rw [names, List.mem_append, List.mem_singleton]
      tauto
  | refused creating mem db calls =>
    exact h.update calls (by simp [db]) trivial fun hrejected => absurd rfl (hrejected _)

/-- No call has run into another one, and none will: what is pending in a call is missing,
and pending in no other call. -/
structure Safe (s : StartUp n) : Prop where
  none_rejected : ∀ k e, s.calls k ≠ .rejected e
  fresh : ∀ k, ∀ name ∈ (s.calls k).pending, name ∉ s.db.names
  apart : ∀ j k name, name ∈ (s.calls j).pending → name ∈ (s.calls k).pending → j = k

/-- If the call is at its list, every required collection exists or no other call has
listed yet. -/
def ListsAlone (s : StartUp n) (k : Fin n) : Prop :=
  s.calls k = .listing →
    (∀ series ∈ ALL_SERIES, series.name ∈ s.db.names) ∨ ∀ j, j ≠ k → s.calls j = .listing

instance (s : StartUp n) (k : Fin n) : Decidable (s.ListsAlone k) := by
  unfold ListsAlone
  infer_instance

lemma mem_pending_next_listing {name : String} :
    name ∈ (EnsurePc.next s.db.names ALL_SERIES).pending ↔
      ∃ series ∈ ALL_SERIES, series.name ∉ s.db.names ∧ series.name = name := by
  simp [EnsurePc.pending_next, and_assoc]

/-- A call that goes on with its loop does not reject. -/
lemma none_rejected_iff {existingNames : List String} {l : List SeriesDefinition}
    (hlive : ∀ e, s.calls k ≠ .rejected e)
    (hcalls : s'.calls = Function.update s.calls k (.next existingNames l)) :
    (∀ j e, s'.calls j ≠ .rejected e) ↔ ∀ j e, s.calls j ≠ .rejected e := by
  refine forall_congr' fun j => ?_
  rw [hcalls]
  rcases eq_or_ne j k with rfl | hne
  · rw [Function.update_self]
    exact ⟨fun _ => hlive, fun _ => EnsurePc.next_ne_rejected l⟩
  · rw [Function.update_of_ne hne]

/-- Behind a list the calls are safe exactly if they were and the call listed alone. -/
lemma safe_listed (h : s.Inv) (hlisting : s.calls k = .listing) (hdb : s'.db = s.db)
    (hcalls : s'.calls = Function.update s.calls k (.next s.db.names ALL_SERIES)) :
    s'.Safe ↔ s.Safe ∧ s.ListsAlone k := by
  have hrejected := none_rejected_iff (by simp [hlisting]) hcalls
  have hnone : ∀ name, name ∉ (s.calls k).pending := by
    rw [hlisting]
    exact fun _ hname => (nomatch hname)
  -- the step adds what the list found missing, and nothing else
  have hpending : ∀ j name, name ∈ (s'.calls j).pending ↔ name ∈ (s.calls j).pending ∨
      (j = k ∧ ∃ series ∈ ALL_SERIES, series.name ∉ s.db.names ∧ series.name = name) := by
    intro j name
    rw [hcalls]
    rcases eq_or_ne j k with rfl | hne
    · rw [Function.update_self, mem_pending_next_listing]
      simp [hnone]
    · rw [Function.update_of_ne hne]
      simp [hne]
  constructor
  · intro hsafe
    have hbefore : s.Safe := by
      refine ⟨hrejected.1 hsafe.none_rejected, fun j name hname => ?_, fun i j name hi hj => ?_⟩
      · rw [← hdb]
        exact hsafe.fresh j name ((hpending j name).2 (.inl hname))
      · exact hsafe.apart i j name ((hpending i name).2 (.inl hi)) ((hpending j name).2 (.inl hj))
    refine ⟨hbefore, fun _ => ?_⟩
    -- a missing collection would be pending in two calls
    by_contra hnot
    simp only [not_or, not_forall] at hnot
    obtain ⟨⟨series, hseries, hmissing⟩, j, hne, hlisted⟩ := hnot
    have hj := (h.covered j hlisted (hbefore.none_rejected j) series hseries).resolve_left hmissing
    refine hne (hsafe.apart j k series.name ((hpending j _).2 (.inl hj)) ?_)
    exact (hpending k _).2 (.inr ⟨rfl, series, hseries, hmissing, rfl⟩)
  · rintro ⟨hsafe, halone⟩
    -- what the list found missing was pending in no call
    have hfirst : ∀ j, ∀ series ∈ ALL_SERIES, series.name ∉ s.db.names →
        series.name ∉ (s.calls j).pending := by
      intro j series hseries hmissing hj
      rcases halone hlisting with hall | hothers
      · exact hmissing (hall series hseries)
      · have hne : j ≠ k := by
          rintro rfl
          exact hnone _ hj
        rw [hothers j hne] at hj
        cases hj
    refine ⟨hrejected.2 hsafe.none_rejected, fun j name hname => ?_, fun i j name hi hj => ?_⟩
    · rw [hdb]
      rcases (hpending j name).1 hname with hold | ⟨-, series, -, hmissing, rfl⟩
      · exact hsafe.fresh j name hold
      · exact hmissing
    · rcases (hpending i name).1 hi with hi | ⟨rfl, series, hseries, hmissing, rfl⟩
      · rcases (hpending j name).1 hj with hj | ⟨-, series, hseries, hmissing, rfl⟩
        · exact hsafe.apart i j name hi hj
        · exact absurd hi (hfirst i series hseries hmissing)
      · rcases (hpending j _).1 hj with hj | ⟨rfl, -⟩
        · exact absurd hj (hfirst j series hseries hmissing)
        · rfl

/-- A create that succeeds changes nothing about the safety of the calls. -/
lemma safe_created {existingNames : List String} {series : SeriesDefinition}
    {rest : List SeriesDefinition} (h : s.Inv)
    (hcreating : s.calls k = .creating existingNames series rest)
    (hfresh : series.name ∉ s.db.names) (hnames : s'.db.names = s.db.names ++ [series.name])
    (hcalls : s'.calls = Function.update s.calls k (.next existingNames rest)) :
    s'.Safe ↔ s.Safe := by
  have hwf : (EnsurePc.creating existingNames series rest).Wf := hcreating ▸ h.wf k
  have hrejected := none_rejected_iff (by simp [hcreating]) hcalls
  have hself : (s.calls k).pending = series.name :: (s'.calls k).pending := by
    rw [hcreating, hwf.pending_eq, hcalls, Function.update_self]
  have hnot : series.name ∉ (s'.calls k).pending := by
    rw [hcalls, Function.update_self]
    exact hwf.not_mem_pending_next
  have hmem : ∀ name, name ∈ s'.db.names ↔ name ∈ s.db.names ∨ name = series.name := by
    intro name
    rw [hnames, List.mem_append, List.mem_singleton]
  -- the step takes the series from what is pending in the call, and from nowhere else
  have hpending : ∀ j name, name ∈ (s.calls j).pending ↔
      name ∈ (s'.calls j).pending ∨ (j = k ∧ name = series.name) := by
    intro j name
    rcases eq_or_ne j k with rfl | hne
    · rw [hself, List.mem_cons]
      tauto
    · rw [hcalls, Function.update_of_ne hne]
      tauto
  constructor
  · intro hsafe
    refine ⟨hrejected.1 hsafe.none_rejected, fun j name hname => ?_, fun i j name hi hj => ?_⟩
    · rcases (hpending j name).1 hname with hname | ⟨-, rfl⟩
      · exact fun hold => hsafe.fresh j name hname ((hmem name).2 (.inl hold))
      · exact hfresh
    · have hexists : ∀ j, series.name ∉ (s'.calls j).pending := fun j hj =>
        hsafe.fresh j _ hj ((hmem _).2 (.inr rfl))
      rcases (hpending i name).1 hi with hi | ⟨hik, hname⟩ <;>
        rcases (hpending j name).1 hj with hj | ⟨hjk, hname'⟩
      · exact hsafe.apart i j name hi hj
      · exact absurd (hname' ▸ hi) (hexists i)
      · exact absurd (hname ▸ hj) (hexists j)
      · rw [hik, hjk]
  · intro hsafe
    refine ⟨hrejected.2 hsafe.none_rejected, fun j name hname hexists => ?_,
      fun i j name hi hj => ?_⟩
    · have hold := (hpending j name).2 (.inl hname)
      rcases (hmem name).1 hexists with hmem | rfl
      · exact hsafe.fresh j name hold hmem
      · obtain rfl := hsafe.apart j k series.name hold ((hpending k _).2 (.inr ⟨rfl, rfl⟩))
        exact hnot hname
    · exact hsafe.apart i j name ((hpending i name).2 (.inl hi)) ((hpending j name).2 (.inl hj))

/-- The calls are safe behind a step exactly if they were safe and the call, if it was at
its list, listed alone. -/
lemma safe_iff_of_step (h : s.Inv) (hstep : s.step k = some s') :
    s'.Safe ↔ s.Safe ∧ s.ListsAlone k := by
  cases steps_of_step hstep with
  | listed listing db calls => exact safe_listed h listing db calls
  | created creating fresh names calls =>
    rw [safe_created h creating fresh names calls]
    simp [ListsAlone, creating]
  | @refused existingNames series rest creating mem db calls =>
    have hwf : (EnsurePc.creating existingNames series rest).Wf := creating ▸ h.wf k
    constructor
    · intro hsafe
      exact absurd (by rw [calls, Function.update_self]) (hsafe.none_rejected k _)
    · rintro ⟨hsafe, -⟩
      refine absurd mem (hsafe.fresh k _ ?_)
      rw [creating, hwf.pending_eq]
      exact List.mem_cons_self

/-! ### Whole runs -/

/-- No call has rejected, and behind every call that has returned each required collection
exists exactly once. -/
def Ensured (s : StartUp n) : Prop :=
  (∀ k e, s.calls k ≠ .rejected e) ∧
    ∀ k, s.calls k = .returned → ∀ series ∈ ALL_SERIES, s.db.names.count series.name = 1

lemma safe_start (n : ℕ) (db : Db) : (start n db).Safe where
  none_rejected _ _ h := nomatch h
  fresh _ _ h := nomatch h
  apart _ _ _ h := nomatch h

/-- A call that returned saw to every collection. -/
lemma Inv.ensured (h : s.Inv) (hnone : ∀ k e, s.calls k ≠ .rejected e) : s.Ensured := by
  refine ⟨hnone, fun k hreturned series hseries => ?_⟩
  have hcovered := h.covered k (by simp [hreturned]) (hnone k) series hseries
  rw [hreturned] at hcovered
  refine List.count_eq_one_of_mem s.db.name_unique ?_
  rcases hcovered with hmem | hpending
  · exact hmem
  · cases hpending

/-- Once all calls have ended, they have been safe exactly if none rejected. -/
lemma safe_iff_of_over (hover : ∀ k, (s.calls k).isOver = true) :
    s.Safe ↔ ∀ k e, s.calls k ≠ .rejected e := by
  have hnothing : ∀ k name, name ∉ (s.calls k).pending := by
    intro k name hname
    have hk := hover k
    cases hpc : s.calls k with
    | creating existingNames series rest =>
      rw [hpc] at hk
      cases hk
    | _ =>
      rw [hpc] at hname
      cases hname
  refine ⟨fun h => h.none_rejected, fun h => ⟨h, ?_, ?_⟩⟩
  · exact fun k name hname => absurd hname (hnothing k name)
  · exact fun j k name hname => absurd hname (hnothing j name)

lemma can_step (hover : (s.calls k).isOver = false) : (s.step k).isSome = true := by
  unfold step
  cases hpc : s.calls k with
  | listing => rfl
  | creating existingNames series rest =>
    dsimp only
    cases s.db.createCollection series.toCollection <;> rfl
  | returned | rejected e =>
    rw [hpc] at hover
    cases hover

/-- A command brings its call nearer to its end. -/
lemma left_step (hstep : s.step k = some s') :
    ∑ j, (s'.calls j).left < ∑ j, (s.calls j).left := by
  have hlt : ∃ pc, s'.calls = Function.update s.calls k pc ∧ pc.left < (s.calls k).left := by
    cases steps_of_step hstep with
    | listed listing db calls =>
      refine ⟨_, calls, ?_⟩
      rw [listing]
      exact Nat.lt_succ_of_le (EnsurePc.left_next _)
    | created creating fresh names calls =>
      refine ⟨_, calls, ?_⟩
      rw [creating]
      exact Nat.lt_succ_of_le (EnsurePc.left_next _)
    | refused creating mem db calls =>
      refine ⟨_, calls, ?_⟩
      rw [creating]
      exact Nat.succ_pos _
  obtain ⟨pc, hcalls, hpc⟩ := hlt
  refine Finset.sum_lt_sum (fun j _ => ?_) ⟨k, Finset.mem_univ k, ?_⟩
  · rw [hcalls]
    rcases eq_or_ne j k with rfl | hne
    · rw [Function.update_self]
      exact hpc.le
    · rw [Function.update_of_ne hne]
  · rw [hcalls, Function.update_self]
    exact hpc

/-- Every run comes to an end within six commands for each call. -/
lemma length_le {db : Db} {ks : List (Fin n)} (hrun : (lts n).run (start n db) ks = some t) :
    ks.length ≤ 6 * n := by
  have hstep : ∀ m s k s', ∑ j, (s.calls j).left = m → True → (lts n).step s k = some s' →
      ∃ m', ∑ j, (s'.calls j).left = m' ∧ m' + 1 ≤ m := by
    rintro m s k s' rfl - hstep
    exact ⟨_, rfl, left_step hstep⟩
  have hcount : ∃ m, ∑ j, (t.calls j).left = m ∧ m + ks.countP (fun _ => true) ≤
      ∑ j, ((start n db).calls j).left :=
    Lts.countP_le_variant (V := fun m s => ∑ j, (s.calls j).left = m) hstep hrun
      (Lts.meets_of_forall (fun _ _ => trivial) _ _) rfl
  obtain ⟨m, -, hle⟩ := hcount
  have hstart : ∑ j, ((start n db).calls j).left = n * 6 := by
    have hsix : ∀ j, ((start n db).calls j).left = 6 := fun _ => rfl
    simp [hsix]
  rw [hstart, List.countP_true] at hle
  omega

/-- Calls of any number of processes at once: as long as each of them lists alone, none
rejects and each that returns leaves the required collections, every one once.  If all have
ended, the condition was also necessary.  They do end: no call is ever stuck. -/
theorem ensured_iff_listsAlone {n : ℕ} {t : StartUp n} {db : Db} {ks : List (Fin n)}
    (hrun : (lts n).run (start n db) ks = some t) :
    ((lts n).Meets ListsAlone (start n db) ks →
      ∀ u ∈ (lts n).visited (start n db) ks, u.Ensured) ∧
    ((∀ k, (t.calls k).isOver = true) →
      (t.Ensured ↔ (lts n).Meets ListsAlone (start n db) ks)) ∧
    ks.length ≤ 6 * n ∧ ∀ k, (t.calls k).isOver = false → (t.step k).isSome = true := by
  have hinv : ∀ s k s', Inv s → (lts n).step s k = some s' → Inv s' := fun s k s' h => h.step
  have hstep : ∀ s k s', Inv s → (lts n).step s k = some s' →
      (s'.Safe ↔ s.Safe ∧ s.ListsAlone k) := fun s k s' h => safe_iff_of_step h
  have hlast := Lts.last_iff_meets hinv hstep hrun (inv_start n db)
  refine ⟨fun hmeets u hu => ?_, fun hover => ?_, length_le hrun, fun k => can_step⟩
  · have hvisited := (Lts.meets_iff_visited (I := fun s => Inv s ∧ s.Safe) ?_ hrun
      ⟨inv_start n db, safe_start n db⟩).1 hmeets u hu
    · exact hvisited.1.ensured hvisited.2.none_rejected
    · rintro s k s' ⟨hs, hsafe⟩ he
      rw [hstep s k s' hs he]
      simp [hsafe, hs.step he]
  · have ht : t.Inv := Lts.run_invariant hinv hrun (inv_start n db)
    rw [safe_iff_of_over hover, and_iff_right (safe_start n db)] at hlast
    rw [← hlast]
    exact ⟨fun h => h.1, ht.ensured⟩

/-- Two processes start one after the other. -/
def inTurn : List (Fin 2) := [0, 0, 0, 0, 0, 0, 1]

theorem ensured_iff_listsAlone_of_inTurn : ∃ t, (lts 2).run (start 2 .empty) inTurn = some t ∧
    (∀ k, (t.calls k).isOver = true) ∧ t.Ensured := by
  have hall : ((lts 2).run (start 2 .empty) inTurn).map
      (fun s => decide (∀ k, (s.calls k).isOver = true)) = some true := by decide +kernel
  obtain ⟨t, hrun, hover⟩ := Option.map_eq_some_iff.1 hall
  have hover := of_decide_eq_true hover
  exact ⟨t, hrun, hover, ((ensured_iff_listsAlone hrun).2.1 hover).2 (by decide +kernel)⟩

/-- Two processes list before either has created a collection. -/
def atOnce : List (Fin 2) := [0, 1, 0, 1]

theorem race_rejects : ¬ ∀ (n : ℕ) (db : Db) (ks : List (Fin n)) (t : StartUp n),
    (lts n).run (start n db) ks = some t → t.Ensured := by
  intro h
  have hrejected : ((lts 2).run (start 2 .empty) atOnce).map (·.calls 1)
      = some (.rejected (.namespaceExists "signal_volume_metrics")) := by decide +kernel
  obtain ⟨t, hrun, ht⟩ := Option.map_eq_some_iff.1 hrejected
  exact (h 2 .empty atOnce t hrun).1 1 _ ht

end StartUp

end InveniOps.Stores
