import InveniOps.Dashboard.ActivePages

/-!
# The order of the pages

The active incidents in the cache are sorted by one score, which packs the rank of the
severity and the instant of the first signal; Postgres sorts the active rows by the two
columns.  As long as the instants stay below the factor of the rank, both show the same
keys on every page, and the pages of the cache show every active work item once.
-/

namespace InveniOps.Dashboard

open Lib Stores

/-- What both orders look at. -/
def keyOf (r : WorkItem) : Severity × Instant := (r.severity, r.firstSignalAt)

/-- `ORDER BY severity, first_signal_at`. -/
def KeyLe (a b : Severity × Instant) : Prop :=
  a.1.rank < b.1.rank ∨ a.1.rank = b.1.rank ∧ a.2 ≤ b.2

lemma rank_injective : Function.Injective Severity.rank := by
  intro a b h
  cases a <;> cases b <;> first | rfl | cases h

lemma keyLe_antisymm (a b : Severity × Instant) (hab : KeyLe a b) (hba : KeyLe b a) : a = b := by
  rcases hab with hab | ⟨hrank, hle⟩ <;> rcases hba with hba | ⟨hrank', hle'⟩
  · exact absurd hab hba.not_gt
  · exact absurd hab (hrank' ▸ lt_irrefl _)
  · exact absurd hba (hrank ▸ lt_irrefl _)
  · exact Prod.ext (rank_injective hrank) (le_antisymm hle hle')

lemma keyLe_total (a b : Severity × Instant) : KeyLe a b ∨ KeyLe b a := by
  rcases lt_trichotomy a.1.rank b.1.rank with hlt | heq | hgt
  · exact .inl (.inl hlt)
  · exact (le_total a.2 b.2).imp (.inr ⟨heq, ·⟩) (.inr ⟨heq.symm, ·⟩)
  · exact .inr (.inl hgt)

lemma KeyLe.trans {a b c : Severity × Instant} (hab : KeyLe a b) (hbc : KeyLe b c) :
    KeyLe a c := by
  rcases hab with hab | ⟨hab, hab'⟩ <;> rcases hbc with hbc | ⟨hbc, hbc'⟩
  · exact .inl (hab.trans hbc)
  · exact .inl (hbc ▸ hab)
  · exact .inl (hab ▸ hbc)
  · exact .inr ⟨hab.trans hbc, hab'.trans hbc'⟩

/-- The keys of the work item of an id. -/
def keyAt (pg : Postgres) (w : WorkItemId) : Option (Severity × Instant) := (pg.row w).map keyOf

/-- The pages of the cache follow the order of Postgres. -/
structure FollowsPostgres (cache : DashboardCache) (pg : Postgres) : Prop where
  /-- The keys of a page are those of the page that `listActive` returns. -/
  keys : ∀ limit offset ids rows, 0 < limit →
    DashboardCache.zrange limit offset cache = .ok (ids, cache) →
    Postgres.listActive limit offset pg = .ok (rows, pg) →
    ids.map (keyAt pg) = rows.map fun r => some (keyOf r)
  /-- The same holds in whatever order Postgres lists rows with equal keys. -/
  ties : ∀ listed : List WorkItem, listed.Perm pg.active → (listed.map keyOf).Pairwise KeyLe →
    ∀ limit offset ids, 0 < limit → DashboardCache.zrange limit offset cache = .ok (ids, cache) →
      ids.map (keyAt pg) = ((listed.drop offset).take limit).map fun r => some (keyOf r)
  /-- The scores, and the multiples of the rank in them, are integers that doubles hold. -/
  scores : ∀ entry ∈ cache.active.entries, ∃ r ∈ pg.active, r.id = entry.1 ∧
    entry.2 = activeScore r ∧ IsDouble (r.severity.rank * 10000000000000) ∧ IsDouble entry.2
  /-- Consecutive pages show every active work item, and none of them twice. -/
  partition : ∀ limit n (pages : ℕ → List WorkItemId), 0 < limit →
    (∀ i, DashboardCache.zrange limit (i * limit) cache = .ok (pages i, cache)) →
    pg.active.length ≤ n * limit →
      ((List.range n).flatMap pages).Nodup ∧
        ((List.range n).flatMap pages).Perm (pg.active.map (·.id))

variable {cache : DashboardCache} {pg : Postgres}

/-- The instants of the first signals stay in their band. -/
def InBand (pg : Postgres) : Prop :=
  ∀ r ∈ pg.active, 0 ≤ r.firstSignalAt ∧ r.firstSignalAt < 10000000000000

lemma keyLe_of_score {r r' : WorkItem} (hr : 0 ≤ r.firstSignalAt ∧ r.firstSignalAt < 10000000000000)
    (hr' : 0 ≤ r'.firstSignalAt ∧ r'.firstSignalAt < 10000000000000)
    (h : activeScore r ≤ activeScore r') : KeyLe (keyOf r) (keyOf r') := by
  have hkeys := (packed_le_iff hr hr').1 h
  simpa only [KeyLe, keyOf, Nat.cast_lt, Nat.cast_inj] using hkeys

/-- The four bands end far below `2 ^ 53`. -/
lemma isDouble_score {r : WorkItem}
    (hr : 0 ≤ r.firstSignalAt ∧ r.firstSignalAt < 10000000000000) :
    IsDouble (r.severity.rank * 10000000000000) ∧ IsDouble (activeScore r) := by
  have hrank : (r.severity.rank : ℤ) ≤ 3 := by
    cases r.severity <;> decide
  have hnonneg : (0 : ℤ) ≤ r.severity.rank := Int.natCast_nonneg _
  have hbase : |(r.severity.rank : ℤ) * 10000000000000| < 2 ^ 53 := by
    rw [abs_lt]
    constructor <;> omega
  have hscore : |activeScore r| < 2 ^ 53 := by
    have hfirst : 0 ≤ activeScore r - r.severity.rank * 10000000000000 ∧
        activeScore r - r.severity.rank * 10000000000000 < 10000000000000 := by
      rw [activeScore, add_sub_cancel_left]
      exact hr
    rw [abs_lt]
    constructor <;> omega
  refine ⟨?_, isDouble_intCast hscore⟩
  have hcast : ((r.severity.rank : ℤ) * 10000000000000 : ℤ)
      = (r.severity.rank * 10000000000000 : ℚ) := by
    push_cast
    rfl
  exact hcast ▸ isDouble_intCast hbase

/-- The rows in the order of the cache are in the order of Postgres. -/
lemma exists_sorted_rows (hband : InBand pg) : ∃ listed : List WorkItem,
    listed.Perm pg.active ∧ (listed.map keyOf).Pairwise KeyLe ∧
      listed.map (·.id) = (Listing.all pg).ids := by
  have hmap : (pg.active.insertionSort fun a b => activeScore a < activeScore b ∨
      activeScore a = activeScore b ∧ a.id ≤ b.id).map entryOf
        = SortedSet.sorted (pg.active.map entryOf) :=
    List.map_insertionSort _ _ entryOf pg.active fun _ _ _ _ => Iff.rfl
  have hperm := List.perm_insertionSort (fun a b : WorkItem => activeScore a < activeScore b ∨
    activeScore a = activeScore b ∧ a.id ≤ b.id) pg.active
  refine ⟨_, hperm, ?_, ?_⟩
  · have hsorted := SortedSet.pairwise_sorted (pg.active.map entryOf)
    rw [← hmap, List.pairwise_map] at hsorted
    rw [List.pairwise_map]
    refine hsorted.imp_of_mem ?_
    intro r r' hr hr' hprecedes
    -- whatever decides between two entries, their scores are in order
    have hle : activeScore r ≤ activeScore r' := hprecedes.elim le_of_lt fun h => h.1.le
    exact keyLe_of_score (hband r (hperm.mem_iff.1 hr)) (hband r' (hperm.mem_iff.1 hr')) hle
  · rw [Listing.ids]
    show _ = (SortedSet.sorted (pg.active.map entryOf)).map (·.1)
    rw [← hmap, List.map_map]
    rfl

lemma keyAt_of_mem {r : WorkItem} (hr : r ∈ pg.active) : keyAt pg r.id = some (keyOf r) := by
  rw [keyAt, ((Listing.all pg).active r hr).1, Option.map_some]

/-- The keys of a page of the cache, from any listing of the rows by their keys. -/
lemma keys_page (hband : InBand pg) {listed : List WorkItem} (hperm : listed.Perm pg.active)
    (hsorted : (listed.map keyOf).Pairwise KeyLe) (limit offset : ℕ) :
    ((Listing.all pg).page limit offset).map (keyAt pg)
      = ((listed.drop offset).take limit).map fun r => some (keyOf r) := by
  obtain ⟨rows, hrows, hrowsSorted, hids⟩ := exists_sorted_rows hband
  have hkeys : rows.map keyOf = listed.map keyOf :=
    map_eq_of_pairwise keyLe_antisymm hrowsSorted hsorted (hrows.trans hperm.symm)
  have hall : (Listing.all pg).ids.map (keyAt pg) = (listed.map keyOf).map some := by
    rw [← hids, ← hkeys, List.map_map, List.map_map]
    refine List.map_congr_left ?_
    intro r hr
    exact keyAt_of_mem (hrows.mem_iff.1 hr)
  rw [Listing.page, List.map_take, List.map_drop, hall, List.map_take, List.map_drop,
    List.map_map]
  rfl

/-- `listActive` lists the active rows by their keys. -/
lemma listActive_sorted (limit offset : ℕ) : ∃ listed : List WorkItem, listed.Perm pg.active ∧
    (listed.map keyOf).Pairwise KeyLe ∧
      Postgres.listActive limit offset pg = .ok ((listed.drop offset).take limit, pg) := by
  have htotal : Std.Total fun a b : WorkItem => a.severity.rank < b.severity.rank ∨
      a.severity.rank = b.severity.rank ∧ a.firstSignalAt ≤ b.firstSignalAt :=
    ⟨fun a b => keyLe_total (keyOf a) (keyOf b)⟩
  have htrans : IsTrans WorkItem fun a b => a.severity.rank < b.severity.rank ∨
      a.severity.rank = b.severity.rank ∧ a.firstSignalAt ≤ b.firstSignalAt :=
    ⟨fun a b c => KeyLe.trans (a := keyOf a) (b := keyOf b) (c := keyOf c)⟩
  refine ⟨_, List.perm_insertionSort _ _, ?_, rfl⟩
  rw [List.pairwise_map]
  exact List.pairwise_insertionSort (fun a b : WorkItem => a.severity.rank < b.severity.rank ∨
    a.severity.rank = b.severity.rank ∧ a.firstSignalAt ≤ b.firstSignalAt) pg.active

/-- For every coherent cache whose instants are in their band, the pages of the cache follow
the order of Postgres. -/
theorem followsPostgres_of_holds (hholds : Holds cache.active pg.active) (hband : InBand pg) :
    FollowsPostgres cache pg := by
  have hpage : ∀ limit offset ids, 0 < limit →
      DashboardCache.zrange limit offset cache = .ok (ids, cache) →
        ids = (Listing.all pg).page limit offset := by
    intro limit offset ids hlimit hids
    obtain ⟨rfl, -⟩ := Prod.mk.inj (Except.ok.inj hids)
    exact Holds.range (l := Listing.all pg) hholds hlimit offset
  refine ⟨?_, ?_, ?_, ?_⟩
  · intro limit offset ids rows hlimit hids hrows
    obtain ⟨listed, hperm, hsorted, hlist⟩ := @listActive_sorted pg limit offset
    obtain ⟨rfl, -⟩ := Prod.mk.inj (Except.ok.inj (hlist.symm.trans hrows))
    rw [hpage limit offset ids hlimit hids]
    exact keys_page hband hperm hsorted limit offset
  · intro listed hperm hsorted limit offset ids hlimit hids
    rw [hpage limit offset ids hlimit hids]
    exact keys_page hband hperm hsorted limit offset
  · intro entry hentry
    obtain ⟨r, hr, rfl⟩ := List.mem_map.1 ((hholds entry).1 hentry)
    exact ⟨r, hr, rfl, rfl, isDouble_score (hband r hr)⟩
  · intro limit n pages hlimit hpages hlength
    have hids : (List.range n).flatMap pages = (Listing.all pg).ids := by
      have hpages' : pages = fun i => ((Listing.all pg).ids.drop (i * limit)).take limit :=
        funext fun i => hpage limit (i * limit) _ hlimit (hpages i)
      rw [hpages', flatMap_pages, List.take_of_length_le]
      exact (Listing.all pg).length_ids.trans_le hlength
    rw [hids]
    exact ⟨(Listing.all pg).ids_perm.nodup_iff.2 (Listing.all pg).nodup,
      (Listing.all pg).ids_perm⟩

/-- Two work items, the later one more severe. -/
def twoItems : Except Thrown Postgres := do
  let (_, pg) ← Postgres.createWorkItem ⟨fun _ => .undefined⟩
    ⟨none, "cache-1", .CACHE, .P1, "cache-1 is failing", 1000, some 0⟩ "w" 1000 .empty
  let (_, pg) ← Postgres.createWorkItem ⟨fun _ => .undefined⟩
    ⟨none, "db-1", .RDBMS, .P0, "db-1 is failing", 2000, some 0⟩ "v" 2000 pg
  return pg

theorem followsPostgres_of_twoItems : ∃ cache pg,
    pg.active.map keyOf = [(.P1, 1000), (.P0, 2000)] ∧ FollowsPostgres cache pg := by
  have hobserved : twoItems.toOption.map (fun pg => decide (pg.active.map keyOf
      = [(.P1, 1000), (.P0, 2000)])) = some true := by
    decide +kernel
  obtain ⟨pg, -, hpg⟩ := Option.map_eq_some_iff.1 hobserved
  have hkeys := of_decide_eq_true hpg
  have hband : InBand pg := by
    intro r hr
    have hmem : keyOf r ∈ pg.active.map keyOf := List.mem_map_of_mem hr
    rw [hkeys] at hmem
    rcases List.mem_cons.1 hmem with hkey | hmem
    · rw [show r.firstSignalAt = 1000 from congrArg (·.2) hkey]
      decide
    · rw [show r.firstSignalAt = 2000 from congrArg (·.2) (List.mem_singleton.1 hmem)]
      decide
  have hunique : ((pg.active.map entryOf).map (·.1)).Nodup := by
    rw [List.map_map]
    exact Listing.nodup_active
  exact ⟨⟨fun _ => none, ⟨pg.active.map entryOf, hunique⟩⟩, pg, hkeys,
    followsPostgres_of_holds (fun _ => Iff.rfl) hband⟩

end InveniOps.Dashboard
