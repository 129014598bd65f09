import WotCrawler.Crawl.Lifecycle
import WotCrawler.Store.EdgeDiff

/-! The views that consumers read, and when a row they are told is discovered was never fetched. -/

namespace WotCrawler.Crawl

open Effect Store Ingest

section Views

/-- A row of `pubkey_freshness`. -/
structure Freshness where
  id : Nat
  status : FetchStatus
  lastFetchedAt : Option DateTime
deriving DecidableEq

/-- `CASE WHEN status = 'in_progress' THEN 'discovered' ELSE status END`. -/
def FetchStatus.collapsed (status : FetchStatus) : FetchStatus :=
  if status = .inProgress then .discovered else status

/-- The row of an id in the view `pubkey_freshness`. -/
def pubkeyFreshness (db : Database) (id : Nat) : Option Freshness :=
  (db.rows id).map fun row => ⟨id, FetchStatus.collapsed row.columns.status, row.columns.lastFetchedAt⟩

/-- The view `follow_edges`. -/
def followEdges (db : Database) : Finset (Nat × Nat) := db.follows

theorem collapsed_eq_discovered_iff {status : FetchStatus} :
    FetchStatus.collapsed status = .discovered ↔ status = .discovered ∨ status = .inProgress := by
  unfold FetchStatus.collapsed
  split
  · rename_i leased
    simp [leased]
  · rename_i other
    simp [other]

/-- The view never tells of a lease. -/
theorem pubkeyFreshness_ne_inProgress {db : Database} {id : Nat} (found : pubkeyFreshness db id = some shown) : shown.status ≠ .inProgress := by
  obtain ⟨row, _, rfl⟩ := Option.map_eq_some_iff.mp found
  unfold FetchStatus.collapsed
  dsimp only
  split
  · exact fun same => by cases same
  · assumption

/-- Who is shown as discovered was never fetched: no list was applied, and no edge leaves the row. -/
def TellsTruth (db : Database) : Prop :=
  ∀ id shown, pubkeyFreshness db id = some shown → shown.status = .discovered →
    (∀ row, db.rows id = some row → row.columns.appliedEventId = none) ∧
      ∀ followee, (id, followee) ∉ followEdges db

/-- The same of the rows themselves. -/
def Unfetched (db : Database) : Prop :=
  ∀ id row, db.rows id = some row → row.columns.status = .discovered ∨ row.columns.status = .inProgress →
    row.columns.appliedEventId = none

/-- Where a row without an applied event has no edges, the applied events decide. -/
theorem tellsTruth_iff (edgeless : ∀ id row, db.rows id = some row → row.columns.appliedEventId = none →
    ∀ followee, (id, followee) ∉ db.follows) : TellsTruth db ↔ Unfetched db := by
  constructor
  · intro truth id row found waiting
    exact (truth id _ (by rw [pubkeyFreshness, found]; rfl) (collapsed_eq_discovered_iff.mpr waiting)).1 row found
  · intro unfetched id shown found discovered
    obtain ⟨row, present, rfl⟩ := Option.map_eq_some_iff.mp found
    have unapplied := unfetched id row present (collapsed_eq_discovered_iff.mp discovered)
    refine ⟨?_, edgeless id row present unapplied⟩
    intro other there
    obtain rfl := Option.some.inj (present.symm.trans there)
    exact unapplied

end Views

section Runs

/-- The states reached as in `Interleaved`, where a condition may also look at the time. -/
inductive Timed (allowed : Operation → Prop) (meets : DateTime → Stmt → Database → Prop) : Calls → Prop where
  | initial : Timed allowed meets ⟨Database.empty, []⟩
  | start (run : Timed allowed meets pool) (permitted : allowed operation) :
      Timed allowed meets (pool.spawn ⟨(), operation.prog⟩)
  | step (run : Timed allowed meets pool) (found : pool.tasks[index]? = some ⟨(), .call stmt next⟩)
      (executes : stmt.Executes now locked pool.shared reply left) (met : meets now stmt pool.shared) :
      Timed allowed meets ⟨left, pool.tasks.set index ⟨(), next reply⟩⟩
  | die (run : Timed allowed meets pool) (index : Nat) : Timed allowed meets (pool.drop index () ())

variable {allowed : Operation → Prop} {meets : DateTime → Stmt → Database → Prop} {pool : Calls}

/-- It is a run like any other. -/
theorem Timed.interleaved (run : Timed allowed meets pool) : Interleaved allowed (fun _ _ => True) pool := by
  induction run with
  | initial => exact .initial
  | start run permitted ih => exact ih.start permitted
  | step run found executes met ih => exact ih.step (.noting found ⟨_, _, trivial, executes⟩) trivial
  | die run index ih => exact ih.die index

/-- A step that does not send a row with an applied event back to the frontier: the TTL sweep
resets no such row, and no requeue with attempts left is for one. -/
def SparesFetched (now : DateTime) (stmt : Stmt) (db : Database) : Prop :=
  match stmt with
  | .reclaimStale ttlSecs => ∀ id row, db.rows id = some row → row.columns.isStale now ttlSecs →
      row.columns.appliedEventId = none
  | .requeueOrFail id maxAttempts _ => ∀ row, db.rows id = some row →
      (row.columns.fetchAttempts + 1 : Int) < maxAttempts → row.columns.appliedEventId = none
  | _ => True

variable {before after : Database} {stmt : Stmt} {locked : Finset Nat}

/-- The reclaim of a lease is of a row that the view showed as discovered before. -/
private theorem resets_waiting {columns : Columns} (selected : stmt.resets now columns = true)
    (other : ∀ ttlSecs, stmt ≠ .reclaimStale ttlSecs) : columns.status = .inProgress := by
  cases stmt with
  | reclaimInProgress => exact of_decide_eq_true selected
  | reclaimStale ttlSecs => exact absurd rfl (other ttlSecs)
  | reclaimExpired ageSecs =>
    have expired : columns.isExpired now ageSecs = true := selected
    simp only [Columns.isExpired, Columns.isInProgress, decide_eq_true_eq] at expired
    exact expired.1
  | _ => cases selected

/-- Every standard statement that meets the condition keeps the rows' truth. -/
theorem Unfetched.executes {reply : Except StoreError stmt.Ret} (unfetched : Unfetched before)
    (standard : StandardStmt maxAttempts stmt) (spares : SparesFetched now stmt before)
    (executes : stmt.Executes now locked before reply after) : Unfetched after := by
  intro id kept found waiting
  rcases executes.evolves found with ⟨_, _, fresh⟩ | ⟨row, present, _, moves⟩
  · rw [fresh]
    rfl
  · have old := unfetched id row present
    generalize kept.columns = next at moves waiting
    cases moves with
    | stay => exact old waiting
    | confirm => simp [Columns.confirm] at waiting
    | apply => simp [Columns.apply] at waiting
    | stamp =>
      have stamped : _ = FetchStatus.notFound := standard
      simp [Columns.setStatus, stamped] at waiting
    | claim discovered => exact old (.inl discovered)
    | reclaim selected =>
      by_cases sweep : ∃ ttlSecs, stmt = .reclaimStale ttlSecs
      · obtain ⟨ttlSecs, rfl⟩ := sweep
        exact spares id row present selected
      · exact old (.inr (resets_waiting selected fun ttlSecs same => sweep ⟨ttlSecs, same⟩))
    | requeue few =>
      apply spares row present
      by_contra spent
      simp [Columns.requeue, not_lt.mp spent] at waiting

/-- A successful statement keeps the rows' truth only when it meets the condition. -/
theorem Unfetched.spares {value : stmt.Ret} (executes : stmt.Executes now locked before (.ok value) after)
    (holds : Unfetched after) : SparesFetched now stmt before := by
  cases stmt with
  | reclaimStale ttlSecs =>
    intro id row present stale
    have reset : after.rows id = some ⟨row.pubkey, row.columns.reclaim⟩ := by
      rw [executes.2, Database.sweep, Database.update_rows, present]
      simp [stale]
    have unapplied := holds id _ reset (.inl rfl)
    exact unapplied
  | requeueOrFail id maxAttempts ts =>
    intro row present few
    simp only [Stmt.Executes] at executes
    split at executes
    · cases executes.1
    · have requeued : after.rows id = some ⟨row.pubkey, row.columns.requeue maxAttempts ts⟩ := by
        rw [executes.2, Database.updateRow_rows_self, present]
        rfl
      have discovered : (row.columns.requeue maxAttempts ts).status = .discovered := by
        simp [Columns.requeue, few]
      have unapplied := holds id _ requeued (.inl discovered)
      exact unapplied
  | _ => trivial

/-- Along every run of the crawler's calls in which no sweep and no requeue sends a fetched row
back to the frontier, the view tells the truth about who is discovered. -/
theorem freshness_tells_truth (run : Timed (Operation.Standard maxAttempts) SparesFetched pool) :
    TellsTruth pool.shared := by
  have valid := lifecycle_reached run.interleaved
  apply (tellsTruth_iff valid.edgeless).mpr
  induction run with
  | initial =>
    intro id row found
    cases found
  | start run permitted ih => exact ih (lifecycle_reached run.interleaved)
  | step run found executes met ih =>
    have standard := run.interleaved.restricted (fun _ standard => standard.issues) _ _ found
    exact (ih (lifecycle_reached run.interleaved)).executes standard.1 met executes
  | die run index ih => exact ih (lifecycle_reached run.interleaved)

/-- A call in progress can run to its end while the others stand still. -/
private theorem Timed.finishes {index : Nat} {prog : Prog Sql Unit} (run : Timed allowed meets pool)
    (found : pool.tasks[index]? = some ⟨(), prog⟩) (issues : prog.Issues fun stmt => ∀ now db, meets now stmt db)
    (ran : Runs sql prog pool.shared value left) : ∃ after, Timed allowed meets after ∧ after.shared = left := by
  induction prog generalizing pool with
  | ret result =>
    obtain ⟨_, same⟩ := runs_ret_iff.mp ran
    exact ⟨pool, run, same⟩
  | call stmt next ih =>
    obtain ⟨reply, between, ⟨now, locked, _, executes⟩, rest⟩ := runs_call_iff.mp ran
    have there : (pool.tasks.set index ⟨(), next reply⟩)[index]? = some ⟨(), next reply⟩ :=
      List.getElem?_set_self (List.getElem?_eq_some_iff.mp found).1
    exact ih reply (run.step found executes (issues.1 now _)) there (issues.2 reply) rest

private theorem Timed.performs (run : Timed allowed meets pool) (operation : Operation) (permitted : allowed operation)
    (issues : operation.prog.Issues fun stmt => ∀ now db, meets now stmt db)
    (ran : Runs sql operation.prog pool.shared () left) :
    ∃ after, Timed allowed meets after ∧ after.shared = left := by
  have found : (pool.spawn ⟨(), operation.prog⟩).tasks[pool.tasks.length]? = some ⟨(), operation.prog⟩ := by
    simp [Pool.spawn]
  exact (run.start permitted).finishes found issues ran

end Runs

section Example

/-- A list without followees, for the one row. -/
private def emptyList : Call := ⟨1, [7], 0, []⟩

def fetchedDatabase : Database := leasedDatabase.updateRow 1 (Columns.apply 0 [7] 0 false)

private theorem emptyList_writes : emptyList.Writes leasedDatabase true fetchedDatabase := by
  have found : leasedDatabase.rows 1 = some ⟨soleKey, Columns.default.claim 0⟩ := by decide
  have reads : emptyList.Reads leasedDatabase [] := by
    have edgeless : leasedDatabase.follows = ∅ := rfl
    refine ⟨List.nodup_nil, ?_⟩
    simp [edgeless]
  exact .replaced found (by decide) reads rfl

/-- A statement that sends nothing back to the frontier but leases. -/
private def Resetless (stmt : Stmt) : Prop :=
  match stmt with
  | .reclaimStale _ => False
  | .requeueOrFail _ _ _ => False
  | _ => True

private theorem apply_resetless {stmt : Stmt} (applies : ApplyStmt vouched stmt) : Resetless stmt := by
  cases stmt with
  | reclaimStale ttlSecs => exact applies
  | requeueOrFail id cap ts => exact applies
  | _ => trivial

/-- A call without a result does what its program does. -/
private theorem detached_resetless {meets : DateTime → Stmt → Database → Prop} {call : StoreM α} (issues : call.run.Issues Resetless)
    (met : ∀ now stmt db, Resetless stmt → meets now stmt db) :
    (Operation.detached call).Issues fun stmt => ∀ now db, meets now stmt db := by
  apply Prog.Issues.bind
  · exact issues.mono fun stmt quiet now db => met now stmt db quiet
  · exact fun _ => trivial

/-- One key is seeded, claimed and fetched. -/
private theorem fetched_reached {meets : DateTime → Stmt → Database → Prop}
    (met : ∀ now stmt db, Resetless stmt → meets now stmt db) :
    ∃ pool, Timed (Operation.Standard 3) meets pool ∧ pool.shared = fetchedDatabase := by
  have seeds : Runs sql (Operation.upsertPubkey soleKey).prog Database.empty () (Database.empty.upsert soleKey).2 :=
    .call ⟨0, ∅, trivial, rfl, rfl⟩ .ret
  have claims : Runs sql (Operation.claimBatch 1).prog (Database.empty.upsert soleKey).2 () leasedDatabase :=
    .call ⟨0, ∅, trivial, leased_executes⟩ .ret
  have applies : Runs sql (Operation.applyFollowList 1 [7] 0 []).prog leasedDatabase () fetchedDatabase :=
    runs_bind_iff.mpr ⟨_, _, emptyList_writes.runs, .ret⟩
  have started : Timed (Operation.Standard 3) meets ⟨Database.empty, []⟩ := .initial
  obtain ⟨first, seeded, same⟩ := started.performs (.upsertPubkey soleKey) trivial
    (detached_resetless (upsertPubkey_issues trivial) met) seeds
  rw [← same] at claims
  obtain ⟨second, claimed, same⟩ := seeded.performs (.claimBatch 1) trivial
    (detached_resetless (query_issues trivial) met) claims
  rw [← same] at applies
  have issues : (Store.applyFollowList 1 [7] 0 []).run.Issues (ApplyStmt fun _ => True) :=
    applyFollowList_issues applyStmt_permits 1 0 []
  exact claimed.performs (.applyFollowList 1 [7] 0 []) trivial
    (detached_resetless (issues.mono fun _ applies => apply_resetless applies) met) applies

/-- The theorem at a fetched row after a staleness scan that finds it fresh. -/
theorem freshness_tells_truth_scanned : ∃ pool, Timed (Operation.Standard 3) SparesFetched pool ∧
    pool.shared = fetchedDatabase.sweep (Columns.isStale (DateTime.ofSeconds 60) 86400) ∧ TellsTruth pool.shared := by
  obtain ⟨first, run, same⟩ : ∃ pool, Timed (Operation.Standard 3) SparesFetched pool ∧
      pool.shared = fetchedDatabase := by
    apply fetched_reached
    intro now stmt db quiet
    cases stmt with
    | reclaimStale ttlSecs => exact quiet.elim
    | requeueOrFail id cap ts => exact quiet.elim
    | _ => trivial
  have scans : Stmt.Executes (DateTime.ofSeconds 60) ∅ (.reclaimStale 86400) first.shared
      (.ok (first.shared.selected (Columns.isStale (DateTime.ofSeconds 60) 86400)))
      (first.shared.sweep (Columns.isStale (DateTime.ofSeconds 60) 86400)) := ⟨rfl, rfl⟩
  have fresh : SparesFetched (DateTime.ofSeconds 60) (.reclaimStale 86400) first.shared := by
    intro id row found stale
    rw [same] at found
    have below : id < 2 := fetchedDatabase.ids id (Option.isSome_of_eq_some found)
    have fetched : fetchedDatabase.rows 1 = some ⟨soleKey, (Columns.default.claim 0).apply 0 [7] 0 false⟩ := by decide
    obtain rfl | rfl : id = 0 ∨ id = 1 := by omega
    · cases found
    · obtain rfl := Option.some.inj (fetched.symm.trans found)
      exact absurd stale (by decide)
  have started : Timed (Operation.Standard 3) SparesFetched (first.spawn ⟨(), (Operation.reclaimStaleByTtl 86400).prog⟩) :=
    run.start trivial
  have found : (first.spawn ⟨(), (Operation.reclaimStaleByTtl 86400).prog⟩).tasks[first.tasks.length]? =
      some ⟨(), (Operation.reclaimStaleByTtl 86400).prog⟩ := by simp [Pool.spawn]
  have scanned := started.step found scans fresh
  exact ⟨_, scanned, congrArg (Database.sweep · _) same, freshness_tells_truth scanned⟩

/-- A fetched row that the staleness scan re-enqueues a day later is shown as discovered. -/
theorem freshness_fails : ∃ pool, Timed (Operation.Standard 3) (fun _ _ _ => True) pool ∧
    pubkeyFreshness pool.shared 1 = some ⟨1, .discovered, some 0⟩ ∧ ¬ TellsTruth pool.shared := by
  obtain ⟨first, run, same⟩ : ∃ pool, Timed (Operation.Standard 3) (fun _ _ _ => True) pool ∧
      pool.shared = fetchedDatabase := fetched_reached fun _ _ _ _ => trivial
  have sweeps : Runs sql (Operation.reclaimStaleByTtl 86400).prog first.shared ()
      (first.shared.sweep (Columns.isStale (DateTime.ofSeconds 86401) 86400)) :=
    .call ⟨DateTime.ofSeconds 86401, ∅, trivial, rfl, rfl⟩ .ret
  obtain ⟨pool, reached, left⟩ := run.performs (.reclaimStaleByTtl 86400) trivial
    ⟨fun _ _ => trivial, fun _ => trivial⟩ sweeps
  have stale : (fetchedDatabase.sweep (Columns.isStale (DateTime.ofSeconds 86401) 86400)).rows 1 =
      some ⟨soleKey, ((Columns.default.claim 0).apply 0 [7] 0 false).reclaim⟩ := by decide
  rw [same] at left
  have shown : pubkeyFreshness pool.shared 1 = some ⟨1, .discovered, some 0⟩ := by
    rw [pubkeyFreshness, left, stale]
    rfl
  refine ⟨pool, reached, shown, ?_⟩
  intro truth
  have unapplied := (truth 1 _ shown rfl).1 _ (left ▸ stale)
  cases unapplied

end Example

end WotCrawler.Crawl
