import WotCrawler.Crawl.Statements
import WotCrawler.Effect.Pool
import WotCrawler.Store.Transition

/-! The life of a row: every call that writes `pubkeys`, in any interleaving of their statements,
and what holds of the rows throughout. -/

namespace WotCrawler.Crawl

open Effect Store

/-- The calls of the store and the frontier that write `pubkeys` and `follows`. -/
inductive Operation where
  | seedAnchor (anchorPubkey : Bytes)
  | upsertPubkey (pubkey : Bytes)
  | claimBatch (limit : Int)
  | applyFollowList (followerId : Nat) (eventId : Bytes) (createdAt : DateTime) (followeeIds : List Nat)
  | setFetchStatus (id : Nat) (status : FetchStatus) (ts : DateTime)
  | requeueOrFail (id : Nat) (maxAttempts : Int) (now : DateTime)
  | reclaimStaleOnStartup
  | reclaimStaleByTtl (ttlSecs : Int)
  | reclaimInProgressOlderThan (ageSecs : Int)

namespace Operation

/-- A call whose result nobody waits for. -/
def detached (call : StoreM α) : Prog Sql Unit := do
  let _ ← call.run
  return ()

def prog : Operation → Prog Sql Unit
  | .seedAnchor anchorPubkey => detached (Crawl.seedAnchor anchorPubkey)
  | .upsertPubkey pubkey => detached (Store.upsertPubkey pubkey)
  | .claimBatch limit => detached (Crawl.claimBatch limit)
  | .applyFollowList followerId eventId createdAt followeeIds =>
    detached (Store.applyFollowList followerId eventId createdAt followeeIds)
  | .setFetchStatus id status ts => detached (Store.setFetchStatus id status ts)
  | .requeueOrFail id maxAttempts now => detached (Crawl.requeueOrFail id maxAttempts now)
  | .reclaimStaleOnStartup => detached Crawl.reclaimStaleOnStartup
  | .reclaimStaleByTtl ttlSecs => detached (Crawl.reclaimStaleByTtl ttlSecs)
  | .reclaimInProgressOlderThan ageSecs => detached (Crawl.reclaimInProgressOlderThan ageSecs)

/-- The crawler sets `not_found` directly, and retries under one cap. -/
def Standard (maxAttempts : Int) : Operation → Prop
  | .setFetchStatus _ status _ => status = .notFound
  | .requeueOrFail _ cap _ => cap = maxAttempts
  | _ => True

end Operation

/-- The same of a statement. -/
def StandardStmt (maxAttempts : Int) : Stmt → Prop
  | .updateStatus _ status _ => status = .notFound
  | .requeueOrFail _ cap _ => cap = maxAttempts
  | _ => True

/-- Calls that have started, and the database they share. -/
abbrev Calls := Pool Sql Database Unit Unit

/-- The states reached from the empty database: calls start, make their next statement, or end
where they stand. -/
inductive Interleaved (allowed : Operation → Prop) (meets : Stmt → Database → Prop) : Calls → Prop where
  | initial : Interleaved allowed meets ⟨Database.empty, []⟩
  | start (run : Interleaved allowed meets pool) (permitted : allowed operation) :
      Interleaved allowed meets (pool.spawn ⟨(), operation.prog⟩)
  | step (run : Interleaved allowed meets pool)
      (step : pool.Calls sql.silent index stmt note noted after) (met : meets stmt pool.shared) :
      Interleaved allowed meets after
  | die (run : Interleaved allowed meets pool) (index : Nat) :
      Interleaved allowed meets (pool.drop index () ())

variable {allowed : Operation → Prop} {meets : Stmt → Database → Prop} {pool : Calls}

private theorem detached_issues {call : StoreM α} {kind : Stmt → Prop}
    (issues : call.run.Issues kind) : (Operation.detached call).Issues kind :=
  issues.bind fun _ => trivial

/-- Resolving an author stamps `not_found` only, and requeues nothing. -/
theorem ResolveStmt.standard {stmt : Stmt} (resolves : ResolveStmt vouched stmt) :
    StandardStmt maxAttempts stmt := by
  cases stmt with
  | updateStatus id status ts => exact resolves
  | requeueOrFail id cap now => cases resolves
  | _ => trivial

/-- A standard call issues standard statements. -/
theorem Operation.Standard.issues {operation : Operation} (standard : operation.Standard maxAttempts) :
    operation.prog.Issues (StandardStmt maxAttempts) := by
  have single {stmt : Stmt} (standard : StandardStmt maxAttempts stmt) :
      (Operation.detached (query stmt)).Issues (StandardStmt maxAttempts) :=
    detached_issues ⟨standard, fun _ => trivial⟩
  cases operation with
  | seedAnchor anchorPubkey => exact detached_issues (upsertPubkey_issues trivial)
  | upsertPubkey pubkey => exact detached_issues (upsertPubkey_issues trivial)
  | claimBatch limit => exact single trivial
  | applyFollowList followerId eventId createdAt followeeIds =>
    have issues : (Store.applyFollowList followerId eventId createdAt followeeIds).run.Issues
        (ApplyStmt fun _ => True) := applyFollowList_issues applyStmt_permits followerId createdAt followeeIds
    exact detached_issues (issues.mono fun _ applies => applies.resolve.standard)
  | setFetchStatus id status ts => exact single standard
  | requeueOrFail id cap now => exact single standard
  | reclaimStaleOnStartup => exact single trivial
  | reclaimStaleByTtl ttlSecs => exact single trivial
  | reclaimInProgressOlderThan ageSecs => exact single trivial

/-- In every state reached, each call has only statements of its kind left. -/
theorem Interleaved.restricted {kind : Stmt → Prop} (run : Interleaved allowed meets pool)
    (issues : ∀ operation, allowed operation → operation.prog.Issues kind) : pool.Restricted (fun _ => kind) := by
  induction run with
  | initial => exact fun _ _ none => by cases none
  | start run permitted ih => exact ih.spawn (issues _ permitted)
  | step run step met ih => exact ih.calls step (fun _ same => same)
  | die run index ih => exact ih.drop

/-- What every statement that may come preserves holds in every state reached. -/
theorem Interleaved.invariant {kind : Stmt → Prop} {holds : Database → Prop}
    (run : Interleaved allowed meets pool)
    (issues : ∀ operation, allowed operation → operation.prog.Issues kind) (start : holds Database.empty)
    (preserves : ∀ {stmt before reply after now locked}, kind stmt → meets stmt before → holds before →
      stmt.Executes now locked before reply after → holds after) : holds pool.shared := by
  induction run with
  | initial => exact start
  | start run permitted ih => exact ih
  | step run step met ih =>
    have allowed := (run.restricted issues).keeps step
    obtain ⟨reply, ⟨now, locked, _, executes⟩, _⟩ := step.executed
    exact preserves allowed met ih executes
  | die run index ih => exact ih

section Lifecycle

/-- What holds of a row's columns under a retry cap. -/
structure RowLifecycle (maxAttempts : Int) (columns : Columns) : Prop where
  stamped : columns.status = .fetched ∨ columns.status = .notFound ∨ columns.status = .failed →
    columns.lastFetchedAt.isSome
  budget : columns.status = .discovered ∨ columns.status = .inProgress →
    0 ≤ (columns.fetchAttempts : Int) ∧ (columns.fetchAttempts : Int) < max 1 maxAttempts
  leased : columns.status = .inProgress → columns.claimedAt.isSome
  churn : columns.changeCount ≤ columns.fetchCount

/-- What holds of the tables. -/
structure Lifecycle (maxAttempts : Int) (db : Database) : Prop where
  rows : ∀ id row, db.rows id = some row → RowLifecycle maxAttempts row.columns
  edgeless : ∀ id row, db.rows id = some row → row.columns.appliedEventId = none →
    ∀ followee, (id, followee) ∉ db.follows

theorem RowLifecycle.default (maxAttempts : Int) : RowLifecycle maxAttempts Columns.default where
  stamped := fun terminal => by cases terminal with
    | inl fetched => cases fetched
    | inr rest => cases rest with
      | inl notFound => cases notFound
      | inr failed => cases failed
  budget := fun _ => ⟨le_refl 0, lt_max_of_lt_left one_pos⟩
  leased := fun inProgress => by cases inProgress
  churn := le_refl 0

/-- A bumped counter is below the cap, or the row has failed. -/
private theorem RowLifecycle.requeue {columns : Columns} (valid : RowLifecycle maxAttempts columns)
    (now : DateTime) : RowLifecycle maxAttempts (columns.requeue maxAttempts now) := by
  by_cases spent : (columns.fetchAttempts + 1 : Int) ≥ maxAttempts
  · refine ⟨?_, ?_, ?_, valid.churn⟩
    · simp [Columns.requeue, spent]
    · simp [Columns.requeue, spent]
    · simp [Columns.requeue, spent]
  · refine ⟨?_, ?_, ?_, valid.churn⟩
    · simp [Columns.requeue, spent]
    · intro _
      have bumped : (columns.requeue maxAttempts now).fetchAttempts = columns.fetchAttempts + 1 := rfl
      rw [bumped]
      omega
    · simp [Columns.requeue, spent]

/-- Every move of a standard statement keeps a row's lifecycle. -/
theorem RowLifecycle.moves {columns next : Columns} (valid : RowLifecycle maxAttempts columns)
    (standard : StandardStmt maxAttempts stmt) (moves : Moves now stmt target columns next) :
    RowLifecycle maxAttempts next := by
  cases moves with
  | stay => exact valid
  | confirm =>
    refine ⟨fun _ => rfl, ?_, ?_, Nat.le_succ_of_le valid.churn⟩
    · simp [Columns.confirm]
    · simp [Columns.confirm]
  | @apply _ _ _ _ _ changed =>
    refine ⟨fun _ => rfl, ?_, ?_, ?_⟩
    · simp [Columns.apply]
    · simp [Columns.apply]
    · have bound := valid.churn
      cases changed <;> simp [Columns.apply] <;> omega
  | stamp =>
    have status : _ = FetchStatus.notFound := standard
    subst status
    refine ⟨fun _ => rfl, ?_, ?_, valid.churn⟩
    · simp [Columns.setStatus]
    · simp [Columns.setStatus]
  | claim discovered =>
    refine ⟨?_, fun _ => valid.budget (.inl discovered), fun _ => rfl, valid.churn⟩
    simp [Columns.claim]
  | reclaim selected =>
    refine ⟨?_, fun _ => ⟨le_refl 0, lt_max_of_lt_left one_pos⟩, ?_, valid.churn⟩
    · simp [Columns.reclaim]
    · simp [Columns.reclaim]
  | requeue few =>
    have cap : _ = maxAttempts := standard
    subst cap
    exact valid.requeue _

/-- Every standard statement keeps the lifecycle of all rows. -/
theorem Lifecycle.executes {stmt : Stmt} {before after : Database} {locked : Finset Nat}
    {reply : Except StoreError stmt.Ret} (valid : Lifecycle maxAttempts before)
    (standard : StandardStmt maxAttempts stmt) (executes : stmt.Executes now locked before reply after) :
    Lifecycle maxAttempts after := by
  refine ⟨?_, ?_⟩
  · intro id kept found
    cases executes.evolves found with
    | inl fresh =>
      rw [fresh.2.2]
      exact .default maxAttempts
    | inr old =>
      obtain ⟨row, present, _, moves⟩ := old
      exact (valid.rows id row present).moves standard moves
  · intro id kept found unapplied followee edge
    by_cases edits : stmt.edits = some id
    · cases executes.edits_applied edits found with
      | inl same =>
        subst same
        exact valid.edgeless id kept found unapplied followee edge
      | inr applied => exact applied unapplied
    · have old := (executes.framed.follows id followee edits).mp edge
      obtain ⟨row, present⟩ := Option.isSome_iff_exists.mp (before.follows_references _ old).1
      have same := (executes.framed.list id row kept present found edits).1
      exact valid.edgeless id row present (same.symm.trans unapplied) followee old

/-- The row lifecycle: whatever the calls and however their statements interleave, deaths and
late writes included, every row keeps its stamps, its retry budget, its lease time and its churn
counters, and a row without an applied event has no edges. -/
theorem lifecycle_reached (run : Interleaved (Operation.Standard maxAttempts) (fun _ _ => True) pool) :
    Lifecycle maxAttempts pool.shared := by
  apply run.invariant (fun _ standard => standard.issues)
  · refine ⟨?_, ?_⟩
    · intro id row found
      cases found
    · intro id row found
      cases found
  · intro stmt before reply after now locked standard _ valid executes
    exact valid.executes standard executes

end Lifecycle

section Example

def soleKey : Bytes := List.replicate 32 1

/-- One key seeded and leased. -/
def leasedDatabase : Database := (Database.empty.upsert soleKey).2.claim 0 [1]

theorem leased_executes :
    Stmt.Executes 0 ∅ (.claim 1) (Database.empty.upsert soleKey).2 (.ok [⟨1, soleKey⟩]) leasedDatabase := by
  have row : (Database.empty.upsert soleKey).2.rows 1 = some ⟨soleKey, Columns.default⟩ := by decide
  have claimable : (Database.empty.upsert soleKey).2.claimable ∅ (1 : Int).toNat = [1] := by decide
  simp only [Stmt.Executes]
  rw [if_neg (by omega), claimable]
  refine ⟨_, rfl, List.Perm.refl _, ?_, rfl⟩
  intro claimed member
  obtain rfl := List.mem_singleton.mp member
  exact ⟨_, row, rfl⟩

/-- A call of one statement, run at once. -/
private theorem Interleaved.perform {stmt : Stmt} {reply : Except StoreError stmt.Ret} {left : Database}
    (run : Interleaved allowed meets pool) (permitted : allowed operation) (met : meets stmt pool.shared)
    (single : operation.prog = Operation.detached (query stmt))
    (executes : stmt.Executes 0 ∅ pool.shared reply left) :
    ∃ after, Interleaved allowed meets after ∧ after.shared = left := by
  have started := run.start permitted
  rw [single] at started
  have found : (pool.spawn ⟨(), Operation.detached (query stmt)⟩).tasks[pool.tasks.length]? =
      some ⟨(), Operation.detached (query stmt)⟩ := by simp [Pool.spawn]
  exact ⟨_, started.step (.noting found ⟨0, ∅, trivial, executes⟩) met, rfl⟩

private theorem leased_reached (seeds : allowed (.upsertPubkey soleKey)) (claims : allowed (.claimBatch 1))
    (seedMet : ∀ db, meets (.upsertPubkey soleKey) db) (claimMet : ∀ db, meets (.claim 1) db) :
    ∃ pool, Interleaved allowed meets pool ∧ pool.shared = leasedDatabase := by
  obtain ⟨first, seeded, same⟩ := (Interleaved.initial : Interleaved allowed meets _).perform
    seeds (seedMet _) rfl ⟨rfl, rfl⟩
  have executes := leased_executes
  rw [← same] at executes
  exact seeded.perform claims (claimMet _) rfl executes

/-- The theorem at a leased row. -/
theorem lifecycle_reached_leased : ∃ pool, Interleaved (Operation.Standard 3) (fun _ _ => True) pool ∧
    pool.shared = leasedDatabase ∧ Lifecycle 3 pool.shared := by
  obtain ⟨pool, run, same⟩ := (leased_reached trivial trivial (fun _ => trivial) (fun _ => trivial) :
    ∃ pool, Interleaved (Operation.Standard 3) (fun _ _ => True) pool ∧ pool.shared = leasedDatabase)
  exact ⟨pool, run, same, lifecycle_reached run⟩

end Example

section Lease

/-- The contract of `claimed_at`: it is set exactly on the leased rows. -/
def LeaseMarks (db : Database) : Prop :=
  ∀ id row, db.rows id = some row → (row.columns.claimedAt.isSome ↔ row.columns.status = .inProgress)

/-- The outcome writes that do not name `claimed_at` find a row that stays as leased as it was. -/
def KeepsLease (stmt : Stmt) (db : Database) : Prop :=
  match stmt with
  | .confirmFetched id => ∀ row, db.rows id = some row → row.columns.status ≠ .inProgress
  | .applyDiff id _ _ _ _ _ => ∀ row, db.rows id = some row → row.columns.status ≠ .inProgress
  | .updateStatus id status _ => ∀ row, db.rows id = some row →
      (row.columns.status = .inProgress ↔ status = .inProgress)
  | _ => True

/-- Every statement that meets the condition keeps the contract. -/
theorem LeaseMarks.executes {stmt : Stmt} {before after : Database} {locked : Finset Nat}
    {reply : Except StoreError stmt.Ret} (valid : LeaseMarks before) (keeps : KeepsLease stmt before)
    (executes : stmt.Executes now locked before reply after) : LeaseMarks after := by
  intro id kept found
  cases executes.evolves found with
  | inl fresh =>
    rw [fresh.2.2]
    simp [Columns.default]
  | inr old =>
    obtain ⟨row, present, _, moves⟩ := old
    have marked := valid id row present
    generalize kept.columns = next at moves
    cases moves with
    | stay => exact marked
    | confirm =>
      have idle : row.columns.status ≠ .inProgress := keeps row present
      simpa [Columns.confirm, idle] using marked
    | apply =>
      have idle : row.columns.status ≠ .inProgress := keeps row present
      simpa [Columns.apply, idle] using marked
    | stamp => exact marked.trans (keeps row present)
    | claim discovered => simp [Columns.claim]
    | reclaim selected => simp [Columns.reclaim]
    | requeue few =>
      simp only [Columns.requeue, Option.isSome_none, Bool.false_eq_true, false_iff]
      split <;> simp

/-- A statement that succeeds keeps the contract only when it meets the condition. -/
theorem LeaseMarks.keeps {stmt : Stmt} {before after : Database} {locked : Finset Nat}
    {value : stmt.Ret} (valid : LeaseMarks before)
    (executes : stmt.Executes now locked before (.ok value) after) (holds : LeaseMarks after) :
    KeepsLease stmt before := by
  cases stmt with
  | confirmFetched id =>
    intro row present
    rw [executes.2] at holds
    have marked := holds id ⟨row.pubkey, row.columns.confirm now⟩ (by simp [present])
    intro leased
    have stamped := (valid id row present).mpr leased
    exact absurd (marked.mp stamped) (by simp [Columns.confirm])
  | applyDiff id removed added eventId createdAt changed =>
    intro row present leased
    simp only [Stmt.Executes, Commits] at executes
    split at executes
    · rename_i next done
      obtain ⟨_, rfl⟩ := executes
      have moved : after.rows id = some ⟨row.pubkey, row.columns.apply now eventId createdAt changed⟩ := by
        rw [(Database.applyDiff_spec done).1]
        simp [present]
      have stamped := (valid id row present).mpr leased
      exact absurd ((holds id _ moved).mp stamped) (by simp [Columns.apply])
    · cases executes.1
  | updateStatus id status ts =>
    intro row present
    rw [executes.2] at holds
    have marked := holds id ⟨row.pubkey, row.columns.setStatus status ts⟩ (by simp [present])
    exact (valid id row present).symm.trans marked
  | _ => trivial

/-- Along every interleaving in which no outcome write that leaves `claimed_at` alone moves a row
into or out of a lease, the lease time marks exactly the leased rows. -/
theorem lease_marks_reached (run : Interleaved (fun _ => True) KeepsLease pool) :
    LeaseMarks pool.shared := by
  apply run.invariant (fun operation _ => operation.prog.issues_any)
  · intro id row found
    cases found
  · intro stmt before reply after now locked _ keeps valid executes
    exact valid.executes keeps executes

/-- The theorem where a lease is requeued before a late outcome write stamps its row. -/
theorem lease_marks_reached_late : ∃ pool, Interleaved (fun _ => True) KeepsLease pool ∧
    pool.shared.rows 1 = some ⟨soleKey, ((Columns.default.claim 0).requeue 3 0).setStatus .notFound 0⟩ ∧
    LeaseMarks pool.shared := by
  obtain ⟨first, run, same⟩ := (leased_reached trivial trivial (fun _ => trivial) (fun _ => trivial) :
    ∃ pool, Interleaved (fun _ => True) KeepsLease pool ∧ pool.shared = leasedDatabase)
  have requeues : Stmt.Executes 0 ∅ (.requeueOrFail 1 3 0) first.shared (.ok ())
      (leasedDatabase.updateRow 1 (Columns.requeue 3 0)) := by
    rw [same]
    exact ⟨rfl, rfl⟩
  have requeue : (Operation.requeueOrFail 1 3 0).prog = Operation.detached (query (.requeueOrFail 1 3 0)) := rfl
  have free : KeepsLease (.requeueOrFail 1 3 0) first.shared := trivial
  obtain ⟨second, requeued, left⟩ := run.perform trivial free requeue requeues
  have released : second.shared.rows 1 = some ⟨soleKey, (Columns.default.claim 0).requeue 3 0⟩ := by
    rw [left]
    decide
  have stamps : Stmt.Executes 0 ∅ (.updateStatus 1 .notFound 0) second.shared (.ok ())
      (second.shared.updateRow 1 (Columns.setStatus .notFound 0)) := ⟨rfl, rfl⟩
  have keeps : KeepsLease (.updateStatus 1 .notFound 0) second.shared := by
    intro row found
    obtain rfl := Option.some.inj (released.symm.trans found)
    decide
  have stamp : (Operation.setFetchStatus 1 .notFound 0).prog =
      Operation.detached (query (.updateStatus 1 .notFound 0)) := rfl
  obtain ⟨pool, reached, late⟩ := requeued.perform trivial keeps stamp stamps
  refine ⟨pool, reached, ?_, lease_marks_reached reached⟩
  rw [late, Database.updateRow_rows_self, released]
  rfl

/-- A claimed author without a list: its `not_found` row still carries the lease time. -/
theorem lease_marks_fails : ∃ pool, Interleaved (fun _ => True) (fun _ _ => True) pool ∧
    pool.shared.rows 1 = some ⟨soleKey, (Columns.default.claim 0).setStatus .notFound 0⟩ ∧
    ¬ LeaseMarks pool.shared := by
  obtain ⟨first, run, same⟩ := (leased_reached trivial trivial (fun _ => trivial) (fun _ => trivial) :
    ∃ pool, Interleaved (fun _ => True) (fun _ _ => True) pool ∧ pool.shared = leasedDatabase)
  have row : leasedDatabase.rows 1 = some ⟨soleKey, Columns.default.claim 0⟩ := by decide
  have stamps : Stmt.Executes 0 ∅ (.updateStatus 1 .notFound 0) first.shared (.ok ())
      (first.shared.updateRow 1 (Columns.setStatus .notFound 0)) := ⟨rfl, rfl⟩
  have single : (Operation.setFetchStatus 1 .notFound 0).prog =
      Operation.detached (query (.updateStatus 1 .notFound 0)) := rfl
  obtain ⟨pool, reached, left⟩ := run.perform trivial trivial single stamps
  have stamped : pool.shared.rows 1 =
      some ⟨soleKey, (Columns.default.claim 0).setStatus .notFound 0⟩ := by
    rw [left, same, Database.updateRow_rows_self, row]
    rfl
  refine ⟨pool, reached, stamped, ?_⟩
  intro marks
  exact absurd ((marks 1 _ stamped).mp rfl) (by decide)

end Lease

end WotCrawler.Crawl
