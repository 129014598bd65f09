import WotCrawler.Crawl.Driver
import WotCrawler.Crawl.Worker

/-! Claims, sweeps and the outcome writes of any number of workers: when every write finds its
worker's own lease in place. -/

namespace WotCrawler.Crawl

open Effect Store Ingest Relay

/-- The `WHERE` of a sweep. -/
def sweepSelects (now : DateTime) : Stmt → Option (Columns → Bool)
  | .reclaimInProgress => some Columns.isInProgress
  | .reclaimStale ttlSecs => some (Columns.isStale now ttlSecs)
  | .reclaimExpired ageSecs => some (Columns.isExpired now ageSecs)
  | _ => none

/-- The workers, by the order of their claims, over the database; and for each row the worker
whose claim of it was the last, unless a sweep has reset the row since. -/
structure Fleet where
  pool : Pool Sql Database (Set Nat) (Except StoreError Nat)
  lease : Nat → Option Nat

namespace Fleet

/-- A worker that has claimed a batch, given what its fetches will return. -/
def claim (fleet : Fleet) (left : Database) (batch : List ClaimedAuthor)
    (prog : Prog Sql (Except StoreError Nat)) : Fleet where
  pool := (fleet.pool.disturb left).spawn ⟨{id | id ∈ batch.map ClaimedAuthor.id}, prog⟩
  lease := fun id => if id ∈ batch.map ClaimedAuthor.id then some fleet.pool.tasks.length else fleet.lease id

/-- A sweep ends the lease of every row it resets. -/
def sweep (fleet : Fleet) (left : Database) (selects : Columns → Bool) : Fleet where
  pool := fleet.pool.disturb left
  lease := fun id =>
    if (fleet.pool.shared.rows id).any (fun row => selects row.columns) then none else fleet.lease id

/-- A row that a worker still running has claimed and not yet resolved. -/
def Pending (fleet : Fleet) (id : Nat) : Prop :=
  ∃ (index : Nat) (task : Task Sql (Set Nat) (Except StoreError Nat)),
    fleet.pool.tasks[index]? = some task ∧ id ∈ task.note

/-- A sweep resets no row that a worker still has to resolve. -/
def Spares (fleet : Fleet) (selects : Columns → Bool) : Prop :=
  ∀ id row, fleet.pool.shared.rows id = some row → selects row.columns = true → ¬ fleet.Pending id

/-- The runs of the crawler: batches are claimed, sweeps run, workers make their statements one
at a time or die, and keys are seeded. The condition concerns the two sweeps that select leased
rows; the TTL sweep runs freely. -/
inductive Runs (spares : Fleet → (Columns → Bool) → Prop) : Fleet → Fleet → Prop where
  | refl : Runs spares fleet fleet
  | claim (run : Runs spares initial fleet)
      (executed : sql.exec (.claim limit) fleet.pool.shared (.ok batch) left) :
      Runs spares initial
        (fleet.claim left batch (processBatch gate maxAttempts fallback batch unionFetch).run)
  | sweep (run : Runs spares initial fleet) (sweeps : sweepSelects now stmt = some selects)
      (executed : stmt.Executes now locked fleet.pool.shared reply left)
      (spared : (∃ ttlSecs, stmt = .reclaimStale ttlSecs) ∨ spares fleet selects) :
      Runs spares initial (fleet.sweep left selects)
  | work (run : Runs spares initial fleet)
      (step : fleet.pool.Calls (leasing fun _ => True) index stmt note noted later) :
      Runs spares initial ⟨later, fleet.lease⟩
  | die (run : Runs spares initial fleet) (index : Nat) (error : StoreError) :
      Runs spares initial ⟨fleet.pool.drop index ∅ (.error error), fleet.lease⟩
  | seed (run : Runs spares initial fleet) (executed : sql.exec (.upsertPubkey key) fleet.pool.shared reply left) :
      Runs spares initial ⟨fleet.pool.disturb left, fleet.lease⟩

/-- A worker's statement changes a row's status or attempts only under the worker's own lease. -/
def Fenced (fleet : Fleet) (index : Nat) (after : Database) : Prop :=
  ∀ id row changed, fleet.pool.shared.rows id = some row → after.rows id = some changed →
    (changed.columns.status ≠ row.columns.status ∨
      changed.columns.fetchAttempts ≠ row.columns.fetchAttempts) → fleet.lease id = some index

/-- Every pending row is in progress under its worker's lease. -/
structure Held (fleet : Fleet) : Prop where
  guarded : fleet.pool.Guarded (leasing fun _ => True) leased Worked (mayFail fun _ _ => True)
  leases : ∀ (index : Nat) (task : Task Sql (Set Nat) (Except StoreError Nat)),
    fleet.pool.tasks[index]? = some task → ∀ id ∈ task.note, fleet.lease id = some index ∧
      ∃ row, fleet.pool.shared.rows id = some row ∧ row.columns.status = .inProgress

variable {fleet : Fleet}

/-- No row is pending with two workers. -/
theorem Held.apart (held : Held fleet) {left right : Nat}
    {first second : Task Sql (Set Nat) (Except StoreError Nat)} {id : Nat}
    (leftFound : fleet.pool.tasks[left]? = some first) (rightFound : fleet.pool.tasks[right]? = some second)
    (pending : id ∈ first.note) (also : id ∈ second.note) : left = right := by
  have lease := (held.leases left first leftFound id pending).1
  rw [(held.leases right second rightFound id also).1] at lease
  exact (Option.some.inj lease).symm

/-- A worker's statement finds its own lease, and keeps every pending row of the others. -/
theorem Held.work {later : Pool Sql Database (Set Nat) (Except StoreError Nat)} (held : Held fleet)
    (step : fleet.pool.Calls (leasing fun _ => True) index stmt note noted later) :
    Held ⟨later, fleet.lease⟩ ∧ fleet.Fenced index later.shared := by
  obtain ⟨framed, released, single, owned⟩ := held.guarded.keeps step
  obtain ⟨next, found⟩ := step.found
  have others (other : Nat) (task : Task Sql (Set Nat) (Except StoreError Nat)) (apart : other ≠ index)
      (present : fleet.pool.tasks[other]? = some task) (id : Nat) (pending : id ∈ task.note) :
      stmt.outcome ≠ some id := fun writes => apart (held.apart present found pending (owned id writes))
  refine ⟨⟨?_, ?_⟩, ?_⟩
  · apply held.guarded.calls step
    intro other task apart present
    exact ⟨rfl, framed.persists, fun id pending =>
      framed.untouched single (others other task apart present id pending)⟩
  · intro other task present id pending
    cases step.tasks present with
    | inl called =>
      obtain ⟨rfl, same⟩ := called
      have left : noted = release stmt fleet.pool.shared note := released
      rw [same, left] at pending
      obtain ⟨lease, row, there, status⟩ := held.leases other _ found id pending.1
      exact ⟨lease, row, (framed.untouched single pending.2).1 row there, status⟩
    | inr old =>
      obtain ⟨lease, row, there, status⟩ := held.leases other task old.2 id pending
      have untouched := framed.untouched single (others other task old.1 old.2 id pending)
      exact ⟨lease, row, untouched.1 row there, status⟩
  · intro id row changed before after differs
    by_cases writes : stmt.outcome = some id
    · exact (held.leases index _ found id (owned id writes)).1
    · have same := (framed.untouched single writes).1 row before
      obtain rfl := Option.some.inj (same.symm.trans after)
      cases differs with
      | inl status => exact absurd rfl status
      | inr attempts => exact absurd rfl attempts

/-- A change of the database that touches no pending row. -/
theorem Held.disturb (held : Held fleet) {left : Database} {lease : Nat → Option Nat}
    (persists : Persists fleet.pool.shared left)
    (untouched : ∀ id, fleet.Pending id → fleet.pool.shared.Untouched left id ∧ lease id = fleet.lease id) :
    Held ⟨fleet.pool.disturb left, lease⟩ := by
  refine ⟨?_, ?_⟩
  · apply held.guarded.disturb
    intro index task found
    exact ⟨rfl, persists, fun id pending => (untouched id ⟨index, task, found, pending⟩).1⟩
  · intro index task found id pending
    obtain ⟨same, kept⟩ := untouched id ⟨index, task, found, pending⟩
    obtain ⟨held, row, there, status⟩ := held.leases index task found id pending
    exact ⟨kept.trans held, row, same.1 row there, status⟩

theorem Held.claim (held : Held fleet) {batch : List ClaimedAuthor} {left : Database} {locked : Finset Nat}
    (executes : Stmt.Executes now locked (.claim limit) fleet.pool.shared (.ok batch) left) :
    Held (fleet.claim left batch (processBatch gate maxAttempts fallback batch unionFetch).run) := by
  obtain ⟨nodup, discovered, made⟩ := claim_spec executes
  have framed := executes.framed
  have apart (id : Nat) (pending : fleet.Pending id) : id ∉ batch.map ClaimedAuthor.id := by
    intro member
    obtain ⟨claimed, listed, rfl⟩ := List.mem_map.mp member
    obtain ⟨index, task, found, owned⟩ := pending
    obtain ⟨row, there, _, status⟩ := discovered claimed listed
    obtain ⟨_, other, here, inProgress⟩ := held.leases index task found claimed.id owned
    obtain rfl := Option.some.inj (there.symm.trans here)
    rw [status] at inProgress
    cases inProgress
  have untouched (id : Nat) (pending : fleet.Pending id) : fleet.pool.shared.Untouched left id := by
    rw [made]
    refine ⟨?_, fun _ => Iff.rfl⟩
    intro row found
    rw [Database.claim_rows_of_notMem (apart id pending), found]
  have kept := held.disturb framed.persists
    (fun id pending => ⟨untouched id pending, (if_neg (apart id pending) : (if id ∈ batch.map ClaimedAuthor.id
      then some fleet.pool.tasks.length else fleet.lease id) = fleet.lease id)⟩)
  have ready : Ready batch (left, {id | id ∈ batch.map ClaimedAuthor.id}) := by
    intro claimed member
    obtain ⟨row, found, key, _⟩ := discovered claimed member
    refine ⟨List.mem_map_of_mem member, ?_⟩
    exact key ▸ framed.persists.keyed (Database.keyed_of_row found)
  refine ⟨kept.guarded.spawn (processBatch_worked nodup ready), ?_⟩
  intro index task found id pending
  cases Pool.spawn_tasks found with
  | inl old => exact kept.leases index task old id pending
  | inr new =>
    obtain ⟨rfl, rfl⟩ := new
    refine ⟨if_pos pending, ?_⟩
    obtain ⟨claimed, member, rfl⟩ := List.mem_map.mp pending
    obtain ⟨row, there, _⟩ := discovered claimed member
    refine ⟨⟨row.pubkey, row.columns.claim now⟩, ?_, rfl⟩
    exact made ▸ Database.claim_rows_of_mem (List.mem_map_of_mem member) there

private theorem sweep_spec {stmt : Stmt} {reply : Except StoreError stmt.Ret} {before after : Database}
    {locked : Finset Nat} (sweeps : sweepSelects now stmt = some selects)
    (executes : stmt.Executes now locked before reply after) : after = before.sweep selects := by
  cases stmt with
  | reclaimInProgress => exact Option.some.inj sweeps ▸ executes.2
  | reclaimStale ttlSecs => exact Option.some.inj sweeps ▸ executes.2
  | reclaimExpired ageSecs => exact Option.some.inj sweeps ▸ executes.2
  | _ => cases sweeps

theorem Held.sweep (held : Held fleet) {left : Database} {locked : Finset Nat} {stmt : Stmt}
    {reply : Except StoreError stmt.Ret} (sweeps : sweepSelects now stmt = some selects)
    (executes : stmt.Executes now locked fleet.pool.shared reply left)
    (spared : (∃ ttlSecs, stmt = .reclaimStale ttlSecs) ∨ fleet.Spares selects) :
    Held (fleet.sweep left selects) := by
  have made := sweep_spec sweeps executes
  have missed (id : Nat) (row : PubkeyRow) (found : fleet.pool.shared.rows id = some row)
      (pending : fleet.Pending id) : selects row.columns = false := by
    cases spared with
    | inl ttl =>
      obtain ⟨ttlSecs, rfl⟩ := ttl
      obtain ⟨index, task, present, owned⟩ := pending
      obtain ⟨_, other, there, inProgress⟩ := held.leases index task present id owned
      obtain rfl := Option.some.inj (found.symm.trans there)
      obtain rfl : Columns.isStale now ttlSecs = selects := Option.some.inj sweeps
      simp [Columns.isStale, inProgress]
    | inr spares =>
      cases chosen : selects row.columns with
      | false => rfl
      | true => exact absurd pending (spares id row found chosen)
  apply held.disturb executes.framed.persists
  intro id pending
  obtain ⟨index, task, present, owned⟩ := pending
  obtain ⟨_, row, found, _⟩ := held.leases index task present id owned
  have missed (other : PubkeyRow) (there : fleet.pool.shared.rows id = some other) :
      selects other.columns = false := missed id other there ⟨index, task, present, owned⟩
  refine ⟨⟨?_, ?_⟩, ?_⟩
  · intro other there
    rw [made, Database.sweep_rows_of_missed missed, there]
  · intro followee
    rw [made]
    rfl
  · simp [found, missed row found]

/-- Along every run whose sweeps spare the pending rows, they stay held. -/
theorem Runs.held {initial : Fleet} (run : Runs Spares initial fleet) (start : Held initial) :
    Held fleet := by
  induction run with
  | refl => exact start
  | claim run executed ih =>
    obtain ⟨now, locked, _, executes⟩ := executed
    exact ih.claim executes
  | sweep run sweeps executed spared ih => exact ih.sweep sweeps executed spared
  | work run step ih => exact (ih.work step).1
  | die run index error ih =>
    refine ⟨ih.guarded.drop (fun _ => trivial), ?_⟩
    intro other task found id pending
    cases Pool.drop_tasks found with
    | inl dropped =>
      rw [dropped] at pending
      cases pending
    | inr old => exact ih.leases other task old.2 id pending
  | seed run executed ih =>
    obtain ⟨now, locked, _, executes⟩ := executed
    have framed := executes.framed
    exact ih.disturb framed.persists
      (fun id _ => ⟨framed.untouched rfl (fun other => by cases other), rfl⟩)

/-- Fencing: whatever claims, sweeps, deaths and statements came before, as long as no startup
or age sweep reset a row that a worker still running had claimed and not yet resolved, a
worker's next statement changes a row's status or attempts only under that worker's own lease. -/
theorem fenced_of_spared (run : Runs Spares ⟨⟨db, []⟩, fun _ => none⟩ fleet)
    (step : fleet.pool.Calls (leasing fun _ => True) index stmt note noted later) :
    fleet.Fenced index later.shared := by
  have start : Held ⟨⟨db, []⟩, fun _ => none⟩ :=
    ⟨(fun _ _ none => by cases none), (fun _ _ none => by cases none)⟩
  exact ((run.held start).work step).2

section Example

/-- One discovered author, and the batch that claims it. -/
def oneRow : Database := (Database.empty.upsert (List.replicate 32 1)).2

def soleAuthor : ClaimedAuthor := ⟨1, List.replicate 32 1⟩

/-- A gate that lets nothing through. -/
def plainGate : GateParams := ⟨fun _ => false, Kind.contactList, 0, 0, 0⟩

private theorem failing_requeues : ∃ next,
    (processBatch plainGate 3 noOpFallback [soleAuthor] (.error (.fetchTimeout "")) ).run =
      .call (.requeueOrFail 1 3 0) next := ⟨_, rfl⟩

private theorem missing_stamps : ∃ next,
    (processBatch plainGate 3 noOpFallback [soleAuthor] (.ok [])).run =
      .call (.updateStatus 1 .notFound 0) next := ⟨_, rfl⟩

theorem sole_claimed {db : Database} (row : db.rows 1 = some ⟨List.replicate 32 1, columns⟩)
    (claimable : db.claimable ∅ 1 = [1]) (now : DateTime) :
    Stmt.Executes now ∅ (.claim 1) db (.ok [soleAuthor]) (db.claim now [1]) := by
  simp only [Stmt.Executes]
  rw [if_neg (by omega)]
  have limit : (1 : Int).toNat = 1 := rfl
  rw [limit, claimable]
  refine ⟨_, rfl, List.Perm.refl _, ?_, rfl⟩
  intro claimed member
  obtain rfl := List.mem_singleton.mp member
  exact ⟨_, row, rfl⟩

private theorem requeue_executes {db : Database}
    (row : db.rows 1 = some ⟨List.replicate 32 1, columns⟩) (few : columns.fetchAttempts = 0) :
    Stmt.Executes 0 ∅ (.requeueOrFail 1 3 0) db (.ok ()) (db.updateRow 1 (Columns.requeue 3 0)) := by
  simp [Stmt.Executes, row, few]

/-- No worker, one author. -/
def idleFleet : Fleet := ⟨⟨oneRow, []⟩, fun _ => none⟩

/-- A worker has claimed the author, and its fetch fails. -/
def failingFleet : Fleet := idleFleet.claim (oneRow.claim 0 [1]) [soleAuthor]
  (processBatch plainGate 3 noOpFallback [soleAuthor] (.error (.fetchTimeout ""))).run

private theorem failingFleet_runs (spares : Fleet → (Columns → Bool) → Prop) :
    Runs spares idleFleet failingFleet := by
  have row : oneRow.rows 1 = some ⟨List.replicate 32 1, Columns.default⟩ := by decide
  have claimable : oneRow.claimable ∅ 1 = [1] := by decide
  exact Runs.refl.claim ⟨0, ∅, trivial, sole_claimed row claimable 0⟩

private theorem failingFleet_row : failingFleet.pool.shared.rows 1 =
    some ⟨List.replicate 32 1, Columns.default.claim 0⟩ := by decide

/-- The theorem at a claim whose fetch failed: the requeue counts an attempt under its lease. -/
theorem fenced_of_spared_requeue : ∃ note noted later, Runs Spares idleFleet failingFleet ∧
    failingFleet.pool.Calls (leasing fun _ => True) 0 (.requeueOrFail 1 3 0) note noted later ∧
    failingFleet.Fenced 0 later.shared := by
  obtain ⟨next, requeues⟩ := failing_requeues
  have found : failingFleet.pool.tasks[0]? = some ⟨_, .call (.requeueOrFail 1 3 0) next⟩ :=
    congrArg (fun prog => some (Task.mk {id | id ∈ [soleAuthor].map ClaimedAuthor.id} prog)) requeues
  have step : failingFleet.pool.Calls (leasing fun _ => True) 0 (.requeueOrFail 1 3 0) _ _ _ :=
    .noting found ⟨0, ∅, trivial, requeue_executes failingFleet_row rfl⟩
  exact ⟨_, _, _, failingFleet_runs Spares, step, fenced_of_spared (failingFleet_runs Spares) step⟩

/-- The age sweep resets the author while its worker still runs. -/
def sweptFleet : Fleet :=
  failingFleet.sweep (failingFleet.pool.shared.sweep (Columns.isExpired 100000000 60))
    (Columns.isExpired 100000000 60)

/-- A second worker claims it; no relay has its list. -/
def reclaimedFleet : Fleet :=
  sweptFleet.claim (sweptFleet.pool.shared.claim 100000000 [1]) [soleAuthor]
    (processBatch plainGate 3 noOpFallback [soleAuthor] (.ok [])).run

private theorem reclaimedFleet_runs : Runs (fun _ _ => True) idleFleet reclaimedFleet := by
  have sweeps : sweepSelects 100000000 (.reclaimExpired 60) = some (Columns.isExpired 100000000 60) := rfl
  have executes : Stmt.Executes 100000000 ∅ (.reclaimExpired 60) failingFleet.pool.shared
      (.ok (failingFleet.pool.shared.selected (Columns.isExpired 100000000 60)))
      (failingFleet.pool.shared.sweep (Columns.isExpired 100000000 60)) := ⟨rfl, rfl⟩
  have swept := (failingFleet_runs fun _ _ => True).sweep sweeps executes (.inr trivial)
  have row : sweptFleet.pool.shared.rows 1 = some ⟨List.replicate 32 1, Columns.default⟩ := by decide
  have claimable : sweptFleet.pool.shared.claimable ∅ 1 = [1] := by decide
  exact swept.claim ⟨100000000, ∅, trivial, sole_claimed row claimable 100000000⟩

/-- The second worker stamps the author; then the first, whose lease is gone, requeues it. -/
theorem requeue_unfenced : ∃ fleet note noted later, Runs (fun _ _ => True) idleFleet fleet ∧
    fleet.pool.Calls (leasing fun _ => True) 0 (.requeueOrFail 1 3 0) note noted later ∧
    fleet.lease 1 = some 1 ∧
    (∃ row, fleet.pool.shared.rows 1 = some row ∧ row.columns.status = .notFound) ∧
    (∃ row, later.shared.rows 1 = some row ∧ row.columns.status = .discovered) ∧
    ¬ fleet.Fenced 0 later.shared := by
  obtain ⟨next, stamps⟩ := missing_stamps
  have second : reclaimedFleet.pool.tasks[1]? = some ⟨_, .call (.updateStatus 1 .notFound 0) next⟩ :=
    congrArg (fun prog => some (Task.mk {id | id ∈ [soleAuthor].map ClaimedAuthor.id} prog)) stamps
  have stamped : reclaimedFleet.pool.Calls (leasing fun _ => True) 1 (.updateStatus 1 .notFound 0) _ _ _ :=
    .noting second ⟨0, ∅, trivial, rfl, rfl⟩
  obtain ⟨rest, requeues⟩ := failing_requeues
  have first (other : Task Sql (Set Nat) (Except StoreError Nat)) :
      (reclaimedFleet.pool.tasks.set 1 other)[0]? = some ⟨_, .call (.requeueOrFail 1 3 0) rest⟩ :=
    congrArg (fun prog => some (Task.mk {id | id ∈ [soleAuthor].map ClaimedAuthor.id} prog)) requeues
  have row : (reclaimedFleet.pool.shared.updateRow 1 (Columns.setStatus .notFound 0)).rows 1 =
      some ⟨List.replicate 32 1, (Columns.default.claim 100000000).setStatus .notFound 0⟩ := by decide
  have requeued := requeue_executes row rfl
  have moved : ((reclaimedFleet.pool.shared.updateRow 1 (Columns.setStatus .notFound 0)).updateRow 1
      (Columns.requeue 3 0)).rows 1 = some ⟨List.replicate 32 1,
        ((Columns.default.claim 100000000).setStatus .notFound 0).requeue 3 0⟩ := by decide
  refine ⟨_, _, _, _, reclaimedFleet_runs.work stamped, .noting (first _) ⟨0, ∅, trivial, requeued⟩, rfl,
    ⟨_, row, rfl⟩, ⟨_, moved, by decide⟩, ?_⟩
  intro fenced
  have lease : reclaimedFleet.lease 1 = some 0 := fenced 1 _ _ row moved (.inl (by decide))
  exact absurd lease (by decide)

end Example

end Fleet

/-- The database once the batch is claimed. -/
def claimedRow : Database := Fleet.oneRow.claim 0 [1]

theorem oneRow_upserts : sql.exec (.upsertPubkey (List.replicate 32 1)) Database.empty (.ok 1) Fleet.oneRow :=
  ⟨0, ∅, trivial, rfl, rfl⟩

theorem oneRow_reclaims : sql.exec .reclaimInProgress Fleet.oneRow (.ok 0) Fleet.oneRow := by
  have idle : Fleet.oneRow.sweep Columns.isInProgress = Fleet.oneRow := by
    apply Database.sweep_idle
    intro id row found
    have below : id < 2 := Fleet.oneRow.ids id (Option.isSome_of_eq_some found)
    have fresh : Fleet.oneRow.rows 1 = some ⟨List.replicate 32 1, Columns.default⟩ := by decide
    obtain rfl | rfl : id = 0 ∨ id = 1 := by omega
    · cases found
    · obtain rfl := Option.some.inj (fresh.symm.trans found)
      rfl
  exact ⟨0, ∅, trivial, by decide, idle.symm⟩

theorem oneRow_claimed : Stmt.Executes 0 ∅ (.claim 1) Fleet.oneRow (.ok [Fleet.soleAuthor]) claimedRow := by
  have row : Fleet.oneRow.rows 1 = some ⟨List.replicate 32 1, Columns.default⟩ := by decide
  have claimable : Fleet.oneRow.claimable ∅ 1 = [1] := by decide
  exact Fleet.sole_claimed row claimable 0

theorem oneRow_claims : sql.exec (.claim 1) Fleet.oneRow (.ok [Fleet.soleAuthor]) claimedRow :=
  ⟨0, ∅, trivial, oneRow_claimed⟩

end WotCrawler.Crawl
