import WotCrawler.Daemon.Joining
import WotCrawler.Daemon.Sampler

/-! The permits bound the rows in progress, and not only the tasks: what the claims take is held by a worker
that runs, or by the one batch that waits. -/

namespace WotCrawler.Daemon

open Effect Store Ingest Crawl

/-- The rows that the workers which run have still to resolve. -/
def inWork (pool : CrawlPool) : Set Nat :=
  {id | ∃ task ∈ pool.tasks, (!task.prog.returned) = true ∧ id ∈ task.note}

/-- The rows of a status. -/
def holding (db : Database) (status : FetchStatus) : Set Nat :=
  {id | ∃ row, db.rows id = some row ∧ row.columns.status = status}

/-- No worker has more rows than a claim takes. -/
structure Sized (size : Nat) (pool : CrawlPool) (batch : List ClaimedAuthor) : Prop where
  notes : pool.Each fun note _ => note.encard ≤ (size : ℕ∞)
  batch : batch.length ≤ size

variable {settings : LoopSettings} {anchorPubkey : Bytes} {batchSize : Int} {timers : Stmt → Prop}
  {loop : DaemonLoop} {pool later : CrawlPool} {batch waiting : List ClaimedAuthor} {db : Database}

/-- The aggregate counts the rows of a status. -/
theorem count_statuses (db : Database) (status : FetchStatus) :
    ((statuses db).count status : ℕ∞) = (holding db status).encard := by
  have counted : (statuses db).count status =
      ((List.range db.nextId).filter fun id => (db.rows id).any fun row => row.columns.status = status).length := by
    rw [statuses, List.count, List.countP_filterMap, List.countP_eq_length_filter]
    congr 2
    funext id
    cases db.rows id <;> rfl
  have listed : holding db status =
      (((List.range db.nextId).filter fun id => (db.rows id).any fun row => row.columns.status = status).toFinset :
        Set Nat) := by
    ext id
    simp only [holding, Set.mem_ofPred_eq, List.coe_toFinset, List.mem_filter, List.mem_range, Option.any_eq_true,
      decide_eq_true_eq]
    constructor
    · intro stands
      obtain ⟨row, found, same⟩ := stands
      exact ⟨db.ids id (by simp [found]), row, found, same⟩
    · exact And.right
  rw [counted, listed, Set.encard_coe_eq_coe_finsetCard, List.toFinset_card_of_nodup (List.nodup_range.filter _)]

theorem encard_batch_le (batch : List ClaimedAuthor) :
    {id | id ∈ batch.map ClaimedAuthor.id}.encard ≤ batch.length := by
  have listed : {id | id ∈ batch.map ClaimedAuthor.id} = ((batch.map ClaimedAuthor.id).toFinset : Set Nat) := by
    ext id
    simp
  rw [listed, Set.encard_coe_eq_coe_finsetCard, Nat.cast_le, ← List.length_map ClaimedAuthor.id]
  exact List.toFinset_card_le _

namespace Sized

theorem claim {limit : Int} {locked : Finset Nat} {left : Database} (sized : Sized limit.toNat pool [])
    (executes : Stmt.Executes now locked (.claim limit) pool.shared (.ok batch) left) :
    Sized limit.toNat (pool.disturb left) batch := by
  refine ⟨sized.notes, ?_⟩
  simp only [Stmt.Executes] at executes
  split at executes
  · cases executes.1
  · obtain ⟨rows, answered, listed, _⟩ := executes
    obtain rfl := Except.ok.inj answered
    rw [← List.length_map ClaimedAuthor.id, listed.length_eq]
    exact List.length_take_le _ _

theorem touches (sized : Sized batchSize.toNat pool batch)
    (touches : Touches settings batchSize timers pool batch later waiting) :
    Sized batchSize.toNat later waiting := by
  cases touches with
  | still => exact sized
  | claim executes => exact sized.claim executes
  | spawn free works =>
    refine ⟨sized.notes.spawn ?_, Nat.zero_le _⟩
    exact (encard_batch_le batch).trans (Nat.cast_le.mpr sized.batch)
  | work step =>
    rename_i stmt note noted
    refine ⟨sized.notes.calls step ?_, sized.batch⟩
    intro _ reply small
    -- An outcome takes its row out of the note, and nothing puts one in.
    obtain ⟨_, _, released⟩ := step.executed
    have within : noted ⊆ note := by
      rw [show noted = release stmt pool.shared note from released]
      exact Set.sdiff_subset
    exact (Set.encard_le_encard within).trans small
  | fail found runs error => exact ⟨sized.notes.drop (sized.notes _ _ found), sized.batch⟩
  | sweep timer fires executed => exact ⟨sized.notes, sized.batch⟩

theorem run (run : DaemonLoop.Run anchorPubkey batchSize timers settings db loop)
    (inside : loop.control.entered = true) : Sized batchSize.toNat loop.pool loop.control.batch := by
  have invariant := run.invariant (Sized batchSize.toNat) ?_ fun touched sized => sized.touches touched
  · exact invariant.2.2 inside
  · intro left _
    refine ⟨?_, Nat.zero_le _⟩
    intro index task found
    cases found

/-- The rows at work fill the workers that run. -/
theorem inWork_le (sized : Sized batchSize.toNat pool batch) :
    (inWork pool).encard ≤ (liveTasks pool * batchSize.toNat : ℕ) := by
  apply Sequence.encard_held_le Task.note
  intro task member
  obtain ⟨index, found⟩ := List.mem_iff_getElem?.mp member
  exact sized.notes index task found

end Sized

/-- Backpressure, whatever the timers do. The rows that the workers have still to resolve fit the permits in use; the
one batch that waits is no longer than a claim; and unless a worker has failed, the gauge of the rows in progress
counts no others. -/
theorem in_progress_bounded (run : DaemonLoop.Run anchorPubkey batchSize timers settings db loop)
    (inside : loop.control.entered = true) (groups : List (String × Option Int))
    (aggregates : Aggregates loop.pool.shared groups) :
    (inWork loop.pool).encard ≤ (loop.inFlight * batchSize.toNat : ℕ) ∧
    loop.control.batch.length ≤ batchSize.toNat ∧
    (¬ Failed loop.pool →
      (frontierCounts groups).inProgress ≤ loop.inFlight * batchSize.toNat + loop.control.batch.length ∧
      (frontierCounts groups).inProgress ≤ (settings.concurrency + 1) * batchSize.toNat) := by
  have sized := Sized.run run inside
  have permits := run.inFlight_le
  refine ⟨sized.inWork_le, sized.batch, ?_⟩
  intro unfailed
  have charged := Charged.run run inside
  have covered : holding loop.pool.shared .inProgress ⊆
      inWork loop.pool ∪ {id | id ∈ loop.control.batch.map ClaimedAuthor.id} := by
    intro id stands
    obtain ⟨row, found, status⟩ := stands
    rcases charged.held unfailed found status with ⟨index, task, there, runs, member⟩ | waits
    · exact .inl ⟨task, List.mem_of_getElem? there, by rw [runs]; rfl, member⟩
    · exact .inr waits
  have counted : (statuses loop.pool.shared).count .inProgress ≤
      loop.inFlight * batchSize.toNat + loop.control.batch.length := by
    apply ENat.natCast_le_natCast.mp
    calc ((statuses loop.pool.shared).count .inProgress : ℕ∞)
        = (holding loop.pool.shared .inProgress).encard := count_statuses _ _
      _ ≤ (inWork loop.pool).encard + {id | id ∈ loop.control.batch.map ClaimedAuthor.id}.encard :=
          (Set.encard_le_encard covered).trans (Set.encard_union_le _ _)
      _ ≤ ((loop.inFlight * batchSize.toNat + loop.control.batch.length : ℕ) : ℕ∞) := by
          rw [Nat.cast_add]
          exact add_le_add sized.inWork_le (encard_batch_le _)
  have filled : loop.inFlight * batchSize.toNat + loop.control.batch.length ≤
      (settings.concurrency + 1) * batchSize.toNat := by
    rw [Nat.add_mul, Nat.one_mul]
    exact Nat.add_le_add (Nat.mul_le_mul_right _ permits) sized.batch
  rw [frontierCounts_eq aggregates]
  unfold frontier
  dsimp only
  exact ⟨by exact_mod_cast counted, by exact_mod_cast counted.trans filled⟩

section Example

private def leasedOnce : Database := ((Database.empty.upsert soleKey).2.sweep Columns.isInProgress).claim 0 [1]

/-- The sole author is claimed, and its batch waits for the permit. -/
private def permitAwaited : DaemonLoop :=
  ⟨soleSettings, ⟨leasedOnce, []⟩, .permit [Fleet.soleAuthor] [], ⟨0, 1, 1⟩, true, false, []⟩

private theorem permitAwaited_run :
    DaemonLoop.Run soleKey 1 (fun _ => False) soleSettings Database.empty permitAwaited := by
  have seeds : Runs sql (seedAnchor soleKey).run Database.empty (.ok 1) (Database.empty.upsert soleKey).2 :=
    .call ⟨0, ∅, trivial, rfl, rfl⟩ .ret
  have reclaims : Runs sql reclaimStaleOnStartup.run (Database.empty.upsert soleKey).2 (.ok 0)
      ((Database.empty.upsert soleKey).2.sweep Columns.isInProgress) :=
    .call ⟨0, ∅, trivial, by decide, rfl⟩ .ret
  have row : ((Database.empty.upsert soleKey).2.sweep Columns.isInProgress).rows 1 =
      some ⟨List.replicate 32 1, Columns.default⟩ := by decide
  have claimable : ((Database.empty.upsert soleKey).2.sweep Columns.isInProgress).claimable ∅ 1 = [1] := by decide
  have claims : Runs sql (claimBatch 1).run _ (.ok [Fleet.soleAuthor]) leasedOnce :=
    .call ⟨0, ∅, trivial, Fleet.sole_claimed row claimable 0⟩ .ret
  have started : DaemonLoop.Run soleKey 1 (fun _ => False) soleSettings Database.empty _ := .refl
  have claimed := (((started.tail (.seed rfl seeds)).tail (.reclaim rfl reclaims)).tail (.top rfl)).tail (.claim rfl claims)
  exact claimed

/-- The theorem while the first batch waits: its one row is all that is in progress. -/
theorem in_progress_bounded_first : (frontierCounts [("in_progress", some 1)]).inProgress ≤
    permitAwaited.inFlight * 1 + permitAwaited.control.batch.length := by
  have one : statuses leasedOnce = [.inProgress] := by decide
  have aggregates : Aggregates permitAwaited.pool.shared [("in_progress", some 1)] := by
    refine ⟨[.inProgress], ?_, ?_⟩
    · rw [show statuses permitAwaited.pool.shared = [.inProgress] from one]
      exact .refl _
    · rw [show statuses permitAwaited.pool.shared = [.inProgress] from one]
      rfl
  have unfailed : ¬ Failed permitAwaited.pool := by
    intro failed
    obtain ⟨index, task, error, found, _⟩ := failed
    cases found
  exact ((in_progress_bounded permitAwaited_run rfl _ aggregates).2.2 unfailed).1

end Example

end WotCrawler.Daemon
