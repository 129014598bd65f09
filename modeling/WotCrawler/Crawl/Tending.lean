import WotCrawler.Crawl.Batch
import WotCrawler.Crawl.Manning

/-! Tasks that nobody disturbs: without sweeps a row in progress belongs to one task, or to the
batch that waits, whatever the tasks do next. -/

namespace WotCrawler.Crawl

open Effect Store Ingest Relay

/-- A row that a task has still to resolve. -/
def Pending (pool : CrawlPool) (id : Nat) : Prop :=
  ∃ (index : Nat) (task : CrawlTask), pool.tasks[index]? = some task ∧ id ∈ task.note

/-- Every task keeps its guarantee, and no two tasks share a row, nor does a task share one with the
waiting batch. -/
structure Tended (guarantee : Stmt → Desk → Desk → Prop) (done : Except StoreError Nat → Desk → Prop)
    (pool : CrawlPool) (batch : List ClaimedAuthor) : Prop where
  guarded : pool.Guarded (leasing fun _ => True) leased guarantee done
  leases : ∀ id, Pending pool id → ∃ row, pool.shared.rows id = some row ∧ row.columns.status = .inProgress
  apart : ∀ (left right : Nat) (first second : CrawlTask) (id : Nat), pool.tasks[left]? = some first →
    pool.tasks[right]? = some second → id ∈ first.note → id ∈ second.note → left = right
  claims : Claims pool.shared batch
  waiting : ∀ id, Pending pool id → id ∉ batch.map ClaimedAuthor.id

variable {guarantee : Stmt → Desk → Desk → Prop} {done : Except StoreError Nat → Desk → Prop}
  {pool after : CrawlPool} {batch : List ClaimedAuthor} {db left : Database} {id : Nat}

/-- Without tasks there is nothing to tend. -/
theorem Tended.idle (none : pool.tasks = []) : Tended guarantee done pool [] := by
  have absent (index : Nat) (task : CrawlTask) : pool.tasks[index]? ≠ some task := by simp [none]
  refine ⟨?_, ?_, ?_, ⟨List.nodup_nil, fun _ member => by cases member⟩, ?_⟩
  · exact fun index task found => absurd found (absent index task)
  · intro id pending
    obtain ⟨index, task, found, _⟩ := pending
    exact absurd found (absent index task)
  · exact fun index _ task _ _ found => absurd found (absent index task)
  · exact fun id _ member => by cases member

section Work

variable {stmt : Stmt} {note noted : Set Nat} {index : Nat}
  (step : pool.Calls (leasing fun _ => True) index stmt note noted after)

include step

/-- What a task leaves of its note by a call. -/
private theorem noted_eq : noted = release stmt pool.shared note := by
  obtain ⟨reply, _, released⟩ := step.executed
  exact released

/-- Notes only shrink. -/
private theorem note_of_noted {other : Nat} {task : CrawlTask}
    (found : after.tasks[other]? = some task) (member : id ∈ task.note) :
    ∃ old, pool.tasks[other]? = some old ∧ id ∈ old.note := by
  rcases step.tasks found with ⟨rfl, same⟩ | ⟨_, old⟩
  · obtain ⟨next, called⟩ := step.found
    rw [same, noted_eq step] at member
    exact ⟨_, called, member.1⟩
  · exact ⟨task, old, member⟩

/-- What was pending and was not written is still pending. -/
theorem pending_after (pending : Pending pool id) (other : stmt.outcome ≠ some id) : Pending after id := by
  obtain ⟨owner, task, found, member⟩ := pending
  rcases step.kept found with ⟨rfl, same, next, present⟩ | ⟨_, present⟩
  · refine ⟨owner, _, present, ?_⟩
    rw [noted_eq step]
    exact ⟨same ▸ member, other⟩
  · exact ⟨owner, task, present, member⟩

variable (works : ∀ {stmt before after}, guarantee stmt before after → Worked stmt before after)
  (tended : Tended guarantee done pool batch)

include works tended

/-- The statement of one task writes no outcome of another task's row. -/
private theorem outcome_apart {other : Nat} {task : CrawlTask}
    (different : other ≠ index) (found : pool.tasks[other]? = some task) (member : id ∈ task.note) :
    stmt.outcome ≠ some id := by
  intro writes
  obtain ⟨next, called⟩ := step.found
  exact different (tended.apart other index _ _ id found called member
    ((works (tended.guarded.keeps step)).owned id writes))

/-- What is pending after a call was pending before, and the call did not write it. -/
private theorem pending_before (pending : Pending after id) : Pending pool id ∧ stmt.outcome ≠ some id := by
  obtain ⟨other, task, found, member⟩ := pending
  refine ⟨?_, ?_⟩
  · obtain ⟨old, present, inside⟩ := note_of_noted step found member
    exact ⟨other, old, present, inside⟩
  · rcases step.tasks found with ⟨_, same⟩ | ⟨different, old⟩
    · rw [same, noted_eq step] at member
      exact member.2
    · exact outcome_apart step works tended different old member

/-- A task's next statement keeps everything tended. -/
theorem Tended.calls : Tended guarantee done after batch := by
  obtain ⟨next, called⟩ := step.found
  have worked := works (tended.guarded.keeps step)
  have kept (id : Nat) (row : PubkeyRow) (found : pool.shared.rows id = some row)
      (unwritten : stmt.outcome ≠ some id) : after.shared.rows id = some row :=
    worked.framed.columns worked.single id row found unwritten
  refine ⟨?_, ?_, ?_, ⟨tended.claims.distinct, ?_⟩, ?_⟩
  · apply tended.guarded.calls step
    intro other task different found
    refine ⟨rfl, worked.framed.persists, ?_⟩
    intro id member
    exact worked.framed.untouched worked.single (outcome_apart step works tended different found member)
  · intro id pending
    obtain ⟨before, unwritten⟩ := pending_before step works tended pending
    obtain ⟨row, found, status⟩ := tended.leases id before
    exact ⟨row, kept id row found unwritten, status⟩
  · intro left right first second id leftFound rightFound mine also
    obtain ⟨_, leftOld, old⟩ := note_of_noted step leftFound mine
    obtain ⟨_, rightOld, older⟩ := note_of_noted step rightFound also
    exact tended.apart left right _ _ id leftOld rightOld old older
  · intro claimed member
    obtain ⟨columns, found, status⟩ := tended.claims.rows claimed member
    refine ⟨columns, kept _ _ found ?_, status⟩
    intro writes
    have owner : Pending pool claimed.id := ⟨index, _, called, worked.owned _ writes⟩
    exact tended.waiting claimed.id owner (List.mem_map_of_mem member)
  · intro id pending
    exact tended.waiting id (pending_before step works tended pending).1

end Work

/-- A task that fails keeps its rows. -/
theorem Tended.drop {task : CrawlTask} {index : Nat} (tended : Tended guarantee done pool batch)
    (found : pool.tasks[index]? = some task) (ended : ∀ later, done (.error error) later) :
    Tended guarantee done (pool.drop index task.note (.error error)) batch := by
  have owner {other : Nat} {dropped : CrawlTask}
      (there : (pool.drop index task.note (.error error)).tasks[other]? = some dropped) :
      ∃ old, pool.tasks[other]? = some old ∧ old.note = dropped.note := by
    by_cases mine : other = index
    · subst mine
      rcases Pool.drop_tasks there with rfl | ⟨different, _⟩
      · exact ⟨task, found, rfl⟩
      · exact absurd rfl different
    · exact ⟨dropped, (List.getElem?_set_ne (Ne.symm mine)).symm.trans there, rfl⟩
  have pended (id : Nat) (pending : Pending (pool.drop index task.note (.error error)) id) : Pending pool id := by
    obtain ⟨other, dropped, there, member⟩ := pending
    obtain ⟨old, present, same⟩ := owner there
    exact ⟨other, old, present, same ▸ member⟩
  refine ⟨tended.guarded.drop ended, fun id pending => tended.leases id (pended id pending), ?_, tended.claims,
    fun id pending => tended.waiting id (pended id pending)⟩
  intro left right first second id leftFound rightFound mine also
  obtain ⟨_, leftOld, sameLeft⟩ := owner leftFound
  obtain ⟨_, rightOld, sameRight⟩ := owner rightFound
  exact tended.apart left right _ _ id leftOld rightOld (sameLeft ▸ mine) (sameRight ▸ also)

section Frontier

variable {limit : Int} {locked : Finset Nat}

/-- A claim of the driver. -/
theorem Tended.claim (tended : Tended guarantee done pool [])
    (executes : Stmt.Executes now locked (.claim limit) pool.shared (.ok batch) left) :
    Tended guarantee done (pool.disturb left) batch := by
  obtain ⟨nodup, discovered, made⟩ := claim_spec executes
  have apart (id : Nat) (pending : Pending pool id) : id ∉ batch.map ClaimedAuthor.id := by
    intro member
    obtain ⟨claimed, listed, rfl⟩ := List.mem_map.mp member
    obtain ⟨row, found, _, status⟩ := discovered claimed listed
    obtain ⟨other, present, leased⟩ := tended.leases claimed.id pending
    obtain rfl := Option.some.inj (found.symm.trans present)
    exact absurd (status.symm.trans leased) (fun same => by cases same)
  have kept (id : Nat) (row : PubkeyRow) (pending : Pending pool id)
      (found : pool.shared.rows id = some row) : left.rows id = some row := by
    rw [made, Database.claim_rows_of_notMem (apart id pending), found]
  refine ⟨?_, ?_, tended.apart, ⟨nodup, ?_⟩, apart⟩
  · apply tended.guarded.disturb
    intro index task found
    refine ⟨rfl, executes.framed.persists, ?_⟩
    intro id member
    refine ⟨fun row present => kept id row ⟨index, task, found, member⟩ present, ?_⟩
    intro followee
    rw [made]
    rfl
  · intro id pending
    obtain ⟨row, found, status⟩ := tended.leases id pending
    exact ⟨row, kept id row pending found, status⟩
  · intro claimed member
    obtain ⟨row, found, key, _⟩ := discovered claimed member
    have claims : left.rows claimed.id = some ⟨claimed.pubkey, row.columns.claim now⟩ := by
      rw [made, Database.claim_rows_of_mem (List.mem_map_of_mem member) found, key]
    exact ⟨row.columns.claim now, claims, rfl⟩

/-- The waiting batch gets its task. -/
theorem Tended.spawn {prog : Prog Sql (Except StoreError Nat)} (tended : Tended guarantee done pool batch)
    (safe : Safe (leasing fun _ => True) leased guarantee done prog
      (pool.shared, {id | id ∈ batch.map ClaimedAuthor.id})) :
    Tended guarantee done (pool.spawn ⟨{id | id ∈ batch.map ClaimedAuthor.id}, prog⟩) [] := by
  have owner {id index : Nat} {task : CrawlTask}
      (found : (pool.spawn ⟨{id | id ∈ batch.map ClaimedAuthor.id}, prog⟩).tasks[index]? = some task)
      (member : id ∈ task.note) : (pool.tasks[index]? = some task ∧ id ∉ batch.map ClaimedAuthor.id) ∨
        (index = pool.tasks.length ∧ id ∈ batch.map ClaimedAuthor.id) := by
    rcases Pool.spawn_tasks found with old | ⟨last, rfl⟩
    · exact .inl ⟨old, tended.waiting id ⟨index, task, old, member⟩⟩
    · exact .inr ⟨last, member⟩
  refine ⟨tended.guarded.spawn safe, ?_, ?_, ⟨List.nodup_nil, fun _ none => by cases none⟩,
    fun _ _ none => by cases none⟩
  · intro id pending
    obtain ⟨index, task, found, member⟩ := pending
    rcases owner found member with ⟨old, _⟩ | ⟨_, mine⟩
    · exact tended.leases id ⟨index, task, old, member⟩
    · obtain ⟨claimed, listed, rfl⟩ := List.mem_map.mp mine
      obtain ⟨columns, present, status⟩ := tended.claims.rows claimed listed
      exact ⟨_, present, status⟩
  · intro left right first second id leftFound rightFound mine also
    rcases owner leftFound mine with ⟨old, apart⟩ | ⟨last, inside⟩
    · rcases owner rightFound also with ⟨older, _⟩ | ⟨_, inside⟩
      · exact tended.apart left right _ _ id old older mine also
      · exact absurd inside apart
    · rcases owner rightFound also with ⟨_, apart⟩ | ⟨also, _⟩
      · exact absurd inside apart
      · exact last.trans also.symm

end Frontier

/-- Every step of a crawl keeps its tasks tended, when each one starts safe. -/
theorem Tended.step {anchor : PublicKey} {driver after : Driver} {batchSize : Int}
    (works : ∀ {stmt before after}, guarantee stmt before after → Worked stmt before after)
    (tended : Tended guarantee done driver.pool driver.control.batch) (manned : Manned driver)
    (positive : 1 ≤ batchSize)
    (spawns : ∀ batch workers fetched, driver.control = .permit batch workers →
      driver.settings.fetchUnion batch fetched →
        Safe (leasing fun _ => True) leased guarantee done (driver.settings.worker batch fetched)
          (driver.pool.shared, {id | id ∈ batch.map ClaimedAuthor.id}))
    (step : CrawlStep anchor.bytes batchSize driver after) : Tended guarantee done after.pool after.control.batch := by
  cases step with
  | seed here ran =>
    obtain ⟨id, now, locked, rfl, _⟩ := seedAnchor_executes ran
    have none : driver.pool.tasks = [] := manned.idle (by rw [here]; rfl)
    exact .idle none
  | reclaim here ran =>
    obtain ⟨now, locked, _, rfl, _⟩ := runs_query ran
    have none : driver.pool.tasks = [] := manned.idle (by rw [here]; rfl)
    rw [driver.afterReclaim_batch]
    exact .idle none
  | claim here ran =>
    obtain ⟨now, locked, _, executes⟩ := runs_query ran
    obtain ⟨batch, rfl⟩ := claim_ok (by omega) executes
    have batchless : driver.control.batch = [] := by rw [here]; rfl
    have claimed := (batchless ▸ tended).claim executes
    unfold Driver.afterClaim
    dsimp only
    split
    · rename_i empty
      subst empty
      split <;> exact claimed
    · exact claimed
  | spawn here free returns =>
    have safe := spawns _ _ _ here returns
    rw [here] at tended
    exact tended.spawn safe
  | reap here finished ended =>
    rw [here] at tended
    rw [Control.joining_batch]
    exact tended
  | join here ended =>
    rw [here] at tended
    rw [driver.afterJoin_batch]
    exact tended
  | work step => exact tended.calls step works

end WotCrawler.Crawl
