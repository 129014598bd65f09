import WotCrawler.Crawl.Duty
import WotCrawler.Crawl.Lifecycle

/-! Who answers for a row in progress: a task that still owes its outcome, or the batch that waits
to be handed to one. -/

namespace WotCrawler.Crawl

open Effect Store Ingest Relay

/-- A task of a crawl, with the rows it has still to resolve. -/
abbrev CrawlTask := Task Sql (Set Nat) (Except StoreError Nat)

/-- The tasks over the database. -/
abbrev CrawlPool := Pool Sql Database (Set Nat) (Except StoreError Nat)

/-- The statements of a worker. -/
def WorkerStmt (maxAttempts : Int) (stmt : Stmt) : Prop := StandardStmt maxAttempts stmt ∧ stmt.ranges = false

/-- Each row in progress is owed by a task or waits in the batch. -/
def Owned (pool : CrawlPool) (batch : List ClaimedAuthor) : Prop :=
  ∀ id row, pool.shared.rows id = some row → row.columns.status = .inProgress →
    (∃ (index : Nat) (task : CrawlTask), pool.tasks[index]? = some task ∧ Owing id row.pubkey task.prog) ∨
      id ∈ batch.map ClaimedAuthor.id

variable {pool after : CrawlPool} {batch : List ClaimedAuthor} {before left : Database} {id index : Nat}
  {maxAttempts : Int}

section Statements

variable {stmt : Stmt} {locked : Finset Nat} {reply : Except StoreError stmt.Ret}

/-- A batch asks for nothing else. -/
theorem processBatch_standard (gate : GateParams) (maxAttempts : Int) (fallback : Fallback)
    (batch : List ClaimedAuthor) (unionFetch : Except RelayError (List Event)) :
    (processBatch gate maxAttempts fallback batch unionFetch).run.Issues (WorkerStmt maxAttempts) := by
  cases unionFetch with
  | error error =>
    apply (processBatch_error_issues gate maxAttempts fallback batch error).mono
    intro stmt requeues
    obtain ⟨claimed, member, ts, rfl⟩ := requeues
    exact ⟨rfl, rfl⟩
  | ok events =>
    apply (processBatch_ok_issues gate maxAttempts fallback batch events).mono
    intro stmt resolves
    refine ⟨resolves.standard, ?_⟩
    cases stmt with
    | claim limit => cases resolves
    | reclaimInProgress => cases resolves
    | reclaimStale ttlSecs => cases resolves
    | reclaimExpired ageSecs => cases resolves
    | _ => rfl

/-- What a worker's statement makes of a row's columns. -/
inductive WorkerMoves (maxAttempts : Int) : Columns → Columns → Prop where
  | stay : WorkerMoves maxAttempts columns columns
  | confirm : WorkerMoves maxAttempts columns (columns.confirm now)
  | apply : WorkerMoves maxAttempts columns (columns.apply now eventId createdAt changed)
  | miss : WorkerMoves maxAttempts columns (columns.setStatus .notFound ts)
  | requeue (few : columns.fetchAttempts + 1 ≤ 32767) :
      WorkerMoves maxAttempts columns (columns.requeue maxAttempts ts)

theorem WorkerStmt.moves {old new : Columns} (worker : WorkerStmt maxAttempts stmt)
    (moves : Moves now stmt id old new) : WorkerMoves maxAttempts old new := by
  cases moves with
  | stay => exact .stay
  | confirm => exact .confirm
  | apply => exact .apply
  | stamp =>
    have stamped : _ = FetchStatus.notFound := worker.1
    subst stamped
    exact .miss
  | claim discovered => cases worker.2
  | reclaim selected =>
    cases stmt with
    | reclaimInProgress => cases worker.2
    | reclaimStale ttlSecs => cases worker.2
    | reclaimExpired ageSecs => cases worker.2
    | _ => cases selected
  | requeue few =>
    have capped : _ = maxAttempts := worker.1
    subst capped
    exact .requeue few

/-- A worker leases no row. -/
theorem moves_in_progress {old new : Columns} (worker : WorkerStmt maxAttempts stmt)
    (moves : Moves now stmt id old new) (status : new.status = .inProgress) : old.status = .inProgress := by
  cases worker.moves moves with
  | stay => exact status
  | confirm => cases status
  | apply => cases status
  | miss => cases status
  | requeue few =>
    simp only [Columns.requeue] at status
    split at status
    · cases status
    · cases status

/-- A row whose outcome was written is not in progress. -/
theorem settled_status {row : PubkeyRow} (worker : WorkerStmt maxAttempts stmt)
    (executes : stmt.Executes now locked before reply left) (settled : Settled id stmt reply)
    (found : left.rows id = some row) : row.columns.status ≠ .inProgress := by
  obtain ⟨outcome, value, rfl⟩ := settled
  have written {set : Columns → Columns} (made : left = before.updateRow id set)
      (leaves : ∀ columns, (set columns).status ≠ .inProgress) : row.columns.status ≠ .inProgress := by
    rw [made, Database.updateRow_rows_self] at found
    obtain ⟨old, _, rfl⟩ := Option.map_eq_some_iff.mp found
    exact leaves old.columns
  cases stmt with
  | confirmFetched target =>
    obtain rfl := Option.some.inj outcome
    exact written executes.2 fun _ same => by cases same
  | updateStatus target status ts =>
    obtain rfl := Option.some.inj outcome
    have stamped : status = .notFound := worker.1
    subst stamped
    exact written executes.2 fun _ same => by cases same
  | requeueOrFail target cap ts =>
    obtain rfl := Option.some.inj outcome
    simp only [Stmt.Executes] at executes
    split at executes
    · cases executes.1
    · apply written executes.2
      intro columns
      simp only [Columns.requeue]
      split
      · exact fun same => by cases same
      · exact fun same => by cases same
  | applyDiff target removed added eventId createdAt changed =>
    obtain rfl := Option.some.inj outcome
    simp only [Stmt.Executes, Commits] at executes
    split at executes
    · rename_i next done
      rw [executes.2, (Database.applyDiff_spec done).1, Database.updateRow_rows_self] at found
      obtain ⟨old, _, rfl⟩ := Option.map_eq_some_iff.mp found
      exact fun same => by cases same
    · cases executes.1
  | _ => cases outcome

/-- The store's replies are those of a store where the row stands. -/
theorem executes_standing {key : Bytes} (executes : stmt.Executes now locked before reply left)
    (keyed : left.keyed id key) : Standing id key stmt reply := by
  cases stmt with
  | upsertPubkey pubkey =>
    obtain ⟨rfl, rfl⟩ := executes
    rintro rfl found answered
    obtain rfl := Except.ok.inj answered
    exact Database.keyed_unique (before.upsert_spec pubkey).1 keyed
  | _ => trivial

end Statements

/-- A worker's statement leaves every row in progress owed. -/
theorem Owned.calls (owned : Owned pool batch)
    (careful : pool.Each fun _ prog => prog.Issues (WorkerStmt maxAttempts))
    (step : pool.Calls (leasing fun _ => True) index stmt note noted after) : Owned after batch := by
  intro id row found status
  cases step with
  | @call note stmt next reply left noted called executed =>
    obtain ⟨⟨now, locked, _, executes⟩, _⟩ := executed
    have worker := (careful index _ called).1
    rcases executes.evolves found with ⟨_, _, fresh⟩ | ⟨old, present, key, moves⟩
    · rw [fresh] at status
      cases status
    · rcases owned id old present (moves_in_progress worker moves status) with ⟨owner, task, there, owing⟩ | waiting
      · left
        rw [key]
        by_cases mine : owner = index
        · subst mine
          obtain rfl := Option.some.inj (called.symm.trans there)
          have standing := executes_standing executes (key ▸ Database.keyed_of_row found)
          rcases owing _ standing with settled | later
          · exact absurd status (settled_status worker executes settled found)
          · exact ⟨owner, _, List.getElem?_set_self (List.getElem?_eq_some_iff.mp called).1, later⟩
        · exact ⟨owner, task, (List.getElem?_set_ne (Ne.symm mine)).trans there, owing⟩
      · exact .inr waiting

/-- A change of the database by others that puts no row in progress but the batch's. -/
theorem Owned.disturb (owned : Owned pool [])
    (leases : ∀ id row, left.rows id = some row → row.columns.status = .inProgress →
      (∃ old, pool.shared.rows id = some old ∧ old.pubkey = row.pubkey ∧ old.columns.status = .inProgress) ∨
        id ∈ batch.map ClaimedAuthor.id) : Owned (pool.disturb left) batch := by
  intro id row found status
  rcases leases id row found status with ⟨old, present, key, leased⟩ | claimed
  · rcases owned id old present leased with ⟨owner, task, there, owing⟩ | waiting
    · exact .inl ⟨owner, task, there, key ▸ owing⟩
    · cases waiting
  · exact .inr claimed

/-- A sweep puts no row in progress. -/
theorem Owned.sweep (owned : Owned pool batch)
    (leases : ∀ id row, left.rows id = some row → row.columns.status = .inProgress →
      pool.shared.rows id = some row) : Owned (pool.disturb left) batch := by
  intro id row found status
  exact owned id row (leases id row found status) status

/-- A task that fails still answers for every row. -/
theorem Owned.drop {task : CrawlTask} (owned : Owned pool batch) (found : pool.tasks[index]? = some task)
    (error : StoreError) : Owned (pool.drop index task.note (.error error)) batch := by
  intro id row stands status
  rcases owned id row stands status with ⟨owner, other, there, owing⟩ | waiting
  · left
    by_cases mine : owner = index
    · subst mine
      exact ⟨owner, _, List.getElem?_set_self (List.getElem?_eq_some_iff.mp found).1, error, rfl⟩
    · exact ⟨owner, other, (List.getElem?_set_ne (Ne.symm mine)).trans there, owing⟩
  · exact .inr waiting

/-- A task takes the batch over. -/
theorem Owned.spawn {task : CrawlTask} (owned : Owned pool batch)
    (named : ∀ claimed ∈ batch, pool.shared.keyed claimed.id claimed.pubkey)
    (owing : ∀ claimed ∈ batch, Owing claimed.id claimed.pubkey task.prog) : Owned (pool.spawn task) [] := by
  intro id row found status
  left
  rcases owned id row found status with ⟨owner, other, there, owes⟩ | waiting
  · have bound := (List.getElem?_eq_some_iff.mp there).1
    exact ⟨owner, other, (List.getElem?_append_left bound).trans there, owes⟩
  · obtain ⟨claimed, member, rfl⟩ := List.mem_map.mp waiting
    have same := Database.keyed_key (named claimed member) (Database.keyed_of_row found)
    exact ⟨pool.tasks.length, task, List.getElem?_concat_length, same ▸ owing claimed member⟩

/-- When every task has returned a count and no batch waits, no row is in progress. -/
theorem Owned.none (owned : Owned pool [])
    (returned : ∀ task ∈ pool.tasks, ∃ count, task.prog = .ret (.ok count)) {row : PubkeyRow}
    (found : pool.shared.rows id = some row) : row.columns.status ≠ .inProgress := by
  intro status
  rcases owned id row found status with ⟨owner, task, there, owing⟩ | waiting
  · obtain ⟨count, ended⟩ := returned task (List.mem_of_getElem? there)
    rw [ended] at owing
    obtain ⟨error, impossible⟩ := owing
    cases impossible
  · cases waiting

end WotCrawler.Crawl
