import WotCrawler.Crawl.Termination
import WotCrawler.Daemon.Refinement
import WotCrawler.Daemon.Shutdown

/-! What the daemon comes to between two sweeps: a row can be claimed only so often, so the loop goes on to a
frontier on which every row is resolved. -/

namespace WotCrawler.Daemon

open Effect Store Ingest Relay Crawl

section Claims

/-- The claims that a row may still have before a sweep resets it. -/
def claimsLeft (maxAttempts : Int) (columns : Columns) : Nat :=
  if columns.status = .discovered then (max 1 (maxAttempts - columns.fetchAttempts)).toNat
  else (maxAttempts - columns.fetchAttempts - 1).toNat

/-- The claims left to a key: those of its row, or those of a new one. -/
def claimsOf (maxAttempts : Int) (db : Database) (key : Bytes) : Nat :=
  match (db.findPubkey key).bind db.rows with
  | some row => claimsLeft maxAttempts row.columns
  | none => claimsLeft maxAttempts Columns.default

/-- The claims left to a set of keys. -/
def claimBudget (maxAttempts : Int) (keys : Finset Bytes) (db : Database) : Nat :=
  ∑ key ∈ keys, claimsOf maxAttempts db key

variable {maxAttempts : Int} {db before after : Database} {keys : Finset Bytes} {key : Bytes} {id : Nat}
  {old new columns : Columns} {row : PubkeyRow} {stmt : Stmt}

/-- A claim costs one. -/
theorem claimsLeft_claim (discovered : columns.status = .discovered) (now : DateTime) :
    claimsLeft maxAttempts (columns.claim now) + 1 = claimsLeft maxAttempts columns := by
  simp only [claimsLeft, Columns.claim, discovered, if_true, reduceCtorEq, if_false]
  omega

/-- What does not open a row to a claim, at the same attempts, costs nothing. -/
private theorem claimsLeft_settle (same : new.fetchAttempts = old.fetchAttempts) (resting : new.status ≠ .discovered) :
    claimsLeft maxAttempts new ≤ claimsLeft maxAttempts old := by
  simp only [claimsLeft, same, if_neg resting]
  split <;> omega

/-- A worker's statement, timely or late, leaves a row no more of them. -/
theorem claimsLeft_worker (works : WorkerStmt maxAttempts stmt) (moves : Moves now stmt id old new) :
    claimsLeft maxAttempts new ≤ claimsLeft maxAttempts old := by
  cases works.moves moves with
  | stay => exact le_refl _
  | confirm => exact claimsLeft_settle rfl fun status => by cases status
  | apply => exact claimsLeft_settle rfl fun status => by cases status
  | miss => exact claimsLeft_settle rfl fun status => by cases status
  | requeue few =>
    -- a row that is opened again has one attempt more, and some left
    simp only [claimsLeft, Columns.requeue]
    push_cast
    split_ifs <;> simp_all <;> omega

theorem claimsOf_of_row (found : db.rows id = some row) :
    claimsOf maxAttempts db row.pubkey = claimsLeft maxAttempts row.columns := by
  unfold claimsOf
  rw [Database.findPubkey_eq_some_iff.mpr ⟨row, found, rfl⟩, Option.bind_some, found]

theorem claimsOf_of_absent (absent : db.findPubkey key = none) :
    claimsOf maxAttempts db key = claimsLeft maxAttempts Columns.default := by
  unfold claimsOf
  rw [absent, Option.bind_none]

/-- Where every row is new, or has no more claims left than before, no key has. -/
theorem claimsOf_le (persists : Persists before after)
    (fewer : ∀ id row, after.rows id = some row → (before.rows id = none ∧ row.columns = Columns.default) ∨
      ∃ old, before.rows id = some old ∧ row.pubkey = old.pubkey ∧
        claimsLeft maxAttempts row.columns ≤ claimsLeft maxAttempts old.columns) (key : Bytes) :
    claimsOf maxAttempts after key ≤ claimsOf maxAttempts before key := by
  have kept {id : Nat} (known : before.findPubkey key = some id) : after.findPubkey key = some id := by
    obtain ⟨row, found, rfl⟩ := Database.findPubkey_eq_some_iff.mp known
    obtain ⟨columns, there⟩ := persists id row found
    exact Database.findPubkey_eq_some_iff.mpr ⟨_, there, rfl⟩
  cases now : after.findPubkey key with
  | none =>
    cases known : before.findPubkey key with
    | none => rw [claimsOf_of_absent now, claimsOf_of_absent known]
    | some id => cases now.symm.trans (kept known)
  | some id =>
    obtain ⟨row, found, rfl⟩ := Database.findPubkey_eq_some_iff.mp now
    rw [claimsOf_of_row found]
    rcases fewer id row found with ⟨absent, fresh⟩ | ⟨old, present, same, fewer⟩
    · rw [fresh]
      cases known : before.findPubkey row.pubkey with
      | none => rw [claimsOf_of_absent known]
      | some other =>
        obtain rfl := Option.some.inj ((kept known).symm.trans now)
        obtain ⟨there, present, _⟩ := Database.findPubkey_eq_some_iff.mp known
        cases absent.symm.trans present
    · rw [same, claimsOf_of_row present]
      exact fewer

/-- A worker's statement does not raise the budget. -/
theorem claimBudget_worker {locked : Finset Nat} {reply : Except StoreError stmt.Ret} (works : WorkerStmt maxAttempts stmt)
    (executes : stmt.Executes now locked before reply after) :
    claimBudget maxAttempts keys after ≤ claimBudget maxAttempts keys before := by
  refine Finset.sum_le_sum fun key _ => claimsOf_le executes.framed.persists ?_ key
  intro id row found
  rcases executes.evolves found with ⟨absent, _, fresh⟩ | ⟨old, present, same, moves⟩
  · exact .inl ⟨absent, fresh⟩
  · exact .inr ⟨old, present, same, claimsLeft_worker works moves⟩

section Claim

variable {locked : Finset Nat} {limit : Int} {batch : List ClaimedAuthor}
  (executes : Stmt.Executes now locked (.claim limit) before (.ok batch) after)

include executes

private theorem claimsOf_claim (key : Bytes) : claimsOf maxAttempts after key ≤ claimsOf maxAttempts before key := by
  obtain ⟨_, discovered, made⟩ := claim_spec executes
  refine claimsOf_le executes.framed.persists ?_ key
  intro id row found
  right
  rw [made] at found
  by_cases member : id ∈ batch.map ClaimedAuthor.id
  · obtain ⟨claimed, listed, rfl⟩ := List.mem_map.mp member
    obtain ⟨old, present, _, status⟩ := discovered claimed listed
    rw [Database.claim_rows_of_mem member present] at found
    obtain rfl := Option.some.inj found
    exact ⟨old, present, rfl, Nat.le_of_succ_le (claimsLeft_claim status now).le⟩
  · rw [Database.claim_rows_of_notMem member] at found
    exact ⟨row, found, rfl, le_refl _⟩

/-- Nor does a claim. -/
theorem claimBudget_claim : claimBudget maxAttempts keys after ≤ claimBudget maxAttempts keys before :=
  Finset.sum_le_sum fun key _ => claimsOf_claim executes key

/-- One that finds a row spends some of it. -/
theorem claimBudget_spent (enclosed : ∀ id row, before.rows id = some row → row.pubkey ∈ keys) (some : batch ≠ []) :
    claimBudget maxAttempts keys after < claimBudget maxAttempts keys before := by
  obtain ⟨_, discovered, made⟩ := claim_spec executes
  obtain ⟨claimed, listed⟩ := List.exists_mem_of_ne_nil batch some
  obtain ⟨old, present, _, status⟩ := discovered claimed listed
  refine Finset.sum_lt_sum (fun key _ => claimsOf_claim executes key) ⟨old.pubkey, enclosed _ old present, ?_⟩
  have found : after.rows claimed.id = _ :=
    made ▸ Database.claim_rows_of_mem (List.mem_map_of_mem listed) present
  rw [claimsOf_of_row present, ← claimsLeft_claim status now]
  exact Nat.lt_succ_of_le (claimsOf_of_row found).le

end Claim

end Claims

section Enclosed

/-- A set of keys that a world keeps to: the anchor is one of them, and the verified lists of their authors name
no other. -/
structure ClosedWorld (verify : Event → Bool) (anchor : PublicKey) (keys : Finset Bytes) : Prop where
  anchored : anchor.bytes ∈ keys
  named : ∀ event key, event.pubkey.bytes ∈ keys → Names verify Kind.contactList event key → key ∈ keys

/-- A statement that inserts only such keys. -/
def UpsertsWithin (keys : Finset Bytes) (stmt : Stmt) : Prop := ∀ key, stmt = .upsertPubkey key → key ∈ keys

/-- The rows, the batch that waits and the workers keep to the keys. -/
structure Enclosed (keys : Finset Bytes) (pool : CrawlPool) (waiting : Option (List ClaimedAuthor)) : Prop where
  rows : ∀ id row, pool.shared.rows id = some row → row.pubkey ∈ keys
  workers : pool.Each fun _ prog => prog.Issues (UpsertsWithin keys)
  waits : ∀ batch, waiting = some batch → ∀ claimed ∈ batch, claimed.pubkey ∈ keys

variable {verify : Event → Bool} {anchor : PublicKey} {keys : Finset Bytes} {pool later : CrawlPool}
  {waiting next : Option (List ClaimedAuthor)} {batch : List ClaimedAuthor}

private theorem BatchWork.within {prog : Prog Sql (Except StoreError Nat)} (work : BatchWork verify batch prog)
    (closed : ClosedWorld verify anchor keys) (own : ∀ claimed ∈ batch, claimed.pubkey ∈ keys) :
    prog.Issues (UpsertsWithin keys) := by
  cases work with
  | work now futureClampSecs followCap maxAttempts fallback unionFetch =>
    apply (processBatch_issues _ maxAttempts fallback batch unionFetch).mono
    intro stmt vouched key upserts
    rcases vouched key upserts with ⟨claimed, member, rfl⟩ | ⟨event, names, claimed, member, author⟩
    · exact own claimed member
    · exact closed.named event key (author ▸ own claimed member) names

theorem Enclosed.advances (enclosed : Enclosed keys pool waiting) (closed : ClosedWorld verify anchor keys)
    (advances : Advances verify anchor.bytes pool waiting later next) : Enclosed keys later next := by
  cases advances with
  | still => exact enclosed
  | seed ran =>
    obtain ⟨id, now, locked, rfl, executes, _⟩ := seedAnchor_executes ran
    refine ⟨Budgeted.confined_after enclosed.rows executes ?_, enclosed.workers, enclosed.waits⟩
    rintro key upserts
    obtain rfl := Stmt.upsertPubkey.inj upserts
    exact closed.anchored
  | sweep ranges executed =>
    obtain ⟨now, locked, _, executes⟩ := executed
    refine ⟨Budgeted.confined_after enclosed.rows executes ?_, enclosed.workers, enclosed.waits⟩
    rintro key rfl
    cases ranges
  | @claim limit batch left executed =>
    obtain ⟨now, locked, _, executes⟩ := executed
    obtain ⟨_, discovered, _⟩ := claim_spec executes
    have unnamed : UpsertsWithin keys (.claim limit) := fun key upserts => by cases upserts
    refine ⟨Budgeted.confined_after enclosed.rows executes unnamed, enclosed.workers, ?_⟩
    intro batch taken claimed member
    obtain rfl := Option.some.inj taken
    obtain ⟨row, found, key, _⟩ := discovered claimed member
    exact key ▸ enclosed.rows claimed.id row found
  | spawn work =>
    exact ⟨enclosed.rows, Pool.Each.spawn enclosed.workers (work.within closed (enclosed.waits _ rfl)),
      fun batch none => by cases none⟩
  | @work index stmt note noted later waiting step =>
    obtain ⟨reply, ⟨now, locked, _, executes⟩, _⟩ := step.executed
    obtain ⟨next, called⟩ := step.found
    have within := (enclosed.workers index _ called).1
    exact ⟨Budgeted.confined_after enclosed.rows executes within,
      enclosed.workers.calls step fun _ reply issues => issues.2 reply, enclosed.waits⟩
  | fail found error => exact ⟨enclosed.rows, enclosed.workers.drop trivial, enclosed.waits⟩

end Enclosed

namespace DaemonLoop

/-- Rows can be locked only while some task runs. -/
def MayLock (loop : DaemonLoop) (locked : Finset Nat) : Prop :=
  (∀ task ∈ loop.pool.tasks, task.prog.returned = true) → locked = ∅

/-- A step of the loop while nothing disturbs it: no timer fires, nobody cancels, and no statement and no task
fails but by itself. -/
inductive Calm (anchorPubkey : Bytes) (batchSize : Int)
    (serves : List ClaimedAuthor → Prog Sql (Except StoreError Nat) → Prop) (loop : DaemonLoop) : DaemonLoop → Prop where
  | seed (here : loop.control = .seed)
      (ran : Runs sql (seedAnchor anchorPubkey).run loop.pool.shared (.ok stored) left) :
      Calm anchorPubkey batchSize serves loop (loop.afterSeed left)
  | reclaim (here : loop.control = .reclaim)
      (ran : Runs sql reclaimStaleOnStartup.run loop.pool.shared (.ok reclaimed) left) :
      Calm anchorPubkey batchSize serves loop (loop.afterReclaim left reclaimed)
  | top (here : loop.control = .top workers) : Calm anchorPubkey batchSize serves loop (loop.afterTop workers)
  | claim (here : loop.control = .claim workers)
      (ran : Runs (sqlWith loop.MayLock) (claimBatch batchSize).run loop.pool.shared (.ok batch) left) :
      Calm anchorPubkey batchSize serves loop (loop.afterClaim workers left batch)
  | spawn (here : loop.control = .permit batch workers) (free : loop.inFlight < loop.settings.concurrency)
      (works : loop.settings.Works batch prog) (served : serves batch prog) :
      Calm anchorPubkey batchSize serves loop (loop.afterSpawn batch workers prog)
  | reap (here : loop.control = .reap workers) (finished : Nat → Bool)
      (ended : ∀ handle ∈ workers, finished handle = true → loop.Finished handle) :
      Calm anchorPubkey batchSize serves loop (loop.afterReap workers finished)
  | join (here : loop.control = .join (handle :: handles) workers)
      (ended : loop.pool.tasks[handle]? = some ⟨note, .ret outcome⟩) :
      Calm anchorPubkey batchSize serves loop (loop.afterJoin handle handles workers outcome)
  | await (here : loop.control = .drain final (handle :: handles) firstErr)
      (ended : loop.pool.tasks[handle]? = some ⟨note, .ret outcome⟩) :
      Calm anchorPubkey batchSize serves loop (loop.afterAwait final handle handles firstErr outcome)
  | drained (here : loop.control = .drain final [] firstErr) :
      Calm anchorPubkey batchSize serves loop (loop.afterDrain final firstErr)
  | sleep (here : loop.control = .idle) : Calm anchorPubkey batchSize serves loop { loop with control := .top [] }
  | work (step : loop.pool.Calls (leasing fun _ => True) index stmt note noted after) :
      Calm anchorPubkey batchSize serves loop { loop with pool := after }

end DaemonLoop

variable {anchor : PublicKey} {batchSize : Int} {serves : List ClaimedAuthor → Prog Sql (Except StoreError Nat) → Prop}
  {timers : Stmt → Prop} {settings : LoopSettings} {db : Database} {loop after : DaemonLoop}

/-- A calm step is a step. -/
theorem DaemonLoop.Calm.step {anchorPubkey : Bytes} (calm : loop.Calm anchorPubkey batchSize serves after) :
    loop.Step anchorPubkey batchSize timers after := by
  cases calm with
  | seed here ran => exact .seed here ran
  | reclaim here ran => exact .reclaim here ran
  | top here => exact .top here
  | claim here ran =>
    obtain ⟨now, locked, _, executes⟩ := runs_query ran
    exact .claim here (.call ⟨now, locked, trivial, executes⟩ .ret)
  | spawn here free works served => exact .spawn here free works
  | reap here finished ended => exact .reap here finished ended
  | join here ended => exact .join here ended
  | await here ended => exact .await here ended
  | drained here => exact .drained here
  | sleep here => exact .sleep here
  | work step => exact .work step

/-- Every row is resolved, no batch waits, and no worker runs. -/
structure AtRest (loop : DaemonLoop) : Prop where
  entered : loop.control.entered = true
  unclaimed : loop.control.waits = none
  resolved : ∀ id row, loop.pool.shared.rows id = some row →
    row.columns.status ≠ .discovered ∧ row.columns.status ≠ .inProgress
  idle : ∀ task ∈ loop.pool.tasks, task.prog.returned = true

/-- The call returned the error of a worker. -/
def Broken (loop : DaemonLoop) : Prop := (∃ error, loop.control = .returned (.error error)) ∧ Failed loop.pool

namespace LoopControl

/-- The startup writes ahead. -/
def ahead : LoopControl → Nat
  | .seed => 2
  | .reclaim => 1
  | _ => 0

/-- How far an undisturbed loop is from a claim with no worker left. -/
def turn : LoopControl → Nat
  | .permit _ _ => 10
  | .reap _ => 9
  | .join _ _ => 8
  | .top workers => if workers = [] then 3 else 7
  | .claim workers => if workers = [] then 2 else 6
  | .drain _ _ _ => 5
  | .idle => 4
  | _ => 0

private theorem joining_turn (handles workers : List Nat) : (joining handles workers).turn < 9 := by
  unfold joining
  split
  · simp only [turn]
    split <;> omega
  · exact Nat.lt_succ_self 8

private theorem joining_ahead (handles workers : List Nat) : (joining handles workers).ahead = 0 := by
  unfold joining
  split <;> rfl

end LoopControl

section Descent

/-- The startup writes ahead, the claims left, the turn, the statements left to the tasks, and the handles left to
join. -/
def potential (maxAttempts : Int) (keys : Finset Bytes) (loop : DaemonLoop) :
    Nat × Nat × Nat × Multiset (Prog Sql (Except StoreError Nat)) × Nat :=
  (loop.control.ahead, claimBudget maxAttempts keys loop.pool.shared, loop.control.turn, loop.pool.remaining,
    loop.control.handles.length)

/-- One loop is nearer to its rest than another. -/
def Nearer (maxAttempts : Int) (keys : Finset Bytes) : DaemonLoop → DaemonLoop → Prop :=
  InvImage (Prod.Lex (· < ·) (Prod.Lex (· < ·) (Prod.Lex (· < ·) (Prod.Lex (Relation.CutExpand Prog.Later) (· < ·)))))
    (potential maxAttempts keys)

variable {maxAttempts : Int} {keys : Finset Bytes}

theorem nearer_wf : WellFounded (Nearer maxAttempts keys) :=
  InvImage.wf _ (Nat.lt_wfRel.wf.prod_lex (Nat.lt_wfRel.wf.prod_lex (Nat.lt_wfRel.wf.prod_lex
    (Pool.remaining_wf.prod_lex Nat.lt_wfRel.wf))))

/-- The startup goes on. -/
private theorem nearer_of_ahead (fewer : after.control.ahead < loop.control.ahead) : Nearer maxAttempts keys after loop :=
  .left _ _ fewer

/-- A claim finds a row. -/
private theorem nearer_of_budget (ahead : after.control.ahead ≤ loop.control.ahead)
    (less : claimBudget maxAttempts keys after.pool.shared < claimBudget maxAttempts keys loop.pool.shared) :
    Nearer maxAttempts keys after loop :=
  lex_of_le ahead (.left _ _ less)

/-- The loop goes on to its next turn. -/
private theorem nearer_of_turn (ahead : after.control.ahead ≤ loop.control.ahead)
    (spent : claimBudget maxAttempts keys after.pool.shared ≤ claimBudget maxAttempts keys loop.pool.shared)
    (turn : after.control.turn < loop.control.turn) : Nearer maxAttempts keys after loop :=
  lex_of_le ahead (lex_of_le spent (.left _ _ turn))

/-- A handle less to join. -/
private theorem nearer_of_handles (pool : after.pool = loop.pool) (ahead : after.control.ahead ≤ loop.control.ahead)
    (turn : after.control.turn ≤ loop.control.turn)
    (fewer : after.control.handles.length < loop.control.handles.length) : Nearer maxAttempts keys after loop := by
  unfold Nearer InvImage potential
  rw [pool]
  exact lex_of_le ahead (lex_of_le (le_refl _) (lex_of_le turn (.right _ fewer)))

/-- A statement of a task. -/
private theorem nearer_of_work {later : CrawlPool} {index : Nat} {stmt : Stmt} {note noted : Set Nat}
    (careful : loop.pool.Each fun _ prog => prog.Issues (WorkerStmt maxAttempts))
    (step : loop.pool.Calls (leasing fun _ => True) index stmt note noted later) :
    Nearer maxAttempts keys { loop with pool := later } loop := by
  obtain ⟨reply, ⟨now, locked, _, executes⟩, _⟩ := step.executed
  obtain ⟨next, called⟩ := step.found
  have spent : claimBudget maxAttempts keys later.shared ≤ claimBudget maxAttempts keys loop.pool.shared :=
    claimBudget_worker (careful index _ called).1 executes
  exact lex_of_le (le_refl _) (lex_of_le spent (lex_of_le (le_refl _) (.left _ _ step.shortens)))

end Descent

/-- A drain that ends the call was called for by a cancellation, and the error that a drain holds is a worker's. -/
def Grounded (loop : DaemonLoop) : Prop :=
  ∀ final handles firstErr, loop.control = .drain final handles firstErr →
    (final = true → loop.cancelled = true) ∧ (firstErr ≠ none → Failed loop.pool)

section Run

variable {anchorPubkey : Bytes}

/-- A worker that has failed has failed for good. -/
theorem Failed.step (failed : Failed loop.pool) (step : loop.Step anchorPubkey batchSize timers after) :
    Failed after.pool := by
  obtain ⟨index, task, error, found, ended⟩ := failed
  exact ⟨index, task, error, keeps_returned step found (by rw [ended]; rfl), ended⟩

theorem Grounded.step (grounded : Grounded loop) (step : loop.Step anchorPubkey batchSize timers after) :
    Grounded after := by
  have failed (earlier : Failed loop.pool) : Failed after.pool := earlier.step step
  have same (control : after.control = loop.control) (cancelled : loop.cancelled = true → after.cancelled = true) :
      Grounded after := by
    intro final handles firstErr here
    obtain ⟨ends, blames⟩ := grounded final handles firstErr (control ▸ here)
    exact ⟨fun final => cancelled (ends final), fun some => failed (blames some)⟩
  have other (control : ∀ final handles firstErr, after.control ≠ .drain final handles firstErr) : Grounded after :=
    fun final handles firstErr here => absurd here (control final handles firstErr)
  have joins (handles workers : List Nat) (control : after.control = .joining handles workers) : Grounded after := by
    apply other
    intro final others firstErr
    rw [control]
    unfold LoopControl.joining
    split <;> exact fun same => by cases same
  cases step with
  | seed here ran => exact other fun _ _ _ same => by cases same
  | reclaim here ran =>
    apply other
    intro final handles firstErr
    unfold DaemonLoop.afterReclaim
    dsimp only
    split <;> exact fun same => by cases same
  | startFails here error => exact other fun _ _ _ same => by cases same
  | top here =>
    intro final handles firstErr drains
    unfold DaemonLoop.afterTop at drains ⊢
    dsimp only at drains ⊢
    split at drains
    · rename_i cancelled
      obtain ⟨_, _, rfl⟩ := LoopControl.drain.inj drains
      exact ⟨fun _ => cancelled, fun some => absurd rfl some⟩
    · cases drains
  | claim here ran =>
    intro final handles firstErr drains
    unfold DaemonLoop.afterClaim at drains ⊢
    split at drains
    · obtain ⟨rfl, _, rfl⟩ := LoopControl.drain.inj drains
      exact ⟨(fun impossible => by cases impossible), fun some => absurd rfl some⟩
    · cases drains
  | claimFails here error => exact other fun _ _ _ same => by cases same
  | spawn here free works => exact other fun _ _ _ same => by cases same
  | reap here finished ended => exact joins _ _ rfl
  | @join handle handles workers note outcome here ended =>
    cases outcome with
    | ok count => exact joins _ _ rfl
    | error error => exact other fun _ _ _ same => by cases same
  | @await final handle handles firstErr note outcome here ended =>
    obtain ⟨ends, blames⟩ := grounded _ _ _ here
    intro _ _ _ drains
    obtain ⟨rfl, _, rfl⟩ := LoopControl.drain.inj drains
    refine ⟨ends, ?_⟩
    intro some
    cases firstErr with
    | some error => exact blames fun same => by cases same
    | none =>
      cases outcome with
      | ok count => exact absurd rfl some
      | error error => exact ⟨handle, _, error, ended, rfl⟩
  | @drained final firstErr here =>
    cases firstErr with
    | some error => exact other fun _ _ _ same => by cases same
    | none => cases final <;> exact other fun _ _ _ same => by cases same
  | sleep here => exact other fun _ _ _ same => by cases same
  | wake here cancelled =>
    intro final handles firstErr drains
    obtain ⟨_, _, rfl⟩ := LoopControl.drain.inj drains
    exact ⟨fun _ => cancelled, fun some => absurd rfl some⟩
  | work step => exact same rfl id
  | fail found running error => exact same rfl id
  | sweep timer fires executed => exact same rfl id
  | cancel => exact same rfl fun _ => rfl

theorem Grounded.run (run : DaemonLoop.Run anchorPubkey batchSize timers settings db loop) : Grounded loop := by
  induction run with
  | refl => exact fun final handles firstErr same => by cases same
  | tail _ step ih => exact ih.step step

/-- The tasks of a run make the statements of workers. -/
theorem DaemonLoop.Run.careful (run : DaemonLoop.Run anchorPubkey batchSize timers settings db loop) :
    loop.pool.Each fun _ prog => prog.Issues (WorkerStmt settings.maxAttempts) := by
  cases inside : loop.control.entered with
  | true => exact (Staffed.run run inside).careful
  | false =>
    have none := (run.invariant (fun _ _ => True) (fun _ _ => trivial) fun _ _ => trivial).2.1 inside
    intro index task found
    rw [none] at found
    cases found

/-- No row of a run leaves the keys. -/
theorem Enclosed.run {verify : Event → Bool} {keys : Finset Bytes} (lists : ListGate verify settings.gate)
    (closed : ClosedWorld verify anchor keys) (stored : ∀ id row, db.rows id = some row → row.pubkey ∈ keys)
    (run : DaemonLoop.Run anchor.bytes batchSize timers settings db loop) :
    Enclosed keys loop.pool loop.control.waits := by
  induction run with
  | refl => exact ⟨stored, (fun index task found => by cases found), fun batch none => by cases none⟩
  | tail run step ih => exact ih.advances closed (advances_of_loopStep ((DaemonLoop.Run.settings_eq run).symm ▸ lists) step)

end Run

/-- A state of a run that nobody has cancelled, and that has not ended but by the error of a worker. -/
structure Live (anchor : PublicKey) (batchSize : Int) (timers : Stmt → Prop) (settings : LoopSettings) (db : Database)
    (loop : DaemonLoop) : Prop where
  run : DaemonLoop.Run anchor.bytes batchSize timers settings db loop
  fresh : loop.cancelled = false
  going : loop.control.halted = false ∨ Broken loop

section Calm

theorem DaemonLoop.Calm.keeps_cancelled {anchorPubkey : Bytes} (calm : loop.Calm anchorPubkey batchSize serves after) :
    after.cancelled = loop.cancelled := by
  cases calm with
  | claim here ran =>
    unfold DaemonLoop.afterClaim
    split <;> rfl
  | @join handle handles workers note outcome here ended => cases outcome <;> rfl
  | @drained final firstErr here =>
    cases firstErr with
    | some error => rfl
    | none => cases final <;> rfl
  | _ => rfl

private theorem joining_going (handles workers : List Nat) : (LoopControl.joining handles workers).halted = false := by
  unfold LoopControl.joining
  split <;> rfl

/-- A calm step ends a call only by the error of a worker. -/
private theorem Live.goes (live : Live anchor batchSize timers settings db loop)
    (seats : settings.concurrency ≤ maxPermits) (going : loop.control.halted = false)
    (calm : loop.Calm anchor.bytes batchSize serves after) : after.control.halted = false ∨ Broken after := by
  cases calm with
  | seed here ran => exact .inl rfl
  | reclaim here ran =>
    left
    have room : ¬ maxPermits < loop.settings.concurrency := by
      rw [live.run.settings_eq]
      omega
    unfold DaemonLoop.afterReclaim
    dsimp only
    rw [if_neg room]
    rfl
  | top here =>
    left
    unfold DaemonLoop.afterTop
    dsimp only
    split <;> rfl
  | claim here ran =>
    left
    unfold DaemonLoop.afterClaim
    split <;> rfl
  | spawn here free works served => exact .inl rfl
  | reap here finished ended => exact .inl (joining_going _ _)
  | @join handle handles workers note outcome here ended =>
    cases outcome with
    | ok count => exact .inl (joining_going _ _)
    | error error => exact .inr ⟨⟨error, rfl⟩, handle, _, error, ended, rfl⟩
  | await here ended => exact .inl rfl
  | @drained final firstErr here =>
    obtain ⟨ends, blames⟩ := Grounded.run live.run _ _ _ here
    cases firstErr with
    | some error => exact .inr ⟨⟨error, rfl⟩, blames fun same => by cases same⟩
    | none =>
      cases final with
      | true => exact absurd (live.fresh.symm.trans (ends rfl)) Bool.noConfusion
      | false => exact .inl rfl
  | sleep here => exact .inl rfl
  | work step => exact .inl going

/-- A claim with no worker left, and no row to take, is made where every row is resolved. -/
private theorem Live.atRest_of_claim {left : Database} (live : Live anchor batchSize timers settings db loop)
    (positive : 1 ≤ batchSize) (here : loop.control = .claim [])
    (ran : Runs (sqlWith loop.MayLock) (claimBatch batchSize).run loop.pool.shared (.ok []) left) : AtRest loop := by
  obtain ⟨now, locked, mayLock, executes⟩ := runs_query ran
  have inside : loop.control.entered = true := by
    rw [here]
    rfl
  have tracked := Tracked.run live.run fun error other => by cases here.symm.trans other
  have counted := all_counted tracked (Joined.run live.run) (by rw [here]; rfl) (by rw [here]; rfl)
  have idle (task : CrawlTask) (member : task ∈ loop.pool.tasks) : task.prog.returned = true := by
    obtain ⟨count, ended⟩ := counted task member
    rw [ended]
    rfl
  obtain rfl := mayLock idle
  have owned := (Staffed.run live.run inside).owned
  rw [here] at owned
  exact ⟨inside, by rw [here]; rfl, fun id row found => ⟨claim_empty (by omega) executes found, owned.none counted found⟩, idle⟩

/-- Short of its rest, every calm step brings a loop nearer to it. -/
private theorem Live.nearer {keys : Finset Bytes} (live : Live anchor batchSize timers settings db loop)
    (positive : 1 ≤ batchSize) (enclosed : Enclosed keys loop.pool loop.control.waits) (unrested : ¬ AtRest loop)
    (calm : loop.Calm anchor.bytes batchSize serves after) : Nearer settings.maxAttempts keys after loop := by
  cases calm with
  | seed here ran =>
    apply nearer_of_ahead
    rw [here]
    exact Nat.lt_succ_self 1
  | reclaim here ran =>
    apply nearer_of_ahead
    rw [here]
    unfold DaemonLoop.afterReclaim
    dsimp only
    split <;> exact Nat.one_pos
  | @top workers here =>
    have claims : loop.afterTop workers = { loop with control := .claim workers } := by
      simp [DaemonLoop.afterTop, live.fresh]
    rw [claims]
    refine nearer_of_turn (Nat.zero_le _) (le_refl _) ?_
    rw [here]
    simp only [LoopControl.turn]
    split <;> omega
  | @claim workers batch left here ran =>
    obtain ⟨now, locked, _, executes⟩ := runs_query ran
    by_cases empty : batch = []
    · subst empty
      have busy : workers ≠ [] := by
        rintro rfl
        exact unrested (live.atRest_of_claim positive here ran)
      refine nearer_of_turn (Nat.zero_le _) (claimBudget_claim executes) ?_
      rw [here]
      simp [DaemonLoop.afterClaim, LoopControl.turn, busy]
    · unfold DaemonLoop.afterClaim
      rw [if_neg empty]
      exact nearer_of_budget (Nat.zero_le _) (claimBudget_spent executes enclosed.rows empty)
  | spawn here free works served =>
    refine nearer_of_turn (Nat.zero_le _) (le_refl _) ?_
    rw [here]
    exact Nat.lt_succ_self 9
  | reap here finished ended =>
    apply nearer_of_turn
    · exact (LoopControl.joining_ahead _ _).le.trans (Nat.zero_le _)
    · exact le_refl _
    · rw [here]
      exact LoopControl.joining_turn _ _
  | @join handle handles workers note outcome here ended =>
    cases outcome with
    | error error =>
      refine nearer_of_turn (Nat.zero_le _) (le_refl _) ?_
      rw [here]
      exact Nat.succ_pos 7
    | ok count =>
      refine nearer_of_handles rfl ?_ ?_ ?_
      · exact (LoopControl.joining_ahead _ _).le.trans (Nat.zero_le _)
      · rw [here]
        exact Nat.le_of_lt_succ (LoopControl.joining_turn _ _)
      · rw [here]
        unfold DaemonLoop.afterJoin
        dsimp only
        rw [LoopControl.joining_handles]
        exact Nat.lt_succ_self _
  | await here ended =>
    refine nearer_of_handles rfl (Nat.zero_le _) ?_ ?_
    · rw [here]
      exact le_refl _
    · rw [here]
      exact Nat.lt_succ_self _
  | @drained final firstErr here =>
    have same : (loop.afterDrain final firstErr).pool = loop.pool := by
      cases firstErr with
      | some error => rfl
      | none => cases final <;> rfl
    apply nearer_of_turn
    · rw [here]
      cases firstErr with
      | some error => exact le_refl _
      | none => cases final <;> exact le_refl _
    · rw [same]
    · rw [here]
      cases firstErr with
      | some error => exact Nat.succ_pos 4
      | none =>
        cases final with
        | true => exact Nat.succ_pos 4
        | false => exact Nat.lt_succ_self 4
  | sleep here =>
    refine nearer_of_turn (Nat.zero_le _) (le_refl _) ?_
    rw [here]
    exact Nat.lt_succ_self 3
  | work step => exact nearer_of_work live.run.careful step

/-- A task that has not returned can go on. -/
private theorem calm_work {task : CrawlTask} {index : Nat} (found : loop.pool.tasks[index]? = some task)
    (running : task.prog.returned = false) : ∃ after, loop.Calm anchor.bytes batchSize serves after := by
  obtain ⟨note, prog⟩ := task
  cases prog with
  | ret outcome => cases running
  | call stmt next =>
    obtain ⟨reply, left, executed⟩ := sql_total stmt loop.pool.shared
    exact ⟨_, .work (Pool.Calls.noting found executed)⟩

/-- Until its task has ended, the loop can go on. -/
private theorem Live.enabled (live : Live anchor batchSize timers settings db loop) (positive : 1 ≤ batchSize)
    (concurrent : 1 ≤ settings.concurrency) (going : loop.control.halted = false)
    (serving : ∀ batch, ∃ prog, settings.Works batch prog ∧ serves batch prog) :
    ∃ after, loop.Calm anchor.bytes batchSize serves after := by
  have orderly := DaemonLoop.Orderly.run live.run
  cases here : loop.control with
  | seed =>
    obtain ⟨id, left, ran⟩ := seedAnchor_enabled anchor loop.pool.shared
    exact ⟨_, .seed here ran⟩
  | reclaim =>
    obtain ⟨reply, left, ran⟩ : ∃ reply left, Runs sql reclaimStaleOnStartup.run loop.pool.shared reply left :=
      query_total (by trivial) .reclaimInProgress loop.pool.shared
    obtain ⟨_, _, _, rfl, _⟩ := runs_query ran
    exact ⟨_, .reclaim here ran⟩
  | top workers => exact ⟨_, .top here⟩
  | claim workers =>
    obtain ⟨reply, left, ran⟩ : ∃ reply left,
        Runs (sqlWith loop.MayLock) (claimBatch batchSize).run loop.pool.shared reply left :=
      query_total (by exact fun _ => rfl) (.claim batchSize) loop.pool.shared
    obtain ⟨_, _, _, executes⟩ := runs_query ran
    obtain ⟨batch, rfl⟩ := claim_ok (by omega) executes
    exact ⟨_, .claim here ran⟩
  | permit batch workers =>
    by_cases free : loop.inFlight < loop.settings.concurrency
    · obtain ⟨prog, works, served⟩ := serving batch
      exact ⟨_, .spawn here free (live.run.settings_eq.symm ▸ works) served⟩
    · -- A permit is held, so its task still runs.
      have held : 0 < loop.inFlight := by
        rw [live.run.settings_eq] at free
        omega
      obtain ⟨task, member, running⟩ := List.countP_pos_iff.mp held
      obtain ⟨index, found⟩ := List.mem_iff_getElem?.mp member
      exact calm_work found (by simpa using running)
  | reap workers => exact ⟨_, .reap here (fun _ => false) fun handle _ impossible => by cases impossible⟩
  | join handles workers =>
    cases handles with
    | nil => exact absurd here (orderly.busy workers)
    | cons handle handles =>
      obtain ⟨⟨note, prog⟩, found⟩ := orderly.found (by rw [here]; exact List.mem_cons_self ..)
      cases prog with
      | ret outcome => exact ⟨_, .join here found⟩
      | call stmt next => exact calm_work found rfl
  | drain final handles firstErr =>
    cases handles with
    | nil => exact ⟨_, .drained here⟩
    | cons handle handles =>
      obtain ⟨⟨note, prog⟩, found⟩ := orderly.found (by rw [here]; exact List.mem_cons_self ..)
      cases prog with
      | ret outcome => exact ⟨_, .await here found⟩
      | call stmt next => exact calm_work found rfl
  | idle => exact ⟨_, .sleep here⟩
  | aborted error =>
    rw [here] at going
    cases going
  | returned result =>
    rw [here] at going
    cases going
  | panicked =>
    rw [here] at going
    cases going

/-- From any such state, the loop comes to its rest, or returns the error of a worker. -/
theorem Live.settles {verify : Event → Bool} {keys : Finset Bytes} (live : Live anchor batchSize timers settings db loop)
    (lists : ListGate verify settings.gate) (positive : 1 ≤ batchSize) (concurrent : 1 ≤ settings.concurrency)
    (seats : settings.concurrency ≤ maxPermits) (closed : ClosedWorld verify anchor keys)
    (stored : ∀ id row, db.rows id = some row → row.pubkey ∈ keys)
    (serving : ∀ batch, ∃ prog, settings.Works batch prog ∧ serves batch prog) :
    Inevitably (DaemonLoop.Calm anchor.bytes batchSize serves) (fun final => AtRest final ∨ Broken final) loop := by
  have wf : WellFounded (Nearer settings.maxAttempts keys) := nearer_wf
  apply Inevitably.of_descent wf _ _ live
  intro loop live
  by_cases resting : AtRest loop
  · exact .inl (.inl resting)
  · rcases live.going with going | broken
    · refine .inr ⟨live.enabled positive concurrent going serving, ?_⟩
      intro after calm
      have enclosed := Enclosed.run lists closed stored live.run
      exact ⟨⟨live.run.tail calm.step, calm.keeps_cancelled.trans live.fresh, live.goes seats going calm⟩,
        live.nearer positive enclosed resting calm⟩
    · exact .inl (.inr broken)

private theorem claim_nil (now : DateTime) : db.claim now [] = db := by
  cases db
  simp [Database.claim, Database.update]

/-- A loop at rest goes on over the same database. -/
private theorem AtRest.calm {anchorPubkey : Bytes} (resting : AtRest loop)
    (calm : loop.Calm anchorPubkey batchSize serves after) :
    after.pool.shared = loop.pool.shared ∧ AtRest after := by
  have entered : after.control.entered = true :=
    (calm.step : loop.Step anchorPubkey batchSize (fun _ => False) after).entered resting.entered
  have still (same : after.pool = loop.pool) (waits : after.control.waits = none) :
      after.pool.shared = loop.pool.shared ∧ AtRest after :=
    ⟨congrArg Pool.shared same, entered, waits, same ▸ resting.resolved, same ▸ resting.idle⟩
  have outside {control : LoopControl} (here : loop.control = control) (starts : control.entered = false) : False := by
    have inside := resting.entered
    rw [here, starts] at inside
    cases inside
  cases calm with
  | seed here ran => exact (outside here rfl).elim
  | reclaim here ran => exact (outside here rfl).elim
  | top here =>
    apply still rfl
    unfold DaemonLoop.afterTop
    dsimp only
    split <;> rfl
  | @claim workers batch left here ran =>
    obtain ⟨now, locked, _, executes⟩ := runs_query ran
    obtain ⟨_, discovered, rfl⟩ := claim_spec executes
    obtain rfl : batch = [] := by
      apply List.eq_nil_iff_forall_not_mem.mpr
      intro claimed member
      obtain ⟨row, found, _, status⟩ := discovered claimed member
      exact (resting.resolved claimed.id row found).1 status
    refine still ?_ rfl
    simp [DaemonLoop.afterClaim, Pool.disturb, claim_nil]
  | spawn here free works served => cases (congrArg LoopControl.waits here).symm.trans resting.unclaimed
  | reap here finished ended => exact still rfl (LoopControl.joining_waits _ _)
  | @join handle handles workers note outcome here ended =>
    cases outcome with
    | ok count => exact still rfl (LoopControl.joining_waits _ _)
    | error error => exact still rfl rfl
  | await here ended => exact still rfl rfl
  | @drained final firstErr here =>
    cases firstErr with
    | some error => exact still rfl rfl
    | none => cases final <;> exact still rfl rfl
  | sleep here => exact still rfl rfl
  | work step =>
    obtain ⟨next, called⟩ := step.found
    cases resting.idle _ (List.mem_of_getElem? called)

end Calm

section Example

end Example

end WotCrawler.Daemon
