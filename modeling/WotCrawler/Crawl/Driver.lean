import WotCrawler.Crawl.Lease
import WotCrawler.Effect.Progress

/-! `run_crawl`: the claim loop with its permits, and the workers it spawns, reaps and joins. -/

namespace WotCrawler.Crawl

open Effect Store Ingest Relay

/-- `Semaphore::MAX_PERMITS`. A semaphore with more panics when it is built. -/
def maxPermits : Nat := 2 ^ 61 - 1

structure CrawlStats where
  reclaimedOnStartup : Nat
  authorsClaimed : Nat
  batchesProcessed : Nat
deriving DecidableEq

/-- The arguments of one call that a restart may give differently: all but the anchor and the
batch size. The gate has the kind, the clock, the clamp and the cap; the injected fetch may return
something else on every call. -/
structure Settings where
  concurrency : Nat
  gate : GateParams
  maxAttempts : Int
  fetchUnion : List ClaimedAuthor → Except RelayError (List Event) → Prop

/-- `DEFAULT_NIP65_MAX_WRITE_RELAYS`. -/
def defaultNip65MaxWriteRelays : Nat := 3

/-- The driver's no-op fallback: it is switched off, and the registry is new. -/
def noOpFallback : Fallback where
  enabled := false
  maxWriteRelays := defaultNip65MaxWriteRelays
  score := fun _ _ => 1
  fallbackFetch := fun _ _ => .ok []
  relayListFetch := fun _ => .ok []

/-- The task spawned for a batch, given what its fetch returns. -/
def Settings.worker (settings : Settings) (batch : List ClaimedAuthor)
    (fetched : Except RelayError (List Event)) : Prog Sql (Except StoreError Nat) :=
  (processBatch settings.gate settings.maxAttempts noOpFallback batch fetched).run

/-- Where the driver stands. Handles are the indices of the tasks they join. -/
inductive Control where
  | seed
  | reclaim
  | claim (workers : List Nat)
  | permit (batch : List ClaimedAuthor) (workers : List Nat)
  | reap (workers : List Nat)
  | join (handles workers : List Nat)
  | returned (result : Except StoreError CrawlStats)
  | panicked

/-- The top of the loop, once the handles taken out of the vector are joined. -/
def Control.joining (handles workers : List Nat) : Control :=
  if handles = [] then .claim workers else .join handles workers

/-- A call of `run_crawl` over the database, its tasks with the rows that each has still to
resolve, and the ids of all authors claimed so far, in this call and those before it. -/
structure Driver where
  settings : Settings
  pool : Pool Sql Database (Set Nat) (Except StoreError Nat)
  control : Control
  stats : CrawlStats
  claimed : List Nat

/-- A call that starts. -/
def Driver.start (settings : Settings) (db : Database) (claimed : List Nat) : Driver where
  settings := settings
  pool := ⟨db, []⟩
  control := .seed
  stats := ⟨0, 0, 0⟩
  claimed := claimed

namespace Driver

/-- Rows can be locked only while some task runs. -/
def MayLock (driver : Driver) (locked : Finset Nat) : Prop :=
  (∀ task ∈ driver.pool.tasks, task.prog.returned = true) → locked = ∅

/-- The permits that the tasks hold. -/
def inFlight (driver : Driver) : Nat := driver.pool.tasks.countP (fun task => !task.prog.returned)

/-- A handle whose task has returned. -/
def Finished (driver : Driver) (handle : Nat) : Prop :=
  ∃ note outcome, driver.pool.tasks[handle]? = some ⟨note, .ret outcome⟩

def afterSeed (driver : Driver) (left : Database) (reply : Except StoreError Nat) : Driver :=
  { driver with
    pool := driver.pool.disturb left
    control := match reply with
      | .ok _ => .reclaim
      | .error error => .returned (.error error) }

/-- The startup reclaim, then the semaphore. -/
def afterReclaim (driver : Driver) (left : Database) (reply : Except StoreError Nat) : Driver :=
  match reply with
  | .error error => { driver with pool := driver.pool.disturb left, control := .returned (.error error) }
  | .ok reclaimed =>
    { driver with
      pool := driver.pool.disturb left
      stats := ⟨reclaimed, 0, 0⟩
      control := if maxPermits < driver.settings.concurrency then .panicked else .claim [] }

/-- An empty claim ends the call when there is no handle left, and joins them all otherwise. -/
def afterClaim (driver : Driver) (workers : List Nat) (left : Database)
    (reply : Except StoreError (List ClaimedAuthor)) : Driver :=
  match reply with
  | .error error => { driver with pool := driver.pool.disturb left, control := .returned (.error error) }
  | .ok batch =>
    if batch = [] then
      { driver with
        pool := driver.pool.disturb left
        control := if workers = [] then .returned (.ok driver.stats) else .join workers [] }
    else
      { driver with
        pool := driver.pool.disturb left
        stats :=
          { driver.stats with
            authorsClaimed := driver.stats.authorsClaimed + batch.length
            batchesProcessed := driver.stats.batchesProcessed + 1 }
        claimed := driver.claimed ++ batch.map ClaimedAuthor.id
        control := .permit batch workers }

def afterSpawn (driver : Driver) (batch : List ClaimedAuthor) (workers : List Nat)
    (fetched : Except RelayError (List Event)) : Driver :=
  { driver with
    pool := driver.pool.spawn ⟨{id | id ∈ batch.map ClaimedAuthor.id}, driver.settings.worker batch fetched⟩
    control := .reap (workers ++ [driver.pool.tasks.length]) }

/-- `join_worker`: the first error ends the call. -/
def afterJoin (driver : Driver) (handles workers : List Nat) (outcome : Except StoreError Nat) : Driver :=
  { driver with
    control := match outcome with
      | .ok _ => .joining handles workers
      | .error error => .returned (.error error) }

end Driver

/-- One step of the driver, or the next statement of one of its tasks. A handle found finished is
that of a task which has returned; the others are kept. -/
inductive CrawlStep (anchorPubkey : Bytes) (batchSize : Int) (driver : Driver) : Driver → Prop where
  | seed (here : driver.control = .seed) (ran : Runs sql (seedAnchor anchorPubkey).run driver.pool.shared reply left) :
      CrawlStep anchorPubkey batchSize driver (driver.afterSeed left reply)
  | reclaim (here : driver.control = .reclaim)
      (ran : Runs sql reclaimStaleOnStartup.run driver.pool.shared reply left) :
      CrawlStep anchorPubkey batchSize driver (driver.afterReclaim left reply)
  | claim (here : driver.control = .claim workers)
      (ran : Runs (sqlWith driver.MayLock) (claimBatch batchSize).run driver.pool.shared reply left) :
      CrawlStep anchorPubkey batchSize driver (driver.afterClaim workers left reply)
  | spawn (here : driver.control = .permit batch workers) (free : driver.inFlight < driver.settings.concurrency)
      (returns : driver.settings.fetchUnion batch fetched) :
      CrawlStep anchorPubkey batchSize driver (driver.afterSpawn batch workers fetched)
  | reap (here : driver.control = .reap workers) (finished : Nat → Bool)
      (ended : ∀ handle ∈ workers, finished handle = true → driver.Finished handle) :
      CrawlStep anchorPubkey batchSize driver { driver with
        control := .joining (workers.filter finished) (workers.filter fun handle => !finished handle) }
  | join (here : driver.control = .join (handle :: handles) workers)
      (ended : driver.pool.tasks[handle]? = some ⟨note, .ret outcome⟩) :
      CrawlStep anchorPubkey batchSize driver (driver.afterJoin handles workers outcome)
  | work (step : driver.pool.Calls (leasing fun _ => True) index stmt note noted after) :
      CrawlStep anchorPubkey batchSize driver { driver with pool := after }

/-- A step, or a crash between two statements, which kills all tasks, and a restart. -/
inductive LifeStep (anchorPubkey : Bytes) (batchSize : Int) (possible : Settings → Prop) (driver : Driver) :
    Driver → Prop where
  | step (step : CrawlStep anchorPubkey batchSize driver after) :
      LifeStep anchorPubkey batchSize possible driver after
  | crash (settings : Settings) (restarts : possible settings) :
      LifeStep anchorPubkey batchSize possible driver (.start settings driver.pool.shared driver.claimed)

end WotCrawler.Crawl
