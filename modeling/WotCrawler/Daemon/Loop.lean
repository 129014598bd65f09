import WotCrawler.Crawl.Driver
import WotCrawler.Crawl.Custody

/-! `run_daemon_loop`: the claim loop that idles on an empty frontier until it is cancelled, the
drains that join its workers, and the timers that sweep leases beside it. -/

namespace WotCrawler.Daemon

open Effect Store Ingest Relay Crawl

/-- The arguments of a call that its steps read. The gate's clock is read anew for each batch. -/
structure LoopSettings where
  concurrency : Nat
  gate : GateParams
  maxAttempts : Int
  fallbackEnabled : Bool
  nip65MaxWriteRelays : Nat

/-- Where the call stands. Handles are the indices of the tasks they join; a drain is that of the
idle loop or the final one, and keeps the first error. A failed startup write aborts the call before
its loop. -/
inductive LoopControl where
  | seed
  | reclaim
  | top (workers : List Nat)
  | claim (workers : List Nat)
  | permit (batch : List ClaimedAuthor) (workers : List Nat)
  | reap (workers : List Nat)
  | join (handles workers : List Nat)
  | drain (final : Bool) (handles : List Nat) (firstErr : Option StoreError)
  | idle
  | aborted (error : StoreError)
  | returned (result : Except StoreError CrawlStats)
  | panicked

/-- The top of the loop, once the handles found finished are joined. -/
def LoopControl.joining (handles workers : List Nat) : LoopControl :=
  if handles = [] then .top workers else .join handles workers

/-- A call of `run_daemon_loop` over the database, its tasks with the rows that each has still to
resolve, the flag that readiness reads, the token, and the handles joined so far. -/
structure DaemonLoop where
  settings : LoopSettings
  pool : CrawlPool
  control : LoopControl
  stats : CrawlStats
  loopAlive : Bool
  cancelled : Bool
  joined : List Nat

/-- A call that starts. -/
def DaemonLoop.start (settings : LoopSettings) (db : Database) : DaemonLoop where
  settings := settings
  pool := ⟨db, []⟩
  control := .seed
  stats := ⟨0, 0, 0⟩
  loopAlive := false
  cancelled := false
  joined := []

/-- The error of a task that failed, after those known. -/
def keepFirst (firstErr : Option StoreError) (outcome : Except StoreError Nat) : Option StoreError :=
  match firstErr, outcome with
  | none, .error error => some error
  | _, _ => firstErr

namespace DaemonLoop

/-- The batches being fetched or resolved: the permits that the tasks hold. -/
def inFlight (loop : DaemonLoop) : Nat := loop.pool.tasks.countP (fun task => !task.prog.returned)

/-- A handle whose task has returned. -/
def Finished (loop : DaemonLoop) (handle : Nat) : Prop :=
  ∃ note outcome, loop.pool.tasks[handle]? = some ⟨note, .ret outcome⟩

/-- Every way out of the loop clears the flag. -/
def finish (loop : DaemonLoop) (result : Except StoreError CrawlStats) : DaemonLoop :=
  { loop with control := .returned result, loopAlive := false }

def afterSeed (loop : DaemonLoop) (left : Database) : DaemonLoop :=
  { loop with pool := loop.pool.disturb left, control := .reclaim }

/-- The startup reclaim, then the flag and the semaphore. -/
def afterReclaim (loop : DaemonLoop) (left : Database) (reclaimed : Nat) : DaemonLoop :=
  { loop with
    pool := loop.pool.disturb left
    stats := ⟨reclaimed, 0, 0⟩
    loopAlive := true
    control := if maxPermits < loop.settings.concurrency then .panicked else .top [] }

/-- Only claiming is cancelled. -/
def afterTop (loop : DaemonLoop) (workers : List Nat) : DaemonLoop :=
  { loop with control := if loop.cancelled then .drain true workers none else .claim workers }

/-- An empty claim drains the workers before the loop idles. -/
def afterClaim (loop : DaemonLoop) (workers : List Nat) (left : Database) (batch : List ClaimedAuthor) :
    DaemonLoop :=
  if batch = [] then { loop with pool := loop.pool.disturb left, control := .drain false workers none }
  else
    { loop with
      pool := loop.pool.disturb left
      stats :=
        { loop.stats with
          authorsClaimed := loop.stats.authorsClaimed + batch.length
          batchesProcessed := loop.stats.batchesProcessed + 1 }
      control := .permit batch workers }

def afterSpawn (loop : DaemonLoop) (batch : List ClaimedAuthor) (workers : List Nat)
    (prog : Prog Sql (Except StoreError Nat)) : DaemonLoop :=
  { loop with
    pool := loop.pool.spawn ⟨{id | id ∈ batch.map ClaimedAuthor.id}, prog⟩
    control := .reap (workers ++ [loop.pool.tasks.length]) }

/-- The handles found finished are joined next. -/
def afterReap (loop : DaemonLoop) (workers : List Nat) (finished : Nat → Bool) : DaemonLoop :=
  { loop with control := .joining (workers.filter finished) (workers.filter fun handle => !finished handle) }

/-- `join_worker(handle).await?`: an error ends the loop, and drops the other handles. -/
def afterJoin (loop : DaemonLoop) (handle : Nat) (handles workers : List Nat) (outcome : Except StoreError Nat) :
    DaemonLoop :=
  let joined := { loop with joined := loop.joined ++ [handle] }
  match outcome with
  | .ok _ => { joined with control := .joining handles workers }
  | .error error => joined.finish (.error error)

/-- One handle of `drain_all`. -/
def afterAwait (loop : DaemonLoop) (final : Bool) (handle : Nat) (handles : List Nat)
    (firstErr : Option StoreError) (outcome : Except StoreError Nat) : DaemonLoop :=
  { loop with
    joined := loop.joined ++ [handle]
    control := .drain final handles (keepFirst firstErr outcome) }

/-- The end of `drain_all`. -/
def afterDrain (loop : DaemonLoop) (final : Bool) (firstErr : Option StoreError) : DaemonLoop :=
  match firstErr with
  | some error => loop.finish (.error error)
  | none => if final then loop.finish (.ok loop.stats) else { loop with control := .idle }

end DaemonLoop

/-- The statements of the daemon's timers. -/
def TimerStmt : Stmt → Prop
  | .reclaimStale _ => True
  | .reclaimExpired _ => True
  | _ => False

/-- The task of a batch: each reads the clock, and each of its fetches may return anything. -/
inductive LoopSettings.Works (settings : LoopSettings) (batch : List ClaimedAuthor) :
    Prog Sql (Except StoreError Nat) → Prop where
  | batch (now : Timestamp) (fallback : Fallback) (fetched : Except RelayError (List Event))
      (enabled : fallback.enabled = settings.fallbackEnabled)
      (capped : fallback.maxWriteRelays = settings.nip65MaxWriteRelays) :
      Works settings batch
        (processBatch { settings.gate with now := now } settings.maxAttempts fallback batch fetched).run

namespace DaemonLoop

/-- One step of the loop, of one of its tasks, of a timer that fires, or of whoever cancels. A
statement may fail for reasons outside the database, a task may panic, and the loop wakes from its
idle sleep by either branch that is ready. -/
inductive Step (anchorPubkey : Bytes) (batchSize : Int) (timers : Stmt → Prop) (loop : DaemonLoop) :
    DaemonLoop → Prop where
  | seed (here : loop.control = .seed)
      (ran : Runs sql (seedAnchor anchorPubkey).run loop.pool.shared (.ok stored) left) :
      Step anchorPubkey batchSize timers loop (loop.afterSeed left)
  | reclaim (here : loop.control = .reclaim)
      (ran : Runs sql reclaimStaleOnStartup.run loop.pool.shared (.ok reclaimed) left) :
      Step anchorPubkey batchSize timers loop (loop.afterReclaim left reclaimed)
  | startFails (here : loop.control = .seed ∨ loop.control = .reclaim) (error : StoreError) :
      Step anchorPubkey batchSize timers loop { loop with control := .aborted error }
  | top (here : loop.control = .top workers) : Step anchorPubkey batchSize timers loop (loop.afterTop workers)
  | claim (here : loop.control = .claim workers)
      (ran : Runs sql (claimBatch batchSize).run loop.pool.shared (.ok batch) left) :
      Step anchorPubkey batchSize timers loop (loop.afterClaim workers left batch)
  | claimFails (here : loop.control = .claim workers) (error : StoreError) :
      Step anchorPubkey batchSize timers loop (loop.finish (.error error))
  | spawn (here : loop.control = .permit batch workers) (free : loop.inFlight < loop.settings.concurrency)
      (works : loop.settings.Works batch prog) :
      Step anchorPubkey batchSize timers loop (loop.afterSpawn batch workers prog)
  | reap (here : loop.control = .reap workers) (finished : Nat → Bool)
      (ended : ∀ handle ∈ workers, finished handle = true → loop.Finished handle) :
      Step anchorPubkey batchSize timers loop (loop.afterReap workers finished)
  | join (here : loop.control = .join (handle :: handles) workers)
      (ended : loop.pool.tasks[handle]? = some ⟨note, .ret outcome⟩) :
      Step anchorPubkey batchSize timers loop (loop.afterJoin handle handles workers outcome)
  | await (here : loop.control = .drain final (handle :: handles) firstErr)
      (ended : loop.pool.tasks[handle]? = some ⟨note, .ret outcome⟩) :
      Step anchorPubkey batchSize timers loop (loop.afterAwait final handle handles firstErr outcome)
  | drained (here : loop.control = .drain final [] firstErr) :
      Step anchorPubkey batchSize timers loop (loop.afterDrain final firstErr)
  | sleep (here : loop.control = .idle) : Step anchorPubkey batchSize timers loop { loop with control := .top [] }
  | wake (here : loop.control = .idle) (cancelled : loop.cancelled = true) :
      Step anchorPubkey batchSize timers loop { loop with control := .drain true [] none }
  | work (step : loop.pool.Calls (leasing fun _ => True) index stmt note noted after) :
      Step anchorPubkey batchSize timers loop { loop with pool := after }
  | fail (found : loop.pool.tasks[index]? = some task) (running : task.prog.returned = false) (error : StoreError) :
      Step anchorPubkey batchSize timers loop { loop with pool := loop.pool.drop index task.note (.error error) }
  | sweep (timer : TimerStmt stmt) (fires : timers stmt) (executed : sql.exec stmt loop.pool.shared reply left) :
      Step anchorPubkey batchSize timers loop { loop with pool := loop.pool.disturb left }
  | cancel : Step anchorPubkey batchSize timers loop { loop with cancelled := true }

/-- More timers leave the other steps. -/
theorem Step.mono {anchorPubkey : Bytes} {batchSize : Int} {timers others : Stmt → Prop} {loop after : DaemonLoop}
    (more : ∀ stmt, timers stmt → others stmt) (step : loop.Step anchorPubkey batchSize timers after) :
    loop.Step anchorPubkey batchSize others after := by
  cases step with
  | seed here ran => exact .seed here ran
  | reclaim here ran => exact .reclaim here ran
  | startFails here error => exact .startFails here error
  | top here => exact .top here
  | claim here ran => exact .claim here ran
  | claimFails here error => exact .claimFails here error
  | spawn here free works => exact .spawn here free works
  | reap here finished ended => exact .reap here finished ended
  | join here ended => exact .join here ended
  | await here ended => exact .await here ended
  | drained here => exact .drained here
  | sleep here => exact .sleep here
  | wake here cancelled => exact .wake here cancelled
  | work step => exact .work step
  | fail found running error => exact .fail found running error
  | sweep timer fires executed => exact .sweep timer (more _ fires) executed
  | cancel => exact .cancel

/-- A run of the loop, from any database. -/
abbrev Run (anchorPubkey : Bytes) (batchSize : Int) (timers : Stmt → Prop) (settings : LoopSettings)
    (db : Database) : DaemonLoop → Prop :=
  Relation.ReflTransGen (Step anchorPubkey batchSize timers) (.start settings db)

end DaemonLoop

end WotCrawler.Daemon
