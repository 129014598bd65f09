import WotCrawler.Crawl.Guarantee
import WotCrawler.Daemon.Drain
import WotCrawler.Effect.Simulation

/-! The calls of `run_crawl` and `run_daemon_loop` that a database goes through, each cut anywhere:
whatever they make of it, the daemon of arbitrary steps can. -/

namespace WotCrawler.Crawl.Control

open Store

/-- The batch that is claimed and not spawned yet. -/
def waits : Control → Option (List ClaimedAuthor)
  | .permit batch _ => some batch
  | _ => none

theorem joining_waits (handles workers : List Nat) : (joining handles workers).waits = none := by
  unfold joining
  split <;> rfl

end WotCrawler.Crawl.Control

namespace WotCrawler.Daemon

open Effect Store Ingest Relay Crawl

namespace LoopControl

/-- The same in the daemon's loop. -/
def waits : LoopControl → Option (List ClaimedAuthor)
  | .permit batch _ => some batch
  | _ => none

theorem joining_waits (handles workers : List Nat) : (joining handles workers).waits = none := by
  unfold joining
  split <;> rfl

end LoopControl

/-- What a deployment runs: nothing, a call of `run_crawl`, or one of `run_daemon_loop`, with its batch
size and the sweeps that its timers fire. -/
inductive Deployment where
  | down (db : Database)
  | crawl (batchSize : Int) (driver : Driver)
  | daemon (batchSize : Int) (timers : Stmt → Prop) (loop : DaemonLoop)

/-- The gate of a call: the kind that carries follow lists, and whatever verifies signatures. -/
structure ListGate (verify : Event → Bool) (gate : GateParams) : Prop where
  verify : gate.verify = verify
  kind : gate.wantKind = Kind.contactList

namespace Deployment

def pool : Deployment → CrawlPool
  | .down db => ⟨db, []⟩
  | .crawl _ driver => driver.pool
  | .daemon _ _ loop => loop.pool

def database (deployment : Deployment) : Database := deployment.pool.shared

def waiting : Deployment → Option (List ClaimedAuthor)
  | .down _ => none
  | .crawl _ driver => driver.control.waits
  | .daemon _ _ loop => loop.control.waits

/-- A call starts, makes a step, or is cut where it stands. A statement of the driver may fail for reasons outside
the database, as may a task, which may also panic; the loop's own steps have these failures. -/
inductive Step (verify : Event → Bool) (anchor : Bytes) : Deployment → Deployment → Prop where
  | crawl (settings : Settings) (lists : ListGate verify settings.gate) (batchSize : Int) (claimed : List Nat) :
      Step verify anchor (.down db) (.crawl batchSize (.start settings db claimed))
  | daemon (settings : LoopSettings) (lists : ListGate verify settings.gate) (batchSize : Int) (timers : Stmt → Prop) :
      Step verify anchor (.down db) (.daemon batchSize timers (.start settings db))
  | crawls (step : CrawlStep anchor batchSize driver after) :
      Step verify anchor (.crawl batchSize driver) (.crawl batchSize after)
  | crawlFails (here : driver.control = .seed ∨ driver.control = .reclaim ∨ ∃ workers, driver.control = .claim workers)
      (error : StoreError) :
      Step verify anchor (.crawl batchSize driver) (.crawl batchSize { driver with control := .returned (.error error) })
  | taskFails (found : driver.pool.tasks[index]? = some task) (running : task.prog.returned = false) (error : StoreError) :
      Step verify anchor (.crawl batchSize driver)
        (.crawl batchSize { driver with pool := driver.pool.drop index task.note (.error error) })
  | loops (step : loop.Step anchor batchSize timers after) :
      Step verify anchor (.daemon batchSize timers loop) (.daemon batchSize timers after)
  | cut (deployment : Deployment) : Step verify anchor deployment (.down deployment.database)

/-- Its call has such a gate. -/
def Sound (verify : Event → Bool) : Deployment → Prop
  | .down _ => True
  | .crawl _ driver => ListGate verify driver.settings.gate
  | .daemon _ _ loop => ListGate verify loop.settings.gate

end Deployment

/-- What a worker does for a batch, whatever its clock, its caps and its relays. -/
inductive BatchWork (verify : Event → Bool) (batch : List ClaimedAuthor) : Prog Sql (Except StoreError Nat) → Prop where
  | work (now futureClampSecs : Timestamp) (followCap : Nat) (maxAttempts : Int) (fallback : Fallback)
      (unionFetch : Except RelayError (List Event)) :
      BatchWork verify batch (processBatch ⟨verify, Kind.contactList, now, futureClampSecs, followCap⟩ maxAttempts
        fallback batch unionFetch).run

/-- What a step of a call does to the database, the tasks and the batch that waits. -/
inductive Advances (verify : Event → Bool) (anchor : Bytes) (pool : CrawlPool) :
    Option (List ClaimedAuthor) → CrawlPool → Option (List ClaimedAuthor) → Prop where
  | still : Advances verify anchor pool waiting pool waiting
  | seed (ran : Runs sql (seedAnchor anchor).run pool.shared reply left) :
      Advances verify anchor pool waiting (pool.disturb left) waiting
  | sweep (ranges : stmt.ranges = true) (executed : sql.exec stmt pool.shared reply left) :
      Advances verify anchor pool waiting (pool.disturb left) waiting
  | claim (executed : sql.exec (.claim limit) pool.shared (.ok batch) left) :
      Advances verify anchor pool none (pool.disturb left) (some batch)
  | spawn (work : BatchWork verify batch prog) : Advances verify anchor pool (some batch) (pool.spawn ⟨note, prog⟩) none
  | work (step : pool.Calls (leasing fun _ => True) index stmt note noted moved) :
      Advances verify anchor pool waiting moved waiting
  | fail (found : pool.tasks[index]? = some task) (error : StoreError) :
      Advances verify anchor pool waiting (pool.drop index task.note (.error error)) waiting

/-- What the batch that waits may become. -/
def Leaves (verify : Event → Bool) (waiting : Option (List ClaimedAuthor)) (prog : Prog Sql (Except StoreError Nat)) :
    Prop :=
  ∀ batch, waiting = some batch → BatchWork verify batch prog

/-- The workers of an image: those of the pool, and the one that the batch that waits becomes. -/
structure Mirrors (pool : CrawlPool) (waiting : Option (List ClaimedAuthor)) (prog : Prog Sql (Except StoreError Nat))
    (workers : Workers) : Prop where
  database : workers.shared = pool.shared
  progs : workers.tasks.map Task.prog = pool.tasks.map Task.prog ++ (waiting.map fun _ => prog).toList

section Advance

variable {verify : Event → Bool} {anchor : Bytes} {pool later : CrawlPool} {waiting next : Option (List ClaimedAuthor)}
  {prog : Prog Sql (Except StoreError Nat)} {workers : Workers}

theorem exists_leaves (verify : Event → Bool) (waiting : Option (List ClaimedAuthor)) :
    ∃ prog, Leaves verify waiting prog := by
  cases waiting with
  | none => exact ⟨.ret (.ok 0), fun batch none => by cases none⟩
  | some batch =>
    let work := (processBatch ⟨verify, Kind.contactList, 0, 0, 0⟩ 0 noOpFallback batch (.ok [])).run
    refine ⟨work, ?_⟩
    intro same listed
    obtain rfl := Option.some.inj listed
    exact .work 0 0 0 0 noOpFallback (.ok [])

/-- A task of the pool stands in the image at the same place, with the same program. -/
theorem Mirrors.found {index : Nat} {task : CrawlTask} (mirrors : Mirrors pool waiting prog workers)
    (present : pool.tasks[index]? = some task) :
    ∃ note, workers.tasks[index]? = some ⟨note, task.prog⟩ := by
  have bound : index < (pool.tasks.map Task.prog).length := by
    rw [List.length_map]
    exact (List.getElem?_eq_some_iff.mp present).1
  have same : (workers.tasks.map Task.prog)[index]? = some task.prog := by
    rw [mirrors.progs, List.getElem?_append_left bound, List.getElem?_map, present]
    rfl
  rw [List.getElem?_map] at same
  obtain ⟨image, there, runs⟩ := Option.map_eq_some_iff.mp same
  exact ⟨image.note, runs ▸ there⟩

/-- What a task becomes in the pool, it becomes in the image. -/
theorem Mirrors.set {index : Nat} {note : Set Nat} {claimed : List ClaimedAuthor} {rest : Prog Sql (Except StoreError Nat)}
    (mirrors : Mirrors pool waiting prog workers) (bound : index < pool.tasks.length) :
    (workers.tasks.set index ⟨claimed, rest⟩).map Task.prog =
      (pool.tasks.set index ⟨note, rest⟩).map Task.prog ++ (waiting.map fun _ => prog).toList := by
  rw [List.map_set, List.map_set, mirrors.progs, List.set_append_left]
  rwa [List.length_map]

/-- Whatever a step leaves open, the image of one choice before it becomes the image of that after it. -/
theorem Advances.matched (advances : Advances verify anchor pool waiting later next) (leaves : Leaves verify next prog) :
    ∃ earlier, Leaves verify waiting earlier ∧ ∀ workers, Mirrors pool waiting earlier workers →
      ∃ after, Relation.ReflTransGen (DaemonStep verify anchor) workers after ∧ Mirrors later next prog after := by
  cases advances with
  | still => exact ⟨prog, leaves, fun workers mirrors => ⟨workers, .refl, mirrors⟩⟩
  | seed ran =>
    refine ⟨prog, leaves, ?_⟩
    intro workers mirrors
    exact ⟨_, .single (.seed (mirrors.database ▸ ran)), rfl, mirrors.progs⟩
  | sweep ranges executed =>
    refine ⟨prog, leaves, ?_⟩
    intro workers mirrors
    exact ⟨_, .single (.sweep ranges (mirrors.database ▸ executed)), rfl, mirrors.progs⟩
  | @claim limit batch left executed =>
    -- the claim of the image spawns the worker at once
    refine ⟨prog, (fun batch none => by cases none), ?_⟩
    intro workers mirrors
    cases leaves _ rfl with
    | work now futureClampSecs followCap maxAttempts fallback unionFetch =>
      have step : DaemonStep verify anchor workers ((workers.disturb left).spawn ⟨batch,
          (processBatch ⟨verify, Kind.contactList, now, futureClampSecs, followCap⟩ maxAttempts fallback batch
            unionFetch).run⟩) :=
        .claim (.call (mirrors.database ▸ executed) .ret)
      refine ⟨_, .single step, rfl, ?_⟩
      exact List.map_append.trans (congrArg (· ++ _) (mirrors.progs.trans (List.append_nil _)))
  | @spawn batch spawned note work =>
    refine ⟨spawned, ?_, ?_⟩
    · intro same listed
      obtain rfl := Option.some.inj listed
      exact work
    · intro workers mirrors
      refine ⟨workers, .refl, mirrors.database, ?_⟩
      rw [mirrors.progs, Pool.spawn, List.map_append]
      exact (List.append_nil _).symm
  | @work index stmt note noted later waiting step =>
    refine ⟨prog, leaves, ?_⟩
    intro workers mirrors
    cases step with
    | @call note stmt next reply left noted found executed =>
      obtain ⟨claimed, there⟩ := mirrors.found found
      have calls : workers.Calls sql.silent index stmt claimed claimed
          ⟨left, workers.tasks.set index ⟨claimed, next reply⟩⟩ :=
        .call there ⟨mirrors.database ▸ executed.1, rfl⟩
      exact ⟨_, .single (.work calls), rfl, mirrors.set (List.getElem?_eq_some_iff.mp found).1⟩
  | @fail index task waiting found error =>
    refine ⟨prog, leaves, ?_⟩
    intro workers mirrors
    have step : DaemonStep verify anchor workers _ := .die index error
    exact ⟨_, .single step, mirrors.database, mirrors.set (List.getElem?_eq_some_iff.mp found).1⟩

end Advance

section Calls

variable {verify : Event → Bool} {anchor : Bytes} {batchSize : Int}

theorem ListGate.work {gate : GateParams} (lists : ListGate verify gate) (maxAttempts : Int) (fallback : Fallback)
    (batch : List ClaimedAuthor) (unionFetch : Except RelayError (List Event)) :
    BatchWork verify batch (processBatch gate maxAttempts fallback batch unionFetch).run := by
  cases gate
  obtain ⟨rfl, rfl⟩ := lists
  exact .work _ _ _ _ _ _

/-- What a step of the driver does. -/
theorem advances_of_crawlStep {driver after : Driver} (lists : ListGate verify driver.settings.gate)
    (step : CrawlStep anchor batchSize driver after) :
    Advances verify anchor driver.pool driver.control.waits after.pool after.control.waits := by
  have quiet (same : after.pool = driver.pool) (idle : driver.control.waits = none) (left : after.control.waits = none) :
      Advances verify anchor driver.pool driver.control.waits after.pool after.control.waits := by
    rw [same, idle, left]
    exact .still
  cases step with
  | @seed reply left here ran =>
    rw [here]
    cases reply <;> exact .seed ran
  | @reclaim reply left here ran =>
    obtain ⟨now, locked, _, executes⟩ := runs_query ran
    rw [here]
    cases reply with
    | error error => exact .sweep rfl ⟨now, locked, trivial, executes⟩
    | ok reclaimed =>
      unfold Driver.afterReclaim
      dsimp only
      split <;> exact .sweep rfl ⟨now, locked, trivial, executes⟩
  | @claim workers reply left here ran =>
    obtain ⟨now, locked, _, executes⟩ := runs_query ran
    rw [here]
    cases reply with
    | error error => exact .sweep rfl ⟨now, locked, trivial, executes⟩
    | ok batch =>
      unfold Driver.afterClaim
      dsimp only
      split
      · split <;> exact .sweep rfl ⟨now, locked, trivial, executes⟩
      · exact .claim ⟨now, locked, trivial, executes⟩
  | @spawn batch workers fetched here free returns =>
    rw [here]
    exact .spawn (lists.work _ _ _ _)
  | reap here finished ended => exact quiet rfl (by rw [here]; rfl) (Control.joining_waits _ _)
  | @join handle handles workers note outcome here ended =>
    cases outcome with
    | ok count => exact quiet rfl (by rw [here]; rfl) (Control.joining_waits _ _)
    | error error => exact quiet rfl (by rw [here]; rfl) rfl
  | work step => exact .work step

/-- What a step of the loop, of its tasks or of its timers does. -/
theorem advances_of_loopStep {timers : Stmt → Prop} {loop after : DaemonLoop} (lists : ListGate verify loop.settings.gate)
    (step : loop.Step anchor batchSize timers after) :
    Advances verify anchor loop.pool loop.control.waits after.pool after.control.waits := by
  have quiet (same : after.pool = loop.pool) (idle : loop.control.waits = none) (left : after.control.waits = none) :
      Advances verify anchor loop.pool loop.control.waits after.pool after.control.waits := by
    rw [same, idle, left]
    exact .still
  cases step with
  | seed here ran =>
    rw [here]
    exact .seed ran
  | @reclaim reclaimed left here ran =>
    obtain ⟨now, locked, _, executes⟩ := runs_query ran
    rw [here]
    unfold DaemonLoop.afterReclaim
    dsimp only
    split <;> exact .sweep rfl ⟨now, locked, trivial, executes⟩
  | startFails here error => exact quiet rfl (by rcases here with here | here <;> rw [here] <;> rfl) rfl
  | top here =>
    refine quiet rfl (by rw [here]; rfl) ?_
    unfold DaemonLoop.afterTop
    dsimp only
    split <;> rfl
  | @claim workers batch left here ran =>
    obtain ⟨now, locked, _, executes⟩ := runs_query ran
    rw [here]
    unfold DaemonLoop.afterClaim
    split
    · exact .sweep rfl ⟨now, locked, trivial, executes⟩
    · exact .claim ⟨now, locked, trivial, executes⟩
  | claimFails here error => exact quiet rfl (by rw [here]; rfl) rfl
  | spawn here free works =>
    rw [here]
    cases works with
    | batch now fallback fetched enabled capped =>
      have stamped : ListGate verify { loop.settings.gate with now := now } := ⟨lists.verify, lists.kind⟩
      exact .spawn (stamped.work _ _ _ _)
  | reap here finished ended => exact quiet rfl (by rw [here]; rfl) (LoopControl.joining_waits _ _)
  | @join handle handles workers note outcome here ended =>
    cases outcome with
    | ok count => exact quiet rfl (by rw [here]; rfl) (LoopControl.joining_waits _ _)
    | error error => exact quiet rfl (by rw [here]; rfl) rfl
  | await here ended => exact quiet rfl (by rw [here]; rfl) rfl
  | @drained final firstErr here =>
    refine quiet ?_ (by rw [here]; rfl) ?_
    all_goals cases firstErr with
      | some error => rfl
      | none => cases final <;> rfl
  | sleep here => exact quiet rfl (by rw [here]; rfl) rfl
  | wake here cancelled => exact quiet rfl (by rw [here]; rfl) rfl
  | work step => exact .work step
  | fail found running error => exact .fail found error
  | @sweep stmt reply left timer fires executed =>
    cases stmt with
    | reclaimStale ttlSecs => exact .sweep rfl executed
    | reclaimExpired ageSecs => exact .sweep rfl executed
    | _ => cases timer
  | cancel => exact .still

/-- The settings of a driver stay. -/
private theorem crawlStep_settings {driver after : Driver} (step : CrawlStep anchor batchSize driver after) :
    after.settings = driver.settings := by
  cases step with
  | @reclaim reply left here ran => cases reply <;> rfl
  | @claim workers reply left here ran =>
    cases reply with
    | error error => rfl
    | ok batch =>
      unfold Driver.afterClaim
      dsimp only
      split <;> rfl
  | _ => rfl

/-- Every deployment is simulated by the daemon of arbitrary steps, whatever its batch that waits becomes. -/
theorem deployment_simulates (verify : Event → Bool) (anchor : Bytes) :
    Simulates (Deployment.Step verify anchor) Deployment.database (DaemonStep verify anchor) Pool.shared
      (Deployment.Sound verify) (fun deployment => Leaves verify deployment.waiting)
      (fun deployment => Mirrors deployment.pool deployment.waiting) where
  views := Mirrors.database
  inhabited := fun deployment => exists_leaves verify deployment.waiting
  keeps := by
    intro deployment after sound step
    cases step with
    | crawl settings lists batchSize claimed => exact lists
    | daemon settings lists batchSize timers => exact lists
    | crawls step =>
      dsimp only [Deployment.Sound] at sound ⊢
      rwa [crawlStep_settings step]
    | crawlFails here error => exact sound
    | taskFails found running error => exact sound
    | loops step =>
      dsimp only [Deployment.Sound] at sound ⊢
      rwa [step.keeps_settings]
    | cut deployment => trivial
  steps := by
    intro deployment after prog sound step left
    cases step with
    | crawl settings lists batchSize claimed => exact ⟨prog, left, fun workers mirrors => ⟨workers, .refl, mirrors⟩⟩
    | daemon settings lists batchSize timers => exact ⟨prog, left, fun workers mirrors => ⟨workers, .refl, mirrors⟩⟩
    | crawls step => exact (advances_of_crawlStep sound step).matched left
    | @crawlFails batchSize driver here error =>
      have idle : driver.control.waits = none := by
        rcases here with here | here | ⟨workers, here⟩ <;> rw [here] <;> rfl
      have still : Advances verify anchor driver.pool driver.control.waits driver.pool none := idle ▸ .still
      exact still.matched left
    | taskFails found running error => exact (Advances.fail found error).matched left
    | loops step => exact (advances_of_loopStep sound step).matched left
    | cut deployment =>
      obtain ⟨earlier, possible⟩ := exists_leaves verify deployment.waiting
      refine ⟨earlier, possible, ?_⟩
      intro workers mirrors
      exact ⟨_, .single .crash, mirrors.database, rfl⟩

/-- Whatever an observer of a database sees of the calls made on it, the daemon of arbitrary steps can show,
and it stands where they do: it has the same database, and the same programs left to run, in the same order, after
which comes, where a batch waits for its permit, the worker that this batch becomes. -/
theorem deployment_refines {deployment : Deployment} {seen : List Database}
    (run : Shows (Deployment.Step verify anchor) Deployment.database (.down Database.empty) seen deployment) :
    ∃ workers prog, Shows (DaemonStep verify anchor) Pool.shared ⟨Database.empty, []⟩ seen workers ∧
      Leaves verify deployment.waiting prog ∧ Mirrors deployment.pool deployment.waiting prog workers := by
  have sound : Deployment.Sound verify (.down Database.empty) := trivial
  have mirrored (prog : Prog Sql (Except StoreError Nat)) (_ : Leaves verify none prog) :
      Mirrors ⟨Database.empty, []⟩ none prog ⟨Database.empty, []⟩ := ⟨rfl, rfl⟩
  obtain ⟨prog, workers, leaves, shown, mirrors⟩ := (deployment_simulates verify anchor).refines sound mirrored run
  exact ⟨workers, prog, shown, leaves, mirrors⟩

/-- A call of the loop seeds the anchor, claims it and applies its list. -/
def trailLoop : LoopSettings := ⟨1, trailGate, 3, false, defaultNip65MaxWriteRelays⟩

private theorem loop_runs {timers : Stmt → Prop} {loop : DaemonLoop} {prog : Prog Sql (Except StoreError Nat)}
    {note noted : Set Nat} {outcome : Except StoreError Nat} {left : Database}
    (run : Runs (leasing fun _ => True) prog (loop.pool.shared, note) outcome (left, noted))
    (found : loop.pool.tasks[index]? = some ⟨note, prog⟩) :
    Relation.ReflTransGen (DaemonLoop.Step anchor batchSize timers) loop
      { loop with pool := ⟨left, loop.pool.tasks.set index ⟨noted, .ret outcome⟩⟩ } := by
  refine (Pool.runs_calls run found).lift (fun pool => { loop with pool := pool }) ?_
  rintro before after ⟨stmt, old, new, call⟩
  have step : DaemonLoop.Step anchor batchSize timers { loop with pool := before } { loop with pool := after } :=
    .work call
  exact step

theorem trailLoop_run : ∃ loop, DaemonLoop.Run sampleAuthor.bytes 1 TimerStmt trailLoop Database.empty loop ∧
    loop.pool.shared = trailCharted ∧ loop.control = .reap [0] ∧ loop.cancelled = false := by
  let start : DaemonLoop := .start trailLoop Database.empty
  let seeded := start.afterSeed Fleet.oneRow
  let reclaimed := seeded.afterReclaim Fleet.oneRow 0
  let top := reclaimed.afterTop []
  let claimed := top.afterClaim [] claimedRow [Fleet.soleAuthor]
  let spawned := claimed.afterSpawn [Fleet.soleAuthor] [] trailWorker
  have seed : start.Step sampleAuthor.bytes 1 TimerStmt seeded := .seed rfl seeds_empty
  have reclaim : seeded.Step sampleAuthor.bytes 1 TimerStmt reclaimed := .reclaim rfl (.call oneRow_reclaims .ret)
  have begin : reclaimed.Step sampleAuthor.bytes 1 TimerStmt top := .top rfl
  have claim : top.Step sampleAuthor.bytes 1 TimerStmt claimed := .claim rfl (.call oneRow_claims .ret)
  have works : trailLoop.Works [Fleet.soleAuthor] trailWorker := .batch 100 noOpFallback (.ok [trailEvent]) rfl rfl
  have spawn : claimed.Step sampleAuthor.bytes 1 TimerStmt spawned := .spawn rfl (by decide) works
  have asked : Relation.ReflTransGen (DaemonLoop.Step sampleAuthor.bytes 1 TimerStmt) start spawned :=
    ((((Relation.ReflTransGen.single seed).tail reclaim).tail begin).tail claim).tail spawn
  obtain ⟨noted, charted⟩ := trailWorker_runs.noting {id | id ∈ [Fleet.soleAuthor].map ClaimedAuthor.id}
  have found : spawned.pool.tasks[0]? = some ⟨{id | id ∈ [Fleet.soleAuthor].map ClaimedAuthor.id}, trailWorker⟩ := rfl
  exact ⟨_, asked.trans (loop_runs charted found), rfl, rfl, rfl⟩

/-- An observer who looks before that call and after it. -/
theorem deployment_refines_trail : ∃ workers, Shows (DaemonStep trailVerifier.verify sampleAuthor.bytes) Pool.shared
      ⟨Database.empty, []⟩ [Database.empty, trailCharted] workers ∧ workers.shared = trailCharted := by
  obtain ⟨loop, run, charted, _⟩ := trailLoop_run
  have loops : Relation.ReflTransGen (Deployment.Step trailVerifier.verify sampleAuthor.bytes)
      (.daemon 1 TimerStmt (.start trailLoop Database.empty)) (.daemon 1 TimerStmt loop) :=
    run.lift (Deployment.daemon 1 TimerStmt) fun _ _ => .loops
  have started : Shows (Deployment.Step trailVerifier.verify sampleAuthor.bytes) Deployment.database
      (.down Database.empty) [Database.empty] (.daemon 1 TimerStmt (.start trailLoop Database.empty)) :=
    .step (.look .start) (.daemon trailLoop ⟨rfl, rfl⟩ 1 TimerStmt)
  have seen := (started.steps loops).look
  rw [show Deployment.database (.daemon 1 TimerStmt loop) = trailCharted from charted] at seen
  obtain ⟨workers, prog, shown, _, mirrors⟩ := deployment_refines seen
  exact ⟨workers, shown, mirrors.database.trans charted⟩

end Calls

end WotCrawler.Daemon
