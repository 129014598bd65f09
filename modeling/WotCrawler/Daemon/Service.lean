import WotCrawler.Crawl.Guarantee
import WotCrawler.Daemon.Shutdown
import WotCrawler.Daemon.Windows

/-! `run`: the loop and the timers it spawns beside the server, what readiness answers meanwhile, and the
drain that follows the server's end. -/

namespace WotCrawler.Daemon

open Effect Store Ingest Relay Crawl

def defaultMaxAttempts : Int := 3

/-- The config with the fields that are handed to the loop as they are. -/
structure RunConfig extends Config where
  maxAttempts : Int := defaultMaxAttempts
  nip65FallbackEnabled : Bool := true

namespace RunConfig

def futureClampSecs : Timestamp := 3600

def followCap : Nat := 10000

/-- What `run` hands to the loop. -/
def loopSettings (cfg : RunConfig) (verify : Event → Bool) : LoopSettings where
  concurrency := cfg.concurrency
  gate := ⟨verify, Kind.contactList, 0, futureClampSecs, followCap⟩
  maxAttempts := cfg.maxAttempts
  fallbackEnabled := cfg.nip65FallbackEnabled
  nip65MaxWriteRelays := cfg.nip65MaxWriteRelays

end RunConfig

/-- The tasks spawned beside the loop. -/
inductive Timer where
  | sampler
  | progress
  | staleness
  | reclaim
deriving DecidableEq

namespace Timer

/-- All of them, in the order in which the drain joins them. -/
def all : List Timer := [.sampler, .progress, .staleness, .reclaim]

/-- The period of its interval. A period of zero panics. -/
def period (cfg : RunConfig) : Timer → Duration
  | .sampler => cfg.progressInterval
  | .progress => cfg.progressInterval
  | .staleness => cfg.stalenessScanInterval
  | .reclaim => cfg.reclaimInterval

/-- What a tick writes. The sampler and the summary only read. -/
def scan (cfg : RunConfig) : Timer → Option (StoreM Nat)
  | .sampler => none
  | .progress => none
  | .staleness => some cfg.stalenessScan
  | .reclaim => some cfg.inRunReclaim

end Timer

/-- What `run` awaits: the server, the task of the loop, or those of the timers, the last two under
`SHUTDOWN_TIMEOUT`. -/
inductive RunPhase where
  | serving
  | loopTask
  | timerTasks (rest : List Timer)
  | exited (overdue : Bool)
  | failed
deriving DecidableEq

/-- The tasks are spawned and the process has not ended. -/
def RunPhase.up : RunPhase → Bool
  | .exited _ => false
  | .failed => false
  | _ => true

/-- A call of `run` whose tasks are spawned. The token is the loop's. -/
structure Service where
  loop : DaemonLoop
  running : Finset Timer
  phase : RunPhase

def Service.start (cfg : RunConfig) (verify : Event → Bool) (db : Database) : Service where
  loop := .start (cfg.loopSettings verify) db
  running := Timer.all.toFinset
  phase := .serving

/-- What a step of a service is one of. -/
inductive Act where
  | crawl
  | tick
  | stop
  | close
  | serveFails
  | join
  | overdue
deriving DecidableEq

/-- One step of `run`: of its loop, its workers or its signal handler; a timer's tick, or its end; the
server's end, which follows the token's cancellation unless it fails; a task joined; or the timeout. Its
end is that of the process, so nothing moves after it. -/
inductive Service.Step (cfg : RunConfig) (anchor : PublicKey) (service : Service) : Act → Service → Prop where
  | crawl (up : service.phase.up = true)
      (step : service.loop.Step anchor.bytes cfg.batchSize (fun _ => False) after) :
      Step cfg anchor service .crawl { service with loop := after }
  | tick (up : service.phase.up = true) (running : timer ∈ service.running) (writes : timer.scan cfg = some scan)
      (ran : Runs sql scan.run service.loop.pool.shared reply left) :
      Step cfg anchor service .tick
        { service with loop := { service.loop with pool := service.loop.pool.disturb left } }
  | stop (up : service.phase.up = true) (running : timer ∈ service.running)
      (stops : service.loop.cancelled = true ∨ timer.period cfg = 0) :
      Step cfg anchor service .stop { service with running := service.running.erase timer }
  | close (here : service.phase = .serving) (cancelled : service.loop.cancelled = true) :
      Step cfg anchor service .close { service with phase := .loopTask }
  | serveFails (here : service.phase = .serving) : Step cfg anchor service .serveFails { service with phase := .failed }
  | joinLoop (here : service.phase = .loopTask) (ended : service.loop.control.halted = true) :
      Step cfg anchor service .join { service with phase := .timerTasks Timer.all }
  | joinTimer (here : service.phase = .timerTasks (timer :: rest)) (ended : timer ∉ service.running) :
      Step cfg anchor service .join { service with phase := .timerTasks rest }
  | drained (here : service.phase = .timerTasks []) : Step cfg anchor service .join { service with phase := .exited false }
  | overdue (draining : service.phase = .loopTask ∨ ∃ rest, service.phase = .timerTasks rest) :
      Step cfg anchor service .overdue { service with phase := .exited true }

abbrev Service.Run (cfg : RunConfig) (anchor : PublicKey) : Service → Service → Prop :=
  Relation.ReflTransGen fun service after => ∃ act, service.Step cfg anchor act after

inductive StatusCode where
  | ok
  | serviceUnavailable
deriving DecidableEq

/-- What a readiness probe waits for: the load of the loop's flag, and the ping of the database. -/
inductive ReadyOp where
  | loadLoopAlive
  | ping
deriving DecidableEq

abbrev Ready : Signature where
  Op := ReadyOp
  Ret := fun _ => Bool

def readyHandler : Prog Ready StatusCode := do
  let loopAlive ← .perform ReadyOp.loadLoopAlive
  if !loopAlive then
    return .serviceUnavailable
  let answers ← .perform ReadyOp.ping
  return if answers then .ok else .serviceUnavailable

/-- A service that is probed, where the database answers the ping in time or does not. -/
def Service.probed (pings : Bool) : Machine Ready Service where
  exec
    | .loadLoopAlive, before, reply, after => reply = before.loop.loopAlive ∧ after = before
    | .ping, before, reply, after => reply = pings ∧ after = before

/-- The service runs on while a probe waits. -/
def Service.meanwhile (cfg : RunConfig) (anchor : PublicKey) : Reliance Service where
  rely := Service.Run cfg anchor
  refl := fun _ => .refl
  trans := fun first second => first.trans second

/-- However a probe that starts here is interleaved with the process, its answer is as described where it ends. -/
def Service.Answers (cfg : RunConfig) (anchor : PublicKey) (service : Service) (pings : Bool)
    (post : StatusCode → Service → Prop) : Prop :=
  Safe (Service.probed pings) (Service.meanwhile cfg anchor) (fun _ _ _ => True) post readyHandler service

namespace DaemonLoop.Step

variable {anchorPubkey : Bytes} {batchSize : Int} {timers : Stmt → Prop} {loop after : DaemonLoop}
  (step : loop.Step anchorPubkey batchSize timers after)

include step

theorem stays_cancelled (cancelled : loop.cancelled = true) : after.cancelled = true := by
  cases step with
  | claim here ran =>
    unfold afterClaim
    split <;> exact cancelled
  | @join handle handles workers note outcome here ended => cases outcome <;> exact cancelled
  | @drained final firstErr here =>
    cases firstErr with
    | some error => exact cancelled
    | none => cases final <;> exact cancelled
  | cancel => rfl
  | _ => exact cancelled

/-- The task of the loop ends once. -/
theorem stays_halted (halted : loop.control.halted = true) : after.control = loop.control := by
  have going {control : LoopControl} {motive : Prop} (here : loop.control = control) (on : control.halted = false) :
      motive := by
    rw [here, on] at halted
    cases halted
  cases step with
  | seed here ran => exact going here rfl
  | reclaim here ran => exact going here rfl
  | startFails here error => exact here.elim (fun here => going here rfl) fun here => going here rfl
  | top here => exact going here rfl
  | claim here ran => exact going here rfl
  | claimFails here error => exact going here rfl
  | spawn here free works => exact going here rfl
  | reap here finished ended => exact going here rfl
  | join here ended => exact going here rfl
  | await here ended => exact going here rfl
  | drained here => exact going here rfl
  | sleep here => exact going here rfl
  | wake here cancelled => exact going here rfl
  | work step => rfl
  | fail found running error => rfl
  | sweep timer fires executed => rfl
  | cancel => rfl

end DaemonLoop.Step

variable {cfg : RunConfig} {anchor : PublicKey} {verify : Event → Bool} {batchSize : Int} {timers : Stmt → Prop}
  {settings : LoopSettings} {loop after : DaemonLoop} {service later : Service} {act : Act} {db : Database}

theorem DaemonLoop.Step.persists (step : loop.Step anchor.bytes batchSize timers after) :
    Persists loop.pool.shared after.pool.shared := by
  cases step with
  | seed here ran =>
    obtain ⟨id, now, locked, _, executes, _⟩ := seedAnchor_executes ran
    exact executes.framed.persists
  | reclaim here ran =>
    obtain ⟨now, locked, _, executes⟩ := runs_query ran
    exact executes.framed.persists
  | claim here ran =>
    obtain ⟨now, locked, _, executes⟩ := runs_query ran
    unfold afterClaim
    split <;> exact executes.framed.persists
  | @join handle handles workers note outcome here ended => cases outcome <;> exact .refl _
  | @drained final firstErr here =>
    cases firstErr with
    | some error => exact .refl _
    | none => cases final <;> exact .refl _
  | work step =>
    obtain ⟨reply, ⟨now, locked, _, executes⟩, _⟩ := step.executed
    exact executes.framed.persists
  | sweep timer fires executed =>
    obtain ⟨now, locked, _, executes⟩ := executed
    exact executes.framed.persists
  | _ => exact .refl _

/-- Its seed, or the anchor is a row. -/
theorem DaemonLoop.Run.anchored (run : DaemonLoop.Run anchor.bytes batchSize timers settings db loop) :
    loop.control = .seed ∨ (∃ error, loop.control = .aborted error) ∨ Crawl.Stored loop.pool.shared anchor.bytes := by
  induction run with
  | refl => exact .inl rfl
  | @tail loop after _ step ih =>
    rcases ih with here | ⟨error, here⟩ | ⟨id, keyed⟩
    · cases step with
      | seed _ ran =>
        obtain ⟨id, _, _, _, _, keyed⟩ := seedAnchor_executes ran
        exact .inr (.inr ⟨id, keyed⟩)
      | startFails _ error => exact .inr (.inl ⟨error, rfl⟩)
      | work step => exact .inl here
      | fail found running error => exact .inl here
      | sweep timer fires executed => exact .inl here
      | cancel => exact .inl here
      | reclaim there => cases here.symm.trans there
      | top there => cases here.symm.trans there
      | claim there => cases here.symm.trans there
      | claimFails there => cases here.symm.trans there
      | spawn there => cases here.symm.trans there
      | reap there => cases here.symm.trans there
      | join there => cases here.symm.trans there
      | await there => cases here.symm.trans there
      | drained there => cases here.symm.trans there
      | sleep there => cases here.symm.trans there
      | wake there => cases here.symm.trans there
    · exact .inr (.inl ⟨error, (step.stays_halted (by rw [here]; rfl)).trans here⟩)
    · exact .inr (.inr ⟨id, step.persists.keyed keyed⟩)

private theorem joining_seated (handles workers : List Nat) : LoopControl.joining handles workers ≠ .panicked := by
  unfold LoopControl.joining
  split <;> exact fun same => by cases same

/-- Only a semaphore without room for its permits panics. -/
private theorem panics_crowded (step : loop.Step anchor.bytes batchSize timers after)
    (panicked : after.control = .panicked) : loop.control = .panicked ∨ maxPermits < loop.settings.concurrency := by
  cases step with
  | reclaim here ran =>
    unfold DaemonLoop.afterReclaim at panicked
    dsimp only at panicked
    split at panicked
    · rename_i crowded
      exact .inr crowded
    · cases panicked
  | top here =>
    unfold DaemonLoop.afterTop at panicked
    dsimp only at panicked
    split at panicked <;> cases panicked
  | claim here ran =>
    unfold DaemonLoop.afterClaim at panicked
    split at panicked <;> cases panicked
  | reap here finished ended => exact absurd panicked (joining_seated _ _)
  | @join handle handles workers note outcome here ended =>
    cases outcome with
    | ok count => exact absurd panicked (joining_seated _ _)
    | error error => cases panicked
  | @drained final firstErr here =>
    cases firstErr with
    | some error => cases panicked
    | none => cases final <;> cases panicked
  | work step => exact .inl panicked
  | fail found running error => exact .inl panicked
  | sweep timer fires executed => exact .inl panicked
  | cancel => exact .inl panicked
  | _ => cases panicked

theorem DaemonLoop.Run.seated (run : DaemonLoop.Run anchor.bytes batchSize timers settings db loop)
    (room : settings.concurrency ≤ maxPermits) : loop.control ≠ .panicked := by
  induction run with
  | refl => exact fun same => by cases same
  | @tail loop after before step ih =>
    intro panicked
    rcases panics_crowded step panicked with earlier | crowded
    · exact ih earlier
    · have same := DaemonLoop.Run.settings_eq before
      rw [same] at crowded
      exact absurd room (Nat.not_le.mpr crowded)

/-- The loop of a service runs as a call of its own, whatever the timers. -/
theorem Service.Step.loops (step : service.Step cfg anchor act later) :
    later.loop = service.loop ∨ service.loop.Step anchor.bytes cfg.batchSize (fun _ => True) later.loop := by
  cases step with
  | crawl up step => exact .inr (step.mono fun _ => False.elim)
  | @tick timer scan reply left up running writes ran =>
    right
    have swept {stmt : Stmt} {answer : Except StoreError stmt.Ret} (timer : TimerStmt stmt)
        (ran : Runs sql (query stmt).run service.loop.pool.shared answer left) :
        service.loop.Step anchor.bytes cfg.batchSize (fun _ => True)
          { service.loop with pool := service.loop.pool.disturb left } := by
      obtain ⟨now, locked, _, executes⟩ := runs_query ran
      exact .sweep timer trivial ⟨now, locked, trivial, executes⟩
    cases timer with
    | staleness =>
      obtain rfl := Option.some.inj writes
      have timer : TimerStmt (.reclaimStale (windowSecs cfg.ttl)) := trivial
      exact swept timer ran
    | reclaim =>
      obtain rfl := Option.some.inj writes
      have timer : TimerStmt (.reclaimExpired (windowSecs cfg.reclaimAge)) := trivial
      exact swept timer ran
    | _ => cases writes
  | _ => exact .inl rfl

theorem Service.Run.loops (run : Service.Run cfg anchor (.start cfg verify db) service) :
    DaemonLoop.Run anchor.bytes cfg.batchSize (fun _ => True) (cfg.loopSettings verify) db service.loop := by
  induction run with
  | refl => exact .refl
  | tail _ step ih =>
    obtain ⟨act, step⟩ := step
    rcases step.loops with same | step
    · exact same ▸ ih
    · exact ih.tail step

/-- Where `run` stands says what has ended: it leaves the server when it is cancelled, and joins what has ended. -/
structure Staged (service : Service) : Prop where
  cancelled : service.phase ≠ .serving → service.phase ≠ .failed → service.loop.cancelled = true
  halted : service.phase = .exited false ∨ (∃ rest, service.phase = .timerTasks rest) →
    service.loop.control.halted = true
  timers : ∀ rest, service.phase = .timerTasks rest → ∀ timer ∈ service.running, timer ∈ rest
  ended : service.phase = .exited false → service.running = ∅

theorem Staged.step (staged : Staged service) (step : service.Step cfg anchor act later) : Staged later := by
  have drains {phase : RunPhase} (here : service.phase = phase) (left : phase ≠ .serving) (sound : phase ≠ .failed) :
      service.loop.cancelled = true :=
    staged.cancelled (fun same => left (here.symm.trans same)) fun same => sound (here.symm.trans same)
  cases step with
  | crawl up step =>
    refine ⟨fun left sound => step.stays_cancelled (staged.cancelled left sound), ?_, staged.timers, staged.ended⟩
    intro joined
    have halted := staged.halted joined
    exact (congrArg LoopControl.halted (step.stays_halted halted)).trans halted
  | tick up running writes ran => exact ⟨staged.cancelled, staged.halted, staged.timers, staged.ended⟩
  | @stop timer up running stops =>
    refine ⟨staged.cancelled, staged.halted, ?_, ?_⟩
    · exact fun rest here other member => staged.timers rest here other (Finset.mem_of_mem_erase member)
    · intro here
      have gone := staged.ended here
      exact gone ▸ Finset.erase_empty timer
  | close here cancelled =>
    refine ⟨fun _ _ => cancelled, ?_, (fun _ same => by cases same), fun same => by cases same⟩
    exact fun joined => joined.elim (fun same => by cases same) fun some => by cases some.choose_spec
  | serveFails here =>
    refine ⟨fun _ sound => absurd rfl sound, ?_, (fun _ same => by cases same), fun same => by cases same⟩
    exact fun joined => joined.elim (fun same => by cases same) fun some => by cases some.choose_spec
  | joinLoop here ended =>
    refine ⟨fun _ _ => drains here nofun nofun, fun _ => ended, ?_, fun same => by cases same⟩
    intro rest same timer member
    obtain rfl := RunPhase.timerTasks.inj same
    cases timer <;> simp [Timer.all]
  | @joinTimer timer rest here ended =>
    refine ⟨fun _ _ => drains here nofun nofun, fun _ => staged.halted (.inr ⟨_, here⟩), ?_, fun same => by cases same⟩
    intro left same other member
    obtain rfl := RunPhase.timerTasks.inj same
    rcases List.mem_cons.mp (staged.timers _ here other member) with rfl | later
    · exact absurd member ended
    · exact later
  | drained here =>
    refine ⟨fun _ _ => drains here nofun nofun, fun _ => staged.halted (.inr ⟨_, here⟩), (fun _ same => by cases same), ?_⟩
    intro _
    apply Finset.eq_empty_of_forall_notMem
    exact fun timer member => List.not_mem_nil (staged.timers _ here timer member)
  | overdue draining =>
    refine ⟨fun _ _ => ?_, ?_, (fun _ same => by cases same), fun same => by cases same⟩
    · exact draining.elim (fun here => drains here nofun nofun) fun some => drains some.choose_spec nofun nofun
    · exact fun joined => joined.elim (fun same => by cases same) fun some => by cases some.choose_spec

theorem Staged.run (run : Service.Run cfg anchor (.start cfg verify db) service) : Staged service := by
  induction run with
  | refl =>
    refine ⟨fun left _ => absurd rfl left, ?_, (fun _ same => by cases same), fun same => by cases same⟩
    exact fun joined => joined.elim (fun same => by cases same) fun some => by cases some.choose_spec
  | tail _ step ih =>
    obtain ⟨act, step⟩ := step
    exact ih.step step

/-- What a drain that ends within its budget leaves: the tasks of the process have ended, and where the loop
returned a value no worker runs and no row is in progress. -/
structure Drained (service : Service) : Prop where
  exited : service.phase = .exited false
  halted : service.loop.control.halted = true
  timers : service.running = ∅
  clean : ∀ stats, service.loop.control = .returned (.ok stats) →
    (∀ task ∈ service.loop.pool.tasks, task.prog.returned = true) ∧ ∀ id, ¬ Leased service.loop.pool.shared id

theorem Drained.run (run : Service.Run cfg anchor (.start cfg verify db) service) (exited : service.phase = .exited false) :
    Drained service := by
  have staged := Staged.run run
  refine ⟨exited, staged.halted (.inl exited), staged.ended exited, ?_⟩
  intro stats ended
  have looped := run.loops
  have tracked := Tracked.run looped fun error here => by rw [ended] at here; cases here
  have counted := all_counted tracked (Joined.run looped) (by rw [ended]; rfl) (by rw [ended]; rfl)
  have owned := (Staffed.run looped (by rw [ended]; rfl)).owned
  rw [ended] at owned
  refine ⟨?_, ?_⟩
  · intro task member
    obtain ⟨count, returned⟩ := counted task member
    rw [returned]
    rfl
  · intro id leased
    obtain ⟨row, found, status⟩ := leased
    exact owned.none counted found status

theorem DaemonLoop.Run.loopAlive (run : DaemonLoop.Run anchor.bytes batchSize timers settings db loop) :
    loop.loopAlive = loop.control.alive := by
  induction run with
  | refl => rfl
  | tail _ step ih => exact step.loopAlive ih

theorem LoopControl.not_alive_of_ended {control : LoopControl} (ended : control.ended = true) : control.alive = false := by
  cases control with
  | aborted error => rfl
  | returned result => rfl
  | _ => cases ended

theorem LoopControl.halted_of_ended {control : LoopControl} (ended : control.ended = true) : control.halted = true := by
  cases control with
  | aborted error => rfl
  | returned result => rfl
  | _ => cases ended

/-- A loop that has ended is not started again. -/
theorem Service.Run.stays_halted (run : Service.Run cfg anchor service later)
    (halted : service.loop.control.halted = true) : later.loop.control = service.loop.control := by
  induction run with
  | refl => rfl
  | tail _ step ih =>
    obtain ⟨act, step⟩ := step
    rcases step.loops with same | step
    · rw [same, ih]
    · exact (step.stays_halted (ih ▸ halted)).trans ih

/-- A probe answers by the flag that it loads and then by its ping. The flag is not loaded again. -/
private theorem answers_of_load {pings : Bool} {post : StatusCode → Service → Prop}
    (down : ∀ loaded, Service.Run cfg anchor service loaded → loaded.loop.loopAlive = false →
      ∀ later, Service.Run cfg anchor loaded later → post .serviceUnavailable later)
    (upheld : ∀ loaded, Service.Run cfg anchor service loaded → loaded.loop.loopAlive = true →
      ∀ later, Service.Run cfg anchor loaded later → post (if pings then .ok else .serviceUnavailable) later) :
    service.Answers cfg anchor pings post := by
  intro loaded flag left moved load
  obtain ⟨flagged, rfl⟩ : flag = loaded.loop.loopAlive ∧ left = loaded := load
  refine ⟨trivial, ?_⟩
  cases flag with
  | false => exact Safe.ret fun later after => down left moved flagged.symm later after
  | true =>
    intro pinged reply right waited ping
    obtain ⟨rfl, rfl⟩ : reply = pings ∧ right = pinged := ping
    exact ⟨trivial, Safe.ret fun later after => upheld left moved flagged.symm later (waited.trans after)⟩

/-- In every run of the process: it serves until it is cancelled, whatever becomes of its loop, unless the server
fails; a readiness probe, which loads the flag of the loop and then waits for the database, answers 200 exactly if
its ping is answered and the loop was between its startup writes and its return at the moment of the load; at such
moments the anchor is a row and, if its permits fit a semaphore, the loop has not ended; and a probe that starts
once the loop's call is over answers 503. -/
theorem service_answers (run : Service.Run cfg anchor (.start cfg verify db) service) :
    (service.phase = .serving ∨ service.phase = .failed ∨ service.loop.cancelled = true) ∧
    (∀ pings, service.Answers cfg anchor pings fun code after => ∃ loaded, Service.Run cfg anchor service loaded ∧
      Service.Run cfg anchor loaded after ∧ (code = .ok ↔ loaded.loop.control.alive = true ∧ pings = true)) ∧
    (service.loop.control.alive = true → Crawl.Stored service.loop.pool.shared anchor.bytes ∧
      (cfg.concurrency ≤ maxPermits → service.loop.control.halted = false)) ∧
    (service.loop.control.ended = true → ∀ pings, service.Answers cfg anchor pings fun code _ => code = .serviceUnavailable) := by
  have looped := run.loops
  refine ⟨?_, ?_, ?_, ?_⟩
  · by_cases serving : service.phase = .serving
    · exact .inl serving
    · by_cases failed : service.phase = .failed
      · exact .inr (.inl failed)
      · exact .inr (.inr ((Staged.run run).cancelled serving failed))
  · have flagged {loaded : Service} (moved : Service.Run cfg anchor service loaded) :
        loaded.loop.loopAlive = loaded.loop.control.alive := by
      have whole : Service.Run cfg anchor (.start cfg verify db) loaded := run.trans moved
      exact whole.loops.loopAlive
    intro pings
    apply answers_of_load
    · intro loaded moved down later after
      rw [flagged moved] at down
      exact ⟨loaded, moved, after, by simp [down]⟩
    · intro loaded moved alive later after
      rw [flagged moved] at alive
      exact ⟨loaded, moved, after, by cases pings <;> simp [alive]⟩
  · intro alive
    refine ⟨?_, ?_⟩
    · rcases looped.anchored with here | ⟨error, here⟩ | stored
      · rw [here] at alive
        cases alive
      · rw [here] at alive
        cases alive
      · exact stored
    · intro room
      have seated := looped.seated room
      cases here : service.loop.control with
      | aborted error =>
        rw [here] at alive
        cases alive
      | returned result =>
        rw [here] at alive
        cases alive
      | panicked => exact absurd here seated
      | _ => rfl
  · intro ended pings
    apply answers_of_load
    · exact fun _ _ _ _ _ => rfl
    · intro loaded moved alive
      have same := moved.stays_halted (LoopControl.halted_of_ended ended)
      have whole : Service.Run cfg anchor (.start cfg verify db) loaded := run.trans moved
      rw [whole.loops.loopAlive, same, LoopControl.not_alive_of_ended ended] at alive
      cases alive

section Example

/-- A process with the minimal config, and its loop after the startup. -/
private def minimalRun : RunConfig where
  toConfig := Config.minimalConfig

private def soleVerify (_ : Event) : Bool := false

private theorem startup_runs : ∃ service, Service.Run minimalRun sampleAuthor
    (.start minimalRun soleVerify Database.empty) service ∧ service.loop.control.alive = true := by
  let seeded := (Database.empty.upsert sampleAuthor.bytes).2
  have reclaims : Runs sql reclaimStaleOnStartup.run seeded (.ok 0) (seeded.sweep Columns.isInProgress) :=
    .call ⟨0, ∅, trivial, by decide, rfl⟩ .ret
  let start : DaemonLoop := .start (minimalRun.loopSettings soleVerify) Database.empty
  have first : start.Step sampleAuthor.bytes minimalRun.batchSize (fun _ => False) (start.afterSeed seeded) :=
    .seed rfl seeds_empty
  have second : (start.afterSeed seeded).Step sampleAuthor.bytes minimalRun.batchSize (fun _ => False)
      ((start.afterSeed seeded).afterReclaim (seeded.sweep Columns.isInProgress) 0) :=
    .reclaim rfl reclaims
  exact ⟨_, .tail (.single ⟨_, .crawl rfl first⟩) ⟨_, .crawl rfl second⟩, rfl⟩

/-- After the startup the process is ready: a probe that is answered at once says so. -/
theorem service_answers_startup : ∃ service, Service.Run minimalRun sampleAuthor
    (.start minimalRun soleVerify Database.empty) service ∧ Runs (Service.probed true) readyHandler service .ok service ∧
      Crawl.Stored service.loop.pool.shared sampleAuthor.bytes ∧
      service.Answers minimalRun sampleAuthor true fun code after => ∃ loaded, Service.Run minimalRun sampleAuthor service loaded ∧
        Service.Run minimalRun sampleAuthor loaded after ∧ (code = .ok ↔ loaded.loop.control.alive = true ∧ true = true) := by
  obtain ⟨service, run, alive⟩ := startup_runs
  obtain ⟨_, probes, rows, _⟩ := service_answers run
  have flagged : service.loop.loopAlive = true := run.loops.loopAlive.trans alive
  have answered : Runs (Service.probed true) readyHandler service .ok service := by
    have load : (Service.probed true).exec .loadLoopAlive service true service := ⟨flagged.symm, rfl⟩
    have ping : (Service.probed true).exec .ping service true service := ⟨rfl, rfl⟩
    exact .call load (.call ping .ret)
  exact ⟨service, run, answered, (rows alive).1, probes true⟩

end Example

/-- The steps that an unfailing server and an unhurried drain leave. -/
def Act.timely : Act → Bool
  | .tick => false
  | .serveFails => false
  | .overdue => false
  | _ => true

/-- The process gets on: any ticks of its timers, then another step, within the drain's budget. -/
def Service.Proceeds (cfg : RunConfig) (anchor : PublicKey) (service after : Service) : Prop :=
  ∃ ticked act, Relation.ReflTransGen (fun service after => service.Step cfg anchor .tick after) service ticked ∧
    act.timely = true ∧ ticked.Step cfg anchor act after ∧ after ≠ ticked

def RunPhase.rank : RunPhase → Nat
  | .serving => 7
  | .loopTask => 6
  | .timerTasks rest => rest.length + 1
  | .exited _ => 0
  | .failed => 0

/-- What `run` has still to await, the timers that run, and the measure of the loop. -/
def Service.measure (service : Service) :
    Nat × Nat × Nat × Nat × Multiset (Prog Sql (Except StoreError Nat)) × Nat :=
  (service.phase.rank, service.running.card, service.loop.measure)

def Service.Below : Service → Service → Prop :=
  InvImage (Prod.Lex (· < ·) (Prod.Lex (· < ·) DaemonLoop.Lower)) Service.measure

theorem Service.below_wf : WellFounded Service.Below :=
  InvImage.wf _ (Nat.lt_wfRel.wf.prod_lex (Nat.lt_wfRel.wf.prod_lex DaemonLoop.lower_wf))

/-- The process is cancelled, and has not failed or overrun its budget. -/
structure Stopping (cfg : RunConfig) (anchor : PublicKey) (verify : Event → Bool) (db : Database) (service : Service) :
    Prop where
  run : Service.Run cfg anchor (.start cfg verify db) service
  cancelled : service.loop.cancelled = true
  stands : service.phase.up = true ∨ service.phase = .exited false

theorem Stopping.step (stopping : Stopping cfg anchor verify db service) (step : service.Step cfg anchor act later)
    (timely : act.timely = true) : Stopping cfg anchor verify db later := by
  have run := stopping.run.tail ⟨act, step⟩
  cases step with
  | crawl up step => exact ⟨run, step.stays_cancelled stopping.cancelled, stopping.stands⟩
  | tick up running writes ran => cases timely
  | stop up running stops => exact ⟨run, stopping.cancelled, stopping.stands⟩
  | close here cancelled => exact ⟨run, cancelled, .inl rfl⟩
  | serveFails here => cases timely
  | joinLoop here ended => exact ⟨run, stopping.cancelled, .inl rfl⟩
  | joinTimer here ended => exact ⟨run, stopping.cancelled, .inl rfl⟩
  | drained here => exact ⟨run, stopping.cancelled, .inr rfl⟩
  | overdue draining => cases timely

/-- Ticks leave the measure. -/
theorem Stopping.ticks (stopping : Stopping cfg anchor verify db service)
    (ticks : Relation.ReflTransGen (fun service after => service.Step cfg anchor .tick after) service later) :
    later.measure = service.measure ∧ Stopping cfg anchor verify db later := by
  induction ticks with
  | refl => exact ⟨rfl, stopping⟩
  | tail _ step ih =>
    obtain ⟨measure, still⟩ := ih
    have run := still.run.tail ⟨_, step⟩
    cases step with
    | tick up running writes ran => exact ⟨measure, run, still.cancelled, still.stands⟩

/-- Once the token is cancelled, every timely step goes down. -/
theorem Service.Step.below (step : service.Step cfg anchor act later) (timely : act.timely = true)
    (cancelled : service.loop.cancelled = true) : later = service ∨ Service.Below later service := by
  have phase (lower : later.phase.rank < service.phase.rank) : later = service ∨ Service.Below later service :=
    .inr (.left _ _ lower)
  cases step with
  | crawl up step =>
    rcases step.below cancelled with same | below
    · left
      rw [same]
    · exact .inr (.right _ (.right _ below))
  | tick up running writes ran => cases timely
  | stop up running stops => exact .inr (.right _ (.left _ _ (Finset.card_erase_lt_of_mem running)))
  | close here cancelled =>
    apply phase
    rw [here]
    exact Nat.lt_succ_self 6
  | serveFails here => cases timely
  | joinLoop here ended =>
    apply phase
    rw [here]
    exact Nat.lt_succ_self 5
  | joinTimer here ended =>
    apply phase
    rw [here]
    exact Nat.lt_succ_self _
  | drained here =>
    apply phase
    rw [here]
    exact Nat.lt_succ_self 0
  | overdue draining => cases timely

/-- Until it has exited, a cancelled process can get on. -/
private theorem proceeds_enabled (orderly : DaemonLoop.Orderly service.loop) (cancelled : service.loop.cancelled = true)
    (concurrent : 1 ≤ service.loop.settings.concurrency) (up : service.phase.up = true) :
    ∃ act after, act.timely = true ∧ service.Step cfg anchor act after ∧ after ≠ service := by
  have moves {after : Service} {phase : RunPhase} (here : service.phase = phase) (there : after.phase ≠ phase) :
      after ≠ service := by
    intro same
    exact there (same ▸ here)
  cases here : service.phase with
  | serving => exact ⟨.close, _, rfl, .close here cancelled, moves here nofun⟩
  | loopTask =>
    rcases orderly.enabled cancelled concurrent with halted | ⟨after, step, below⟩
    · exact ⟨.join, _, rfl, .joinLoop here halted, moves here nofun⟩
    · refine ⟨.crawl, _, rfl, .crawl up step, ?_⟩
      exact fun same => below.ne (congrArg Service.loop same)
  | timerTasks rest =>
    cases rest with
    | nil => exact ⟨.join, _, rfl, .drained here, moves here nofun⟩
    | cons timer rest =>
      by_cases running : timer ∈ service.running
      · refine ⟨.stop, _, rfl, .stop up running (.inl cancelled), ?_⟩
        intro same
        have erased : service.running.erase timer = service.running := congrArg Service.running same
        rw [← erased] at running
        exact Finset.notMem_erase timer service.running running
      · refine ⟨.join, _, rfl, .joinTimer here running, moves here ?_⟩
        intro same
        exact absurd (congrArg List.length (RunPhase.timerTasks.inj same)) (Nat.ne_of_lt (Nat.lt_succ_self _))
  | exited overdue =>
    rw [here] at up
    cases up
  | failed =>
    rw [here] at up
    cases up

/-- Once the token of an accepted config's process is cancelled, every schedule of its loop, workers, timers and
server brings it, within the drain's budget and unless the server fails, to its exit with all tasks ended, whatever
the workers' fetches and statements return, and however often the timers fire in between; and where the loop
returned a value no row is left in progress. -/
theorem shutdown_inevitable {parse : String → Except String PublicKey} (valid : validate parse cfg.toConfig = .ok ())
    (run : Service.Run cfg anchor (.start cfg verify db) service) (cancelled : service.loop.cancelled = true)
    (up : service.phase.up = true) : Inevitably (Service.Proceeds cfg anchor) Drained service := by
  have concurrent : 1 ≤ (cfg.loopSettings verify).concurrency := (Config.validate_eq_ok_iff.mp valid).concurrency
  have stopping : Stopping cfg anchor verify db service := ⟨run, cancelled, .inl up⟩
  apply Inevitably.of_descent Service.below_wf _ _ stopping
  intro service stopping
  rcases stopping.stands with up | exited
  · right
    refine ⟨?_, ?_⟩
    · have settings := stopping.run.loops.settings_eq
      obtain ⟨act, after, timely, step, moved⟩ := proceeds_enabled (DaemonLoop.Orderly.run stopping.run.loops)
        stopping.cancelled (settings ▸ concurrent) up
      exact ⟨after, service, act, .refl, timely, step, moved⟩
    · intro after proceeds
      obtain ⟨ticked, act, ticks, timely, step, moved⟩ := proceeds
      obtain ⟨measure, later⟩ := stopping.ticks ticks
      have below := (step.below timely later.cancelled).resolve_left moved
      refine ⟨later.step step timely, ?_⟩
      unfold Service.Below InvImage at below ⊢
      rwa [measure] at below
  · exact .inl (Drained.run stopping.run exited)

/-- The minimal config's process, cancelled at once. -/
theorem shutdown_inevitable_minimal : ∃ service : Service, service.loop.cancelled = true ∧
    Inevitably (Service.Proceeds minimalRun sampleAuthor) Drained service := by
  have valid : validate (fun _ => .ok sampleAuthor) minimalRun.toConfig = .ok () :=
    Config.validate_eq_ok_iff.mpr (Config.minimal_runnable rfl (by decide) (by decide) (by decide)).1
  have cancelled : Service.Run minimalRun sampleAuthor (.start minimalRun soleVerify Database.empty) _ :=
    .single ⟨_, .crawl rfl .cancel⟩
  exact ⟨_, rfl, shutdown_inevitable valid cancelled rfl rfl⟩

end WotCrawler.Daemon
