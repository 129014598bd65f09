import WotCrawler.Daemon.Drain

/-! The handles of the daemon loop: which tasks it joins, and what holds when it returns. -/

namespace WotCrawler.Daemon

open Effect Store Ingest Relay Crawl

/-- The handles that are dropped unjoined if an error propagates here. -/
def LoopControl.spares : LoopControl → List Nat
  | .claim workers => workers
  | .join (_ :: handles) workers => handles ++ workers
  | _ => []

/-- Every task is joined, or the loop holds its handle. -/
def Tracked (loop : DaemonLoop) : Prop :=
  ∀ index < loop.pool.tasks.length, index ∈ loop.joined ∨ index ∈ loop.control.handles

/-- A joined task has returned, with a count as long as no error is known. -/
def Joined (loop : DaemonLoop) : Prop :=
  ∀ handle ∈ loop.joined, ∃ note outcome, loop.pool.tasks[handle]? = some ⟨note, .ret outcome⟩ ∧
    (loop.control.unfailed = true → ∃ count, outcome = .ok count)

/-- A run in which no error of a claim, or of a task found finished, propagates while the loop holds
other handles. -/
inductive DaemonLoop.Sparing (anchorPubkey : Bytes) (batchSize : Int) (timers : Stmt → Prop)
    (settings : LoopSettings) (db : Database) : DaemonLoop → Prop where
  | start : Sparing anchorPubkey batchSize timers settings db (.start settings db)
  | step (run : Sparing anchorPubkey batchSize timers settings db loop)
      (step : loop.Step anchorPubkey batchSize timers after)
      (spared : ∀ error, after.control = .returned (.error error) → loop.control.spares = []) :
      Sparing anchorPubkey batchSize timers settings db after

variable {settings : LoopSettings} {anchorPubkey : Bytes} {batchSize : Int} {timers : Stmt → Prop}
  {loop after : DaemonLoop} {db : Database}

section Step

variable (step : loop.Step anchorPubkey batchSize timers after)

include step

/-- A task that has returned stands. -/
theorem keeps_returned {handle : Nat} {task : CrawlTask} (found : loop.pool.tasks[handle]? = some task)
    (returned : task.prog.returned = true) : after.pool.tasks[handle]? = some task := by
  have different {index : Nat} {other : CrawlTask} (present : loop.pool.tasks[index]? = some other)
      (runs : other.prog.returned = false) : index ≠ handle := by
    intro same
    subst same
    obtain rfl := Option.some.inj (found.symm.trans present)
    exact absurd (returned.symm.trans runs) Bool.noConfusion
  cases step with
  | claim here ran =>
    unfold DaemonLoop.afterClaim
    split <;> exact found
  | spawn here free works => exact (List.getElem?_append_left (List.getElem?_eq_some_iff.mp found).1).trans found
  | join here ended =>
    rename_i outcome
    cases outcome <;> exact found
  | drained here =>
    rename_i final firstErr
    cases firstErr with
    | some error => exact found
    | none => cases final <;> exact found
  | work step =>
    cases step with
    | call called executed => exact (List.getElem?_set_ne (different called rfl)).trans found
  | fail present running error => exact (List.getElem?_set_ne (different present running)).trans found
  | _ => exact found

/-- A known error stays known. -/
private theorem unfailed_before (unfailed : after.control.unfailed = true) : loop.control.unfailed = true := by
  cases step with
  | seed here ran => rw [here]; rfl
  | reclaim here ran => rw [here]; rfl
  | startFails here error => rcases here with here | here <;> rw [here] <;> rfl
  | top here => rw [here]; rfl
  | claim here ran => rw [here]; rfl
  | claimFails here error => rw [here]; rfl
  | spawn here free works => rw [here]; rfl
  | reap here finished ended => rw [here]; rfl
  | join here ended => rw [here]; rfl
  | await here ended =>
    rename_i firstErr _ _
    rw [here]
    cases firstErr with
    | none => rfl
    | some error => cases unfailed
  | drained here =>
    rename_i final firstErr
    rw [here]
    cases firstErr with
    | none => rfl
    | some error => cases unfailed
  | sleep here => rw [here]; rfl
  | wake here cancelled => rw [here]; rfl
  | work step => exact unfailed
  | fail found running error => exact unfailed
  | sweep timer fires executed => exact unfailed
  | cancel => exact unfailed

/-- A call that has returned stays returned. -/
private theorem stays_returned {result : Except StoreError CrawlStats} (here : loop.control = .returned result) :
    after.control = .returned result := by
  cases step with
  | work step => exact here
  | fail found running error => exact here
  | sweep timer fires executed => exact here
  | cancel => exact here
  | startFails start error => rcases start with start | start <;> cases here.symm.trans start
  | seed start => cases here.symm.trans start
  | reclaim start => cases here.symm.trans start
  | top start => cases here.symm.trans start
  | claim start => cases here.symm.trans start
  | claimFails start => cases here.symm.trans start
  | spawn start => cases here.symm.trans start
  | reap start => cases here.symm.trans start
  | join start => cases here.symm.trans start
  | await start => cases here.symm.trans start
  | drained start => cases here.symm.trans start
  | sleep start => cases here.symm.trans start
  | wake start => cases here.symm.trans start

end Step

namespace Tracked

/-- The tasks stay the same, and the handles go on or are joined. -/
private theorem carry (tracked : Tracked loop) (same : after.pool.tasks.length = loop.pool.tasks.length)
    (carried : ∀ index, index ∈ loop.joined ∨ index ∈ loop.control.handles →
      index ∈ after.joined ∨ index ∈ after.control.handles) : Tracked after := by
  intro index bound
  exact carried index (tracked index (same ▸ bound))

/-- Where no handle is held, the joined ones are all there are. -/
private theorem carry_none (tracked : Tracked loop) (none : loop.control.handles = [])
    (same : after.pool.tasks.length = loop.pool.tasks.length) (joined : after.joined = loop.joined) :
    Tracked after := by
  apply tracked.carry same
  intro index known
  rw [none] at known
  rw [joined]
  exact .inl (known.resolve_right List.not_mem_nil)

/-- The handles move with the control. -/
private theorem carry_same (tracked : Tracked loop) (same : after.pool.tasks.length = loop.pool.tasks.length)
    (joined : after.joined = loop.joined) (handles : after.control.handles = loop.control.handles) :
    Tracked after := by
  apply tracked.carry same
  intro index known
  rwa [joined, handles]

private theorem carry_head {handle : Nat} {handles : List Nat} (tracked : Tracked loop)
    (same : after.pool.tasks.length = loop.pool.tasks.length) (joined : after.joined = loop.joined ++ [handle])
    (held : loop.control.handles = handle :: handles) (left : after.control.handles = handles) : Tracked after := by
  apply tracked.carry same
  intro index known
  rw [held] at known
  rw [joined, left]
  rcases known with old | rest
  · exact .inl (List.mem_append_left _ old)
  · rcases List.mem_cons.mp rest with rfl | later
    · exact .inl (List.mem_append_right _ (List.mem_singleton_self _))
    · exact .inr later

/-- A step loses no handle, unless an error propagates past handles that are held. -/
theorem step (tracked : Tracked loop) (step : loop.Step anchorPubkey batchSize timers after)
    (spared : ∀ error, after.control = .returned (.error error) → loop.control.spares = []) : Tracked after := by
  cases step with
  | seed here ran => exact tracked.carry_none (by rw [here]; rfl) rfl rfl
  | reclaim here ran => exact tracked.carry_none (by rw [here]; rfl) rfl rfl
  | startFails here error =>
    refine tracked.carry_none ?_ rfl rfl
    rcases here with here | here <;> rw [here] <;> rfl
  | top here =>
    refine tracked.carry_same rfl rfl ?_
    rw [here]
    unfold DaemonLoop.afterTop
    dsimp only
    split <;> rfl
  | claim here ran =>
    unfold DaemonLoop.afterClaim
    split
    · exact tracked.carry_same rfl rfl (by rw [here]; rfl)
    · exact tracked.carry_same rfl rfl (by rw [here]; rfl)
  | claimFails here error =>
    have none := spared error rfl
    rw [here] at none
    exact tracked.carry_none (by rw [here]; exact none) rfl rfl
  | spawn here free works =>
    rename_i batch workers prog
    intro index bound
    have length : (loop.afterSpawn batch workers prog).pool.tasks.length = loop.pool.tasks.length + 1 := List.length_append
    by_cases last : index = loop.pool.tasks.length
    · exact .inr (List.mem_append_right _ (List.mem_singleton.mpr last))
    · have known := tracked index (by omega)
      rw [here] at known
      exact known.imp_right fun member => List.mem_append_left _ member
  | reap here finished ended =>
    refine tracked.carry rfl ?_
    intro index known
    rw [here] at known
    refine known.imp_right ?_
    intro member
    unfold DaemonLoop.afterReap
    rw [LoopControl.joining_handles]
    cases done : finished index with
    | true => exact List.mem_append_left _ (List.mem_filter.mpr ⟨member, done⟩)
    | false => exact List.mem_append_right _ (List.mem_filter.mpr ⟨member, by simp [done]⟩)
  | join here ended =>
    rename_i handle handles workers note outcome
    cases outcome with
    | ok count => exact tracked.carry_head rfl rfl (by rw [here]; rfl) LoopControl.joining_handles
    | error error =>
      have none := spared error rfl
      rw [here] at none
      exact tracked.carry_head rfl rfl (by rw [here]; rfl) none.symm
  | await here ended => exact tracked.carry_head rfl rfl (by rw [here]; rfl) rfl
  | drained here =>
    rename_i final firstErr
    cases firstErr with
    | some error => exact tracked.carry_none (by rw [here]; rfl) rfl rfl
    | none => cases final <;> exact tracked.carry_none (by rw [here]; rfl) rfl rfl
  | sleep here => exact tracked.carry_none (by rw [here]; rfl) rfl rfl
  | wake here cancelled => exact tracked.carry_none (by rw [here]; rfl) rfl rfl
  | work step =>
    refine tracked.carry_same ?_ rfl rfl
    cases step with
    | call called executed => exact List.length_set
  | fail found running error => exact tracked.carry_same List.length_set rfl rfl
  | sweep timer fires executed => exact tracked.carry_same rfl rfl rfl
  | cancel => exact tracked.carry_same rfl rfl rfl

/-- A loop that returned no error has lost no handle. -/
theorem run (run : DaemonLoop.Run anchorPubkey batchSize timers settings db loop)
    (running : ∀ error, loop.control ≠ .returned (.error error)) : Tracked loop := by
  induction run with
  | refl => exact fun index bound => absurd bound (Nat.not_lt_zero index)
  | tail _ step ih =>
    have before := ih fun error here => running error (stays_returned step here)
    exact before.step step fun error here => absurd here (running error)

end Tracked

/-- A step joins only tasks that have returned, and a failed one is known from then on. -/
theorem Joined.step (joined : Joined loop) (step : loop.Step anchorPubkey batchSize timers after) : Joined after := by
  have old (handle : Nat) (member : handle ∈ loop.joined) :
      ∃ note outcome, after.pool.tasks[handle]? = some ⟨note, .ret outcome⟩ ∧
        (after.control.unfailed = true → ∃ count, outcome = .ok count) := by
    obtain ⟨note, outcome, found, counted⟩ := joined handle member
    exact ⟨note, outcome, keeps_returned step found rfl, fun unfailed => counted (unfailed_before step unfailed)⟩
  have one {handle : Nat} {note : Set Nat} {outcome : Except StoreError Nat} (same : after.joined = loop.joined ++ [handle])
      (found : after.pool.tasks[handle]? = some ⟨note, .ret outcome⟩)
      (counted : after.control.unfailed = true → ∃ count, outcome = .ok count) : Joined after := by
    intro other member
    rw [same] at member
    rcases List.mem_append.mp member with earlier | last
    · exact old other earlier
    · obtain rfl := List.mem_singleton.mp last
      exact ⟨note, outcome, found, counted⟩
  cases step with
  | join here ended =>
    rename_i handle handles workers note outcome
    cases outcome with
    | ok count => exact one rfl ended fun _ => ⟨count, rfl⟩
    | error error => exact one rfl ended fun unfailed => by cases unfailed
  | await here ended =>
    rename_i final handle handles firstErr note outcome
    apply one rfl ended
    intro unfailed
    cases outcome with
    | ok count => exact ⟨count, rfl⟩
    | error error => cases firstErr <;> cases unfailed
  | claim here ran =>
    unfold DaemonLoop.afterClaim at old ⊢
    split at old <;> split <;> exact old
  | drained here =>
    rename_i final firstErr
    cases firstErr with
    | some error => exact old
    | none => cases final <;> exact old
  | _ => exact old

theorem Joined.run (run : DaemonLoop.Run anchorPubkey batchSize timers settings db loop) : Joined loop := by
  induction run with
  | refl => exact fun handle member => by cases member
  | tail _ step ih => exact ih.step step

/-- A row is in progress. -/
def Leased (db : Database) (id : Nat) : Prop := ∃ row, db.rows id = some row ∧ row.columns.status = .inProgress

/-- Where no handle is held and no error is known, every task has returned a count. -/
theorem all_counted (tracked : Tracked loop) (joined : Joined loop) (none : loop.control.handles = [])
    (unfailed : loop.control.unfailed = true) : ∀ task ∈ loop.pool.tasks, ∃ count, task.prog = .ret (.ok count) := by
  intro task member
  obtain ⟨index, found⟩ := List.mem_iff_getElem?.mp member
  have known := tracked index (List.getElem?_eq_some_iff.mp found).1
  rw [none] at known
  obtain ⟨note, outcome, same, counted⟩ := joined index (known.resolve_right List.not_mem_nil)
  obtain rfl := Option.some.inj (found.symm.trans same)
  obtain ⟨count, rfl⟩ := counted unfailed
  exact ⟨count, rfl⟩

/-- A daemon loop that returns a value leaves no task that runs and no row in progress, whatever the
schedule, the cancellation and the timers; its permits always bound the batches in flight; and while
no timer fires, the rows in progress are those of the running workers and of the waiting batch, from
the startup until a worker fails. -/
theorem graceful_drain (run : DaemonLoop.Run anchorPubkey batchSize timers settings db loop) :
    (∀ stats, loop.control = .returned (.ok stats) →
      (∀ task ∈ loop.pool.tasks, task.prog.returned = true) ∧ ∀ id, ¬ Leased loop.pool.shared id) ∧
    loop.inFlight ≤ settings.concurrency ∧
    ((∀ stmt, ¬ timers stmt) → loop.control.entered = true →
      (∀ id, Held loop.pool loop.control.batch id → Leased loop.pool.shared id) ∧
      (¬ Failed loop.pool → ∀ id, Leased loop.pool.shared id → Held loop.pool loop.control.batch id)) := by
  refine ⟨?_, run.inFlight_le, ?_⟩
  · intro stats ended
    have tracked := Tracked.run run fun error here => by rw [ended] at here; cases here
    have counted := all_counted tracked (Joined.run run) (by rw [ended]; rfl) (by rw [ended]; rfl)
    have owned := (Staffed.run run (by rw [ended]; rfl)).owned
    rw [ended] at owned
    refine ⟨?_, ?_⟩
    · intro task member
      obtain ⟨count, returned⟩ := counted task member
      rw [returned]
      rfl
    · intro id leased
      obtain ⟨row, found, status⟩ := leased
      exact owned.none counted found status
  · intro silent inside
    have attended := Attended.run silent run inside
    refine ⟨fun id held => attended.in_progress held, ?_⟩
    intro unfailed id leased
    obtain ⟨row, found, status⟩ := leased
    exact attended.held unfailed found status

namespace LoopControl

/-- The call has returned. -/
def ended : LoopControl → Bool
  | .aborted _ => true
  | .returned _ => true
  | _ => false

/-- Readiness may report the loop. -/
def alive : LoopControl → Bool
  | .seed => false
  | .reclaim => false
  | .aborted _ => false
  | .returned _ => false
  | _ => true

@[simp] theorem joining_alive {handles workers : List Nat} : (joining handles workers).alive = true := by
  unfold joining
  split <;> rfl

end LoopControl

/-- The flag is up from the end of the startup to the return. -/
theorem DaemonLoop.Step.loopAlive (step : loop.Step anchorPubkey batchSize timers after)
    (flagged : loop.loopAlive = loop.control.alive) : after.loopAlive = after.control.alive := by
  cases step with
  | seed here ran => exact flagged.trans (by rw [here]; rfl)
  | reclaim here ran =>
    unfold afterReclaim
    dsimp only
    split <;> rfl
  | startFails here error =>
    rcases here with here | here
    · exact flagged.trans (by rw [here]; rfl)
    · exact flagged.trans (by rw [here]; rfl)
  | top here =>
    rw [here] at flagged
    unfold afterTop
    dsimp only
    rw [flagged]
    split <;> rfl
  | claim here ran =>
    rw [here] at flagged
    unfold afterClaim
    split <;> exact flagged
  | claimFails here error => rfl
  | spawn here free works => exact flagged.trans (by rw [here]; rfl)
  | reap here finished ended =>
    rw [here] at flagged
    exact flagged.trans LoopControl.joining_alive.symm
  | join here ended =>
    rename_i handle handles workers note outcome
    rw [here] at flagged
    cases outcome with
    | ok count => exact flagged.trans LoopControl.joining_alive.symm
    | error error => rfl
  | await here ended => exact flagged.trans (by rw [here]; rfl)
  | drained here =>
    rename_i final firstErr
    rw [here] at flagged
    cases firstErr with
    | some error => rfl
    | none =>
      cases final with
      | true => rfl
      | false => exact flagged
  | sleep here => exact flagged.trans (by rw [here]; rfl)
  | wake here cancelled => exact flagged.trans (by rw [here]; rfl)
  | work step => exact flagged
  | fail found running error => exact flagged
  | sweep timer fires executed => exact flagged
  | cancel => exact flagged

namespace DaemonLoop.Sparing

theorem run (run : Sparing anchorPubkey batchSize timers settings db loop) :
    Run anchorPubkey batchSize timers settings db loop := by
  induction run with
  | start => exact .refl
  | step _ step _ ih => exact ih.tail step

theorem tracked (run : Sparing anchorPubkey batchSize timers settings db loop) : Tracked loop := by
  induction run with
  | start => exact fun index bound => absurd bound (Nat.not_lt_zero index)
  | step _ step spared ih => exact ih.step step spared

theorem loopAlive (run : Sparing anchorPubkey batchSize timers settings db loop) :
    loop.loopAlive = loop.control.alive := by
  induction run with
  | start => rfl
  | step _ step _ ih => exact step.loopAlive ih

end DaemonLoop.Sparing

/-- When such a run returns, with a value or with an error, the flag is down and every task that it
spawned has returned and was joined. -/
theorem no_worker_detached (run : DaemonLoop.Sparing anchorPubkey batchSize timers settings db loop)
    (ended : loop.control.ended = true) :
    loop.loopAlive = false ∧ ∀ (index : Nat) (task : CrawlTask), loop.pool.tasks[index]? = some task →
      task.prog.returned = true ∧ index ∈ loop.joined := by
  obtain ⟨down, none⟩ : loop.control.alive = false ∧ loop.control.handles = [] := by
    cases here : loop.control with
    | aborted error => exact ⟨rfl, rfl⟩
    | returned result => exact ⟨rfl, rfl⟩
    | _ =>
      rw [here] at ended
      cases ended
  refine ⟨run.loopAlive.trans down, ?_⟩
  intro index task found
  have known := run.tracked index (List.getElem?_eq_some_iff.mp found).1
  rw [none] at known
  have member := known.resolve_right List.not_mem_nil
  obtain ⟨note, outcome, same, _⟩ := Joined.run run.run index member
  obtain rfl := Option.some.inj (found.symm.trans same)
  exact ⟨rfl, member⟩

section Example

/-- One permit, and no fallback. -/
def soleSettings : LoopSettings := ⟨1, versionsGate, 3, false, defaultNip65MaxWriteRelays⟩

/-- The key is seeded, and nothing is left of an earlier run. -/
private def soleRow : Database := (Database.empty.upsert soleKey).2.sweep Columns.isInProgress

/-- The worker of the sole author, which its relays do not know. -/
private def soleWorker : Prog Sql (Except StoreError Nat) :=
  (processBatch { versionsGate with now := 0 } 3 noOpFallback [Fleet.soleAuthor] (.ok [])).run

/-- The author is claimed, and its worker runs. -/
private def soleLoop : DaemonLoop where
  settings := soleSettings
  pool := ⟨soleRow.claim 0 [1], [⟨{id | id ∈ [1]}, soleWorker⟩]⟩
  control := .top [0]
  stats := ⟨0, 1, 1⟩
  loopAlive := true
  cancelled := false
  joined := []

private theorem sole_runs : DaemonLoop.Sparing soleKey 1 (fun _ => False) soleSettings Database.empty soleLoop := by
  have seeds : Runs sql (seedAnchor soleKey).run Database.empty (.ok 1) (Database.empty.upsert soleKey).2 :=
    .call ⟨0, ∅, trivial, rfl, rfl⟩ .ret
  have reclaims : Runs sql reclaimStaleOnStartup.run (Database.empty.upsert soleKey).2 (.ok 0) soleRow :=
    .call ⟨0, ∅, trivial, by decide, rfl⟩ .ret
  have row : soleRow.rows 1 = some ⟨List.replicate 32 1, Columns.default⟩ := by decide
  have claimable : soleRow.claimable ∅ 1 = [1] := by decide
  have claims : Runs sql (claimBatch 1).run soleRow (.ok [Fleet.soleAuthor]) (soleRow.claim 0 [1]) :=
    .call ⟨0, ∅, trivial, Fleet.sole_claimed row claimable 0⟩ .ret
  have works : soleSettings.Works [Fleet.soleAuthor] soleWorker := .batch 0 noOpFallback (.ok []) rfl rfl
  have started : DaemonLoop.Sparing soleKey 1 (fun _ => False) soleSettings Database.empty
      (.start soleSettings Database.empty) := .start
  have seeded := started.step (.seed rfl seeds) fun _ returned => by cases returned
  have reclaimed := seeded.step (.reclaim rfl reclaims) fun _ returned => by cases returned
  have claiming := reclaimed.step (.top rfl) fun _ returned => by cases returned
  have claimed := claiming.step (.claim rfl claims) fun _ returned => by cases returned
  have spawned := claimed.step (.spawn rfl Nat.one_pos works) fun _ returned => by cases returned
  have reaped := spawned.step (.reap rfl (fun _ => false) fun _ _ found => by cases found)
    fun _ returned => by cases returned
  exact reaped

/-- The worker panics: its row is in progress, and no running worker has it. -/
theorem graceful_drain_fails : ∃ loop, DaemonLoop.Run soleKey 1 (fun _ => False) soleSettings Database.empty loop ∧
    loop.control.entered = true ∧ Leased loop.pool.shared 1 ∧ ¬ Held loop.pool loop.control.batch 1 := by
  have panics := sole_runs.run.tail (.fail (rfl : soleLoop.pool.tasks[0]? = _) rfl (.sqlx .rowNotFound))
  refine ⟨_, panics, rfl, ⟨_, rfl, rfl⟩, ?_⟩
  intro held
  rcases held with ⟨index, task, found, runs, _⟩ | waits
  · obtain rfl := List.mem_singleton.mp (List.mem_of_getElem? found)
    cases runs
  · cases waits

/-- The theorem at a worker that runs. -/
theorem graceful_drain_sole : ∃ loop, DaemonLoop.Run soleKey 1 (fun _ => False) soleSettings Database.empty loop ∧
    (∀ stats, loop.control = .returned (.ok stats) →
      (∀ task ∈ loop.pool.tasks, task.prog.returned = true) ∧ ∀ id, ¬ Leased loop.pool.shared id) ∧
    loop.inFlight ≤ 1 ∧
    ((∀ _ : Stmt, ¬ False) → loop.control.entered = true →
      (∀ id, Held loop.pool loop.control.batch id → Leased loop.pool.shared id) ∧
      (¬ Failed loop.pool → ∀ id, Leased loop.pool.shared id → Held loop.pool loop.control.batch id)) :=
  ⟨soleLoop, sole_runs.run, graceful_drain sole_runs.run⟩

/-- The claim fails while a worker runs: the loop returns the error, and the worker is detached. -/
theorem no_worker_detached_fails : ∃ loop task,
    DaemonLoop.Run soleKey 1 (fun _ => False) soleSettings Database.empty loop ∧
    loop.control = .returned (.error (.sqlx .rowNotFound)) ∧ loop.loopAlive = false ∧
    loop.pool.tasks[0]? = some task ∧ task.prog.returned = false ∧ 0 ∉ loop.joined := by
  have claiming := sole_runs.run.tail (.top rfl)
  have fails := claiming.tail (.claimFails rfl (.sqlx .rowNotFound))
  exact ⟨_, _, fails, rfl, rfl, rfl, rfl, List.not_mem_nil⟩

/-- The theorem at a worker that panics and is joined by the final drain. -/
theorem no_worker_detached_panic : ∃ loop,
    DaemonLoop.Sparing soleKey 1 (fun _ => False) soleSettings Database.empty loop ∧
    loop.control.ended = true ∧ loop.loopAlive = false ∧
    ∀ (index : Nat) (task : CrawlTask), loop.pool.tasks[index]? = some task →
      task.prog.returned = true ∧ index ∈ loop.joined := by
  have panics := sole_runs.step (.fail (rfl : soleLoop.pool.tasks[0]? = _) rfl (.sqlx .rowNotFound))
    fun _ returned => by cases returned
  have cancelled := panics.step .cancel fun _ returned => by cases returned
  have draining := cancelled.step (.top rfl) fun _ returned => by cases returned
  have awaited := draining.step (.await rfl rfl) fun _ returned => by cases returned
  have drained := awaited.step (.drained rfl) fun _ _ => rfl
  exact ⟨_, drained, rfl, no_worker_detached drained rfl⟩

end Example

end WotCrawler.Daemon
