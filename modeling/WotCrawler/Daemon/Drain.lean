import WotCrawler.Crawl.Strict
import WotCrawler.Crawl.Tending
import WotCrawler.Daemon.Loop
import WotCrawler.Sequence.Roster

/-! What the drains of the daemon loop leave: no task that runs, and no row in progress. -/

namespace WotCrawler.Daemon

open Effect Store Ingest Relay Crawl

namespace LoopControl

/-- The batch that waits for a permit. -/
def batch : LoopControl → List ClaimedAuthor
  | .permit batch _ => batch
  | _ => []

/-- The handles of the tasks not joined yet. -/
def handles : LoopControl → List Nat
  | .top workers => workers
  | .claim workers => workers
  | .permit _ workers => workers
  | .reap workers => workers
  | .join handles workers => handles ++ workers
  | .drain _ handles _ => handles
  | _ => []

/-- The startup writes are done. -/
def entered : LoopControl → Bool
  | .seed => false
  | .reclaim => false
  | .aborted _ => false
  | _ => true

/-- No error of a task is known. -/
def unfailed : LoopControl → Bool
  | .drain _ _ (some _) => false
  | .returned (.error _) => false
  | _ => true

variable {handles workers : List Nat}

@[simp] theorem joining_batch : (joining handles workers).batch = [] := by
  unfold joining
  split <;> rfl

@[simp] theorem joining_handles : (joining handles workers).handles = handles ++ workers := by
  unfold joining
  split
  · rename_i none
    rw [none]
    rfl
  · rfl

@[simp] theorem joining_entered : (joining handles workers).entered = true := by
  unfold joining
  split <;> rfl

end LoopControl

/-- The tasks that have not returned. -/
def liveTasks (pool : CrawlPool) : Nat := pool.tasks.countP (fun task => !task.prog.returned)

/-- What one step after the startup does to the database, the tasks and the batch that waits. -/
inductive Touches (settings : LoopSettings) (limit : Int) (timers : Stmt → Prop) (pool : CrawlPool) :
    List ClaimedAuthor → CrawlPool → List ClaimedAuthor → Prop where
  | still : Touches settings limit timers pool batch pool batch
  | claim (executes : Stmt.Executes now locked (.claim limit) pool.shared (.ok batch) left) :
      Touches settings limit timers pool [] (pool.disturb left) batch
  | spawn (free : liveTasks pool < settings.concurrency) (works : settings.Works batch prog) :
      Touches settings limit timers pool batch
        (pool.spawn ⟨{id | id ∈ batch.map ClaimedAuthor.id}, prog⟩) []
  | work (step : pool.Calls (leasing fun _ => True) index stmt note noted later) :
      Touches settings limit timers pool batch later batch
  | fail (found : pool.tasks[index]? = some task) (runs : task.prog.returned = false) (error : StoreError) :
      Touches settings limit timers pool batch (pool.drop index task.note (.error error)) batch
  | sweep (timer : TimerStmt stmt) (fires : timers stmt) (executed : sql.exec stmt pool.shared reply left) :
      Touches settings limit timers pool batch (pool.disturb left) batch

variable {settings : LoopSettings} {anchorPubkey : Bytes} {batchSize : Int} {timers : Stmt → Prop}
  {loop after : DaemonLoop} {pool later : CrawlPool} {batch waiting : List ClaimedAuthor} {db left : Database}
  {id index : Nat}

/-- A sweep resets rows, and puts none in progress. -/
theorem swept_leased {selects : Columns → Bool} {row : PubkeyRow}
    (found : (db.sweep selects).rows id = some row) (status : row.columns.status = .inProgress) :
    db.rows id = some row := by
  obtain ⟨old, there, rfl⟩ := Option.map_eq_some_iff.mp found
  dsimp only at status ⊢
  split at status
  · cases status
  · rename_i missed
    rw [if_neg missed]
    exact there

private theorem timer_leased {stmt : Stmt} {locked : Finset Nat} {reply : Except StoreError stmt.Ret} {row : PubkeyRow}
    (timer : TimerStmt stmt) (executes : stmt.Executes now locked db reply left)
    (found : left.rows id = some row) (status : row.columns.status = .inProgress) : db.rows id = some row := by
  cases stmt with
  | reclaimStale ttlSecs =>
    rw [executes.2] at found
    exact swept_leased found status
  | reclaimExpired ageSecs =>
    rw [executes.2] at found
    exact swept_leased found status
  | _ => cases timer

section Run

/-- A step of the loop proper touches the tasks and the database in one of these ways. -/
theorem DaemonLoop.Step.touches (step : loop.Step anchorPubkey batchSize timers after)
    (entered : loop.control.entered = true) :
    Touches loop.settings batchSize timers loop.pool loop.control.batch after.pool after.control.batch := by
  have quiet (same : after.pool = loop.pool) (none : loop.control.batch = []) (left : after.control.batch = []) :
      Touches loop.settings batchSize timers loop.pool loop.control.batch after.pool after.control.batch := by
    rw [same, none, left]
    exact .still
  cases step with
  | seed here ran =>
    rw [here] at entered
    cases entered
  | reclaim here ran =>
    rw [here] at entered
    cases entered
  | startFails here error =>
    rcases here with here | here <;> rw [here] at entered <;> cases entered
  | top here =>
    apply quiet rfl (by rw [here]; rfl)
    unfold afterTop
    dsimp only
    split <;> rfl
  | claim here ran =>
    obtain ⟨now, locked, _, executes⟩ := runs_query ran
    rw [here]
    unfold afterClaim
    split
    · rename_i empty
      subst empty
      exact .claim executes
    · exact .claim executes
  | claimFails here error => exact quiet rfl (by rw [here]; rfl) rfl
  | spawn here free works =>
    rw [here]
    exact .spawn free works
  | reap here finished ended => exact quiet rfl (by rw [here]; rfl) LoopControl.joining_batch
  | join here ended =>
    rename_i handle handles workers note outcome
    cases outcome with
    | ok count => exact quiet rfl (by rw [here]; rfl) LoopControl.joining_batch
    | error error => exact quiet rfl (by rw [here]; rfl) rfl
  | await here ended => exact quiet rfl (by rw [here]; rfl) rfl
  | drained here =>
    rename_i final firstErr
    cases firstErr with
    | some error => exact quiet rfl (by rw [here]; rfl) rfl
    | none =>
      cases final with
      | true => exact quiet rfl (by rw [here]; rfl) rfl
      | false => exact quiet rfl (by rw [here]; rfl) rfl
  | sleep here => exact quiet rfl (by rw [here]; rfl) rfl
  | wake here cancelled => exact quiet rfl (by rw [here]; rfl) rfl
  | work step => exact .work step
  | fail found running error => exact .fail found running error
  | sweep timer fires executed => exact .sweep timer fires executed
  | cancel => exact .still

theorem DaemonLoop.Step.keeps_settings (step : loop.Step anchorPubkey batchSize timers after) :
    after.settings = loop.settings := by
  cases step with
  | claim here ran =>
    unfold afterClaim
    split <;> rfl
  | join here ended =>
    rename_i handle handles workers note outcome
    cases outcome <;> rfl
  | drained here =>
    rename_i final firstErr
    cases firstErr with
    | some error => rfl
    | none => cases final <;> rfl
  | _ => rfl

theorem DaemonLoop.Run.settings_eq (run : DaemonLoop.Run anchorPubkey batchSize timers settings db loop) :
    loop.settings = settings := by
  induction run with
  | refl => rfl
  | tail _ step ih => exact step.keeps_settings.trans ih

/-- The startup is not repeated. -/
theorem DaemonLoop.Step.entered (step : loop.Step anchorPubkey batchSize timers after)
    (inside : loop.control.entered = true) : after.control.entered = true := by
  cases step with
  | seed here ran =>
    rw [here] at inside
    cases inside
  | reclaim here ran =>
    rw [here] at inside
    cases inside
  | startFails here error =>
    rcases here with here | here <;> rw [here] at inside <;> cases inside
  | top here =>
    unfold afterTop
    dsimp only
    split <;> rfl
  | claim here ran =>
    unfold afterClaim
    split <;> rfl
  | reap here finished ended => exact LoopControl.joining_entered
  | join here ended =>
    rename_i handle handles workers note outcome
    cases outcome with
    | ok count => exact LoopControl.joining_entered
    | error error => rfl
  | drained here =>
    rename_i final firstErr
    cases firstErr with
    | some error => rfl
    | none => cases final <;> rfl
  | work step => exact inside
  | fail found running error => exact inside
  | sweep timer fires executed => exact inside
  | cancel => exact inside
  | _ => rfl

/-- Before the startup is over there are no tasks, and it ends with no row in progress. -/
theorem DaemonLoop.Step.starts (step : loop.Step anchorPubkey batchSize timers after)
    (outside : loop.control.entered = false) (none : loop.pool.tasks = []) :
    after.pool.tasks = [] ∧ (after.control.entered = true → after.control.batch = [] ∧
      ∀ id row, after.pool.shared.rows id = some row → row.columns.status ≠ .inProgress) := by
  have inside {control : LoopControl} {motive : Prop} (here : loop.control = control)
      (entered : control.entered = true) : motive := by
    rw [here, entered] at outside
    cases outside
  cases step with
  | seed here ran => exact ⟨none, fun entered => by cases entered⟩
  | reclaim here ran =>
    obtain ⟨now, locked, _, _, swept⟩ := runs_query ran
    refine ⟨none, fun _ => ⟨?_, ?_⟩⟩
    · unfold afterReclaim
      dsimp only
      split <;> rfl
    · intro id row found
      have stands : (loop.pool.shared.sweep Columns.isInProgress).rows id = some row := swept ▸ found
      exact swept_idle stands
  | startFails here error => exact ⟨none, fun entered => by cases entered⟩
  | top here => exact inside here rfl
  | claim here ran => exact inside here rfl
  | claimFails here error => exact inside here rfl
  | spawn here free works => exact inside here rfl
  | reap here finished ended => exact inside here rfl
  | join here ended => exact inside here rfl
  | await here ended => exact inside here rfl
  | drained here => exact inside here rfl
  | sleep here => exact inside here rfl
  | wake here cancelled => exact inside here rfl
  | work step =>
    obtain ⟨next, found⟩ := step.found
    rw [none] at found
    cases found
  | fail found running error =>
    rw [none] at found
    cases found
  | sweep timer fires executed => exact ⟨none, fun entered => inside rfl entered⟩
  | cancel => exact ⟨none, fun entered => inside rfl entered⟩

/-- What holds when no row is in progress, and is kept by every touch, holds from the startup on. -/
theorem DaemonLoop.Run.invariant (holds : CrawlPool → List ClaimedAuthor → Prop)
    (base : ∀ left : Database, (∀ id row, left.rows id = some row → row.columns.status ≠ .inProgress) →
      holds ⟨left, []⟩ [])
    (kept : ∀ {pool later : CrawlPool} {batch waiting : List ClaimedAuthor},
      Touches settings batchSize timers pool batch later waiting → holds pool batch → holds later waiting)
    (run : Run anchorPubkey batchSize timers settings db loop) :
    loop.settings = settings ∧ (loop.control.entered = false → loop.pool.tasks = []) ∧
      (loop.control.entered = true → holds loop.pool loop.control.batch) := by
  induction run with
  | refl => exact ⟨rfl, fun _ => rfl, fun entered => by cases entered⟩
  | @tail loop after _ step ih =>
    obtain ⟨same, idle, holding⟩ := ih
    cases inside : loop.control.entered with
    | false =>
      obtain ⟨none, first⟩ := step.starts inside (idle inside)
      refine ⟨step.keeps_settings.trans same, fun _ => none, ?_⟩
      intro entered
      obtain ⟨batchless, unleased⟩ := first entered
      have started : after.pool = ⟨after.pool.shared, []⟩ := by rw [← none]
      rw [batchless, started]
      exact base after.pool.shared unleased
    | true =>
      have touched := step.touches inside
      rw [same] at touched
      refine ⟨step.keeps_settings.trans same, ?_, fun _ => kept touched (holding inside)⟩
      intro outside
      exact absurd outside (by rw [step.entered inside]; exact Bool.noConfusion)

end Run

namespace LoopSettings.Works

variable {prog : Prog Sql (Except StoreError Nat)} {claimed : ClaimedAuthor}

theorem standard (works : settings.Works batch prog) : prog.Issues (WorkerStmt settings.maxAttempts) := by
  cases works with
  | batch now fallback fetched enabled capped => exact processBatch_standard _ _ _ _ _

theorem owing (works : settings.Works batch prog) (member : claimed ∈ batch) :
    Owing claimed.id claimed.pubkey prog := by
  cases works with
  | batch now fallback fetched enabled capped => exact processBatch_owing _ _ _ _ member

theorem strict (works : settings.Works batch prog) : prog.Stops Refused := by
  cases works with
  | batch now fallback fetched enabled capped => exact processBatch_strict _ _ _ _ _

theorem worked (works : settings.Works batch prog) (claims : Claims db batch) :
    Safe (leasing fun _ => True) leased Worked (mayFail fun _ _ => True) prog
      (db, {id | id ∈ batch.map ClaimedAuthor.id}) := by
  have ready : Ready batch (db, {id | id ∈ batch.map ClaimedAuthor.id}) := by
    intro claimed member
    obtain ⟨columns, found, _⟩ := claims.rows claimed member
    exact ⟨List.mem_map_of_mem member, columns, found⟩
  cases works with
  | batch now fallback fetched enabled capped => exact processBatch_worked claims.distinct ready

end LoopSettings.Works

/-- What holds of the tasks whatever the timers do: a row in progress has its task. -/
structure Staffed (maxAttempts : Int) (pool : CrawlPool) (batch : List ClaimedAuthor) : Prop where
  careful : pool.Each fun _ prog => prog.Issues (WorkerStmt maxAttempts)
  named : ∀ claimed ∈ batch, pool.shared.keyed claimed.id claimed.pubkey
  owned : Owned pool batch

theorem Staffed.touches (staffed : Staffed settings.maxAttempts pool batch)
    (touches : Touches settings batchSize timers pool batch later waiting) :
    Staffed settings.maxAttempts later waiting := by
  cases touches with
  | still => exact staffed
  | claim executes =>
    obtain ⟨_, discovered, made⟩ := claim_spec executes
    refine ⟨staffed.careful, ?_, ?_⟩
    · intro claimed member
      obtain ⟨row, found, key, _⟩ := discovered claimed member
      exact key ▸ executes.framed.persists.keyed (Database.keyed_of_row found)
    · apply staffed.owned.disturb
      intro id row found status
      by_cases member : id ∈ waiting.map ClaimedAuthor.id
      · exact .inr member
      · rw [made, Database.claim_rows_of_notMem member] at found
        exact .inl ⟨row, found, rfl, status⟩
  | spawn free works =>
    refine ⟨staffed.careful.spawn works.standard, (fun _ none => by cases none), ?_⟩
    exact staffed.owned.spawn staffed.named fun claimed member => works.owing member
  | work step =>
    obtain ⟨reply, ⟨now, locked, _, executes⟩, _⟩ := step.executed
    refine ⟨staffed.careful.calls step fun _ reply issues => issues.2 reply, ?_,
      staffed.owned.calls staffed.careful step⟩
    exact fun claimed member => executes.framed.persists.keyed (staffed.named claimed member)
  | fail found runs error => exact ⟨staffed.careful.drop trivial, staffed.named, staffed.owned.drop found error⟩
  | sweep timer fires executed =>
    obtain ⟨now, locked, _, executes⟩ := executed
    refine ⟨staffed.careful, ?_, staffed.owned.sweep fun id row => timer_leased timer executes⟩
    exact fun claimed member => executes.framed.persists.keyed (staffed.named claimed member)

theorem Staffed.idle {maxAttempts : Int}
    (unleased : ∀ id row, left.rows id = some row → row.columns.status ≠ .inProgress) :
    Staffed maxAttempts ⟨left, []⟩ [] where
  careful := fun index task found => by cases found
  named := fun claimed none => by cases none
  owned := fun id row found status => absurd status (unleased id row found)

theorem Staffed.run (run : DaemonLoop.Run anchorPubkey batchSize timers settings db loop)
    (inside : loop.control.entered = true) : Staffed settings.maxAttempts loop.pool loop.control.batch := by
  have invariant := run.invariant (Staffed settings.maxAttempts) (fun left unleased => idle unleased)
    fun touched staffed => staffed.touches touched
  exact invariant.2.2 inside

/-- The permits bound the tasks that run. -/
theorem Touches.liveTasks_le (touches : Touches settings batchSize timers pool batch later waiting)
    (bounded : liveTasks pool ≤ settings.concurrency) : liveTasks later ≤ settings.concurrency := by
  cases touches with
  | still => exact bounded
  | claim executes => exact bounded
  | spawn free works =>
    rename_i prog
    have one : [(⟨{id | id ∈ batch.map ClaimedAuthor.id}, prog⟩ : CrawlTask)].countP
        (fun task => !task.prog.returned) ≤ 1 := List.countP_le_length
    unfold liveTasks Pool.spawn at *
    rw [List.countP_append]
    omega
  | work step =>
    cases step with
    | call found executed => exact le_trans (Sequence.countP_set_le found rfl) bounded
  | fail found runs error => exact le_trans (Sequence.countP_set_le found (by simp [runs])) bounded
  | sweep timer fires executed => exact bounded

theorem DaemonLoop.Run.inFlight_le (run : DaemonLoop.Run anchorPubkey batchSize timers settings db loop) :
    loop.inFlight ≤ settings.concurrency := by
  obtain ⟨_, idle, bounded⟩ := run.invariant (fun pool _ => liveTasks pool ≤ settings.concurrency)
    (fun _ _ => Nat.zero_le _) fun touched bounded => touched.liveTasks_le bounded
  cases inside : loop.control.entered with
  | true => exact bounded inside
  | false =>
    unfold DaemonLoop.inFlight
    rw [idle inside]
    exact Nat.zero_le _

/-- A worker returned an error, or panicked. -/
def Failed (pool : CrawlPool) : Prop :=
  ∃ (index : Nat) (task : CrawlTask) (error : StoreError), pool.tasks[index]? = some task ∧
    task.prog = .ret (.error error)

/-- The row is a member, not resolved yet, of the batch of a worker that runs, or of the batch that
waits to be spawned. -/
def Held (pool : CrawlPool) (batch : List ClaimedAuthor) (id : Nat) : Prop :=
  (∃ (index : Nat) (task : CrawlTask), pool.tasks[index]? = some task ∧ task.prog.returned = false ∧
    id ∈ task.note) ∨ id ∈ batch.map ClaimedAuthor.id

/-- What more holds of the tasks whatever the timers do: a row in progress is pending at one of them,
and a task answers for each of its rows. -/
structure Charged (maxAttempts : Int) (pool : CrawlPool) (batch : List ClaimedAuthor) : Prop
    extends Staffed maxAttempts pool batch where
  strict : pool.Each fun _ prog => prog.Stops Refused
  answers : ∀ (index : Nat) (task : CrawlTask) (id : Nat), pool.tasks[index]? = some task → id ∈ task.note →
    ∃ key, pool.shared.keyed id key ∧ Owing id key task.prog
  charged : Failed pool ∨ ∀ id row, pool.shared.rows id = some row → row.columns.status = .inProgress →
    Pending pool id ∨ id ∈ batch.map ClaimedAuthor.id

namespace Charged

variable {maxAttempts : Int}

theorem idle (unleased : ∀ id row, left.rows id = some row → row.columns.status ≠ .inProgress) :
    Charged maxAttempts ⟨left, []⟩ [] where
  toStaffed := .idle unleased
  strict := fun index task found => by cases found
  answers := fun index task id found => by cases found
  charged := .inr fun id row found status => absurd status (unleased id row found)

/-- While no worker has failed, the rows in progress are held. -/
theorem held {row : PubkeyRow} (charged : Charged maxAttempts pool batch) (unfailed : ¬ Failed pool)
    (found : pool.shared.rows id = some row) (status : row.columns.status = .inProgress) : Held pool batch id := by
  rcases charged.charged.resolve_left unfailed id row found status with ⟨index, task, there, member⟩ | waits
  · left
    refine ⟨index, task, there, ?_, member⟩
    obtain ⟨key, _, owing⟩ := charged.answers index task id there member
    cases ended : task.prog with
    | call stmt next => rfl
    | ret outcome =>
      rw [ended] at owing
      obtain ⟨error, rfl⟩ := owing
      exact absurd ⟨index, task, error, there, ended⟩ unfailed
  · exact .inr waits

/-- A change of the database that keeps the rows' keys keeps the duties. -/
private theorem answers_disturb (charged : Charged maxAttempts pool batch) (persists : Persists pool.shared left)
    (index : Nat) (task : CrawlTask) (id : Nat) (found : pool.tasks[index]? = some task) (member : id ∈ task.note) :
    ∃ key, left.keyed id key ∧ Owing id key task.prog := by
  obtain ⟨key, keyed, owing⟩ := charged.answers index task id found member
  exact ⟨key, persists.keyed keyed, owing⟩

theorem claim {limit : Int} {locked : Finset Nat} (charged : Charged maxAttempts pool [])
    (staffed : Staffed maxAttempts (pool.disturb left) batch)
    (executes : Stmt.Executes now locked (.claim limit) pool.shared (.ok batch) left) :
    Charged maxAttempts (pool.disturb left) batch := by
  refine ⟨staffed, charged.strict, charged.answers_disturb executes.framed.persists, ?_⟩
  refine charged.charged.imp_right ?_
  intro pending id row found status
  by_cases member : id ∈ batch.map ClaimedAuthor.id
  · exact .inr member
  · have stands : left.rows id = some row := found
    rw [(claim_spec executes).2.2, Database.claim_rows_of_notMem member] at stands
    rcases pending id row stands status with mine | none
    · exact .inl mine
    · cases none

theorem spawn {prog : Prog Sql (Except StoreError Nat)} (charged : Charged settings.maxAttempts pool batch)
    (staffed : Staffed settings.maxAttempts (pool.spawn ⟨{id | id ∈ batch.map ClaimedAuthor.id}, prog⟩) [])
    (works : settings.Works batch prog) :
    Charged settings.maxAttempts (pool.spawn ⟨{id | id ∈ batch.map ClaimedAuthor.id}, prog⟩) [] := by
  have older {index : Nat} {task : CrawlTask} (found : pool.tasks[index]? = some task) :
      (pool.spawn ⟨{id | id ∈ batch.map ClaimedAuthor.id}, prog⟩).tasks[index]? = some task :=
    (List.getElem?_append_left (List.getElem?_eq_some_iff.mp found).1).trans found
  refine ⟨staffed, charged.strict.spawn works.strict, ?_, ?_⟩
  · intro index task id found member
    rcases Pool.spawn_tasks found with old | ⟨_, rfl⟩
    · exact charged.answers index task id old member
    · obtain ⟨claimed, listed, rfl⟩ := List.mem_map.mp member
      exact ⟨claimed.pubkey, charged.named claimed listed, works.owing listed⟩
  · rcases charged.charged with ⟨index, task, error, found, ended⟩ | pending
    · exact .inl ⟨index, task, error, older found, ended⟩
    · right
      intro id row found status
      rcases pending id row found status with ⟨index, task, there, member⟩ | waits
      · exact .inl ⟨index, task, older there, member⟩
      · exact .inl ⟨pool.tasks.length, _, List.getElem?_concat_length, waits⟩

/-- A worker's next statement: a failed one ends the worker, any other resolves what it names. -/
theorem work (charged : Charged maxAttempts pool batch) (staffed : Staffed maxAttempts later batch)
    (step : pool.Calls (leasing fun _ => True) index stmt note noted later) : Charged maxAttempts later batch := by
  cases step with
  | @call note stmt next reply left noted called executed =>
    have step : pool.Calls (leasing fun _ => True) index stmt note noted
        ⟨left, pool.tasks.set index ⟨noted, next reply⟩⟩ := .call called executed
    obtain ⟨⟨now, locked, _, executes⟩, released⟩ := executed
    have bound := (List.getElem?_eq_some_iff.mp called).1
    refine ⟨staffed, charged.strict.calls step fun _ reply stops => (stops reply).2, ?_, ?_⟩
    · intro other task id found member
      by_cases mine : other = index
      · subst mine
        rw [List.getElem?_set_self bound] at found
        obtain rfl := Option.some.inj found
        have unresolved : id ∈ release stmt pool.shared note := released ▸ member
        obtain ⟨key, standing, owing⟩ := charged.answers other _ id called unresolved.1
        have keyed := executes.framed.persists.keyed standing
        rcases owing reply (executes_standing executes keyed) with settled | rest
        · exact absurd settled.1 unresolved.2
        · exact ⟨key, keyed, rest⟩
      · rw [List.getElem?_set_ne (Ne.symm mine)] at found
        exact charged.answers_disturb executes.framed.persists other task id found member
    · rcases charged.charged with ⟨other, task, error, found, ended⟩ | pending
      · left
        have different : index ≠ other := by
          intro same
          subst same
          obtain rfl := Option.some.inj (called.symm.trans found)
          cases ended
        exact ⟨other, task, error, (List.getElem?_set_ne different).trans found, ended⟩
      · cases reply with
        | error error =>
          left
          obtain ⟨last, ended⟩ := (charged.strict index _ called (.error error)).1 ⟨error, rfl⟩
          exact ⟨index, _, last, List.getElem?_set_self bound, ended⟩
        | ok value =>
          right
          intro id row found status
          have worker := (charged.careful index _ called).1
          rcases executes.evolves found with ⟨_, _, fresh⟩ | ⟨old, present, key, moves⟩
          · rw [fresh] at status
            cases status
          · have unwritten : stmt.outcome ≠ some id := by
              intro writes
              exact settled_status worker executes ⟨writes, value, rfl⟩ found status
            exact (pending id old present (moves_in_progress worker moves status)).imp_left
              fun mine => pending_after step mine unwritten

theorem fail {task : CrawlTask} (charged : Charged maxAttempts pool batch) (error : StoreError)
    (staffed : Staffed maxAttempts (pool.drop index task.note (.error error)) batch)
    (found : pool.tasks[index]? = some task) :
    Charged maxAttempts (pool.drop index task.note (.error error)) batch := by
  refine ⟨staffed, charged.strict.drop trivial, ?_, ?_⟩
  · intro other dropped id there member
    rcases Pool.drop_tasks there with rfl | ⟨_, old⟩
    · obtain ⟨key, keyed, _⟩ := charged.answers index task id found member
      exact ⟨key, keyed, error, rfl⟩
    · exact charged.answers other dropped id old member
  · exact .inl ⟨index, _, error, List.getElem?_set_self (List.getElem?_eq_some_iff.mp found).1, rfl⟩

theorem sweep {stmt : Stmt} {reply : Except StoreError stmt.Ret} (charged : Charged maxAttempts pool batch)
    (staffed : Staffed maxAttempts (pool.disturb left) batch) (timer : TimerStmt stmt)
    (executed : sql.exec stmt pool.shared reply left) : Charged maxAttempts (pool.disturb left) batch := by
  obtain ⟨now, locked, _, executes⟩ := executed
  refine ⟨staffed, charged.strict, charged.answers_disturb executes.framed.persists, ?_⟩
  exact charged.charged.imp_right fun pending id row found status =>
    pending id row (timer_leased timer executes found status) status

theorem touches (charged : Charged settings.maxAttempts pool batch)
    (touches : Touches settings batchSize timers pool batch later waiting) :
    Charged settings.maxAttempts later waiting := by
  have staffed := charged.toStaffed.touches touches
  cases touches with
  | still => exact charged
  | claim executes => exact charged.claim staffed executes
  | spawn free works => exact charged.spawn staffed works
  | work step => exact charged.work staffed step
  | fail found runs error => exact charged.fail error staffed found
  | sweep timer fires executed => exact charged.sweep staffed timer executed

theorem run (run : DaemonLoop.Run anchorPubkey batchSize timers settings db loop)
    (inside : loop.control.entered = true) : Charged settings.maxAttempts loop.pool loop.control.batch := by
  have invariant := run.invariant (Charged settings.maxAttempts) (fun left unleased => idle unleased)
    fun touched charged => charged.touches touched
  exact invariant.2.2 inside

end Charged

/-- What holds of the tasks while no timer fires: the rows they are charged with are in progress. -/
structure Attended (maxAttempts : Int) (pool : CrawlPool) (batch : List ClaimedAuthor) : Prop
    extends Charged maxAttempts pool batch where
  tended : Tended Worked (mayFail fun _ _ => True) pool batch

namespace Attended

variable {maxAttempts : Int}

/-- The rows that are held are in progress. -/
theorem in_progress (attended : Attended maxAttempts pool batch) (held : Held pool batch id) :
    ∃ row, pool.shared.rows id = some row ∧ row.columns.status = .inProgress := by
  rcases held with ⟨index, task, found, _, member⟩ | waits
  · exact attended.tended.leases id ⟨index, task, found, member⟩
  · obtain ⟨claimed, listed, rfl⟩ := List.mem_map.mp waits
    obtain ⟨columns, found, status⟩ := attended.tended.claims.rows claimed listed
    exact ⟨_, found, status⟩

theorem touches (attended : Attended settings.maxAttempts pool batch) (silent : ∀ stmt, ¬ timers stmt)
    (touches : Touches settings batchSize timers pool batch later waiting) :
    Attended settings.maxAttempts later waiting := by
  refine ⟨attended.toCharged.touches touches, ?_⟩
  cases touches with
  | still => exact attended.tended
  | claim executes => exact attended.tended.claim executes
  | spawn free works => exact attended.tended.spawn (works.worked attended.tended.claims)
  | work step => exact attended.tended.calls step fun worked => worked
  | fail found runs error => exact attended.tended.drop found fun _ => trivial
  | sweep timer fires executed => exact absurd fires (silent _)

theorem run (silent : ∀ stmt, ¬ timers stmt)
    (run : DaemonLoop.Run anchorPubkey batchSize timers settings db loop) (inside : loop.control.entered = true) :
    Attended settings.maxAttempts loop.pool loop.control.batch := by
  have invariant := run.invariant (Attended settings.maxAttempts) (fun left unleased => ⟨.idle unleased, .idle rfl⟩)
    fun touched attended => attended.touches silent touched
  exact invariant.2.2 inside

end Attended

end WotCrawler.Daemon
