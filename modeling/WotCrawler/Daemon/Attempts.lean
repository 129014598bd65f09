import WotCrawler.Daemon.Drain

/-! The retry budget in the daemon: how many fetches of a row may end in a relay error between two
resets of its attempts, with late workers and every timer active. -/

namespace WotCrawler.Daemon

open Effect Store Ingest Relay Crawl

/-- The fetches that claimed each row since its attempts were last taken to start anew and that ended in
a relay error, and the members of the waiting batch whose claim is that recent. -/
structure Tally where
  errors : Nat → Nat
  due : Finset Nat

namespace Tally

def start : Tally := ⟨fun _ => 0, ∅⟩

/-- A batch is claimed. -/
def claim (tally : Tally) (batch : List ClaimedAuthor) : Tally :=
  { tally with due := (batch.map ClaimedAuthor.id).toFinset }

/-- The fetch of the waiting batch. -/
def fetch (tally : Tally) : Except RelayError (List Event) → Tally
  | .ok _ => { tally with due := ∅ }
  | .error _ => ⟨fun id => if id ∈ tally.due then tally.errors id + 1 else tally.errors id, ∅⟩

/-- The count of the selected rows starts anew. -/
def restart (tally : Tally) (selects : Nat → Bool) : Tally where
  errors := fun id => if selects id then 0 else tally.errors id
  due := tally.due.filter fun id => selects id = false

/-- The errors of a row, and the claim whose fetch may be the next. -/
def count (tally : Tally) (id : Nat) : Nat := tally.errors id + if id ∈ tally.due then 1 else 0

variable {tally : Tally} {batch : List ClaimedAuthor} {selects : Nat → Bool} {id : Nat}

theorem errors_le_count (tally : Tally) (id : Nat) : tally.errors id ≤ tally.count id := Nat.le_add_right _ _

theorem count_claim_of_mem (member : id ∈ batch.map ClaimedAuthor.id) :
    (tally.claim batch).count id = tally.errors id + 1 := by
  unfold count claim
  rw [if_pos (List.mem_toFinset.mpr member)]

theorem count_claim_of_notMem (other : id ∉ batch.map ClaimedAuthor.id) :
    (tally.claim batch).count id = tally.errors id := by
  unfold count claim
  rw [if_neg fun member => other (List.mem_toFinset.mp member)]
  rfl

/-- What was due counts when its fetch errs. -/
theorem count_fetch_le (fetched : Except RelayError (List Event)) (id : Nat) :
    (tally.fetch fetched).count id ≤ tally.count id := by
  cases fetched with
  | ok events => exact Nat.add_le_add_left (Nat.zero_le _) _
  | error error =>
    unfold count fetch
    by_cases member : id ∈ tally.due <;> simp [member]

theorem count_restart_of_selected (selected : selects id = true) : (tally.restart selects).count id = 0 := by
  simp [count, restart, selected]

theorem count_restart_of_missed (missed : selects id = false) : (tally.restart selects).count id = tally.count id := by
  simp [count, restart, missed]

end Tally

/-- The rows that a sweep resets. -/
def sweptRows (now : DateTime) (stmt : Stmt) (db : Database) (id : Nat) : Bool :=
  (db.rows id).any fun row => stmt.resets now row.columns

/-- The TTL re-enqueue alone starts a count anew. -/
def ttlSweep : Stmt → Bool
  | .reclaimStale _ => true
  | _ => false

/-- Every sweep that resets the attempts starts a count anew. -/
def anySweep (_ : Stmt) : Bool := true

/-- A run of the loop with its tally. What the fetch of a batch returns is drawn when its task starts,
and the statements of the task follow at any time. The count of a row starts anew at each sweep of the
given kinds that resets it. -/
inductive DaemonLoop.Tallied (anchorPubkey : Bytes) (batchSize : Int) (restarts : Stmt → Bool)
    (settings : LoopSettings) (db : Database) : DaemonLoop → Tally → Prop where
  | start : Tallied anchorPubkey batchSize restarts settings db (.start settings db) .start
  | claim (run : Tallied anchorPubkey batchSize restarts settings db loop tally) (here : loop.control = .claim workers)
      (ran : Runs sql (claimBatch batchSize).run loop.pool.shared (.ok batch) left) :
      Tallied anchorPubkey batchSize restarts settings db (loop.afterClaim workers left batch) (tally.claim batch)
  | fetch (run : Tallied anchorPubkey batchSize restarts settings db loop tally)
      (here : loop.control = .permit batch workers) (free : loop.inFlight < loop.settings.concurrency)
      (now : Timestamp) (fallback : Fallback) (fetched : Except RelayError (List Event))
      (enabled : fallback.enabled = loop.settings.fallbackEnabled)
      (capped : fallback.maxWriteRelays = loop.settings.nip65MaxWriteRelays) :
      Tallied anchorPubkey batchSize restarts settings db
        (loop.afterSpawn batch workers
          (processBatch { loop.settings.gate with now := now } loop.settings.maxAttempts fallback batch fetched).run)
        (tally.fetch fetched)
  | sweep (run : Tallied anchorPubkey batchSize restarts settings db loop tally) (timer : TimerStmt stmt)
      (executes : stmt.Executes now locked loop.pool.shared reply left) :
      Tallied anchorPubkey batchSize restarts settings db { loop with pool := loop.pool.disturb left }
        (if restarts stmt then tally.restart (sweptRows now stmt loop.pool.shared) else tally)
  | step (run : Tallied anchorPubkey batchSize restarts settings db loop tally)
      (step : loop.Step anchorPubkey batchSize (fun _ => False) after)
      (same : after.control.batch = loop.control.batch) :
      Tallied anchorPubkey batchSize restarts settings db after tally

variable {settings : LoopSettings} {anchorPubkey : Bytes} {batchSize maxAttempts : Int} {restarts : Stmt → Bool}
  {loop after : DaemonLoop} {pool later : CrawlPool} {batch waiting : List ClaimedAuthor} {db left : Database}
  {tally : Tally} {id index : Nat}

namespace DaemonLoop

/-- The tally only watches the run. -/
theorem Tallied.run (tallied : Tallied anchorPubkey batchSize restarts settings db loop tally) :
    Run anchorPubkey batchSize (fun _ => True) settings db loop := by
  induction tallied with
  | start => exact .refl
  | claim _ here ran ih => exact ih.tail (.claim here ran)
  | fetch _ here free now fallback fetched enabled capped ih =>
    exact ih.tail (.spawn here free (.batch now fallback fetched enabled capped))
  | @sweep loop tally stmt now locked reply left _ timer executes ih =>
    exact ih.tail (.sweep timer trivial ⟨now, locked, trivial, executes⟩)
  | step _ step _ ih => exact ih.tail (step.mono fun _ never => never.elim)

/-- Every run has its tally. -/
theorem Run.tallied (restarts : Stmt → Bool) (run : Run anchorPubkey batchSize (fun _ => True) settings db loop) :
    ∃ tally, Tallied anchorPubkey batchSize restarts settings db loop tally := by
  induction run with
  | refl => exact ⟨_, .start⟩
  | @tail loop after _ step ih =>
    obtain ⟨tally, tallied⟩ := ih
    have watched (step : loop.Step anchorPubkey batchSize (fun _ => False) after)
        (same : after.control.batch = loop.control.batch) :
        ∃ tally, Tallied anchorPubkey batchSize restarts settings db after tally := ⟨tally, tallied.step step same⟩
    cases step with
    | claim here ran => exact ⟨_, tallied.claim here ran⟩
    | spawn here free works =>
      cases works with
      | batch now fallback fetched enabled capped =>
        exact ⟨_, tallied.fetch here free now fallback fetched enabled capped⟩
    | sweep timer fires executed =>
      obtain ⟨now, locked, _, executes⟩ := executed
      exact ⟨_, tallied.sweep timer executes⟩
    | seed here ran => exact watched (.seed here ran) (by rw [here]; rfl)
    | reclaim here ran =>
      apply watched (.reclaim here ran)
      rw [here]
      unfold afterReclaim
      dsimp only
      split <;> rfl
    | startFails here error =>
      apply watched (.startFails here error)
      rcases here with here | here <;> rw [here] <;> rfl
    | top here =>
      apply watched (.top here)
      rw [here]
      unfold afterTop
      dsimp only
      split <;> rfl
    | claimFails here error => exact watched (.claimFails here error) (by rw [here]; rfl)
    | reap here finished ended =>
      exact watched (.reap here finished ended) (by rw [here]; exact LoopControl.joining_batch)
    | join here ended =>
      rename_i outcome
      apply watched (.join here ended)
      rw [here]
      cases outcome with
      | ok count => exact LoopControl.joining_batch
      | error error => rfl
    | await here ended => exact watched (.await here ended) (by rw [here]; rfl)
    | drained here =>
      rename_i final firstErr
      apply watched (.drained here)
      rw [here]
      cases firstErr with
      | some error => rfl
      | none => cases final <;> rfl
    | sleep here => exact watched (.sleep here) (by rw [here]; rfl)
    | wake here cancelled => exact watched (.wake here cancelled) (by rw [here]; rfl)
    | work step => exact watched (.work step) rfl
    | fail found running error => exact watched (.fail found running error) rfl
    | cancel => exact watched .cancel rfl

end DaemonLoop

/-- What the attempts of a row say of the fetches that may have erred since they were zero: a late worker
may have taken a row that is terminal back, but each time at the price of an attempt. -/
structure Affords (maxAttempts : Int) (count : Nat) (columns : Columns) : Prop where
  capped : (count : Int) ≤ max 1 maxAttempts
  spent : count ≤ columns.fetchAttempts + 1
  claimable : columns.status = .discovered → count = 0 ∨
    (count ≤ columns.fetchAttempts ∧ columns.fetchAttempts < maxAttempts)

namespace Affords

variable {count fewer : Nat} {old new : Columns} {stmt : Stmt}

theorem zero (maxAttempts : Int) (columns : Columns) : Affords maxAttempts 0 columns where
  capped := by omega
  spent := Nat.zero_le _
  claimable := fun _ => .inl rfl

theorem mono {columns : Columns} (affords : Affords maxAttempts count columns) (less : fewer ≤ count) :
    Affords maxAttempts fewer columns where
  capped := by
    have capped := affords.capped
    omega
  spent := less.trans affords.spent
  claimable := by
    intro status
    have claimable := affords.claimable status
    omega

theorem claim (affords : Affords maxAttempts count old) (discovered : old.status = .discovered) (now : DateTime) :
    Affords maxAttempts (count + 1) (old.claim now) := by
  have claimable := affords.claimable discovered
  refine ⟨?_, ?_, fun status => by cases status⟩
  · push_cast
    omega
  · simp only [Columns.claim]
    omega

/-- A terminal status, or none of a claimable row. -/
private theorem settle (affords : Affords maxAttempts count old) (same : new.fetchAttempts = old.fetchAttempts)
    (settled : new.status ≠ .discovered) : Affords maxAttempts count new :=
  ⟨affords.capped, same ▸ affords.spent, fun status => absurd status settled⟩

/-- A worker's statement, timely or late: it opens a row to a claim only with one attempt more. -/
theorem worker (affords : Affords maxAttempts count old) (works : WorkerStmt maxAttempts stmt)
    (moves : Moves now stmt id old new) : Affords maxAttempts count new := by
  cases works.moves moves with
  | stay => exact affords
  | confirm => exact affords.settle rfl fun status => by cases status
  | apply => exact affords.settle rfl fun status => by cases status
  | miss => exact affords.settle rfl fun status => by cases status
  | requeue few =>
    have spent := affords.spent
    refine ⟨affords.capped, by simp only [Columns.requeue]; omega, ?_⟩
    intro status
    simp only [Columns.requeue] at status ⊢
    split at status
    · cases status
    · right
      push_cast
      omega

end Affords

/-- Every row affords its tally, whatever the timers and the late workers did. -/
structure Capped (maxAttempts : Int) (pool : CrawlPool) (tally : Tally) : Prop where
  careful : pool.Each fun _ prog => prog.Issues (WorkerStmt maxAttempts)
  affords : ∀ id row, pool.shared.rows id = some row → Affords maxAttempts (tally.count id) row.columns
  known : ∀ id, pool.shared.rows id = none → tally.count id = 0

namespace Capped

/-- A database whose tally is lower in every row. -/
private theorem lower {lessened : Tally} (capped : Capped maxAttempts pool tally)
    (less : ∀ id, lessened.count id ≤ tally.count id) : Capped maxAttempts pool lessened where
  careful := capped.careful
  affords := fun id row found => (capped.affords id row found).mono (less id)
  known := fun id absent => Nat.le_zero.mp (capped.known id absent ▸ less id)

/-- Before the first claim. -/
theorem idle : Capped maxAttempts ⟨left, []⟩ .start where
  careful := fun index task found => by cases found
  affords := fun id row _ => .zero maxAttempts row.columns
  known := fun id _ => rfl

theorem claim {limit : Int} {locked : Finset Nat} (capped : Capped maxAttempts pool tally)
    (executes : Stmt.Executes now locked (.claim limit) pool.shared (.ok batch) left) :
    Capped maxAttempts (pool.disturb left) (tally.claim batch) := by
  obtain ⟨_, discovered, made⟩ := claim_spec executes
  refine ⟨capped.careful, ?_, ?_⟩
  · intro id row found
    have stands : left.rows id = some row := found
    rw [made] at stands
    by_cases member : id ∈ batch.map ClaimedAuthor.id
    · obtain ⟨claimed, listed, rfl⟩ := List.mem_map.mp member
      obtain ⟨old, present, _, status⟩ := discovered claimed listed
      rw [Database.claim_rows_of_mem member present] at stands
      obtain rfl := Option.some.inj stands
      rw [Tally.count_claim_of_mem member]
      have affords := (capped.affords claimed.id old present).mono (tally.errors_le_count claimed.id)
      exact affords.claim status now
    · rw [Database.claim_rows_of_notMem member] at stands
      rw [Tally.count_claim_of_notMem member]
      exact (capped.affords id row stands).mono (tally.errors_le_count id)
  · intro id absent
    have missing : left.rows id = none := absent
    rw [made] at missing
    have before : pool.shared.rows id = none := Option.map_eq_none_iff.mp missing
    have other : id ∉ batch.map ClaimedAuthor.id := by
      intro member
      obtain ⟨claimed, listed, rfl⟩ := List.mem_map.mp member
      obtain ⟨old, present, _⟩ := discovered claimed listed
      cases before.symm.trans present
    rw [Tally.count_claim_of_notMem other]
    exact Nat.le_zero.mp (capped.known id before ▸ tally.errors_le_count id)

/-- The fetch of the waiting batch, when its task starts. -/
theorem fetch {prog : Prog Sql (Except StoreError Nat)} (capped : Capped settings.maxAttempts pool tally)
    (works : settings.Works batch prog) (note : Set Nat) (fetched : Except RelayError (List Event)) :
    Capped settings.maxAttempts (pool.spawn ⟨note, prog⟩) (tally.fetch fetched) := by
  have lowered := capped.lower (Tally.count_fetch_le fetched)
  exact ⟨capped.careful.spawn works.standard, lowered.affords, lowered.known⟩

theorem work (capped : Capped maxAttempts pool tally)
    (step : pool.Calls (leasing fun _ => True) index stmt note noted later) : Capped maxAttempts later tally := by
  obtain ⟨reply, ⟨now, locked, _, executes⟩, _⟩ := step.executed
  obtain ⟨next, called⟩ := step.found
  refine ⟨capped.careful.calls step fun _ reply issues => issues.2 reply, ?_, ?_⟩
  · intro id row found
    rcases executes.evolves found with ⟨absent, _, _⟩ | ⟨old, present, _, moves⟩
    · rw [capped.known id absent]
      exact .zero maxAttempts row.columns
    · exact (capped.affords id old present).worker (capped.careful index _ called).1 moves
  · intro id absent
    cases present : pool.shared.rows id with
    | none => exact capped.known id present
    | some row =>
      obtain ⟨columns, stands⟩ := executes.framed.persists id row present
      cases absent.symm.trans stands

/-- A sweep lets the count of the rows it resets start anew. -/
theorem sweep {selects : Columns → Bool} (capped : Capped maxAttempts pool tally) :
    Capped maxAttempts (pool.disturb (pool.shared.sweep selects))
      (tally.restart fun id => (pool.shared.rows id).any fun row => selects row.columns) := by
  refine ⟨capped.careful, ?_, ?_⟩
  · intro id row found
    obtain ⟨old, present, rfl⟩ := Option.map_eq_some_iff.mp found
    dsimp only
    split
    · rename_i selected
      rw [Tally.count_restart_of_selected (by simp [present, selected])]
      exact .zero maxAttempts _
    · rename_i missed
      rw [Tally.count_restart_of_missed (by simp [present, missed])]
      exact capped.affords id old present
  · intro id absent
    have before : pool.shared.rows id = none := Option.map_eq_none_iff.mp absent
    rw [Tally.count_restart_of_missed (by simp [before])]
    exact capped.known id before

theorem timer {stmt : Stmt} {locked : Finset Nat} {reply : Except StoreError stmt.Ret}
    (capped : Capped maxAttempts pool tally) (timer : TimerStmt stmt)
    (executes : stmt.Executes now locked pool.shared reply left) :
    Capped maxAttempts (pool.disturb left) (tally.restart (sweptRows now stmt pool.shared)) := by
  cases stmt with
  | reclaimStale ttlSecs =>
    obtain ⟨_, rfl⟩ := executes
    exact capped.sweep
  | reclaimExpired ageSecs =>
    obtain ⟨_, rfl⟩ := executes
    exact capped.sweep
  | _ => cases timer

/-- A step that neither takes a batch nor hands it to a task. -/
theorem touches (capped : Capped settings.maxAttempts pool tally)
    (touches : Touches settings batchSize (fun _ => False) pool batch later waiting) (same : waiting = batch) :
    Capped settings.maxAttempts later tally := by
  cases touches with
  | still => exact capped
  | claim executes =>
    rename_i left
    subst same
    obtain ⟨_, _, made⟩ := claim_spec executes
    have kept (id : Nat) : left.rows id = pool.shared.rows id := by
      rw [made]
      exact Database.claim_rows_of_notMem List.not_mem_nil
    refine ⟨capped.careful, ?_, ?_⟩
    · exact fun id row found => capped.affords id row ((kept id).symm.trans found)
    · exact fun id absent => capped.known id ((kept id).symm.trans absent)
  | spawn free works => exact ⟨capped.careful.spawn works.standard, capped.affords, capped.known⟩
  | work step => exact capped.work step
  | fail found running error => exact ⟨capped.careful.drop trivial, capped.affords, capped.known⟩
  | sweep timer fires executed => exact fires.elim

end Capped

/-- Before the startup is over nothing has been claimed, and from then on every row affords its tally. -/
private theorem capped_run (tallied : DaemonLoop.Tallied anchorPubkey batchSize anySweep settings db loop tally) :
    loop.settings = settings ∧
      (loop.control.entered = false → loop.pool.tasks = [] ∧ ∀ id, tally.count id = 0) ∧
      (loop.control.entered = true → Capped settings.maxAttempts loop.pool tally) := by
  induction tallied with
  | start => exact ⟨rfl, fun _ => ⟨rfl, fun _ => rfl⟩, fun entered => by cases entered⟩
  | @claim loop tally workers batch left _ here ran ih =>
    obtain ⟨same, _, holding⟩ := ih
    obtain ⟨now, locked, _, executes⟩ := runs_query ran
    have claimed := (holding (by rw [here]; rfl)).claim executes
    unfold DaemonLoop.afterClaim
    split
    · exact ⟨same, (fun outside => by cases outside), fun _ => claimed⟩
    · exact ⟨same, (fun outside => by cases outside), fun _ => claimed⟩
  | @fetch loop tally batch workers _ here free now fallback fetched enabled capped ih =>
    obtain ⟨same, _, holding⟩ := ih
    have capped := holding (by rw [here]; rfl)
    rw [← same] at capped
    refine ⟨same, (fun outside => by cases outside), fun _ => ?_⟩
    exact same ▸ capped.fetch (.batch now fallback fetched enabled ‹_›) _ fetched
  | @sweep loop tally stmt now locked reply left _ timer executes ih =>
    obtain ⟨same, idle, holding⟩ := ih
    refine ⟨same, ?_, fun inside => (holding inside).timer timer executes⟩
    intro outside
    obtain ⟨none, zero⟩ := idle outside
    refine ⟨none, ?_⟩
    intro id
    cases selected : sweptRows now stmt loop.pool.shared id with
    | true => exact Tally.count_restart_of_selected selected
    | false => exact (Tally.count_restart_of_missed selected).trans (zero id)
  | @step loop tally after _ step kept ih =>
    obtain ⟨same, idle, holding⟩ := ih
    cases inside : loop.control.entered with
    | false =>
      obtain ⟨none, zero⟩ := idle inside
      obtain ⟨still, _⟩ := step.starts inside none
      refine ⟨step.keeps_settings.trans same, fun _ => ⟨still, zero⟩, fun _ => ?_⟩
      have started : after.pool = ⟨after.pool.shared, []⟩ := by rw [← still]
      rw [started]
      exact Capped.idle.lower fun id => (zero id).le
    | true =>
      have touched := step.touches inside
      rw [same] at touched
      refine ⟨step.keeps_settings.trans same, ?_, fun _ => (holding inside).touches touched kept⟩
      intro outside
      exact absurd outside (by rw [step.entered inside]; exact Bool.noConfusion)

/-- In every run of the daemon loop, whatever its workers do and for however long, and whenever its timers
fire, at most `max 1 max_attempts` of the fetches that claimed a row since its attempts were last reset,
by the TTL re-enqueue or by the in-run reclaim, end in a relay error. -/
theorem retry_cap (run : DaemonLoop.Tallied anchorPubkey batchSize anySweep settings db loop tally) (id : Nat) :
    (tally.errors id : Int) ≤ max 1 settings.maxAttempts := by
  obtain ⟨_, idle, holding⟩ := capped_run run
  have counted := tally.errors_le_count id
  cases inside : loop.control.entered with
  | true =>
    have capped := holding inside
    cases found : loop.pool.shared.rows id with
    | none =>
      have zero := capped.known id found
      omega
    | some row =>
      have within := (capped.affords id row found).capped
      omega
  | false =>
    have zero := (idle inside).2 id
    omega

section Example

/-- Three permits and two attempts. -/
def stuckSettings : LoopSettings := ⟨3, versionsGate, 2, false, defaultNip65MaxWriteRelays⟩

/-- The loop between two batches. -/
private def bouncing (pool : CrawlPool) (workers : List Nat) (stats : CrawlStats) (joined : List Nat) : DaemonLoop :=
  ⟨stuckSettings, pool, .top workers, stats, true, false, joined⟩

/-- The only row is discovered, after so many attempts. -/
private structure Sole (db : Database) (attempts : Nat) : Prop where
  next : db.nextId = 2
  first : db.rows 0 = none
  row : ∃ columns, db.rows 1 = some ⟨soleKey, columns⟩ ∧ columns.status = .discovered ∧
    columns.fetchAttempts = attempts

/-- A run that comes between two batches, with so many errors of its only row, after so many attempts,
and so many workers stuck in their fetch. -/
private def Bounced (restarts : Stmt → Bool) (errors running attempts : Nat) : Prop :=
  ∃ pool workers stats joined tally,
    DaemonLoop.Tallied soleKey 1 restarts stuckSettings Database.empty (bouncing pool workers stats joined) tally ∧
    liveTasks pool = running ∧ (∀ handle ∈ workers, handle < pool.tasks.length) ∧ tally.errors 1 = errors ∧
    Sole pool.shared attempts

variable {running bounces attempts : Nat}

private theorem Sole.claims {db : Database} (sole : Sole db attempts) (now : DateTime) :
    Runs sql (claimBatch 1).run db (.ok [Fleet.soleAuthor]) (db.claim now [1]) := by
  obtain ⟨columns, found, discovered, _⟩ := sole.row
  have claimable : db.claimable ∅ 1 = [1] := by
    simp [Database.claimable, sole.next, sole.first, found, discovered, List.range_succ]
  exact .call ⟨now, ∅, trivial, Fleet.sole_claimed found claimable now⟩ .ret

private theorem bounced_start (restarts : Stmt → Bool) : Bounced restarts 0 0 0 := by
  have seeds : Runs sql (seedAnchor soleKey).run Database.empty (.ok 1) (Database.empty.upsert soleKey).2 :=
    .call ⟨0, ∅, trivial, rfl, rfl⟩ .ret
  have reclaims : Runs sql reclaimStaleOnStartup.run (Database.empty.upsert soleKey).2 (.ok 0)
      ((Database.empty.upsert soleKey).2.sweep Columns.isInProgress) := .call ⟨0, ∅, trivial, by decide, rfl⟩ .ret
  have started : DaemonLoop.Tallied soleKey 1 restarts stuckSettings Database.empty
      (.start stuckSettings Database.empty) .start := .start
  have seeded := started.step (.seed rfl seeds) rfl
  have reclaimed := seeded.step (.reclaim rfl reclaims) rfl
  have none (handle : Nat) (member : handle ∈ []) : handle < 0 := by cases member
  exact ⟨_, _, _, _, _, reclaimed, rfl, none, rfl, ⟨rfl, by decide, Columns.default, by decide, rfl, rfl⟩⟩

/-- The task of the only row. -/
private def soleTask (prog : Prog Sql (Except StoreError Nat)) : CrawlTask :=
  ⟨{id | id ∈ [Fleet.soleAuthor].map ClaimedAuthor.id}, prog⟩

/-- The worker whose fetch times out. -/
private def erringWorker : Prog Sql (Except StoreError Nat) :=
  (processBatch { versionsGate with now := 0 } 2 noOpFallback [Fleet.soleAuthor] (.error (.fetchTimeout ""))).run

/-- The worker whose fetch is stuck. -/
private def stuckWorker : Prog Sql (Except StoreError Nat) :=
  (processBatch { versionsGate with now := 0 } 2 noOpFallback [Fleet.soleAuthor] (.ok [])).run

private theorem erringWorker_requeues : ∃ next,
    erringWorker = .call (.requeueOrFail 1 2 0) next ∧ next (.ok ()) = .ret (.ok 0) := ⟨_, rfl, rfl⟩

private theorem liveTasks_concat (shared : Database) (tasks : List CrawlTask) (task : CrawlTask) :
    liveTasks ⟨shared, tasks ++ [task]⟩ = liveTasks ⟨shared, tasks⟩ + if task.prog.returned then 0 else 1 := by
  unfold liveTasks
  rw [List.countP_append]
  cases returned : task.prog.returned <;> simp [returned]

private theorem Sole.requeue {db : Database} (sole : Sole db 0) (now : DateTime) :
    Stmt.Executes now ∅ (.requeueOrFail 1 2 0) (db.claim now [1]) (.ok ())
        ((db.claim now [1]).updateRow 1 (Columns.requeue 2 0)) ∧
      Sole ((db.claim now [1]).updateRow 1 (Columns.requeue 2 0)) 1 := by
  obtain ⟨columns, found, _, attempts⟩ := sole.row
  have leased : (db.claim now [1]).rows 1 = some ⟨soleKey, columns.claim now⟩ := by simp [Database.claim, found]
  have none : (db.claim now [1]).rows 0 = none := by simp [Database.claim, sole.first]
  refine ⟨?_, ?_⟩
  · simp [Stmt.Executes, leased, Columns.claim, attempts]
  · refine ⟨sole.next, ?_, (columns.claim now).requeue 2 0, ?_, ?_, ?_⟩
    · simp [Database.updateRow, none]
    · simp [Database.updateRow, leased]
    · simp [Columns.requeue, Columns.claim, attempts]
    · simp [Columns.requeue, Columns.claim, attempts]

/-- An hour later the lease of a minute has expired. -/
private theorem Sole.expire {db : Database} (sole : Sole db attempts) (now : DateTime) :
    Sole ((db.claim now [1]).sweep (Columns.isExpired (now + DateTime.ofSeconds 3600) 60)) 0 := by
  obtain ⟨columns, found, _, _⟩ := sole.row
  have expired : (columns.claim now).isExpired (now + DateTime.ofSeconds 3600) 60 = true := by
    have later (micros : Int) : micros < micros + 3600 * 1000000 - 60 * 1000000 := by omega
    have past : now < now + DateTime.ofSeconds 3600 - DateTime.ofSeconds 60 := later now
    simp [Columns.isExpired, Columns.isInProgress, Columns.olderThan, Columns.claim, past]
  refine ⟨sole.next, ?_, (columns.claim now).reclaim, ?_, rfl, rfl⟩
  · simp [Database.sweep, Database.claim, sole.first]
  · simp [Database.sweep, Database.claim, found, expired]

section Reap

variable {workers : List Nat} (run : DaemonLoop.Tallied soleKey 1 restarts stuckSettings Database.empty loop tally)

include run

/-- No handle is found finished. -/
private theorem reaps_none (here : loop.control = .reap workers) :
    DaemonLoop.Tallied soleKey 1 restarts stuckSettings Database.empty { loop with control := .top workers } tally := by
  have reaped := run.step (.reap here (fun _ => false) fun _ _ impossible => by cases impossible)
    (by rw [here]; exact LoopControl.joining_batch)
  have same : loop.afterReap workers (fun _ => false) = { loop with control := .top workers } := by
    simp [DaemonLoop.afterReap, LoopControl.joining]
  exact same ▸ reaped

/-- The last handle is found finished, and joined. -/
private theorem reaps_last {last count : Nat} {note : Set Nat} (here : loop.control = .reap (workers ++ [last]))
    (others : ∀ handle ∈ workers, handle < last)
    (ended : loop.pool.tasks[last]? = some ⟨note, .ret (.ok count)⟩) :
    DaemonLoop.Tallied soleKey 1 restarts stuckSettings Database.empty
      { loop with control := .top workers, joined := loop.joined ++ [last] } tally := by
  have finished (handle : Nat) (_ : handle ∈ workers ++ [last]) (found : decide (handle = last) = true) :
      loop.Finished handle := by
    obtain rfl := of_decide_eq_true found
    exact ⟨note, .ok count, ended⟩
  have reaped := run.step (.reap here (fun handle => decide (handle = last)) finished)
    (by rw [here]; exact LoopControl.joining_batch)
  have same : loop.afterReap (workers ++ [last]) (fun handle => decide (handle = last)) =
      { loop with control := .join [last] workers } := by
    have none : workers.filter (fun handle => decide (handle = last)) = [] := by
      simp only [List.filter_eq_nil_iff, decide_eq_true_eq]
      exact fun handle member => (others handle member).ne
    have all : workers.filter (fun handle => !decide (handle = last)) = workers := by
      simp only [List.filter_eq_self, Bool.not_eq_true', decide_eq_false_iff_not]
      exact fun handle member => (others handle member).ne
    simp [DaemonLoop.afterReap, LoopControl.joining, List.filter_append, none, all]
  rw [same] at reaped
  have joins := reaped.step (.join rfl ended) rfl
  exact joins

end Reap

private theorem known_concat {workers : List Nat} {tasks : List CrawlTask}
    (known : ∀ handle ∈ workers, handle < tasks.length) (task : CrawlTask) :
    ∀ handle ∈ workers ++ [tasks.length], handle < (tasks ++ [task]).length := by
  intro handle member
  rw [List.length_append]
  rcases List.mem_append.mp member with old | last
  · exact Nat.lt_add_right _ (known handle old)
  · rw [List.mem_singleton.mp last]
    exact Nat.lt_succ_self _

/-- The fetch of a worker is stuck, and the in-run reclaim frees its row with its attempts. -/
private theorem Bounced.sticks (bounced : Bounced ttlSweep bounces running attempts) (free : running < 3)
    (now : DateTime) : Bounced ttlSweep bounces (running + 1) 0 := by
  obtain ⟨pool, workers, stats, joined, tally, run, rfl, known, rfl, sole⟩ := bounced
  have claiming := run.step (.top rfl) rfl
  have claimed := claiming.claim rfl (sole.claims now)
  have fetching := claimed.fetch rfl free 0 noOpFallback (.ok []) rfl rfl
  have sweeps : Stmt.Executes (now + DateTime.ofSeconds 3600) ∅ (.reclaimExpired 60) (pool.shared.claim now [1])
      (.ok _) ((pool.shared.claim now [1]).sweep (Columns.isExpired (now + DateTime.ofSeconds 3600) 60)) := ⟨rfl, rfl⟩
  have timer : TimerStmt (.reclaimExpired 60) := trivial
  have swept := fetching.sweep timer sweeps
  refine ⟨_, _, _, _, _, reaps_none swept rfl, ?_, ?_, rfl, sole.expire now⟩
  · exact liveTasks_concat pool.shared pool.tasks (soleTask stuckWorker)
  · exact known_concat known (soleTask stuckWorker)

/-- The fetch of a worker errs, which is one attempt. -/
private theorem Bounced.errs (bounced : Bounced restarts bounces running 0) (free : running < 3) (now : DateTime) :
    Bounced restarts (bounces + 1) running 1 := by
  obtain ⟨pool, workers, stats, joined, tally, run, rfl, known, rfl, sole⟩ := bounced
  obtain ⟨next, requeues, returns⟩ := erringWorker_requeues
  obtain ⟨executes, unclaimed⟩ := sole.requeue now
  have claiming := run.step (.top rfl) rfl
  have claimed := claiming.claim rfl (sole.claims now)
  have fetching := claimed.fetch rfl free 0 noOpFallback (.error (.fetchTimeout "")) rfl rfl
  have called : (pool.tasks ++ [soleTask erringWorker])[pool.tasks.length]? =
      some ⟨_, .call (.requeueOrFail 1 2 0) next⟩ := List.getElem?_concat_length.trans
    (congrArg (fun prog => some (soleTask prog)) requeues)
  have worked := fetching.step (.work (.noting called ⟨now, ∅, trivial, executes⟩)) rfl
  have last (task : CrawlTask) :
      (pool.tasks ++ [soleTask erringWorker]).set pool.tasks.length task = pool.tasks ++ [task] := by
    rw [List.set_append_right _ _ le_rfl, Nat.sub_self]
    rfl
  have ended (note : Set Nat) :
      ((pool.tasks ++ [soleTask erringWorker]).set pool.tasks.length ⟨note, next (.ok ())⟩)[pool.tasks.length]? =
        some ⟨note, .ret (.ok 0)⟩ := by
    rw [last, List.getElem?_concat_length, returns]
  have joins := reaps_last worked rfl known (ended _)
  refine ⟨_, _, _, _, _, joins, ?_, ?_, rfl, unclaimed⟩
  · exact (congrArg (fun tasks => liveTasks ⟨pool.shared, tasks⟩) (last _)).trans
      ((liveTasks_concat pool.shared pool.tasks _).trans (by rw [returns]; rfl))
  · intro handle member
    exact (List.length_set.trans List.length_append).symm ▸ Nat.lt_add_right 1 (known handle member)

/-- Two attempts, and three fetches of the row that end in an error: twice in between a worker is stuck,
and the in-run reclaim gives the row its attempts back. No TTL re-enqueue ever reset it. -/
theorem retry_cap_fails : ∃ loop tally row,
    DaemonLoop.Tallied soleKey 1 ttlSweep stuckSettings Database.empty loop tally ∧
    stuckSettings.maxAttempts = 2 ∧ tally.errors 1 = 3 ∧ loop.pool.shared.rows 1 = some row ∧
    row.columns.status = .discovered := by
  have first := (bounced_start ttlSweep).errs (by decide) 0
  have freed := first.sticks (by decide) (DateTime.ofSeconds 60)
  have second := freed.errs (by decide) (DateTime.ofSeconds 4000)
  have again := second.sticks (by decide) (DateTime.ofSeconds 4060)
  obtain ⟨pool, workers, stats, joined, tally, run, _, _, errors, sole⟩ :=
    again.errs (by decide) (DateTime.ofSeconds 8000)
  obtain ⟨columns, found, discovered, _⟩ := sole.row
  exact ⟨_, tally, _, run, rfl, errors, found, discovered⟩

/-- The theorem at a row whose only fetch so far erred. -/
theorem retry_cap_once : ∃ loop tally,
    DaemonLoop.Tallied soleKey 1 anySweep stuckSettings Database.empty loop tally ∧
    tally.errors 1 = 1 ∧ (tally.errors 1 : Int) ≤ max 1 stuckSettings.maxAttempts := by
  obtain ⟨pool, workers, stats, joined, tally, run, _, _, errors, _⟩ := (bounced_start anySweep).errs (by decide) 0
  exact ⟨_, tally, run, errors, retry_cap run 1⟩

end Example

end WotCrawler.Daemon
