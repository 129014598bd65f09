import WotCrawler.Daemon.Joining
import WotCrawler.Effect.Progress

/-! Why a cancelled daemon loop ends: it claims at most once more, and its tasks have only so many statements
left. -/

namespace WotCrawler.Daemon

open Effect Store Ingest Relay Crawl

namespace LoopControl

/-- The task of the loop has ended: its call is over, or its semaphore panicked. -/
def halted : LoopControl → Bool
  | .panicked => true
  | control => control.ended

/-- How far a cancelled loop is from its end. -/
def rank : LoopControl → Nat
  | .seed => 10
  | .reclaim => 9
  | .claim _ => 8
  | .permit _ _ => 7
  | .reap _ => 6
  | .join _ _ => 5
  | .drain false _ _ => 5
  | .idle => 4
  | .top _ => 3
  | .drain true _ _ => 2
  | .aborted _ => 0
  | .returned _ => 0
  | .panicked => 0

private theorem joining_rank (handles workers : List Nat) : (joining handles workers).rank < 6 := by
  unfold joining
  split <;> simp [rank]

end LoopControl

namespace DaemonLoop

/-- The rank, the tasks that run, the statements left to them, and the handles left to join. -/
def measure (loop : DaemonLoop) : Nat × Nat × Multiset (Prog Sql (Except StoreError Nat)) × Nat :=
  (loop.control.rank, loop.inFlight, loop.pool.remaining, loop.control.handles.length)

/-- One measure is below another, in this order of its parts. -/
abbrev Lower : Nat × Nat × Multiset (Prog Sql (Except StoreError Nat)) × Nat →
    Nat × Nat × Multiset (Prog Sql (Except StoreError Nat)) × Nat → Prop :=
  Prod.Lex (· < ·) (Prod.Lex (· < ·) (Prod.Lex (Relation.CutExpand Prog.Later) (· < ·)))

theorem lower_wf : WellFounded Lower :=
  Nat.lt_wfRel.wf.prod_lex (Nat.lt_wfRel.wf.prod_lex (Pool.remaining_wf.prod_lex Nat.lt_wfRel.wf))

def Below : DaemonLoop → DaemonLoop → Prop := InvImage Lower measure

theorem below_wf : WellFounded Below := InvImage.wf measure lower_wf

variable {anchorPubkey : Bytes} {batchSize : Int} {timers : Stmt → Prop} {loop after : DaemonLoop}

theorem Below.ne (below : Below after loop) : after ≠ loop := by
  intro same
  subst same
  exact below_wf.irrefl.irrefl after below

/-- A step to a lower rank. -/
theorem below_of_rank (lower : after.control.rank < loop.control.rank) : Below after loop := .left _ _ lower

/-- A handle less to join. -/
theorem below_of_handles (same : after.pool = loop.pool) (rank : after.control.rank = loop.control.rank)
    (fewer : after.control.handles.length < loop.control.handles.length) : Below after loop := by
  unfold Below InvImage measure inFlight
  rw [same, rank]
  exact .right _ (.right _ (.right _ fewer))

/-- A statement of a task. -/
theorem below_of_work {later : CrawlPool} (step : loop.pool.Calls (leasing fun _ => True) index stmt note noted later) :
    Below { loop with pool := later } loop := by
  have shorter := step.shortens
  have fewer : liveTasks later ≤ liveTasks loop.pool := by
    cases step with
    | call found executed => exact Sequence.countP_set_le found rfl
  unfold Below InvImage measure inFlight
  apply Prod.Lex.right
  rcases Nat.lt_or_eq_of_le fewer with less | same
  · exact .left _ _ less
  · unfold liveTasks at same
    dsimp only
    rw [same]
    exact .right _ (.left _ _ shorter)

/-- A task that fails. -/
theorem below_of_fail {task : CrawlTask} {index : Nat} (found : loop.pool.tasks[index]? = some task)
    (running : task.prog.returned = false) (error : StoreError) :
    Below { loop with pool := loop.pool.drop index task.note (.error error) } loop := by
  apply Prod.Lex.right
  apply Prod.Lex.left
  have fewer : liveTasks (loop.pool.drop index task.note (.error error)) + 1 = liveTasks loop.pool :=
    Sequence.countP_set_sub found (by simp [running]) rfl
  exact Nat.lt_of_lt_of_eq (Nat.lt_succ_self _) fewer

section Handles

variable {handle : Nat} {handles workers : List Nat} {final : Bool} {firstErr : Option StoreError}

/-- A handle found finished and joined. -/
private theorem below_of_join (here : loop.control = .join (handle :: handles) workers)
    (outcome : Except StoreError Nat) : Below (loop.afterJoin handle handles workers outcome) loop := by
  cases outcome with
  | error error =>
    apply below_of_rank
    rw [here]
    exact Nat.succ_pos 4
  | ok count =>
    cases handles with
    | nil =>
      apply below_of_rank
      rw [here]
      exact Nat.lt_of_sub_pos Nat.zero_lt_two
    | cons next rest =>
      refine below_of_handles rfl ?_ ?_
      · rw [here]
        rfl
      · rw [here]
        exact Nat.lt_succ_self _

/-- A handle awaited by a drain. -/
private theorem below_of_await (here : loop.control = .drain final (handle :: handles) firstErr)
    (outcome : Except StoreError Nat) : Below (loop.afterAwait final handle handles firstErr outcome) loop := by
  refine below_of_handles rfl ?_ ?_
  · rw [here]
    cases final <;> rfl
  · rw [here]
    exact Nat.lt_succ_self _

private theorem below_of_drained (here : loop.control = .drain final [] firstErr) :
    Below (loop.afterDrain final firstErr) loop := by
  apply below_of_rank
  rw [here]
  cases firstErr with
  | some error => cases final <;> simp [afterDrain, finish, LoopControl.rank]
  | none => cases final <;> simp [afterDrain, finish, LoopControl.rank]

end Handles

/-- Once the token is cancelled, every step but a repeated cancellation goes down. -/
theorem Step.below (step : loop.Step anchorPubkey batchSize (fun _ => False) after) (cancelled : loop.cancelled = true) :
    after = loop ∨ Below after loop := by
  cases step with
  | seed here ran => exact .inr (below_of_rank (by rw [here]; simp [afterSeed, LoopControl.rank]))
  | reclaim here ran =>
    refine .inr (below_of_rank ?_)
    rw [here]
    unfold afterReclaim
    dsimp only
    split <;> simp [LoopControl.rank]
  | startFails here error =>
    refine .inr (below_of_rank ?_)
    rcases here with here | here <;> rw [here] <;> simp [LoopControl.rank]
  | top here =>
    refine .inr (below_of_rank ?_)
    rw [here]
    simp [afterTop, cancelled, LoopControl.rank]
  | claim here ran =>
    refine .inr (below_of_rank ?_)
    rw [here]
    unfold afterClaim
    split <;> simp [LoopControl.rank]
  | claimFails here error => exact .inr (below_of_rank (by rw [here]; simp [finish, LoopControl.rank]))
  | spawn here free works => exact .inr (below_of_rank (by rw [here]; simp [afterSpawn, LoopControl.rank]))
  | reap here finished ended => exact .inr (below_of_rank (by rw [here]; exact LoopControl.joining_rank _ _))
  | join here ended => exact .inr (below_of_join here _)
  | await here ended => exact .inr (below_of_await here _)
  | drained here => exact .inr (below_of_drained here)
  | sleep here => exact .inr (below_of_rank (by rw [here]; simp [LoopControl.rank]))
  | wake here cancelled => exact .inr (below_of_rank (by rw [here]; simp [LoopControl.rank]))
  | work step => exact .inr (below_of_work step)
  | fail found running error => exact .inr (below_of_fail found running error)
  | sweep timer fires executed => exact fires.elim
  | cancel =>
    left
    cases loop
    dsimp only at cancelled
    rw [cancelled]

/-- The loop's handles are those of tasks, and it joins only where it has one. -/
structure Orderly (loop : DaemonLoop) : Prop where
  started : ∀ handle ∈ loop.control.handles, handle < loop.pool.tasks.length
  busy : ∀ workers, loop.control ≠ .join [] workers

private theorem joining_busy (handles workers others : List Nat) :
    LoopControl.joining handles workers ≠ .join [] others := by
  unfold LoopControl.joining
  split
  · exact fun same => by cases same
  · rename_i some
    intro same
    obtain ⟨none, _⟩ := LoopControl.join.inj same
    exact some none

/-- Where no task is new, the handles that are left are those of tasks. -/
private theorem Orderly.carry (orderly : Orderly loop) (tasks : after.pool.tasks.length = loop.pool.tasks.length)
    (handles : after.control.handles ⊆ loop.control.handles) (busy : ∀ workers, after.control ≠ .join [] workers) :
    Orderly after where
  started := fun handle member => tasks ▸ orderly.started handle (handles member)
  busy := busy

theorem Orderly.step (orderly : Orderly loop) (step : loop.Step anchorPubkey batchSize timers after) : Orderly after := by
  have idle (none : after.control.handles = []) : after.control.handles ⊆ loop.control.handles := by
    rw [none]
    exact List.nil_subset _
  cases step with
  | seed here ran => exact orderly.carry rfl (idle rfl) fun _ same => by cases same
  | reclaim here ran =>
    refine orderly.carry rfl (idle ?_) ?_
    · unfold afterReclaim
      dsimp only
      split <;> rfl
    · unfold afterReclaim
      dsimp only
      split <;> exact fun _ same => by cases same
  | startFails here error => exact orderly.carry rfl (idle rfl) fun _ same => by cases same
  | top here =>
    refine orderly.carry rfl ?_ ?_
    · rw [here]
      unfold afterTop
      dsimp only
      split <;> exact List.Subset.refl _
    · unfold afterTop
      dsimp only
      split <;> exact fun _ same => by cases same
  | claim here ran =>
    unfold afterClaim
    split
    · exact orderly.carry rfl (by rw [here]; exact List.Subset.refl _) fun _ same => by cases same
    · exact orderly.carry rfl (by rw [here]; exact List.Subset.refl _) fun _ same => by cases same
  | claimFails here error => exact orderly.carry rfl (idle rfl) fun _ same => by cases same
  | @spawn batch workers prog here free works =>
    have length : (loop.afterSpawn batch workers prog).pool.tasks.length = loop.pool.tasks.length + 1 :=
      List.length_append
    refine ⟨?_, fun _ same => by cases same⟩
    intro handle member
    rw [length]
    rcases List.mem_append.mp member with old | new
    · exact Nat.lt_succ_of_lt (orderly.started handle (by rw [here]; exact old))
    · rw [List.mem_singleton.mp new]
      exact Nat.lt_succ_self _
  | @reap workers here finished ended =>
    refine orderly.carry rfl ?_ (joining_busy _ _)
    rw [here]
    unfold afterReap
    rw [LoopControl.joining_handles]
    exact List.append_subset.mpr ⟨List.filter_subset_self _, List.filter_subset_self _⟩
  | @join handle handles workers note outcome here ended =>
    cases outcome with
    | ok count =>
      refine orderly.carry rfl ?_ (joining_busy _ _)
      rw [here]
      unfold afterJoin
      rw [LoopControl.joining_handles]
      exact List.subset_cons_self _ _
    | error error => exact orderly.carry rfl (idle rfl) fun _ same => by cases same
  | await here ended =>
    refine orderly.carry rfl ?_ fun _ same => by cases same
    rw [here]
    exact List.subset_cons_self _ _
  | @drained final firstErr here =>
    cases firstErr with
    | some error => exact orderly.carry rfl (idle rfl) fun _ same => by cases same
    | none => cases final <;> exact orderly.carry rfl (idle rfl) fun _ same => by cases same
  | sleep here => exact orderly.carry rfl (idle rfl) fun _ same => by cases same
  | wake here cancelled => exact orderly.carry rfl (idle rfl) fun _ same => by cases same
  | work step =>
    refine orderly.carry ?_ (List.Subset.refl _) orderly.busy
    cases step with
    | call found executed => exact List.length_set
  | fail found running error => exact orderly.carry List.length_set (List.Subset.refl _) orderly.busy
  | sweep timer fires executed => exact orderly.carry rfl (List.Subset.refl _) orderly.busy
  | cancel => exact orderly.carry rfl (List.Subset.refl _) orderly.busy

theorem Orderly.run {settings : LoopSettings} {db : Database} (run : Run anchorPubkey batchSize timers settings db loop) :
    Orderly loop := by
  induction run with
  | refl => exact ⟨(fun _ none => by cases none), fun _ same => by cases same⟩
  | tail _ step ih => exact ih.step step

theorem Orderly.found {handle : Nat} (orderly : Orderly loop) (member : handle ∈ loop.control.handles) :
    ∃ task, loop.pool.tasks[handle]? = some task :=
  ⟨_, List.getElem?_eq_getElem (orderly.started handle member)⟩

/-- A task that has not returned can go on. -/
private theorem work_enabled {task : CrawlTask} {index : Nat} (found : loop.pool.tasks[index]? = some task)
    (running : task.prog.returned = false) :
    ∃ after, loop.Step anchorPubkey batchSize timers after ∧ Below after loop := by
  obtain ⟨note, prog⟩ := task
  cases prog with
  | ret outcome => cases running
  | call stmt next =>
    obtain ⟨reply, left, executed⟩ := sql_total stmt loop.pool.shared
    have calls : loop.pool.Calls (leasing fun _ => True) index stmt note _ _ := .noting found executed
    exact ⟨_, .work calls, below_of_work calls⟩

theorem exists_works (settings : LoopSettings) (batch : List ClaimedAuthor) : ∃ prog, settings.Works batch prog :=
  let fallback : Fallback :=
    { noOpFallback with enabled := settings.fallbackEnabled, maxWriteRelays := settings.nip65MaxWriteRelays }
  ⟨_, .batch 0 fallback (.ok []) rfl rfl⟩

/-- Until its task has ended, a cancelled loop can get on. -/
theorem Orderly.enabled (orderly : Orderly loop) (cancelled : loop.cancelled = true)
    (concurrent : 1 ≤ loop.settings.concurrency) : loop.control.halted = true ∨
      ∃ after, loop.Step anchorPubkey batchSize timers after ∧ Below after loop := by
  cases here : loop.control with
  | seed =>
    refine .inr ⟨_, .startFails (.inl here) (.sqlx .rowNotFound), below_of_rank ?_⟩
    rw [here]
    exact Nat.succ_pos 9
  | reclaim =>
    refine .inr ⟨_, .startFails (.inr here) (.sqlx .rowNotFound), below_of_rank ?_⟩
    rw [here]
    exact Nat.succ_pos 8
  | top workers =>
    refine .inr ⟨_, .top here, below_of_rank ?_⟩
    rw [here]
    simp [afterTop, cancelled, LoopControl.rank]
  | claim workers =>
    refine .inr ⟨_, .claimFails here (.sqlx .rowNotFound), below_of_rank ?_⟩
    rw [here]
    exact Nat.succ_pos 7
  | permit batch workers =>
    right
    by_cases free : loop.inFlight < loop.settings.concurrency
    · obtain ⟨prog, works⟩ := exists_works loop.settings batch
      refine ⟨_, .spawn here free works, below_of_rank ?_⟩
      rw [here]
      exact Nat.lt_succ_self 6
    · -- A permit is held, so its task still runs.
      have held : 0 < loop.inFlight := by omega
      obtain ⟨task, member, running⟩ := List.countP_pos_iff.mp held
      obtain ⟨index, found⟩ := List.mem_iff_getElem?.mp member
      exact work_enabled found (by simpa using running)
  | reap workers =>
    refine .inr ⟨_, .reap here (fun _ => false) (fun handle _ impossible => by cases impossible), below_of_rank ?_⟩
    rw [here]
    exact LoopControl.joining_rank _ _
  | join handles workers =>
    right
    cases handles with
    | nil => exact absurd here (orderly.busy workers)
    | cons handle handles =>
      obtain ⟨⟨note, prog⟩, found⟩ := orderly.found (by rw [here]; exact List.mem_cons_self ..)
      cases prog with
      | ret outcome => exact ⟨_, .join here found, below_of_join here outcome⟩
      | call stmt next => exact work_enabled found rfl
  | drain final handles firstErr =>
    right
    cases handles with
    | nil => exact ⟨_, .drained here, below_of_drained here⟩
    | cons handle handles =>
      obtain ⟨⟨note, prog⟩, found⟩ := orderly.found (by rw [here]; exact List.mem_cons_self ..)
      cases prog with
      | ret outcome => exact ⟨_, .await here found, below_of_await here outcome⟩
      | call stmt next => exact work_enabled found rfl
  | idle =>
    refine .inr ⟨_, .wake here cancelled, below_of_rank ?_⟩
    rw [here]
    exact Nat.lt_of_sub_pos Nat.zero_lt_two
  | aborted error => exact .inl rfl
  | returned result => exact .inl rfl
  | panicked => exact .inl rfl

end DaemonLoop

end WotCrawler.Daemon
