import WotCrawler.Crawl.Custody
import WotCrawler.Crawl.Driver

/-! What holds of a crawl at every step, whatever its fetches return and whatever its tasks come to:
a row in progress has its task, and a task that is not joined has its handle. -/

namespace WotCrawler.Crawl

open Effect Store Ingest Relay

/-- A row that no worker has resolved. -/
def Waits (status : FetchStatus) : Prop := status = .discovered ∨ status = .inProgress

namespace Control

/-- The batch that waits for a permit. -/
def batch : Control → List ClaimedAuthor
  | .permit batch _ => batch
  | _ => []

/-- The handles of the tasks not joined yet. -/
def handles : Control → List Nat
  | .claim workers => workers
  | .permit _ workers => workers
  | .reap workers => workers
  | .join handles workers => handles ++ workers
  | _ => []

/-- The call has not come to its loop. -/
def starting : Control → Bool
  | .seed => true
  | .reclaim => true
  | _ => false

variable {handles workers : List Nat}

@[simp] theorem joining_batch : (joining handles workers).batch = [] := by
  unfold joining
  split <;> rfl

@[simp] theorem joining_handles : (joining handles workers).handles = handles ++ workers := by
  unfold joining
  split
  · rename_i none
    rw [none]
    rfl
  · rfl

@[simp] theorem joining_starting : (joining handles workers).starting = false := by
  unfold joining
  split <;> rfl

theorem joining_ne_returned (result : Except StoreError CrawlStats) : joining handles workers ≠ .returned result := by
  unfold joining
  split
  · exact fun same => by cases same
  · exact fun same => by cases same

theorem joining_ne_permit (batch : List ClaimedAuthor) (others : List Nat) :
    joining handles workers ≠ .permit batch others := by
  unfold joining
  split
  · exact fun same => by cases same
  · exact fun same => by cases same

end Control

theorem Driver.afterReclaim_batch (driver : Driver) (left : Database) (reply : Except StoreError Nat) :
    (driver.afterReclaim left reply).control.batch = [] := by
  cases reply with
  | error error => rfl
  | ok reclaimed =>
    unfold afterReclaim
    dsimp only
    split <;> rfl

theorem Driver.afterJoin_batch (driver : Driver) (handles workers : List Nat) (outcome : Except StoreError Nat) :
    (driver.afterJoin handles workers outcome).control.batch = [] := by
  cases outcome with
  | error error => rfl
  | ok count => exact Control.joining_batch

/-- The invariant of a crawl over any database. -/
structure Manned (driver : Driver) : Prop where
  careful : driver.pool.Each fun _ prog => prog.Issues (WorkerStmt driver.settings.maxAttempts)
  owned : driver.control.starting = false → Owned driver.pool driver.control.batch
  named : ∀ claimed ∈ driver.control.batch, driver.pool.shared.keyed claimed.id claimed.pubkey
  idle : driver.control.starting = true → driver.pool.tasks = []
  joined : (∀ error, driver.control ≠ .returned (.error error)) → ∀ (index : Nat) (task : CrawlTask),
    driver.pool.tasks[index]? = some task →
      (∃ count, task.prog = .ret (.ok count)) ∨ index ∈ driver.control.handles
  started : ∀ handle ∈ driver.control.handles, handle < driver.pool.tasks.length
  ended : ∀ stats, driver.control = .returned (.ok stats) → stats = driver.stats ∧
    ∀ id row, driver.pool.shared.rows id = some row → ¬ Waits row.columns.status

variable {anchor : PublicKey} {driver after : Driver} {batchSize : Int} {before left db : Database}
  {id index : Nat} {workers handles : List Nat}

/-- Seeding stores the anchor, and cannot fail. -/
theorem seedAnchor_executes (run : Runs (sqlWith possible) (seedAnchor anchor.bytes).run before reply left) :
    ∃ id now locked, reply = .ok id ∧ Stmt.Executes now locked (.upsertPubkey anchor.bytes) before (.ok id) left ∧
      left.keyed id anchor.bytes := by
  have wide : ¬ anchor.bytes.length ≠ pubkeyLen := fun differs => differs anchor.width
  rw [seedAnchor, upsertPubkey, if_neg wide] at run
  obtain ⟨now, locked, _, executes⟩ := runs_query run
  obtain ⟨rfl, rfl⟩ := executes
  exact ⟨_, now, locked, rfl, ⟨rfl, rfl⟩, (before.upsert_spec anchor.bytes).1⟩

theorem swept_idle {row : PubkeyRow} (found : (before.sweep Columns.isInProgress).rows id = some row) :
    row.columns.status ≠ .inProgress := by
  obtain ⟨old, _, rfl⟩ := Option.map_eq_some_iff.mp found
  dsimp only
  split
  · exact fun same => by cases same
  · rename_i missed
    simpa [Columns.isInProgress] using missed

/-- A claim whose limit is not negative cannot fail. -/
theorem claim_ok {limit : Int} {locked : Finset Nat} {reply : Except StoreError (List ClaimedAuthor)}
    (positive : 0 ≤ limit) (executes : Stmt.Executes now locked (.claim limit) before reply left) :
    ∃ batch, reply = .ok batch := by
  simp only [Stmt.Executes] at executes
  rw [if_neg (by omega)] at executes
  obtain ⟨batch, answered, _⟩ := executes
  exact ⟨batch, answered⟩

namespace Manned

/-- Where no handle is left, all tasks have returned a count. -/
theorem returned (manned : Manned driver) (none : driver.control.handles = [])
    (unfailed : ∀ error, driver.control ≠ .returned (.error error)) :
    ∀ task ∈ driver.pool.tasks, ∃ count, task.prog = .ret (.ok count) := by
  intro task member
  obtain ⟨index, found⟩ := List.mem_iff_getElem?.mp member
  rcases manned.joined unfailed index task found with returned | handle
  · exact returned
  · rw [none] at handle
    cases handle

/-- A call that starts. -/
theorem start (settings : Settings) (db : Database) (claimed : List Nat) :
    Manned (.start settings db claimed) := by
  refine ⟨?_, ?_, ?_, ?_, ?_, ?_, ?_⟩
  · exact fun index task found => by cases found
  · exact fun past => by cases past
  · exact fun _ member => by cases member
  · exact fun _ => rfl
  · exact fun _ index task found => by cases found
  · exact fun handle member => by cases member
  · exact fun stats ended => by cases ended

/-- A state without tasks, a batch or handles. -/
private theorem of_idle (driver : Driver) (none : driver.pool.tasks = []) (batchless : driver.control.batch = [])
    (handleless : driver.control.handles = [])
    (owned : driver.control.starting = false → ∀ id row, driver.pool.shared.rows id = some row →
      row.columns.status ≠ .inProgress)
    (runs : ∀ stats, driver.control ≠ .returned (.ok stats)) : Manned driver := by
  have absent (index : Nat) (task : CrawlTask) : driver.pool.tasks[index]? ≠ some task := by simp [none]
  refine ⟨?_, ?_, ?_, ?_, ?_, ?_, ?_⟩
  · exact fun index task found => absurd found (absent index task)
  · exact fun past id row found status => absurd status (owned past id row found)
  · intro claimed member
    rw [batchless] at member
    cases member
  · exact fun _ => none
  · exact fun _ index task found => absurd found (absent index task)
  · intro handle member
    rw [handleless] at member
    cases member
  · exact fun stats ended => absurd ended (runs stats)

theorem seed (manned : Manned driver) (here : driver.control = .seed)
    (ran : Runs sql (seedAnchor anchor.bytes).run driver.pool.shared reply left) :
    Manned (driver.afterSeed left reply) := by
  obtain ⟨id, now, locked, rfl, _⟩ := seedAnchor_executes ran
  have none : driver.pool.tasks = [] := manned.idle (by rw [here]; rfl)
  apply of_idle (driver.afterSeed left (.ok id)) none rfl rfl
  · exact fun past => by cases past
  · exact fun stats ended => by cases ended

theorem reclaim (manned : Manned driver) (here : driver.control = .reclaim)
    (ran : Runs sql reclaimStaleOnStartup.run driver.pool.shared reply left) :
    Manned (driver.afterReclaim left reply) := by
  obtain ⟨now, locked, _, rfl, swept⟩ := runs_query ran
  have none : driver.pool.tasks = [] := manned.idle (by rw [here]; rfl)
  have control : (driver.afterReclaim left (.ok (driver.pool.shared.selected Columns.isInProgress))).control =
      if maxPermits < driver.settings.concurrency then .panicked else .claim [] := rfl
  apply of_idle (driver.afterReclaim left (.ok _)) none
  · rw [control]
    split <;> rfl
  · rw [control]
    split <;> rfl
  · intro _ id row found
    have stands : left.rows id = some row := found
    rw [swept] at stands
    exact swept_idle stands
  · intro stats
    rw [control]
    split
    · exact fun same => by cases same
    · exact fun same => by cases same

theorem claim (manned : Manned driver) (here : driver.control = .claim workers) (positive : 1 ≤ batchSize)
    (ran : Runs (sqlWith driver.MayLock) (claimBatch batchSize).run driver.pool.shared reply left) :
    Manned (driver.afterClaim workers left reply) := by
  obtain ⟨now, locked, unlocked, executes⟩ := runs_query ran
  obtain ⟨batch, rfl⟩ := claim_ok (by omega) executes
  obtain ⟨_, discovered, made⟩ := claim_spec executes
  have batchless : driver.control.batch = [] := by rw [here]; rfl
  have owned : Owned (driver.pool.disturb left) batch := by
    apply Owned.disturb (batchless ▸ manned.owned (by rw [here]; rfl))
    intro id row found status
    by_cases member : id ∈ batch.map ClaimedAuthor.id
    · exact .inr member
    · rw [made, Database.claim_rows_of_notMem member] at found
      exact .inl ⟨row, found, rfl, status⟩
  have joined := manned.joined fun error same => by rw [here] at same; cases same
  have started := manned.started
  have handles : driver.control.handles = workers := by rw [here]; rfl
  rw [handles] at joined started
  unfold Driver.afterClaim
  dsimp only
  split
  · rename_i empty
    subst empty
    by_cases last : workers = []
    · rw [if_pos last]
      have returned := manned.returned (handles.trans last) fun error same => by rw [here] at same; cases same
      refine ⟨manned.careful, fun _ => owned, (fun _ none => by cases none), (fun starting => by cases starting), ?_,
        (fun handle member => by cases member), ?_⟩
      · exact fun _ index task found => .inl (returned task (List.mem_of_getElem? found))
      · intro stats ended
        obtain rfl := Except.ok.inj (Control.returned.inj ended)
        refine ⟨rfl, ?_⟩
        intro id row found waits
        rcases waits with discovered | leased
        · -- No task holds a lock, so the claim saw every discovered row.
          obtain rfl : locked = ∅ := by
            apply unlocked
            intro task member
            obtain ⟨count, ended⟩ := returned task member
            rw [ended]
            rfl
          have same : driver.pool.shared.rows id = some row := by
            rw [← found, made]
            exact (Database.claim_rows_of_notMem (by simp)).symm
          exact claim_empty (by omega) executes same discovered
        · exact owned.none returned found leased
    · rw [if_neg last]
      refine ⟨manned.careful, fun _ => owned, (fun _ none => by cases none), (fun starting => by cases starting), ?_, ?_,
        (fun stats ended => by cases ended)⟩
      · intro _ index task found
        exact (joined index task found).imp_right fun member => by simpa [Control.handles] using member
      · exact fun handle member => started handle (by simpa [Control.handles] using member)
  · refine ⟨manned.careful, fun _ => owned, ?_, (fun starting => by cases starting), fun _ => joined, started,
      (fun stats ended => by cases ended)⟩
    intro claimed member
    obtain ⟨row, found, key, _⟩ := discovered claimed member
    exact key ▸ executes.framed.persists.keyed (Database.keyed_of_row found)

theorem spawn (manned : Manned driver) (here : driver.control = .permit batch workers)
    (fetched : Except RelayError (List Event)) : Manned (driver.afterSpawn batch workers fetched) := by
  have owned := manned.owned (by rw [here]; rfl)
  have named := manned.named
  have joined := manned.joined fun error same => by rw [here] at same; cases same
  have started := manned.started
  rw [here] at owned named joined started
  refine ⟨?_, fun _ => ?_, (fun _ none => by cases none), (fun starting => by cases starting), ?_, ?_,
    (fun stats ended => by cases ended)⟩
  · exact manned.careful.spawn (processBatch_standard _ _ _ _ _)
  · exact owned.spawn named fun claimed member => processBatch_owing _ _ _ _ member
  · intro _ index task found
    rcases Pool.spawn_tasks found with old | ⟨last, _⟩
    · exact (joined index task old).imp_right fun member => List.mem_append_left _ member
    · exact .inr (List.mem_append_right _ (List.mem_singleton.mpr last))
  · intro handle member
    have length : (driver.afterSpawn batch workers fetched).pool.tasks.length = driver.pool.tasks.length + 1 :=
      List.length_append
    rw [length]
    rcases List.mem_append.mp member with old | last
    · exact Nat.lt_succ_of_lt (started handle old)
    · rw [List.mem_singleton.mp last]
      exact Nat.lt_succ_self _

/-- The loop goes on with the same tasks, and forgets only handles of tasks that have returned. -/
private theorem of_joining (manned : Manned driver) (batchless : driver.control.batch = [])
    (past : driver.control.starting = false) (inside : handles ++ workers ⊆ driver.control.handles)
    (joined : ∀ (index : Nat) (task : CrawlTask), driver.pool.tasks[index]? = some task →
      index ∈ driver.control.handles → (∃ count, task.prog = .ret (.ok count)) ∨ index ∈ handles ++ workers)
    (running : ∀ error, driver.control ≠ .returned (.error error)) :
    Manned { driver with control := .joining handles workers } := by
  have owned := manned.owned past
  rw [batchless] at owned
  refine ⟨manned.careful, ?_, ?_, ?_, ?_, ?_, ?_⟩
  · rw [Control.joining_batch]
    exact fun _ => owned
  · intro claimed member
    rw [Control.joining_batch] at member
    cases member
  · intro starting
    rw [Control.joining_starting] at starting
    cases starting
  · intro _ index task found
    rw [Control.joining_handles]
    rcases manned.joined running index task found with returned | handle
    · exact .inl returned
    · exact joined index task found handle
  · intro handle member
    rw [Control.joining_handles] at member
    exact manned.started handle (inside member)
  · exact fun stats ended => absurd ended (Control.joining_ne_returned _)

theorem reap (manned : Manned driver) (here : driver.control = .reap workers) (finished : Nat → Bool) :
    Manned { driver with
      control := .joining (workers.filter finished) (workers.filter fun handle => !finished handle) } := by
  have handles : driver.control.handles = workers := by rw [here]; rfl
  apply manned.of_joining
  · rw [here]
    rfl
  · rw [here]
    rfl
  · rw [handles]
    exact List.append_subset.mpr ⟨List.filter_subset_self workers, List.filter_subset_self workers⟩
  · intro index task _ member
    rw [handles] at member
    right
    cases ended : finished index with
    | true => exact List.mem_append_left _ (List.mem_filter.mpr ⟨member, ended⟩)
    | false => exact List.mem_append_right _ (List.mem_filter.mpr ⟨member, by simp [ended]⟩)
  · intro error same
    rw [here] at same
    cases same

theorem join {note : Set Nat} {outcome : Except StoreError Nat} (manned : Manned driver)
    (here : driver.control = .join (handle :: handles) workers)
    (ended : driver.pool.tasks[handle]? = some ⟨note, .ret outcome⟩) :
    Manned (driver.afterJoin handles workers outcome) := by
  cases outcome with
  | error error =>
    have owned := manned.owned (by rw [here]; rfl)
    rw [here] at owned
    refine ⟨manned.careful, fun _ => owned, (fun _ none => by cases none), (fun starting => by cases starting), ?_,
      (fun handle member => by cases member), (fun stats ended => by cases ended)⟩
    exact fun unfailed => absurd rfl (unfailed error)
  | ok count =>
    have current : driver.control.handles = handle :: (handles ++ workers) := by rw [here]; rfl
    apply manned.of_joining
    · rw [here]
      rfl
    · rw [here]
      rfl
    · rw [current]
      exact List.subset_cons_self _ _
    · intro index task found member
      rw [current] at member
      rcases List.mem_cons.mp member with rfl | rest
      · obtain rfl := Option.some.inj (ended.symm.trans found)
        exact .inl ⟨count, rfl⟩
      · exact .inr rest
    · intro error same
      rw [here] at same
      cases same

theorem work {later : CrawlPool} (manned : Manned driver)
    (step : driver.pool.Calls (leasing fun _ => True) index stmt note noted later) :
    Manned { driver with pool := later } := by
  obtain ⟨next, called⟩ := step.found
  obtain ⟨reply, ⟨now, locked, _, executes⟩, _⟩ := step.executed
  have persists := executes.framed.persists
  refine ⟨?_, ?_, ?_, ?_, ?_, ?_, ?_⟩
  · exact manned.careful.calls step fun _ reply issues => issues.2 reply
  · exact fun past => (manned.owned past).calls manned.careful step
  · exact fun claimed member => persists.keyed (manned.named claimed member)
  · intro starting
    rw [manned.idle starting] at called
    cases called
  · intro unfailed other task found
    rcases step.tasks found with ⟨rfl, _⟩ | ⟨_, old⟩
    · right
      refine (manned.joined unfailed other _ called).resolve_left ?_
      intro returned
      obtain ⟨count, impossible⟩ := returned
      cases impossible
    · exact manned.joined unfailed other task old
  · intro handle member
    have length : later.tasks.length = driver.pool.tasks.length := by
      cases step with
      | call found executed => exact List.length_set
    exact length ▸ manned.started handle member
  · intro stats ended
    -- A call that has ended well has no task left to make a statement.
    have handleless : driver.control.handles = [] := by
      rw [show driver.control = .returned (.ok stats) from ended]
      rfl
    have unfailed (error : StoreError) : driver.control ≠ .returned (.error error) := by
      intro same
      cases same.symm.trans ended
    obtain ⟨count, impossible⟩ := manned.returned handleless unfailed _ (List.mem_of_getElem? called)
    cases impossible

/-- Every step keeps the invariant. -/
theorem step (manned : Manned driver) (positive : 1 ≤ batchSize)
    (step : CrawlStep anchor.bytes batchSize driver after) : Manned after := by
  cases step with
  | seed here ran => exact manned.seed here ran
  | reclaim here ran => exact manned.reclaim here ran
  | claim here ran => exact manned.claim here positive ran
  | spawn here free returns => exact manned.spawn here _
  | reap here finished ended => exact manned.reap here finished
  | join here ended => exact manned.join here ended
  | work step => exact manned.work step

end Manned

end WotCrawler.Crawl
