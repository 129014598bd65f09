import WotCrawler.Crawl.Budget
import WotCrawler.Crawl.NewestWins

/-! Why a crawl ends: a claim spends budget, the driver's other steps bring it closer to its end,
and its tasks have only so many statements left. -/

namespace WotCrawler.Crawl

open Effect Store Ingest Relay

/-- How far a driver is from its end, while it claims nothing. -/
def Control.phase : Control → Nat
  | .seed => 3
  | .reclaim => 2
  | .claim workers => 2 * workers.length + 1
  | .permit _ workers => 2 * workers.length + 5
  | .reap workers => 2 * workers.length + 2
  | .join handles workers => 2 * (handles.length + workers.length)
  | .returned _ => 0
  | .panicked => 0

/-- The claims left, then the phase, then the statements left to the tasks. -/
def Driver.measure (bound : Nat) (driver : Driver) : Nat × Nat × Multiset (Prog Sql (Except StoreError Nat)) :=
  (bound - driver.claimed.length, driver.control.phase, driver.pool.remaining)

def Driver.Below (bound : Nat) : Driver → Driver → Prop :=
  InvImage (Prod.Lex (· < ·) (Prod.Lex (· < ·) (Relation.CutExpand Prog.Later))) (Driver.measure bound)

/-- How a call comes to its end: no row was claimed past the budget, and either every row is
resolved or some row's attempts went out of range. -/
structure Exhausted (maxAttempts : Int) (driver : Driver) : Prop where
  budget : ∀ id, driver.claimed.count id ≤ max 1 maxAttempts
  ended : (∃ stats, driver.control = .returned (.ok stats) ∧ ∀ id row, driver.pool.shared.rows id = some row →
      row.columns.status = .fetched ∨ row.columns.status = .notFound ∨ row.columns.status = .failed) ∨
    driver.control = .returned (.error attemptsOverflow)

/-- The invariant of a call that has room for its permits. -/
structure Steady (settings : Settings) (keys : Finset Bytes) (driver : Driver) : Prop where
  settings : driver.settings = settings
  budgeted : Budgeted keys driver
  seated : driver.control ≠ .panicked
  busy : ∀ workers, driver.control ≠ .join [] workers

variable {keys : Finset Bytes} {anchor : PublicKey} {driver after : Driver} {settings : Settings}
  {batchSize : Int} {db : Database} {handles workers : List Nat} {bound : Nat}

theorem Driver.below_wf (bound : Nat) : WellFounded (Driver.Below bound) :=
  InvImage.wf _ (Nat.lt_wfRel.wf.prod_lex (Nat.lt_wfRel.wf.prod_lex Pool.remaining_wf))

private theorem below_of_phase (claimed : after.claimed = driver.claimed)
    (phase : after.control.phase < driver.control.phase) : Driver.Below bound after driver := by
  unfold Driver.Below InvImage Driver.measure
  rw [claimed]
  exact .right _ (.left _ _ phase)

private theorem joining_phase (handles workers : List Nat) :
    (Control.joining handles workers).phase ≤ 2 * (handles.length + workers.length) + 1 := by
  unfold Control.joining
  split
  · simp only [Control.phase]
    omega
  · simp only [Control.phase]
    omega

private theorem joining_busy (handles workers others : List Nat) :
    Control.joining handles workers ≠ .join [] others := by
  unfold Control.joining
  split
  · exact fun same => by cases same
  · rename_i some
    intro same
    obtain ⟨none, _⟩ := Control.join.inj same
    exact some none

private theorem joining_seated (handles workers : List Nat) : Control.joining handles workers ≠ .panicked := by
  unfold Control.joining
  split
  · exact fun same => by cases same
  · exact fun same => by cases same

theorem CrawlStep.settings_eq {anchorPubkey : Bytes} (step : CrawlStep anchorPubkey batchSize driver after) :
    after.settings = driver.settings := by
  cases step with
  | @reclaim reply left here ran => cases reply <;> rfl
  | @claim workers reply left here ran =>
    unfold Driver.afterClaim
    split
    · rfl
    · split <;> rfl
  | _ => rfl

/-- Every step of a call goes down: a claim in the claims left, the driver in its phase, a task in
its statements. -/
private theorem step_below (within : after.claimed.length ≤ bound) (positive : 1 ≤ batchSize)
    (step : CrawlStep anchor.bytes batchSize driver after) : Driver.Below bound after driver := by
  cases step with
  | seed here ran =>
    obtain ⟨id, now, locked, rfl, _⟩ := seedAnchor_executes ran
    refine below_of_phase rfl ?_
    rw [here]
    exact Nat.lt_succ_self 2
  | reclaim here ran =>
    obtain ⟨now, locked, _, rfl, _⟩ := runs_query ran
    refine below_of_phase rfl ?_
    rw [here]
    unfold Driver.afterReclaim
    dsimp only
    split
    · exact Nat.zero_lt_two
    · exact Nat.one_lt_two
  | @claim workers reply left here ran =>
    obtain ⟨now, locked, _, executes⟩ := runs_query ran
    obtain ⟨batch, rfl⟩ := claim_ok (by omega) executes
    unfold Driver.afterClaim at within ⊢
    dsimp only at within ⊢
    split
    · refine below_of_phase rfl ?_
      rw [here]
      dsimp only
      split
      · exact Nat.succ_pos _
      · simp only [Control.phase, List.length_nil]
        omega
    · rename_i some
      rw [if_neg some] at within
      simp only [List.length_append, List.length_map] at within
      have more : 0 < batch.length := List.length_pos_of_ne_nil some
      unfold Driver.Below InvImage Driver.measure
      apply Prod.Lex.left
      simp only [List.length_append, List.length_map]
      omega
  | spawn here free returns =>
    refine below_of_phase rfl ?_
    rw [here]
    simp only [Driver.afterSpawn, Control.phase, List.length_append, List.length_singleton]
    omega
  | @reap workers here finished ended =>
    refine below_of_phase rfl ?_
    have split := workers.length_eq_length_filter_add finished
    rw [here]
    apply Nat.lt_of_le_of_lt (joining_phase _ _)
    rw [← split]
    exact Nat.lt_succ_self _
  | @join handle handles workers note outcome here ended =>
    refine below_of_phase rfl ?_
    rw [here]
    unfold Driver.afterJoin
    cases outcome with
    | error error => simp [Control.phase]
    | ok count =>
      apply Nat.lt_of_le_of_lt (joining_phase _ _)
      simp only [Control.phase, List.length_cons]
      omega
  | work step => exact .right _ (.right _ step.shortens)

/-- A task that has not returned can go on. -/
private theorem work_enabled {task : Task Sql (Set Nat) (Except StoreError Nat)} {index : Nat}
    (found : driver.pool.tasks[index]? = some task) (running : task.prog.returned = false) :
    ∃ after, CrawlStep anchor.bytes batchSize driver after := by
  obtain ⟨note, prog⟩ := task
  cases prog with
  | ret outcome => cases running
  | call stmt next =>
    obtain ⟨reply, left, executed⟩ := sql_total stmt driver.pool.shared
    exact ⟨_, .work (Pool.Calls.noting found executed)⟩

/-- The anchor is seeded over any database. -/
theorem seedAnchor_enabled (anchor : PublicKey) (db : Database) :
    ∃ id left, Runs sql (seedAnchor anchor.bytes).run db (.ok id) left := by
  have wide : ¬ anchor.bytes.length ≠ pubkeyLen := fun differs => differs anchor.width
  obtain ⟨reply, left, ran⟩ : ∃ reply left, Runs sql (seedAnchor anchor.bytes).run db reply left := by
    rw [seedAnchor, upsertPubkey, if_neg wide]
    exact query_total (by trivial) (.upsertPubkey anchor.bytes) db
  obtain ⟨id, _, _, rfl, _⟩ := seedAnchor_executes ran
  exact ⟨id, left, ran⟩

/-- Until the call has returned, some step is possible. -/
private theorem step_enabled (steady : Steady settings keys driver) (concurrent : 1 ≤ settings.concurrency)
    (completes : ∀ batch, ∃ fetched, settings.fetchUnion batch fetched) :
    (∃ result, driver.control = .returned result) ∨ ∃ after, CrawlStep anchor.bytes batchSize driver after := by
  cases here : driver.control with
  | seed =>
    right
    obtain ⟨id, left, ran⟩ := seedAnchor_enabled anchor driver.pool.shared
    exact ⟨_, .seed here ran⟩
  | reclaim =>
    right
    obtain ⟨reply, left, ran⟩ : ∃ reply left, Runs sql reclaimStaleOnStartup.run driver.pool.shared reply left :=
      query_total (by trivial) .reclaimInProgress driver.pool.shared
    exact ⟨_, .reclaim here ran⟩
  | claim workers =>
    right
    obtain ⟨reply, left, ran⟩ : ∃ reply left,
        Runs (sqlWith driver.MayLock) (claimBatch batchSize).run driver.pool.shared reply left :=
      query_total (by exact fun _ => rfl) (.claim batchSize) driver.pool.shared
    exact ⟨_, .claim here ran⟩
  | permit batch workers =>
    right
    by_cases free : driver.inFlight < driver.settings.concurrency
    · obtain ⟨fetched, returns⟩ := completes batch
      exact ⟨_, .spawn here free (steady.settings.symm ▸ returns)⟩
    · -- A permit is held, so its task still runs.
      have held : 0 < driver.inFlight := by
        rw [steady.settings] at free
        omega
      obtain ⟨task, member, running⟩ := List.countP_pos_iff.mp held
      obtain ⟨index, found⟩ := List.mem_iff_getElem?.mp member
      exact work_enabled found (by simpa using running)
  | reap workers => exact .inr ⟨_, .reap here (fun _ => false) fun handle _ impossible => by cases impossible⟩
  | join handles workers =>
    right
    cases handles with
    | nil => exact absurd here (steady.busy workers)
    | cons handle handles =>
      have started := steady.budgeted.manned.started handle (by rw [here]; exact List.mem_cons_self ..)
      obtain ⟨⟨note, prog⟩, found⟩ : ∃ task, driver.pool.tasks[handle]? = some task :=
        ⟨_, List.getElem?_eq_getElem started⟩
      cases prog with
      | ret outcome => exact ⟨_, .join here found⟩
      | call stmt next => exact work_enabled found rfl
  | returned result => exact .inl ⟨result, rfl⟩
  | panicked => exact absurd here steady.seated

/-- Every step keeps the invariant. -/
theorem Steady.step (steady : Steady settings keys driver) (positive : 1 ≤ batchSize)
    (seats : settings.concurrency ≤ maxPermits) (anchored : anchor.bytes ∈ keys)
    (within : ∀ batch events, settings.fetchUnion batch (.ok events) →
      ∀ event ∈ events, ∀ followee ∈ followeeSet event, followee.bytes ∈ keys)
    (step : CrawlStep anchor.bytes batchSize driver after) : Steady settings keys after := by
  have budgeted := steady.budgeted.step positive anchored (steady.settings.symm ▸ within) step
  have settings := step.settings_eq.trans steady.settings
  cases step with
  | seed here ran =>
    obtain ⟨id, now, locked, rfl, _⟩ := seedAnchor_executes ran
    exact ⟨settings, budgeted, (fun same => by cases same), fun workers same => by cases same⟩
  | reclaim here ran =>
    obtain ⟨now, locked, _, rfl, _⟩ := runs_query ran
    have room : ¬ maxPermits < driver.settings.concurrency := by
      rw [steady.settings]
      omega
    refine ⟨settings, budgeted, ?_, ?_⟩
    · simp [Driver.afterReclaim, if_neg room]
    · simp [Driver.afterReclaim, if_neg room]
  | @claim workers reply left here ran =>
    refine ⟨settings, budgeted, ?_, ?_⟩
    · unfold Driver.afterClaim
      cases reply with
      | error error => simp
      | ok batch =>
        dsimp only
        split
        · by_cases last : workers = []
          · simp [last]
          · simp [last]
        · simp
    · intro others
      unfold Driver.afterClaim
      cases reply with
      | error error => simp
      | ok batch =>
        dsimp only
        split
        · by_cases last : workers = []
          · simp [last]
          · simp [last]
        · simp
  | spawn here free returns => exact ⟨settings, budgeted, (fun same => by cases same), fun workers same => by cases same⟩
  | reap here finished ended => exact ⟨settings, budgeted, joining_seated _ _, joining_busy _ _⟩
  | @join handle handles workers note outcome here ended =>
    cases outcome with
    | error error => exact ⟨settings, budgeted, (fun same => by cases same), fun workers same => by cases same⟩
    | ok count => exact ⟨settings, budgeted, joining_seated _ _, joining_busy _ _⟩
  | work step => exact ⟨settings, budgeted, steady.seated, steady.busy⟩

/-- Where the call has returned it is exhausted. -/
theorem Steady.exhausted (steady : Steady settings keys driver) (ended : driver.control = .returned result) :
    Exhausted settings.maxAttempts driver := by
  refine ⟨steady.settings ▸ steady.budgeted.budget, ?_⟩
  cases result with
  | error error =>
    obtain rfl := steady.budgeted.failed error ended
    exact .inr ended
  | ok stats =>
    refine .inl ⟨stats, ended, ?_⟩
    intro id row found
    have resolved := (steady.budgeted.manned.ended stats ended).2 id row found
    cases status : row.columns.status with
    | discovered => exact absurd (.inl status) resolved
    | inProgress => exact absurd (.inr status) resolved
    | fetched => exact .inl rfl
    | notFound => exact .inr (.inl rfl)
    | failed => exact .inr (.inr rfl)

/-- From where the invariant holds, the call comes to its end. -/
theorem Steady.ends (steady : Steady settings keys driver) (positive : 1 ≤ batchSize)
    (concurrent : 1 ≤ settings.concurrency) (seats : settings.concurrency ≤ maxPermits)
    (completes : ∀ batch, ∃ fetched, settings.fetchUnion batch fetched) (anchored : anchor.bytes ∈ keys)
    (within : ∀ batch events, settings.fetchUnion batch (.ok events) →
      ∀ event ∈ events, ∀ followee ∈ followeeSet event, followee.bytes ∈ keys) :
    Inevitably (CrawlStep anchor.bytes batchSize) (Exhausted settings.maxAttempts) driver := by
  apply Inevitably.of_descent
    (Driver.below_wf (keys.card * (max 1 settings.maxAttempts).toNat)) _ _ steady
  intro driver steady
  rcases step_enabled steady concurrent completes with ⟨result, ended⟩ | enabled
  · exact .inl (steady.exhausted ended)
  · refine .inr ⟨enabled, ?_⟩
    intro after step
    have later := steady.step positive seats anchored within step
    have claims := later.budgeted.claims
    rw [later.settings] at claims
    exact ⟨later, step_below claims positive step⟩

/-- A call that starts. -/
theorem Steady.start (settings : Settings) (confined : ∀ id row, db.rows id = some row → row.pubkey ∈ keys) :
    Steady settings keys (.start settings db []) :=
  ⟨rfl, .start settings confined, (fun same => by cases same), fun workers same => by cases same⟩

/-- The keys that rows may have: those of the given rows, the anchor's and the named ones. -/
def keysWithin (db : Database) (anchor : PublicKey) (named : Finset PublicKey) : Finset Bytes :=
  (insert anchor named).image PublicKey.bytes ∪
    ((List.range db.nextId).filterMap fun id => (db.rows id).map PubkeyRow.pubkey).toFinset

theorem mem_keysWithin_of_row {named : Finset PublicKey} {id : Nat} {row : PubkeyRow} (found : db.rows id = some row) :
    row.pubkey ∈ keysWithin db anchor named := by
  apply Finset.mem_union_right
  rw [List.mem_toFinset, List.mem_filterMap]
  exact ⟨id, List.mem_range.mpr (db.ids id (by simp [found])), by simp [found]⟩

theorem mem_keysWithin {named : Finset PublicKey} {author : PublicKey} (member : author ∈ insert anchor named) :
    author.bytes ∈ keysWithin db anchor named :=
  Finset.mem_union_left _ (Finset.mem_image_of_mem _ member)

/-- A call that starts over any rows, with the followees it can be told of among the named keys. -/
theorem exhausts_within (named : Finset PublicKey) (positive : 1 ≤ batchSize) (concurrent : 1 ≤ settings.concurrency)
    (seats : settings.concurrency ≤ maxPermits) (completes : ∀ batch, ∃ fetched, settings.fetchUnion batch fetched)
    (confined : ∀ batch events, settings.fetchUnion batch (.ok events) →
      ∀ event ∈ events, ∀ followee ∈ followeeSet event, followee.bytes ∈ keysWithin db anchor named) :
    Inevitably (CrawlStep anchor.bytes batchSize) (Exhausted settings.maxAttempts) (.start settings db []) := by
  have anchored : anchor.bytes ∈ keysWithin db anchor named := mem_keysWithin (Finset.mem_insert_self ..)
  have start : Steady settings (keysWithin db anchor named) (.start settings db []) :=
    .start settings fun id row found => mem_keysWithin_of_row found
  exact start.ends positive concurrent seats completes anchored confined

private theorem panicked_stuck {anchorPubkey : Bytes} (here : driver.control = .panicked)
    (none : driver.pool.tasks = []) : ¬ CrawlStep anchorPubkey batchSize driver after := by
  intro step
  cases step with
  | seed other ran => cases here.symm.trans other
  | reclaim other ran => cases here.symm.trans other
  | claim other ran => cases here.symm.trans other
  | spawn other free returns => cases here.symm.trans other
  | reap other finished ended => cases here.symm.trans other
  | join other ended => cases here.symm.trans other
  | work step =>
    obtain ⟨next, called⟩ := step.found
    rw [none] at called
    cases called

/-- With more permits than a semaphore has the call panics, so that it never returns. -/
theorem crowded_panics {goal : Driver → Prop} (crowded : maxPermits < settings.concurrency)
    (returns : ∀ driver, goal driver → ∃ result, driver.control = .returned result) (claimed : List Nat) :
    ¬ Inevitably (CrawlStep anchor.bytes batchSize) goal (.start settings db claimed) := by
  have short {driver : Driver} (other : ∀ result, driver.control ≠ .returned result) : ¬ goal driver := by
    intro reached
    obtain ⟨result, same⟩ := returns driver reached
    exact other result same
  intro inevitable
  obtain ⟨id, left, seeds⟩ := seedAnchor_enabled anchor db
  have begun := inevitable.next (short fun _ same => by cases same) (.seed rfl seeds)
  obtain ⟨reply, swept, sweeps⟩ : ∃ reply swept, Runs sql reclaimStaleOnStartup.run left reply swept :=
    query_total (by trivial) .reclaimInProgress left
  obtain ⟨_, _, _, rfl, _⟩ := runs_query sweeps
  have panicked := begun.next (short fun _ same => by cases same) (.reclaim rfl sweeps)
  have here : (((Driver.start settings db claimed).afterSeed left (.ok id)).afterReclaim swept
      (.ok (left.selected Columns.isInProgress))).control = .panicked := if_pos crowded
  refine short (fun _ same => ?_) (panicked.stuck fun _ => panicked_stuck here rfl)
  cases here.symm.trans same

/-- A crawl over any database comes to its end within the retry budget, whatever its fetches return
and whatever the order of its tasks, unless it asks for more permits than a semaphore has. -/
theorem crawl_terminates (settings : Settings) (db : Database) (anchor : PublicKey) (batchSize : Int)
    (named : Finset PublicKey) (positive : 1 ≤ batchSize) (concurrent : 1 ≤ settings.concurrency)
    (seats : settings.concurrency ≤ maxPermits) (completes : ∀ batch, ∃ fetched, settings.fetchUnion batch fetched)
    (within : ∀ batch events, settings.fetchUnion batch (.ok events) → ∀ event ∈ events, followeeSet event ⊆ named) :
    Inevitably (CrawlStep anchor.bytes batchSize) (Exhausted settings.maxAttempts) (.start settings db []) := by
  apply exhausts_within named positive concurrent seats completes
  intro batch events returns event member followee inside
  exact mem_keysWithin (Finset.mem_insert_of_mem (within batch events returns event member inside))

/-- A fetch that fails, or returns nothing, as it likes. -/
def fickleSettings (concurrency : Nat) : Settings where
  concurrency := concurrency
  gate := ⟨versionsVerifier.verify, Kind.contactList, 100, 0, 10⟩
  maxAttempts := 3
  fetchUnion := fun _ fetched => fetched = .ok [] ∨ fetched = .error (.fetchTimeout "")

/-- The theorem at that fetch. -/
theorem crawl_terminates_fickle :
    Inevitably (CrawlStep sampleAuthor.bytes 2) (Exhausted 3) (.start (fickleSettings 1) Database.empty []) := by
  apply crawl_terminates (fickleSettings 1) Database.empty sampleAuthor 2 ∅
  · omega
  · exact Nat.le_refl 1
  · decide
  · exact fun _ => ⟨.ok [], .inl rfl⟩
  · intro batch events returns event member
    rcases returns with same | same
    · obtain rfl := Except.ok.inj same
      cases member
    · cases same

/-- A call that asks for more permits than a semaphore has. -/
theorem crawl_terminates_fails : 1 ≤ (fickleSettings (2 ^ 61)).concurrency ∧
    (∀ batch, ∃ fetched, (fickleSettings (2 ^ 61)).fetchUnion batch fetched) ∧
    (∀ batch events, (fickleSettings (2 ^ 61)).fetchUnion batch (.ok events) → ∀ event ∈ events, followeeSet event ⊆ ∅) ∧
    ¬ Inevitably (CrawlStep sampleAuthor.bytes 2) (Exhausted 3) (.start (fickleSettings (2 ^ 61)) Database.empty []) := by
  refine ⟨Nat.one_le_two_pow, fun _ => ⟨.ok [], .inl rfl⟩, ?_, ?_⟩
  · intro batch events returns event member
    rcases returns with same | same
    · obtain rfl := Except.ok.inj same
      cases member
    · cases same
  · apply crowded_panics
    · exact Nat.sub_lt (Nat.two_pow_pos 61) Nat.one_pos
    · intro driver exhausted
      rcases exhausted.ended with ⟨stats, ended, _⟩ | ended
      · exact ⟨_, ended⟩
      · exact ⟨_, ended⟩

end WotCrawler.Crawl
