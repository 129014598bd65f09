import WotCrawler.Daemon.Attempts
import WotCrawler.Daemon.Joining
import WotCrawler.Sequence.Queue

/-! How long a row of the frontier can wait: a claim takes the lowest ids, so only older rows pass it by,
each of them no more often than its attempts last. -/

namespace WotCrawler.Daemon

open Effect Store Ingest Relay Crawl Sequence

/-- A claim passes a discovered row by that no transaction has locked. -/
structure Overtakes (db : Database) (locked : Finset Nat) (batch : List ClaimedAuthor) (id : Nat) : Prop where
  discovered : ∃ row, db.rows id = some row ∧ row.columns.status = .discovered
  unlocked : id ∉ locked
  left : id ∉ batch.map ClaimedAuthor.id

/-- A stretch of a run, with the batches that have passed a row by and how often the sweeps have reset each
row. -/
inductive DaemonLoop.Stretch (anchorPubkey : Bytes) (batchSize : Int) (id : Nat) (start : DaemonLoop) :
    DaemonLoop → List (List Nat) → (Nat → Nat) → Prop where
  | start : Stretch anchorPubkey batchSize id start start [] fun _ => 0
  | overtaken (stretch : Stretch anchorPubkey batchSize id start loop passed resets) (here : loop.control = .claim workers)
      (executes : Stmt.Executes now locked (.claim batchSize) loop.pool.shared (.ok batch) left)
      (overtakes : Overtakes loop.pool.shared locked batch id) :
      Stretch anchorPubkey batchSize id start (loop.afterClaim workers left batch)
        (passed ++ [batch.map ClaimedAuthor.id]) resets
  | claim (stretch : Stretch anchorPubkey batchSize id start loop passed resets) (here : loop.control = .claim workers)
      (executes : Stmt.Executes now locked (.claim batchSize) loop.pool.shared (.ok batch) left)
      (spares : ¬ Overtakes loop.pool.shared locked batch id) :
      Stretch anchorPubkey batchSize id start (loop.afterClaim workers left batch) passed resets
  | sweep (stretch : Stretch anchorPubkey batchSize id start loop passed resets) (timer : TimerStmt stmt)
      (executes : stmt.Executes now locked loop.pool.shared reply left) :
      Stretch anchorPubkey batchSize id start { loop with pool := loop.pool.disturb left } passed
        fun other => resets other + if sweptRows now stmt loop.pool.shared other then 1 else 0
  | step (stretch : Stretch anchorPubkey batchSize id start loop passed resets)
      (step : loop.Step anchorPubkey batchSize (fun _ => False) after)
      (takes : after.control.batch = [] ∨ after.control.batch = loop.control.batch) :
      Stretch anchorPubkey batchSize id start after passed resets

/-- The rows discovered before. -/
def older (db : Database) (id : Nat) : Finset Nat := (Finset.range id).filter fun other => (db.rows other).isSome

theorem older_persists {before after : Database} {id other : Nat} (persists : Persists before after)
    (member : other ∈ older before id) : other ∈ older after id := by
  obtain ⟨inside, stands⟩ := Finset.mem_filter.mp member
  obtain ⟨row, found⟩ := Option.isSome_iff_exists.mp stands
  obtain ⟨columns, there⟩ := persists other row found
  exact Finset.mem_filter.mpr ⟨inside, by simp [there]⟩

variable {settings : LoopSettings} {anchorPubkey : Bytes} {batchSize maxAttempts : Int} {timers : Stmt → Prop}
  {start loop after : DaemonLoop} {pool later : CrawlPool} {batch waiting : List ClaimedAuthor} {db left : Database}
  {locked : Finset Nat} {index : Nat} {passed : List (List Nat)} {resets : Nat → Nat} {id : Nat}

/-- Whatever is claimed instead of a row fills its batch, and is older. -/
theorem Overtakes.spec {limit : Int} (overtakes : Overtakes db locked batch id)
    (executes : Stmt.Executes now locked (.claim limit) db (.ok batch) left) :
    batch.length = limit.toNat ∧ ∀ other ∈ batch.map ClaimedAuthor.id, other < id := by
  obtain ⟨row, found, status⟩ := overtakes.discovered
  simp only [Stmt.Executes] at executes
  split at executes
  · cases executes.1
  · obtain ⟨rows, answered, listed, _⟩ := executes
    obtain rfl := Except.ok.inj answered
    have waits : id ∈ (List.range db.nextId).filter fun id =>
        (db.rows id).any (fun row => row.columns.status = .discovered) ∧ id ∉ locked := by
      simp [db.ids id (by simp [found]), found, status, overtakes.unlocked]
    have ordered : (List.range db.nextId).Pairwise (· < ·) := List.pairwise_lt_range
    obtain ⟨full, precede⟩ := take_passes (ordered.filter _) waits fun taken => overtakes.left (listed.mem_iff.mpr taken)
    exact ⟨(List.length_map _).symm.trans (listed.length_eq.trans full), fun other member => precede other (listed.mem_iff.mp member)⟩

/-- What has passed a row by: each row only as often as its attempts last, and anew after each reset. -/
structure Passing (maxAttempts batchSize : Int) (id : Nat) (pool : CrawlPool) (passed : List (List Nat))
    (resets : Nat → Nat) : Prop where
  careful : pool.Each fun _ prog => prog.Issues (WorkerStmt maxAttempts)
  full : ∀ batch ∈ passed, batch.length = batchSize.toNat
  among : ∀ other ∈ passed.flatten, other ∈ older pool.shared id
  affords : ∀ other row, pool.shared.rows other = some row → ∃ spent, Affords maxAttempts spent row.columns ∧
    (passed.flatten.count other : Int) ≤ max 1 maxAttempts * resets other + spent

namespace Passing

/-- Nothing has passed yet. -/
theorem empty (careful : pool.Each fun _ prog => prog.Issues (WorkerStmt maxAttempts)) :
    Passing maxAttempts batchSize id pool [] fun _ => 0 where
  careful := careful
  full := fun batch member => by cases member
  among := fun other member => by cases member
  affords := fun other row _ => ⟨0, .zero maxAttempts row.columns, by simp⟩

private theorem unpassed {other : Nat} (passing : Passing maxAttempts batchSize id pool passed resets)
    (absent : pool.shared.rows other = none) : passed.flatten.count other = 0 := by
  apply List.count_eq_zero_of_not_mem
  intro member
  have stands := (Finset.mem_filter.mp (passing.among other member)).2
  rw [absent] at stands
  cases stands

/-- A claim costs each of its rows one attempt, or the first. -/
private theorem claimed {limit : Int} (passing : Passing maxAttempts batchSize id pool passed resets)
    (executes : Stmt.Executes now locked (.claim limit) pool.shared (.ok batch) left) :
    ∀ other row, left.rows other = some row → ∃ spent, Affords maxAttempts spent row.columns ∧
      (passed.flatten.count other : Int) + (if other ∈ batch.map ClaimedAuthor.id then 1 else 0) ≤
        max 1 maxAttempts * resets other + spent := by
  obtain ⟨_, discovered, made⟩ := claim_spec executes
  intro other row found
  rw [made] at found
  by_cases member : other ∈ batch.map ClaimedAuthor.id
  · obtain ⟨claimed, listed, rfl⟩ := List.mem_map.mp member
    obtain ⟨old, present, _, status⟩ := discovered claimed listed
    rw [Database.claim_rows_of_mem member present] at found
    obtain rfl := Option.some.inj found
    obtain ⟨spent, affords, counted⟩ := passing.affords claimed.id old present
    refine ⟨spent + 1, affords.claim status _, ?_⟩
    rw [if_pos member]
    push_cast
    omega
  · rw [Database.claim_rows_of_notMem member] at found
    obtain ⟨spent, affords, counted⟩ := passing.affords other row found
    exact ⟨spent, affords, by rwa [if_neg member, add_zero]⟩

theorem overtaken (passing : Passing maxAttempts batchSize id pool passed resets)
    (executes : Stmt.Executes now locked (.claim batchSize) pool.shared (.ok batch) left)
    (overtakes : Overtakes pool.shared locked batch id) :
    Passing maxAttempts batchSize id (pool.disturb left) (passed ++ [batch.map ClaimedAuthor.id]) resets := by
  obtain ⟨full, before⟩ := overtakes.spec executes
  obtain ⟨nodup, discovered, _⟩ := claim_spec executes
  refine ⟨passing.careful, ?_, ?_, ?_⟩
  · intro batch member
    rcases List.mem_append.mp member with earlier | last
    · exact passing.full batch earlier
    · rw [List.mem_singleton.mp last, List.length_map, full]
  · intro other member
    rw [List.flatten_append, List.flatten_singleton, List.mem_append] at member
    rcases member with earlier | last
    · exact older_persists executes.framed.persists (passing.among other earlier)
    · obtain ⟨claimed, listed, rfl⟩ := List.mem_map.mp last
      obtain ⟨row, found, _⟩ := discovered claimed listed
      have present : claimed.id ∈ older pool.shared id :=
        Finset.mem_filter.mpr ⟨Finset.mem_range.mpr (before claimed.id last), by simp [found]⟩
      exact older_persists executes.framed.persists present
  · intro other row found
    obtain ⟨spent, affords, counted⟩ := passing.claimed executes other row found
    refine ⟨spent, affords, ?_⟩
    rwa [List.flatten_append, List.flatten_singleton, List.count_append, nodup.count, Nat.cast_add, Nat.cast_ite,
      Nat.cast_one, Nat.cast_zero]

theorem claim {limit : Int} (passing : Passing maxAttempts batchSize id pool passed resets)
    (executes : Stmt.Executes now locked (.claim limit) pool.shared (.ok batch) left) :
    Passing maxAttempts batchSize id (pool.disturb left) passed resets := by
  refine ⟨passing.careful, passing.full, ?_, ?_⟩
  · exact fun other member => older_persists executes.framed.persists (passing.among other member)
  · intro other row found
    obtain ⟨spent, affords, counted⟩ := passing.claimed executes other row found
    refine ⟨spent, affords, ?_⟩
    split at counted <;> omega

theorem work (passing : Passing maxAttempts batchSize id pool passed resets)
    (step : pool.Calls (leasing fun _ => True) index stmt note noted later) :
    Passing maxAttempts batchSize id later passed resets := by
  obtain ⟨reply, ⟨now, locked, _, executes⟩, _⟩ := step.executed
  obtain ⟨next, called⟩ := step.found
  refine ⟨passing.careful.calls step fun _ reply issues => issues.2 reply, passing.full, ?_, ?_⟩
  · exact fun other member => older_persists executes.framed.persists (passing.among other member)
  · intro other row found
    rcases executes.evolves found with ⟨absent, _, _⟩ | ⟨old, present, _, moves⟩
    · refine ⟨0, .zero maxAttempts row.columns, ?_⟩
      rw [passing.unpassed absent]
      positivity
    · obtain ⟨spent, affords, counted⟩ := passing.affords other old present
      exact ⟨spent, affords.worker (passing.careful index _ called).1 moves, counted⟩

/-- A sweep gives the rows it resets all their attempts again. -/
theorem sweep {selects : Columns → Bool} (passing : Passing maxAttempts batchSize id pool passed resets) :
    Passing maxAttempts batchSize id (pool.disturb (pool.shared.sweep selects)) passed fun other =>
      resets other + if (pool.shared.rows other).any fun row => selects row.columns then 1 else 0 := by
  refine ⟨passing.careful, passing.full, ?_, ?_⟩
  · intro other member
    obtain ⟨inside, stands⟩ := Finset.mem_filter.mp (passing.among other member)
    exact Finset.mem_filter.mpr ⟨inside, by simpa [Pool.disturb, Database.sweep] using stands⟩
  · intro other row found
    obtain ⟨old, present, rfl⟩ := Option.map_eq_some_iff.mp found
    obtain ⟨spent, affords, counted⟩ := passing.affords other old present
    rw [present]
    dsimp only
    cases selected : selects old.columns with
    | true =>
      refine ⟨0, .zero maxAttempts _, ?_⟩
      have capped := affords.capped
      rw [if_pos (by simp [selected])]
      push_cast
      linarith
    | false => exact ⟨spent, affords, by simpa [selected] using counted⟩

theorem timer {stmt : Stmt} {reply : Except StoreError stmt.Ret}
    (passing : Passing maxAttempts batchSize id pool passed resets) (timer : TimerStmt stmt)
    (executes : stmt.Executes now locked pool.shared reply left) :
    Passing maxAttempts batchSize id (pool.disturb left) passed fun other =>
      resets other + if sweptRows now stmt pool.shared other then 1 else 0 := by
  cases stmt with
  | reclaimStale ttlSecs =>
    obtain ⟨_, rfl⟩ := executes
    exact passing.sweep
  | reclaimExpired ageSecs =>
    obtain ⟨_, rfl⟩ := executes
    exact passing.sweep
  | _ => cases timer

/-- A step that claims nothing. -/
theorem touches (passing : Passing settings.maxAttempts batchSize id pool passed resets)
    (touches : Touches settings batchSize (fun _ => False) pool batch later waiting) :
    Passing settings.maxAttempts batchSize id later passed resets := by
  cases touches with
  | still => exact passing
  | claim executes => exact passing.claim executes
  | spawn free works => exact ⟨passing.careful.spawn works.standard, passing.full, passing.among, passing.affords⟩
  | work step => exact passing.work step
  | fail found running error => exact ⟨passing.careful.drop trivial, passing.full, passing.among, passing.affords⟩
  | sweep timer fires executed => exact fires.elim

/-- So many batches can have passed. -/
theorem bounded (passing : Passing maxAttempts batchSize id pool passed resets) :
    passed.length * batchSize.toNat ≤ ∑ other ∈ older pool.shared id, (max 1 maxAttempts).toNat * (1 + resets other) := by
  rw [← length_flatten_of_uniform passing.full]
  apply length_le_sum_of_count passing.among
  intro other member
  obtain ⟨row, found⟩ := Option.isSome_iff_exists.mp (Finset.mem_filter.mp member).2
  obtain ⟨spent, affords, counted⟩ := passing.affords other row found
  have capped := affords.capped
  have budget : ((max 1 maxAttempts).toNat : Int) = max 1 maxAttempts := Int.toNat_of_nonneg (by omega)
  zify
  rw [budget]
  linarith

end Passing

namespace DaemonLoop

/-- A stretch is one of a run. -/
theorem Stretch.invariant (run : Run anchorPubkey batchSize timers settings db start)
    (inside : start.control.entered = true) (stretch : start.Stretch anchorPubkey batchSize id after passed resets) :
    after.settings = settings ∧ after.control.entered = true ∧
      Passing settings.maxAttempts batchSize id after.pool passed resets := by
  induction stretch with
  | start => exact ⟨run.settings_eq, inside, .empty (Staffed.run run inside).careful⟩
  | @overtaken loop passed resets workers now locked batch left _ here executes overtakes ih =>
    obtain ⟨same, _, passing⟩ := ih
    have passed := passing.overtaken executes overtakes
    unfold afterClaim
    split
    · exact ⟨same, rfl, passed⟩
    · exact ⟨same, rfl, passed⟩
  | @claim loop passed resets workers now locked batch left _ here executes spares ih =>
    obtain ⟨same, _, passing⟩ := ih
    have claimed := passing.claim executes
    unfold afterClaim
    split
    · exact ⟨same, rfl, claimed⟩
    · exact ⟨same, rfl, claimed⟩
  | sweep _ timer executes ih => exact ⟨ih.1, ih.2.1, ih.2.2.timer timer executes⟩
  | step _ step takes ih =>
    obtain ⟨same, entered, passing⟩ := ih
    have touched := step.touches entered
    rw [same] at touched
    exact ⟨step.keeps_settings.trans same, step.entered entered, passing.touches touched⟩

/-- Every further run is a stretch. -/
theorem Stretch.run (id : Nat) (further : Relation.ReflTransGen (Step anchorPubkey batchSize timers) start after) :
    ∃ passed resets, start.Stretch anchorPubkey batchSize id after passed resets := by
  induction further with
  | refl => exact ⟨_, _, .start⟩
  | @tail loop after _ step ih =>
    obtain ⟨passed, resets, stretch⟩ := ih
    have quiet (step : loop.Step anchorPubkey batchSize (fun _ => False) after)
        (takes : after.control.batch = [] ∨ after.control.batch = loop.control.batch) :
        ∃ passed resets, start.Stretch anchorPubkey batchSize id after passed resets := ⟨_, _, stretch.step step takes⟩
    cases step with
    | @claim workers batch left here ran =>
      obtain ⟨now, locked, _, executes⟩ := runs_query ran
      by_cases overtakes : Overtakes loop.pool.shared locked batch id
      · exact ⟨_, _, stretch.overtaken here executes overtakes⟩
      · exact ⟨_, _, stretch.claim here executes overtakes⟩
    | sweep timer fires executed =>
      obtain ⟨now, locked, _, executes⟩ := executed
      exact ⟨_, _, stretch.sweep timer executes⟩
    | seed here ran => exact quiet (.seed here ran) (.inl rfl)
    | reclaim here ran =>
      apply quiet (.reclaim here ran)
      unfold afterReclaim
      dsimp only
      split <;> exact .inl rfl
    | startFails here error => exact quiet (.startFails here error) (.inl rfl)
    | top here =>
      apply quiet (.top here)
      unfold afterTop
      dsimp only
      split <;> exact .inl rfl
    | claimFails here error => exact quiet (.claimFails here error) (.inl rfl)
    | spawn here free works => exact quiet (.spawn here free works) (.inl rfl)
    | reap here finished ended => exact quiet (.reap here finished ended) (.inl LoopControl.joining_batch)
    | join here ended =>
      rename_i outcome
      apply quiet (.join here ended)
      cases outcome with
      | ok count => exact .inl LoopControl.joining_batch
      | error error => exact .inl rfl
    | await here ended => exact quiet (.await here ended) (.inl rfl)
    | drained here =>
      rename_i final firstErr
      apply quiet (.drained here)
      cases firstErr with
      | some error => exact .inl rfl
      | none => cases final <;> exact .inl rfl
    | sleep here => exact quiet (.sleep here) (.inl rfl)
    | wake here cancelled => exact quiet (.wake here cancelled) (.inl rfl)
    | work step => exact quiet (.work step) (.inr rfl)
    | fail found running error => exact quiet (.fail found running error) (.inr rfl)
    | cancel => exact quiet .cancel (.inr rfl)

end DaemonLoop

/-- No row of the frontier starves. In every stretch of every run, the batches that pass a discovered row by are
full and of older rows; and there are no more of them than the older rows, each as often as its attempts last and
anew for each time a sweep has reset it, fill. -/
theorem overtaking_bounded (run : DaemonLoop.Run anchorPubkey batchSize timers settings db start)
    (inside : start.control.entered = true) (id : Nat) :
    (∀ after, Relation.ReflTransGen (DaemonLoop.Step anchorPubkey batchSize timers) start after →
      ∃ passed resets, start.Stretch anchorPubkey batchSize id after passed resets) ∧
    ∀ after passed resets, start.Stretch anchorPubkey batchSize id after passed resets →
      (∀ batch ∈ passed, batch.length = batchSize.toNat ∧ ∀ other ∈ batch, other ∈ older after.pool.shared id) ∧
        passed.length * batchSize.toNat ≤
          ∑ other ∈ older after.pool.shared id, (max 1 settings.maxAttempts).toNat * (1 + resets other) := by
  refine ⟨fun after further => DaemonLoop.Stretch.run id further, ?_⟩
  intro after passed resets stretch
  obtain ⟨_, _, passing⟩ := stretch.invariant run inside
  refine ⟨?_, passing.bounded⟩
  intro batch member
  exact ⟨passing.full batch member, fun other listed => passing.among other (List.mem_flatten.mpr ⟨batch, member, listed⟩)⟩

section Example

private def nextKey : Bytes := List.replicate 32 2

private def twoDiscovered : Database := ((Database.empty.upsert soleKey).2.upsert nextKey).2

private def betweenBatches : DaemonLoop :=
  ⟨soleSettings, ⟨twoDiscovered.sweep Columns.isInProgress, []⟩, .claim [], ⟨0, 0, 0⟩, true, false, []⟩

private theorem betweenBatches_run :
    DaemonLoop.Run nextKey 1 (fun _ => False) soleSettings (Database.empty.upsert soleKey).2 betweenBatches := by
  have seeds : Runs sql (seedAnchor nextKey).run (Database.empty.upsert soleKey).2 (.ok 2) twoDiscovered :=
    .call ⟨0, ∅, trivial, by decide, rfl⟩ .ret
  have reclaims : Runs sql reclaimStaleOnStartup.run twoDiscovered (.ok 0) (twoDiscovered.sweep Columns.isInProgress) :=
    .call ⟨0, ∅, trivial, by decide, rfl⟩ .ret
  have started : DaemonLoop.Run nextKey 1 (fun _ => False) soleSettings (Database.empty.upsert soleKey).2 _ := .refl
  exact ((started.tail (.seed rfl seeds)).tail (.reclaim rfl reclaims)).tail (.top rfl)

/-- The theorem where the first of two rows is claimed, before the anchor. -/
theorem overtaking_bounded_anchor : ∃ after,
    betweenBatches.Stretch nextKey 1 2 after [[1]] (fun _ => 0) ∧ [[1]].length ≤ (older after.pool.shared 2).card * 3 := by
  have row : betweenBatches.pool.shared.rows 1 = some ⟨soleKey, Columns.default⟩ := by decide
  have claimable : betweenBatches.pool.shared.claimable ∅ 1 = [1] := by decide
  have overtakes : Overtakes betweenBatches.pool.shared ∅ [Fleet.soleAuthor] 2 :=
    ⟨⟨⟨nextKey, Columns.default⟩, by decide, rfl⟩, by decide, by decide⟩
  have stretch : betweenBatches.Stretch nextKey 1 2 _ [[1]] fun _ => 0 :=
    .overtaken .start rfl (Fleet.sole_claimed row claimable 0) overtakes
  have passed := ((overtaking_bounded betweenBatches_run rfl 2).2 _ _ _ stretch).2
  exact ⟨_, stretch, by simpa [soleSettings] using passed⟩

end Example

end WotCrawler.Daemon
