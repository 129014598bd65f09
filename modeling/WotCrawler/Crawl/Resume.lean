import WotCrawler.Crawl.Component

/-! Crashes: a call that is started again over what the last one left comes to the same store, and
claims no fetched row again. -/

namespace WotCrawler.Crawl

open Effect Store Ingest Relay

/-- The same keys, with the same status and edges of each. Ids may differ. -/
structure SameByKey (left right : Database) : Prop where
  keys : ∀ key, (∃ id, left.keyed id key) ↔ ∃ id, right.keyed id key
  status : ∀ first second row other, left.rows first = some row → right.rows second = some other →
    row.pubkey = other.pubkey → row.columns.status = other.columns.status
  follows : ∀ first second key followee, left.keyed first key → right.keyed second key →
    (left.followsKey first followee ↔ right.followsKey second followee)

/-- A row that was fetched stays fetched, and is not claimed again. -/
def Spares (before after : Driver) : Prop :=
  ∀ id row, before.pool.shared.rows id = some row → row.columns.status = .fetched →
    after.claimed.count id = before.claimed.count id ∧
      ∃ kept, after.pool.shared.rows id = some kept ∧ kept.columns.status = .fetched

/-- A call that claims nothing, its limit being zero or less: the anchor's row is all there is. -/
structure Dormant (anchor : PublicKey) (driver : Driver) : Prop where
  idle : driver.pool.tasks = []
  permitless : ∀ batch workers, driver.control ≠ .permit batch workers
  rows : ∀ id row, driver.pool.shared.rows id = some row → row = ⟨anchor.bytes, Columns.default⟩
  edgeless : driver.pool.shared.follows = ∅
  anchored : driver.control ≠ .seed → ∃ id, driver.pool.shared.keyed id anchor.bytes

variable {graph : ScriptedGraph} {verifier : Verifier} {admits : Event → Bool} {anchor : PublicKey}
  {driver after middle : Driver} {settings : Settings} {batchSize : Int} {first second db left : Database}

/-- One graph has one component. -/
theorem Component.same (here : Component graph anchor first) (there : Component graph anchor second) :
    SameByKey first second where
  keys := fun key => (here.keys key).trans (there.keys key).symm
  status := by
    intro left right row other found present same
    obtain ⟨author, _, key⟩ := (here.keys row.pubkey).mp ⟨left, Database.keyed_of_row found⟩
    rw [here.status left row author found key, there.status right other author present (key.trans same)]
  follows := by
    intro left right key followee keyed standing
    obtain ⟨author, _, rfl⟩ := (here.keys key).mp ⟨left, keyed⟩
    exact (here.follows left author followee keyed).trans (there.follows right author followee standing).symm

namespace Spares

theorem refl (driver : Driver) : Spares driver driver :=
  fun _ row found fetched => ⟨rfl, row, found, fetched⟩

theorem trans (earlier : Spares driver middle) (later : Spares middle after) : Spares driver after := by
  intro id row found fetched
  obtain ⟨count, kept, present, still⟩ := earlier id row found fetched
  obtain ⟨counted, last, there, ended⟩ := later id kept present still
  exact ⟨counted.trans count, last, there, ended⟩

/-- The same claims, and a store in which each fetched row is as it was. -/
private theorem of_kept (claimed : after.claimed = driver.claimed)
    (kept : ∀ id row, driver.pool.shared.rows id = some row → row.columns.status = .fetched →
      after.pool.shared.rows id = some row) : Spares driver after := by
  intro id row found fetched
  exact ⟨by rw [claimed], row, kept id row found fetched, fetched⟩

end Spares

private theorem claim_spares {reply : Except StoreError (List ClaimedAuthor)} {workers : List Nat}
    (positive : 1 ≤ batchSize)
    (ran : Runs (sqlWith driver.MayLock) (claimBatch batchSize).run driver.pool.shared reply left) :
    Spares driver (driver.afterClaim workers left reply) := by
  obtain ⟨now, locked, _, executes⟩ := runs_query ran
  obtain ⟨batch, rfl⟩ := claim_ok (by omega) executes
  obtain ⟨_, discovered, made⟩ := claim_spec executes
  have apart (id : Nat) (row : PubkeyRow) (found : driver.pool.shared.rows id = some row)
      (fetched : row.columns.status = .fetched) : id ∉ batch.map ClaimedAuthor.id := by
    intro member
    obtain ⟨claimed, listed, rfl⟩ := List.mem_map.mp member
    obtain ⟨other, present, _, status⟩ := discovered claimed listed
    obtain rfl := Option.some.inj (found.symm.trans present)
    cases status.symm.trans fetched
  have kept (id : Nat) (row : PubkeyRow) (found : driver.pool.shared.rows id = some row)
      (fetched : row.columns.status = .fetched) : left.rows id = some row := by
    rw [made, Database.claim_rows_of_notMem (apart id row found fetched), found]
  unfold Driver.afterClaim
  dsimp only
  split
  · exact .of_kept rfl kept
  · intro id row found fetched
    refine ⟨?_, row, kept id row found fetched, fetched⟩
    rw [List.count_append, List.count_eq_zero_of_not_mem (apart id row found fetched), Nat.add_zero]

/-- A step of a crawl that is served a graph. -/
theorem Sound.spares (sound : Sound graph anchor driver) (positive : 1 ≤ batchSize)
    (step : CrawlStep anchor.bytes batchSize driver after) : Spares driver after := by
  cases step with
  | seed here ran =>
    obtain ⟨id, now, locked, rfl, executes, _⟩ := seedAnchor_executes ran
    exact .of_kept rfl fun id row found _ =>
      executes.framed.columns rfl id row found fun other => by cases other
  | @reclaim reply left here ran =>
    obtain ⟨now, locked, _, rfl, swept⟩ := runs_query ran
    refine Spares.of_kept rfl ?_
    intro id row found fetched
    have kept : left.rows id = some row := by
      rw [swept]
      simp [Database.sweep, found, Columns.isInProgress, fetched]
    exact kept
  | claim here ran => exact claim_spares positive ran
  | spawn here free returns => exact .of_kept rfl fun _ _ found _ => found
  | reap here finished ended => exact .of_kept rfl fun _ _ found _ => found
  | join here ended => exact .of_kept rfl fun _ _ found _ => found
  | @work index stmt note noted later step =>
    obtain ⟨next, called⟩ := step.found
    have charts := sound.tended.guarded.keeps step
    refine Spares.of_kept rfl ?_
    intro id row found fetched
    apply charts.framed.columns charts.single id row found
    -- What a task writes is in progress.
    intro writes
    obtain ⟨old, present, leased⟩ := sound.tended.leases id ⟨index, _, called, (charts.owned id writes).1⟩
    obtain rfl := Option.some.inj (found.symm.trans present)
    cases leased.symm.trans fetched

/-- A run without crashes. -/
private theorem life_of_crawl {anchorPubkey : Bytes} {possible : Settings → Prop}
    (run : Relation.ReflTransGen (CrawlStep anchorPubkey batchSize) driver after) :
    Relation.ReflTransGen (LifeStep anchorPubkey batchSize possible) driver after :=
  Relation.ReflTransGen.mono (fun _ _ step => .step step) _ _ run

section Positive

/-- The invariant of a crawl over its crashes. -/
private theorem sound_life (positive : 1 ≤ batchSize)
    (holds : graph.Serves verifier admits driver.settings ∧ Sound (graph.admitted admits) anchor driver)
    (step : LifeStep anchor.bytes batchSize (graph.Serves verifier admits) driver after) :
    (graph.Serves verifier admits after.settings ∧ Sound (graph.admitted admits) anchor after) ∧
      Spares driver after := by
  obtain ⟨serves, sound⟩ := holds
  cases step with
  | step step => exact ⟨⟨step.settings_eq.symm ▸ serves, sound.step serves positive step⟩, sound.spares positive step⟩
  | crash settings restarts =>
    exact ⟨⟨restarts, .start sound.agrees settings driver.claimed⟩, fun _ row found fetched => ⟨rfl, row, found, fetched⟩⟩

private theorem sound_run (positive : 1 ≤ batchSize)
    (run : Relation.ReflTransGen (LifeStep anchor.bytes batchSize (graph.Serves verifier admits)) driver after)
    (holds : graph.Serves verifier admits driver.settings ∧ Sound (graph.admitted admits) anchor driver) :
    (graph.Serves verifier admits after.settings ∧ Sound (graph.admitted admits) anchor after) ∧
      Spares driver after := by
  induction run with
  | refl => exact ⟨holds, .refl driver⟩
  | tail _ step ih =>
    obtain ⟨later, spares⟩ := sound_life positive ih.1 step
    exact ⟨later, ih.2.trans spares⟩

end Positive

namespace Dormant

theorem start (settings : Settings) (claimed : List Nat) (idle : Dormant anchor driver) :
    Dormant anchor (.start settings driver.pool.shared claimed) where
  idle := rfl
  permitless := fun batch workers same => by cases same
  rows := idle.rows
  edgeless := idle.edgeless
  anchored := fun past => absurd rfl past

/-- Whatever the statement leaves of the one row. -/
private theorem rows_after {stmt : Stmt} {locked : Finset Nat} {reply : Except StoreError stmt.Ret}
    (rows : ∀ id row, db.rows id = some row → row = ⟨anchor.bytes, Columns.default⟩)
    (executes : stmt.Executes now locked db reply left) (named : ∀ key, stmt = .upsertPubkey key → key = anchor.bytes)
    (stays : ∀ id new, Moves now stmt id Columns.default new → new = Columns.default)
    (id : Nat) (row : PubkeyRow) (found : left.rows id = some row) : row = ⟨anchor.bytes, Columns.default⟩ := by
  obtain ⟨key, columns⟩ := row
  rcases executes.evolves found with ⟨_, upserts, fresh⟩ | ⟨old, present, same, moves⟩
  · obtain rfl := named key upserts
    exact congrArg _ fresh
  · obtain rfl := rows id old present
    obtain rfl : key = anchor.bytes := same
    exact congrArg _ (stays id columns moves)

private theorem edgeless_after {stmt : Stmt} (edgeless : db.follows = ∅) (framed : Framed stmt db left)
    (unedited : stmt.edits = none) : left.follows = ∅ := by
  apply Finset.eq_empty_of_forall_notMem
  intro edge member
  have same := framed.follows edge.1 edge.2 (by simp [unedited])
  have old := same.mp member
  rw [edgeless] at old
  cases old

/-- A claim of no row. -/
private theorem claim_none {locked : Finset Nat} {reply : Except StoreError (List ClaimedAuthor)}
    (none : batchSize ≤ 0) (executes : Stmt.Executes now locked (.claim batchSize) db reply left) :
    ∀ batch, reply = .ok batch → batch = [] := by
  intro batch answered
  subst answered
  simp only [Stmt.Executes] at executes
  split at executes
  · cases executes.1
  · obtain ⟨rows, same, listed, _⟩ := executes
    obtain rfl := Except.ok.inj same
    have zero : batchSize.toNat = 0 := Int.toNat_of_nonpos none
    rw [zero] at listed
    exact List.map_eq_nil_iff.mp (List.Perm.eq_nil listed)

theorem step (dormant : Dormant anchor driver) (none : batchSize ≤ 0)
    (step : CrawlStep anchor.bytes batchSize driver after) : Dormant anchor after := by
  have stays {left : Database} (begun : driver.control ≠ .seed) (persists : Persists driver.pool.shared left) :
      ∃ id, left.keyed id anchor.bytes := by
    obtain ⟨id, keyed⟩ := dormant.anchored begun
    exact ⟨id, persists.keyed keyed⟩
  cases step with
  | seed here ran =>
    obtain ⟨id, now, locked, rfl, executes, keyed⟩ := seedAnchor_executes ran
    refine ⟨dormant.idle, (fun batch workers same => by cases same), ?_, ?_, fun _ => ⟨id, keyed⟩⟩
    · apply rows_after dormant.rows executes
      · exact fun key same => (Stmt.upsertPubkey.inj same).symm
      · intro id new moves
        cases moves with
        | stay => rfl
        | reclaim selected => cases selected
    · exact edgeless_after dormant.edgeless executes.framed rfl
  | @reclaim reply left here ran =>
    obtain ⟨now, locked, _, executes⟩ := runs_query ran
    have begun : driver.control ≠ .seed := by rw [here]; exact fun same => by cases same
    have rows := rows_after dormant.rows executes (fun key same => by cases same) fun id new moves => by
      cases moves with
      | stay => rfl
      | reclaim selected => cases selected
    have edgeless := edgeless_after dormant.edgeless executes.framed rfl
    have anchored := stays begun executes.framed.persists
    obtain ⟨rfl, _⟩ := executes
    refine ⟨dormant.idle, ?_, rows, edgeless, fun _ => anchored⟩
    intro batch workers
    unfold Driver.afterReclaim
    dsimp only
    split
    · exact fun same => by cases same
    · exact fun same => by cases same
  | @claim workers reply left here ran =>
    obtain ⟨now, locked, _, executes⟩ := runs_query ran
    have begun : driver.control ≠ .seed := by rw [here]; exact fun same => by cases same
    have empty := claim_none none executes
    have edgeless := edgeless_after dormant.edgeless executes.framed rfl
    have anchored := stays begun executes.framed.persists
    have rows : ∀ id row, left.rows id = some row → row = ⟨anchor.bytes, Columns.default⟩ := by
      intro id row found
      cases reply with
      | error error =>
        simp only [Stmt.Executes] at executes
        split at executes
        · rw [executes.2] at found
          exact dormant.rows id row found
        · obtain ⟨_, impossible, _⟩ := executes
          cases impossible
      | ok batch =>
        obtain rfl := empty batch rfl
        rw [(claim_spec executes).2.2, Database.claim_rows_of_notMem (by simp)] at found
        exact dormant.rows id row found
    unfold Driver.afterClaim
    cases reply with
    | error error => exact ⟨dormant.idle, (fun batch workers same => by cases same), rows, edgeless, fun _ => anchored⟩
    | ok batch =>
      obtain rfl := empty batch rfl
      refine ⟨dormant.idle, ?_, rows, edgeless, fun _ => anchored⟩
      intro batch others
      by_cases last : workers = []
      · simp [last]
      · simp [last]
  | spawn here free returns => exact absurd here (dormant.permitless _ _)
  | reap here finished ended =>
    have begun : driver.control ≠ .seed := by rw [here]; exact fun same => by cases same
    exact ⟨dormant.idle, (fun batch workers => Control.joining_ne_permit _ _), dormant.rows, dormant.edgeless,
      fun _ => stays begun (.refl _)⟩
  | join here ended =>
    rw [dormant.idle] at ended
    cases ended
  | work step =>
    obtain ⟨next, called⟩ := step.found
    rw [dormant.idle] at called
    cases called

/-- A call that has returned has seeded the anchor. -/
theorem same (here : Dormant anchor driver) (begun : driver.control ≠ .seed) (there : Dormant anchor after)
    (started : after.control ≠ .seed) : SameByKey driver.pool.shared after.pool.shared := by
  have named {driver : Driver} (dormant : Dormant anchor driver) (begun : driver.control ≠ .seed) (key : Bytes) :
      (∃ id, driver.pool.shared.keyed id key) ↔ key = anchor.bytes := by
    constructor
    · intro stored
      obtain ⟨id, columns, found⟩ := stored
      exact congrArg PubkeyRow.pubkey (dormant.rows id _ found)
    · rintro rfl
      exact dormant.anchored begun
  refine ⟨?_, ?_, ?_⟩
  · exact fun key => (named here begun key).trans (named there started key).symm
  · intro first second row other found present _
    rw [here.rows first row found, there.rows second other present]
  · intro first second key followee _ _
    have none {driver : Driver} (dormant : Dormant anchor driver) (id : Nat) :
        ¬ driver.pool.shared.followsKey id followee := by
      intro follows
      obtain ⟨other, edge, _⟩ := follows
      rw [dormant.edgeless] at edge
      cases edge
    exact iff_of_false (none here first) (none there second)

end Dormant

/-- However often a crawl crashes and is started again, once it returns its store is that of a crawl
without crashes, and no row that was fetched before is claimed after. -/
theorem crash_resume {graph : ScriptedGraph} {verifier : Verifier} {admits : Event → Bool} {settings others : Settings}
    {resumed whole : Driver} (anchor : PublicKey) (batchSize : Int)
    (serves : graph.Serves verifier admits settings) (serving : graph.Serves verifier admits others)
    (resumes : Relation.ReflTransGen (LifeStep anchor.bytes batchSize (graph.Serves verifier admits))
      (.start settings Database.empty []) resumed)
    (returned : resumed.control = .returned (.ok stats))
    (runs : Relation.ReflTransGen (CrawlStep anchor.bytes batchSize) (.start others Database.empty []) whole)
    (ended : whole.control = .returned (.ok total)) :
    SameByKey resumed.pool.shared whole.pool.shared ∧
      ∀ middle later id row,
        Relation.ReflTransGen (LifeStep anchor.bytes batchSize (graph.Serves verifier admits))
          (.start settings Database.empty []) middle →
        Relation.ReflTransGen (LifeStep anchor.bytes batchSize (graph.Serves verifier admits)) middle later →
        middle.pool.shared.rows id = some row → row.columns.status = .fetched →
        later.claimed.count id = middle.claimed.count id := by
  have lives : Relation.ReflTransGen (LifeStep anchor.bytes batchSize (graph.Serves verifier admits))
      (.start others Database.empty []) whole := life_of_crawl runs
  by_cases positive : 1 ≤ batchSize
  · have sound (settings : Settings) : Sound (graph.admitted admits) anchor (.start settings Database.empty []) :=
      .start (fun id row found => by cases found) settings []
    obtain ⟨⟨_, here⟩, _⟩ := sound_run positive resumes ⟨serves, sound settings⟩
    obtain ⟨⟨_, there⟩, _⟩ := sound_run positive lives ⟨serving, sound others⟩
    refine ⟨(here.component returned).same (there.component ended), ?_⟩
    intro middle later id row before after found fetched
    obtain ⟨stands, _⟩ := sound_run positive before ⟨serves, sound settings⟩
    exact ((sound_run positive after stands).2 id row found fetched).1
  · have kept (driver after : Driver) (dormant : Dormant anchor driver)
        (step : LifeStep anchor.bytes batchSize (graph.Serves verifier admits) driver after) : Dormant anchor after := by
      cases step with
      | step step => exact dormant.step (by omega) step
      | crash settings restarts => exact dormant.start settings driver.claimed
    have start (settings : Settings) : Dormant anchor (.start settings Database.empty []) :=
      ⟨rfl, (fun batch workers same => by cases same), (fun id row found => by cases found), rfl, fun past => absurd rfl past⟩
    have here := kept_of_run kept resumes (start settings)
    have there := kept_of_run kept lives (start others)
    refine ⟨here.same ?_ there ?_, ?_⟩
    · rw [returned]
      exact fun same => by cases same
    · rw [ended]
      exact fun same => by cases same
    · intro middle later id row before after found fetched
      have dormant := kept_of_run kept before (start settings)
      rw [dormant.rows id row found] at fetched
      cases fetched

/-- A call over a store that agrees with the graph returns. -/
private theorem returns_of_agrees (serves : graph.Serves verifier admits settings)
    (agrees : Agrees (graph.admitted admits) anchor db) (positive : 1 ≤ batchSize) (concurrent : 1 ≤ settings.concurrency)
    (seats : settings.concurrency ≤ maxPermits) : ∃ driver stats,
      Relation.ReflTransGen (CrawlStep anchor.bytes batchSize) (.start settings db []) driver ∧
        driver.control = .returned (.ok stats) := by
  have kept : Inevitably (CrawlStep anchor.bytes batchSize) (fun driver => Exhausted settings.maxAttempts driver ∧
      (graph.Serves verifier admits driver.settings ∧ Sound (graph.admitted admits) anchor driver))
      (.start settings db []) := by
    apply (serves.exhausts positive concurrent seats).keep _ ⟨serves, .start agrees settings []⟩
    intro driver after holds step
    obtain ⟨serves, sound⟩ := holds
    exact ⟨step.settings_eq.symm ▸ serves, sound.step serves positive step⟩
  obtain ⟨final, run, exhausted, _, sound⟩ := kept.exists_run
  rcases exhausted.ended with ⟨stats, ended, _⟩ | failed
  · exact ⟨final, stats, run, ended⟩
  · exact absurd failed (sound.unfailed _)

/-- The driver, after calls that claimed these rows. -/
private def since (earlier : List Nat) (driver : Driver) : Driver := { driver with claimed := earlier ++ driver.claimed }

/-- What a call does, it does after any others. -/
private theorem crawlStep_since {anchorPubkey : Bytes} {earlier : List Nat} {driver after : Driver}
    (step : CrawlStep anchorPubkey batchSize driver after) :
    CrawlStep anchorPubkey batchSize (since earlier driver) (since earlier after) := by
  cases step with
  | seed here ran => exact .seed here ran
  | @reclaim reply left here ran =>
    have reclaims : CrawlStep anchorPubkey batchSize (since earlier driver) ((since earlier driver).afterReclaim left reply) :=
      .reclaim here ran
    cases reply <;> exact reclaims
  | @claim workers reply left here ran =>
    have same : since earlier (driver.afterClaim workers left reply) =
        (since earlier driver).afterClaim workers left reply := by
      cases reply with
      | error error => rfl
      | ok batch =>
        unfold Driver.afterClaim
        dsimp only
        split
        · rfl
        · simp [since]
    rw [same]
    exact .claim here ran
  | spawn here free returns => exact .spawn here free returns
  | @reap workers here finished ended =>
    have there : (since earlier driver).control = .reap workers := here
    exact .reap there finished ended
  | join here ended => exact .join here ended
  | @work index stmt note noted moved step =>
    have there : (since earlier driver).pool.Calls (leasing fun _ => True) index stmt note noted moved := step
    exact .work there

/-- A call that stands inside its first batch: the followee has a row, and its edge is not written yet. -/
private theorem trail_halved : ∃ driver, Relation.ReflTransGen (CrawlStep sampleAuthor.bytes 1)
    (.start (trailSettings 4) Database.empty []) driver ∧ driver.pool.shared = trailNamed := by
  let start : Driver := .start (trailSettings 4) Database.empty []
  let seeded := start.afterSeed Fleet.oneRow (.ok 1)
  let reclaimed := seeded.afterReclaim Fleet.oneRow (.ok 0)
  let claimed := reclaimed.afterClaim [] claimedRow (.ok [Fleet.soleAuthor])
  let spawned := claimed.afterSpawn [Fleet.soleAuthor] [] (.ok (trail.fetchFn [Fleet.soleAuthor]))
  have seed : CrawlStep sampleAuthor.bytes 1 start seeded := .seed rfl seeds_empty
  have reclaim : CrawlStep sampleAuthor.bytes 1 seeded reclaimed := .reclaim rfl (.call oneRow_reclaims .ret)
  have claim : CrawlStep sampleAuthor.bytes 1 reclaimed claimed :=
    .claim rfl (.call ⟨0, ∅, fun _ => rfl, oneRow_claimed⟩ .ret)
  have spawn : CrawlStep sampleAuthor.bytes 1 claimed spawned := .spawn rfl (by decide) rfl
  have asked : Relation.ReflTransGen (CrawlStep sampleAuthor.bytes 1) start spawned :=
    (((Relation.ReflTransGen.single seed).tail reclaim).tail claim).tail spawn
  have upserted := asked.tail (.work (.sole ⟨trail_upserts_author, rfl⟩))
  have named := upserted.tail (.work (.sole ⟨trail_upserts_followee, rfl⟩))
  exact ⟨_, named, rfl⟩

/-- The theorem at a crash there. -/
theorem crash_resume_trail : ∃ halved resumed whole : Driver,
    Relation.ReflTransGen (CrawlStep sampleAuthor.bytes 1) (.start (trailSettings 4) Database.empty []) halved ∧
    halved.pool.shared = trailNamed ∧
    Relation.ReflTransGen (LifeStep sampleAuthor.bytes 1 (trail.Serves trailVerifier fun _ => true))
      (.start (trailSettings 1) trailNamed halved.claimed) resumed ∧
    Relation.ReflTransGen (CrawlStep sampleAuthor.bytes 1) (.start (trailSettings 1) Database.empty []) whole ∧
    SameByKey resumed.pool.shared whole.pool.shared := by
  have empty : Agrees (trail.admitted fun _ => true) sampleAuthor Database.empty := fun id row found => by cases found
  obtain ⟨halved, run, named⟩ := trail_halved
  have lives : Relation.ReflTransGen (LifeStep sampleAuthor.bytes 1 (trail.Serves trailVerifier fun _ => true))
      (.start (trailSettings 4) Database.empty []) halved := life_of_crawl run
  have start : Sound (trail.admitted fun _ => true) sampleAuthor (.start (trailSettings 4) Database.empty []) :=
    .start empty _ []
  obtain ⟨⟨_, sound⟩, _⟩ := sound_run (le_refl 1) lives ⟨trail_serves 4, start⟩
  obtain ⟨called, stats, calls, returned⟩ :=
    returns_of_agrees (trail_serves 1) sound.agrees (le_refl 1) (Nat.le_refl 1) (by decide)
  obtain ⟨whole, total, runs, ended⟩ :=
    returns_of_agrees (trail_serves 1) empty (le_refl 1) (Nat.le_refl 1) (by decide)
  have resumes : Relation.ReflTransGen (CrawlStep sampleAuthor.bytes 1)
      (since halved.claimed (.start (trailSettings 1) halved.pool.shared [])) (since halved.claimed called) :=
    calls.lift (since halved.claimed) fun _ _ => crawlStep_since
  rw [since, Driver.start, List.append_nil] at resumes
  have restarts : Relation.ReflTransGen (LifeStep sampleAuthor.bytes 1 (trail.Serves trailVerifier fun _ => true))
      (.start (trailSettings 1) halved.pool.shared halved.claimed) (since halved.claimed called) := life_of_crawl resumes
  have life := (lives.tail (.crash (trailSettings 1) (trail_serves 1))).trans restarts
  exact ⟨halved, since halved.claimed called, whole, run, named, named ▸ restarts, runs,
    (crash_resume sampleAuthor 1 (trail_serves 4) (trail_serves 1) life returned runs ended).1⟩

end WotCrawler.Crawl
