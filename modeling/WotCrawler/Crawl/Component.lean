import WotCrawler.Crawl.Soundness
import WotCrawler.Crawl.Termination

/-! Where a crawl ends: at the anchor's component, with every author claimed once, whatever the
graph and whatever the order of its tasks. -/

namespace WotCrawler.Crawl

open Effect Store Ingest Relay

/-- The store holds exactly what the follow lists reach from the anchor. -/
structure Component (graph : ScriptedGraph) (anchor : PublicKey) (db : Database) : Prop where
  keys : ∀ key, (∃ id, db.keyed id key) ↔ ∃ author, graph.Reaches anchor author ∧ author.bytes = key
  status : ∀ id row author, db.rows id = some row → author.bytes = row.pubkey →
    row.columns.status = if (graph.list author).isSome then .fetched else .notFound
  follows : ∀ id author key, db.keyed id author.bytes →
    (db.followsKey id key ↔ ∃ followee ∈ graph.followees author, followee.bytes = key)

variable {graph : ScriptedGraph} {anchor : PublicKey} {driver after : Driver} {batchSize : Int}
  {db left : Database} {id index : Nat}

/-- What a resolved row says of its author. -/
private theorem RowAgrees.resolved {author : PublicKey} {status : FetchStatus}
    (agrees : RowAgrees graph db id author status) (resolved : ¬ Waits status) :
    (status = if (graph.list author).isSome then .fetched else .notFound) ∧
      ∀ key, db.followsKey id key ↔ ∃ followee ∈ graph.followees author, followee.bytes = key := by
  cases status with
  | discovered => exact absurd (.inl rfl) resolved
  | inProgress => exact absurd (.inr rfl) resolved
  | failed => exact agrees.elim
  | fetched =>
    obtain ⟨event, listed, holds⟩ := agrees
    rw [ScriptedGraph.followees_of_list listed]
    exact ⟨by simp [listed], holds.edges⟩
  | notFound =>
    obtain ⟨listless, _, edgeless⟩ := agrees
    rw [ScriptedGraph.followees_of_none listless]
    refine ⟨by simp [listless], ?_⟩
    intro key
    constructor
    · intro follows
      obtain ⟨followee, edge, _⟩ := follows
      exact absurd edge (edgeless followee)
    · intro follows
      obtain ⟨followee, member, _⟩ := follows
      cases member

/-- A store that agrees with the graph and has no row left to resolve. -/
theorem Agrees.component (agrees : Agrees graph anchor db) (anchored : ∃ id, db.keyed id anchor.bytes)
    (resolved : ∀ id row, db.rows id = some row → ¬ Waits row.columns.status) : Component graph anchor db := by
  have settled (id : Nat) (row : PubkeyRow) (author : PublicKey) (found : db.rows id = some row)
      (key : author.bytes = row.pubkey) :
      (row.columns.status = if (graph.list author).isSome then .fetched else .notFound) ∧
        ∀ key, db.followsKey id key ↔ ∃ followee ∈ graph.followees author, followee.bytes = key := by
    obtain ⟨owner, _, same, said⟩ := agrees id row found
    obtain rfl : owner = author := PublicKey.bytes_injective (same.trans key.symm)
    exact said.resolved (resolved id row found)
  refine ⟨?_, fun id row author found key => (settled id row author found key).1, ?_⟩
  · intro key
    constructor
    · intro stored
      obtain ⟨id, columns, found⟩ := stored
      obtain ⟨author, reached, same, _⟩ := agrees id _ found
      exact ⟨author, reached, same⟩
    · intro named
      obtain ⟨author, reached, rfl⟩ := named
      -- A resolved row has an edge to every followee's row.
      induction reached with
      | refl => exact anchored
      | tail _ follows ih =>
        obtain ⟨id, columns, found⟩ := ih
        have edges := (settled id _ _ found rfl).2
        obtain ⟨followee, _, keyed⟩ := (edges _).mpr ⟨_, follows, rfl⟩
        exact ⟨followee, keyed⟩
  · intro id author key keyed
    obtain ⟨columns, found⟩ := keyed
    exact (settled id _ author found rfl).2 key

theorem Sound.component (sound : Sound graph anchor driver) (ended : driver.control = .returned (.ok stats)) :
    Component graph anchor driver.pool.shared := by
  apply sound.agrees.component
  · apply sound.anchored
    rw [ended]
    exact fun same => by cases same
  · exact (sound.manned.ended stats ended).2

/-- A row that was claimed. -/
def Taken (db : Database) (id : Nat) : Prop :=
  ∃ row, db.rows id = some row ∧ row.columns.status ≠ .discovered

/-- The claims of a call over an empty database: each taken row was claimed once, and counted. -/
structure Tallied (driver : Driver) : Prop where
  once : driver.claimed.Nodup
  taken : ∀ id, id ∈ driver.claimed ↔ Taken driver.pool.shared id
  counted : driver.stats.authorsClaimed = driver.claimed.length
  fresh : driver.control.starting = true → driver.claimed = []

/-- A row whose outcome a statement does not write is as taken as it was. -/
private theorem taken_framed {stmt : Stmt} {before : Database} (framed : Framed stmt before left)
    (single : stmt.ranges = false) (unwritten : stmt.outcome ≠ some id) : Taken left id ↔ Taken before id := by
  cases present : before.rows id with
  | some row => simp [Taken, present, framed.columns single id row present unwritten]
  | none =>
    constructor
    · intro taken
      obtain ⟨row, found, status⟩ := taken
      rw [(framed.fresh id row present found).2] at status
      exact absurd rfl status
    · intro taken
      obtain ⟨row, found, _⟩ := taken
      rw [present] at found
      cases found

/-- A statement of a task takes no row and gives none back. -/
private theorem taken_work {later : CrawlPool} (sound : Sound graph anchor driver)
    (step : driver.pool.Calls (leasing fun _ => True) index stmt note noted later) :
    Taken later.shared id ↔ Taken driver.pool.shared id := by
  obtain ⟨next, called⟩ := step.found
  have charts := sound.tended.guarded.keeps step
  by_cases writes : stmt.outcome = some id
  · obtain ⟨mine, _, row, _, found, ended, _⟩ := charts.owned id writes
    obtain ⟨old, present, leased⟩ := sound.tended.leases id ⟨index, _, called, mine⟩
    constructor
    · exact fun _ => ⟨old, present, by simp [leased]⟩
    · intro _
      refine ⟨row, found, ?_⟩
      rcases ended with status | status
      · simp [status]
      · simp [status]
  · exact taken_framed charts.framed charts.single writes

private theorem taken_claim {before : Database} {ids : List Nat}
    (stored : ∀ id ∈ ids, ∃ row, before.rows id = some row) :
    Taken (before.claim now ids) id ↔ Taken before id ∨ id ∈ ids := by
  by_cases member : id ∈ ids
  · obtain ⟨row, found⟩ := stored id member
    refine ⟨fun _ => .inr member, fun _ => ⟨_, Database.claim_rows_of_mem member found, ?_⟩⟩
    exact fun same => by cases same
  · simp [Taken, Database.claim_rows_of_notMem member, member]

private theorem taken_of_swept {before : Database} (taken : Taken (before.sweep Columns.isInProgress) id) :
    Taken before id := by
  obtain ⟨row, found, status⟩ := taken
  obtain ⟨old, present, rfl⟩ := Option.map_eq_some_iff.mp found
  refine ⟨old, present, ?_⟩
  intro discovered
  have missed : old.columns.isInProgress = false := by simp [Columns.isInProgress, discovered]
  simp [missed, discovered] at status

namespace Tallied

theorem start (settings : Settings) : Tallied (.start settings Database.empty []) := by
  refine ⟨List.nodup_nil, ?_, rfl, fun _ => rfl⟩
  intro id
  constructor
  · intro member
    cases member
  · intro taken
    obtain ⟨row, found, _⟩ := taken
    cases found

theorem seed (tallied : Tallied driver) (here : driver.control = .seed)
    (ran : Runs sql (seedAnchor anchor.bytes).run driver.pool.shared reply left) :
    Tallied (driver.afterSeed left reply) := by
  obtain ⟨seeded, now, locked, rfl, executes, _⟩ := seedAnchor_executes ran
  refine ⟨tallied.once, ?_, tallied.counted, fun _ => tallied.fresh (by rw [here]; rfl)⟩
  intro id
  have same : Taken left id ↔ Taken driver.pool.shared id :=
    taken_framed executes.framed rfl fun other => by cases other
  exact (tallied.taken id).trans same.symm

/-- Nothing was claimed yet, so the sweep finds nothing to reset. -/
theorem reclaim (tallied : Tallied driver) (here : driver.control = .reclaim)
    (ran : Runs sql reclaimStaleOnStartup.run driver.pool.shared reply left) :
    Tallied (driver.afterReclaim left reply) := by
  obtain ⟨now, locked, _, rfl, swept⟩ := runs_query ran
  have none : driver.claimed = [] := tallied.fresh (by rw [here]; rfl)
  have untaken (id : Nat) : ¬ Taken left id := by
    intro taken
    rw [swept] at taken
    have member := (tallied.taken id).mpr (taken_of_swept taken)
    rw [none] at member
    cases member
  refine ⟨tallied.once, ?_, ?_, fun _ => none⟩
  · intro id
    have member : id ∉ driver.claimed := by simp [none]
    exact iff_of_false member (untaken id)
  · exact (congrArg List.length none).symm

/-- A batch that is claimed was not claimed before. -/
theorem claim (tallied : Tallied driver) (positive : 1 ≤ batchSize)
    (ran : Runs (sqlWith driver.MayLock) (claimBatch batchSize).run driver.pool.shared reply left) :
    Tallied (driver.afterClaim workers left reply) := by
  obtain ⟨now, locked, _, executes⟩ := runs_query ran
  obtain ⟨batch, rfl⟩ := claim_ok (by omega) executes
  obtain ⟨nodup, discovered, made⟩ := claim_spec executes
  have apart : driver.claimed.Disjoint (batch.map ClaimedAuthor.id) := by
    intro id old member
    obtain ⟨claimed, listed, rfl⟩ := List.mem_map.mp member
    obtain ⟨row, found, _, status⟩ := discovered claimed listed
    obtain ⟨other, present, taken⟩ := (tallied.taken claimed.id).mp old
    obtain rfl := Option.some.inj (found.symm.trans present)
    exact taken status
  have taken (id : Nat) : id ∈ driver.claimed ∨ id ∈ batch.map ClaimedAuthor.id ↔ Taken left id := by
    have stored (id : Nat) (member : id ∈ batch.map ClaimedAuthor.id) :
        ∃ row, driver.pool.shared.rows id = some row := by
      obtain ⟨claimed, listed, rfl⟩ := List.mem_map.mp member
      obtain ⟨row, found, _⟩ := discovered claimed listed
      exact ⟨row, found⟩
    rw [made, taken_claim stored, tallied.taken]
  unfold Driver.afterClaim
  dsimp only
  split
  · rename_i empty
    subst empty
    refine ⟨tallied.once, ?_, tallied.counted, ?_⟩
    · exact fun id => (or_iff_left List.not_mem_nil).symm.trans (taken id)
    · intro starting
      dsimp only at starting
      split at starting
      · cases starting
      · cases starting
  · refine ⟨tallied.once.append nodup apart, ?_, ?_, fun starting => by cases starting⟩
    · exact fun id => List.mem_append.trans (taken id)
    · have counted := tallied.counted
      simp only [List.length_append, List.length_map]
      omega

theorem joining (tallied : Tallied driver) (handles workers : List Nat) :
    Tallied { driver with control := .joining handles workers } := by
  refine ⟨tallied.once, tallied.taken, tallied.counted, ?_⟩
  intro starting
  rw [Control.joining_starting] at starting
  cases starting

/-- Every step keeps the tally. -/
theorem step (tallied : Tallied driver) (sound : Sound graph anchor driver) (positive : 1 ≤ batchSize)
    (step : CrawlStep anchor.bytes batchSize driver after) : Tallied after := by
  cases step with
  | seed here ran => exact tallied.seed here ran
  | reclaim here ran => exact tallied.reclaim here ran
  | claim here ran => exact tallied.claim positive ran
  | spawn here free returns => exact ⟨tallied.once, tallied.taken, tallied.counted, fun starting => by cases starting⟩
  | reap here finished ended => exact tallied.joining _ _
  | join here ended =>
    obtain ⟨⟨count, rfl⟩, _⟩ := sound.done ended
    exact tallied.joining _ _
  | work step =>
    refine ⟨tallied.once, ?_, tallied.counted, tallied.fresh⟩
    intro id
    exact (tallied.taken id).trans (taken_work sound step).symm

end Tallied

/-- A call that has returned with exactly the anchor's component, each of its rows claimed once. -/
structure Explored (graph : ScriptedGraph) (anchor : PublicKey) (driver : Driver) : Prop where
  component : Component graph anchor driver.pool.shared
  once : driver.claimed.Nodup
  claimed : ∀ id, id ∈ driver.claimed ↔ ∃ row, driver.pool.shared.rows id = some row
  returned : ∃ stats, driver.control = .returned (.ok stats) ∧
    stats.authorsClaimed = {id | ∃ row, driver.pool.shared.rows id = some row}.ncard

/-- The invariants of a call over an empty database, where it has ended. -/
private theorem explored_of_ended (sound : Sound graph anchor driver) (tallied : Tallied driver)
    (exhausted : Exhausted maxAttempts driver) : Explored graph anchor driver := by
  rcases exhausted.ended with ⟨stats, ended, resolved⟩ | failed
  · have claimed (id : Nat) : id ∈ driver.claimed ↔ ∃ row, driver.pool.shared.rows id = some row := by
      rw [tallied.taken]
      constructor
      · intro taken
        obtain ⟨row, found, _⟩ := taken
        exact ⟨row, found⟩
      · intro stored
        obtain ⟨row, found⟩ := stored
        refine ⟨row, found, ?_⟩
        intro discovered
        have done := resolved id row found
        simp [discovered] at done
    refine ⟨sound.component ended, tallied.once, claimed, stats, ended, ?_⟩
    have listed : {id | ∃ row, driver.pool.shared.rows id = some row} = (driver.claimed.toFinset : Set Nat) := by
      ext id
      simp [claimed]
    rw [(sound.manned.ended stats ended).1, tallied.counted, listed, Set.ncard_coe_finset,
      List.toFinset_card_of_nodup tallied.once]
  · exact absurd failed (sound.unfailed _)

/-- A call that is served a graph ends, over any database. -/
theorem ScriptedGraph.Serves.exhausts {verifier : Verifier} {admits : Event → Bool} {settings : Settings}
    (serves : graph.Serves verifier admits settings) (positive : 1 ≤ batchSize)
    (concurrent : 1 ≤ settings.concurrency) (seats : settings.concurrency ≤ maxPermits) :
    Inevitably (CrawlStep anchor.bytes batchSize) (Exhausted settings.maxAttempts) (.start settings db []) := by
  apply exhausts_within (graph.finite.toFinset.biUnion graph.followees) positive concurrent seats serves.completes
  intro batch events returns event member followee inside
  obtain ⟨_, same, scripted⟩ := serves.fetches batch _ returns
  obtain rfl := Except.ok.inj same
  obtain ⟨_, _, author, _, listed⟩ := (scripted event).mp member
  apply mem_keysWithin
  apply Finset.mem_insert_of_mem
  refine Finset.mem_biUnion.mpr ⟨author, ?_, ?_⟩
  · exact graph.finite.mem_toFinset.mpr (Option.isSome_iff_exists.mpr ⟨event, listed⟩)
  · rw [ScriptedGraph.followees_of_list listed]
    exact inside

/-- Whatever the graph of follow lists, the batch size, the permits that a semaphore has and the
order of its tasks, a crawl of an empty database returns with exactly the anchor's component. -/
theorem crawl_component {graph : ScriptedGraph} {verifier : Verifier} {settings : Settings}
    (serves : graph.Serves verifier (fun _ => true) settings) (anchor : PublicKey) (batchSize : Int)
    (positive : 1 ≤ batchSize) (concurrent : 1 ≤ settings.concurrency) (seats : settings.concurrency ≤ maxPermits) :
    Inevitably (CrawlStep anchor.bytes batchSize) (Explored graph anchor) (.start settings Database.empty []) := by
  have admitted := graph.admitted_all
  have sound : Sound graph anchor (.start settings Database.empty []) :=
    .start (fun id row found => by cases found) settings []
  have kept : Inevitably (CrawlStep anchor.bytes batchSize)
      (fun driver => Exhausted settings.maxAttempts driver ∧
        (driver.settings = settings ∧ Sound graph anchor driver ∧ Tallied driver)) (.start settings Database.empty []) := by
    apply (serves.exhausts positive concurrent seats).keep _ ⟨rfl, sound, .start settings⟩
    intro driver after holds step
    obtain ⟨same, sound, tallied⟩ := holds
    have serving : graph.Serves verifier (fun _ => true) driver.settings := same.symm ▸ serves
    have later := (admitted.symm ▸ sound).step serving positive step
    exact ⟨step.settings_eq.trans same, admitted ▸ later, tallied.step sound positive step⟩
  apply kept.mono
  intro driver holds
  obtain ⟨exhausted, _, sound, tallied⟩ := holds
  exact explored_of_ended sound tallied exhausted

private theorem trail_list {author : PublicKey} {event : Event}
    (listed : (if author = sampleAuthor then some trailEvent else none) = some event) :
    author = sampleAuthor ∧ event = trailEvent := by
  split at listed
  · rename_i same
    exact ⟨same, (Option.some.inj listed).symm⟩
  · cases listed

def trail : ScriptedGraph where
  list := fun author => if author = sampleAuthor then some trailEvent else none
  own := by
    intro author event listed
    obtain ⟨rfl, rfl⟩ := trail_list listed
    rfl
  finite := by
    apply (Set.finite_singleton sampleAuthor).subset
    intro author listed
    obtain ⟨event, found⟩ := Option.isSome_iff_exists.mp listed
    exact (trail_list found).1

def trailSettings (concurrency : Nat) : Settings where
  concurrency := concurrency
  gate := trailGate
  maxAttempts := 3
  fetchUnion := fun batch fetched => fetched = .ok (trail.fetchFn batch)

theorem trail_serves (concurrency : Nat) : trail.Serves trailVerifier (fun _ => true) (trailSettings concurrency) where
  verified := rfl
  admits := by
    intro author event listed
    obtain ⟨rfl, rfl⟩ := trail_list listed
    have admits : trailGate.Admits trailVerifier trailEvent := ⟨by decide, rfl, by decide, by decide⟩
    exact iff_of_true rfl admits
  completes := fun batch => ⟨_, rfl⟩
  fetches := fun batch fetched returns => ⟨_, returns, trail.fetchFn_scripts batch⟩

/-- The theorem at that graph. -/
theorem crawl_component_trail : Inevitably (CrawlStep sampleAuthor.bytes 2) (Explored trail sampleAuthor)
    (.start (trailSettings 4) Database.empty []) :=
  crawl_component (trail_serves 4) sampleAuthor 2 (by omega) (Nat.succ_pos 3) (by decide)

/-- A call that asks for more permits than a semaphore has. -/
theorem crawl_component_fails : trail.Serves trailVerifier (fun _ => true) (trailSettings (2 ^ 61)) ∧
    1 ≤ (trailSettings (2 ^ 61)).concurrency ∧
    ¬ Inevitably (CrawlStep sampleAuthor.bytes 2) (Explored trail sampleAuthor)
      (.start (trailSettings (2 ^ 61)) Database.empty []) := by
  refine ⟨trail_serves (2 ^ 61), Nat.one_le_two_pow, ?_⟩
  apply crowded_panics
  · exact Nat.sub_lt (Nat.two_pow_pos 61) Nat.one_pos
  · intro driver explored
    obtain ⟨stats, ended, _⟩ := explored.returned
    exact ⟨_, ended⟩

end WotCrawler.Crawl
