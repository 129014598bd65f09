import WotCrawler.Crawl.Agreement
import WotCrawler.Crawl.Tending

/-! A crawl that is served a graph: what its rows say at every step, and that no task fails. -/

namespace WotCrawler.Crawl

open Effect Store Ingest Relay

/-- The statements of the driver itself. -/
def DriverStmt (anchor : PublicKey) : Stmt → Prop
  | .upsertPubkey key => key = anchor.bytes
  | .claim _ => True
  | .reclaimInProgress => True
  | _ => False

/-- The invariant of a crawl that is served a graph. -/
structure Sound (graph : ScriptedGraph) (anchor : PublicKey) (driver : Driver) : Prop where
  manned : Manned driver
  tended : Tended (Charts graph anchor) Done driver.pool driver.control.batch
  agrees : Agrees graph anchor driver.pool.shared
  anchored : driver.control ≠ .seed → ∃ id, driver.pool.shared.keyed id anchor.bytes
  unfailed : ∀ error, driver.control ≠ .returned (.error error)

variable {graph : ScriptedGraph} {anchor : PublicKey} {driver after : Driver} {batchSize : Int}
  {before left db : Database} {id index : Nat}

theorem Charts.worked {stmt : Stmt} {before after : Desk} (charts : Charts graph anchor stmt before after) :
    Worked stmt before after :=
  ⟨charts.framed, charts.released, charts.single, fun id writes => (charts.owned id writes).1⟩

section Frontier

variable {stmt : Stmt} {locked : Finset Nat} {reply : Except StoreError stmt.Ret}

/-- The driver's statements resolve no row, and unresolve none. -/
theorem driver_moves {old new : Columns} (frontier : DriverStmt anchor stmt) (moves : Moves now stmt id old new) :
    new.status = old.status ∨ (Waits old.status ∧ Waits new.status) := by
  cases moves with
  | stay => exact .inl rfl
  | confirm => cases frontier
  | apply => cases frontier
  | stamp => cases frontier
  | requeue few => cases frontier
  | claim discovered => exact .inr ⟨.inl discovered, .inr rfl⟩
  | reclaim selected =>
    cases stmt with
    | reclaimInProgress =>
      have leased : old.status = .inProgress := by simpa [Stmt.resets, Columns.isInProgress] using selected
      exact .inr ⟨.inr leased, .inl rfl⟩
    | reclaimStale ttlSecs => cases frontier
    | reclaimExpired ageSecs => cases frontier
    | _ => cases selected

theorem RowAgrees.waits {author : PublicKey} {status other : FetchStatus} (agrees : RowAgrees graph db id author status)
    (waited : Waits status) (waits : Waits other) : RowAgrees graph db id author other := by
  rcases waited with rfl | rfl
  · rcases waits with rfl | rfl
    · exact agrees
    · exact agrees
  · rcases waits with rfl | rfl
    · exact agrees
    · exact agrees

/-- The driver's statements keep the rows in agreement. -/
theorem Agrees.frontier (agrees : Agrees graph anchor before) (frontier : DriverStmt anchor stmt)
    (executes : stmt.Executes now locked before reply left) : Agrees graph anchor left := by
  have edgeless : stmt.edits = none := by
    cases stmt with
    | applyDiff => cases frontier
    | _ => rfl
  intro id row found
  rcases executes.evolves found with ⟨absent, _⟩ | ⟨old, present, key, moves⟩
  · apply Agrees.fresh executes.framed _ absent found
    intro key upserts
    subst upserts
    exact ⟨anchor, .refl, frontier.symm⟩
  · obtain ⟨author, reached, same, said⟩ := agrees id old present
    have unedited : stmt.edits ≠ some id := by simp [edgeless]
    have kept := said.framed executes.framed unedited
    refine ⟨author, reached, same.trans key.symm, ?_⟩
    rcases driver_moves frontier moves with status | ⟨waited, waits⟩
    · rw [status]
      exact kept
    · exact kept.waits waited waits

end Frontier

namespace Sound

/-- A task that has returned has resolved its rows, and did not fail. -/
theorem done {note : Set Nat} {outcome : Except StoreError Nat} (sound : Sound graph anchor driver)
    (found : driver.pool.tasks[index]? = some ⟨note, .ret outcome⟩) :
    (∃ count, outcome = .ok count) ∧ note = ∅ :=
  sound.tended.guarded index _ found _ (leased.refl _)

/-- A call that starts. -/
theorem start (agrees : Agrees graph anchor db) (settings : Settings) (claimed : List Nat) :
    Sound graph anchor (.start settings db claimed) where
  manned := .start settings db claimed
  tended := .idle rfl
  agrees := agrees
  anchored := fun past => absurd rfl past
  unfailed := fun error same => by cases same

/-- The waiting batch gets a task that charts the graph. -/
private theorem spawns {verifier : Verifier} {admits : Event → Bool} {script : ScriptedGraph}
    (serves : script.Serves verifier admits driver.settings) (sound : Sound (script.admitted admits) anchor driver)
    (batch : List ClaimedAuthor) (workers : List Nat) (fetched : Except RelayError (List Event))
    (here : driver.control = .permit batch workers) (returns : driver.settings.fetchUnion batch fetched) :
    Safe (leasing fun _ => True) leased (Charts (script.admitted admits) anchor) Done
      (driver.settings.worker batch fetched) (driver.pool.shared, {id | id ∈ batch.map ClaimedAuthor.id}) := by
  have claims := sound.tended.claims
  have named := sound.manned.named
  rw [here] at claims named
  apply worker_charts serves returns claims.distinct named
  intro claimed member
  obtain ⟨columns, found, _⟩ := claims.rows claimed member
  obtain ⟨author, reach, key, _⟩ := sound.agrees claimed.id _ found
  exact ⟨author, reach, key⟩

/-- What the driver's own statements, and those of its tasks, do to the rows. -/
private theorem step_agrees (sound : Sound graph anchor driver) (positive : 1 ≤ batchSize)
    (step : CrawlStep anchor.bytes batchSize driver after) :
    Agrees graph anchor after.pool.shared ∧ (∃ id, after.pool.shared.keyed id anchor.bytes) ∧
      ∀ error, after.control ≠ .returned (.error error) := by
  have stays {left : Database} (begun : driver.control ≠ .seed) (persists : Persists driver.pool.shared left) :
      ∃ id, left.keyed id anchor.bytes := by
    obtain ⟨id, keyed⟩ := sound.anchored begun
    exact ⟨id, persists.keyed keyed⟩
  cases step with
  | seed here ran =>
    obtain ⟨id, now, locked, rfl, executes, keyed⟩ := seedAnchor_executes ran
    have frontier : DriverStmt anchor (.upsertPubkey anchor.bytes) := rfl
    exact ⟨sound.agrees.frontier frontier executes, ⟨id, keyed⟩, fun error same => by cases same⟩
  | @reclaim reply left here ran =>
    obtain ⟨now, locked, _, executes⟩ := runs_query ran
    have frontier : DriverStmt anchor .reclaimInProgress := trivial
    have shared : (driver.afterReclaim left reply).pool.shared = left := by cases reply <;> rfl
    have begun : driver.control ≠ .seed := by rw [here]; exact fun same => by cases same
    rw [shared]
    refine ⟨sound.agrees.frontier frontier executes, stays begun executes.framed.persists, ?_⟩
    obtain ⟨rfl, _⟩ := executes
    intro error
    unfold Driver.afterReclaim
    dsimp only
    split
    · exact fun same => by cases same
    · exact fun same => by cases same
  | @claim workers reply left here ran =>
    obtain ⟨now, locked, _, executes⟩ := runs_query ran
    obtain ⟨batch, rfl⟩ := claim_ok (by omega) executes
    have frontier : DriverStmt anchor (.claim batchSize) := trivial
    have begun : driver.control ≠ .seed := by rw [here]; exact fun same => by cases same
    have kept := stays begun executes.framed.persists
    have agrees := sound.agrees.frontier frontier executes
    unfold Driver.afterClaim
    dsimp only
    split
    · refine ⟨agrees, kept, ?_⟩
      intro error
      dsimp only
      split
      · exact fun same => by cases same
      · exact fun same => by cases same
    · exact ⟨agrees, kept, fun error same => by cases same⟩
  | spawn here free returns =>
    have begun : driver.control ≠ .seed := by rw [here]; exact fun same => by cases same
    exact ⟨sound.agrees, stays begun (.refl _), fun error same => by cases same⟩
  | reap here finished ended =>
    have begun : driver.control ≠ .seed := by rw [here]; exact fun same => by cases same
    exact ⟨sound.agrees, stays begun (.refl _), fun error => Control.joining_ne_returned _⟩
  | join here ended =>
    obtain ⟨⟨count, rfl⟩, _⟩ := sound.done ended
    have begun : driver.control ≠ .seed := by rw [here]; exact fun same => by cases same
    exact ⟨sound.agrees, stays begun (.refl _), fun error => Control.joining_ne_returned _⟩
  | @work index stmt note noted later step =>
    obtain ⟨next, called⟩ := step.found
    have charts := sound.tended.guarded.keeps step
    have begun : driver.control ≠ .seed := by
      intro same
      rw [sound.manned.idle (by rw [same]; rfl)] at called
      cases called
    refine ⟨?_, stays begun charts.framed.persists, sound.unfailed⟩
    exact sound.agrees.charts charts fun id member => sound.tended.leases id ⟨index, _, called, member⟩

/-- Every step keeps the invariant. -/
theorem step {verifier : Verifier} {admits : Event → Bool} {script : ScriptedGraph}
    (serves : script.Serves verifier admits driver.settings) (positive : 1 ≤ batchSize)
    (sound : Sound (script.admitted admits) anchor driver) (step : CrawlStep anchor.bytes batchSize driver after) :
    Sound (script.admitted admits) anchor after := by
  obtain ⟨agrees, anchored, unfailed⟩ := sound.step_agrees positive step
  exact ⟨sound.manned.step positive step,
    sound.tended.step (fun charts => charts.worked) sound.manned positive (sound.spawns serves) step,
    agrees, fun _ => anchored, unfailed⟩

end Sound

end WotCrawler.Crawl
