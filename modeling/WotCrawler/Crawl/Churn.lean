import WotCrawler.Crawl.Guarantee
import WotCrawler.Store.Transition

/-! What the churn columns tell. They agree with each other in every row, and a row whose counters
stand still between two moments has kept its edges. -/

namespace WotCrawler.Crawl

open Effect Store Ingest

/-- The columns that record fetches and changes agree. -/
structure Coherent (columns : Columns) : Prop where
  fetched : columns.status = .fetched → columns.appliedEventId.isSome
  counted : 0 < columns.fetchCount ↔ columns.appliedEventId.isSome
  dated : columns.appliedCreatedAt.isSome ↔ columns.appliedEventId.isSome
  confirmed : columns.lastConfirmedAt.isSome ↔ columns.appliedEventId.isSome
  changed : columns.lastChangedAt.isSome ↔ 0 < columns.changeCount
  bounded : columns.changeCount ≤ columns.fetchCount

/-- Every row is coherent, and one with edges has changed. -/
structure Churn (db : Database) : Prop where
  rows : ∀ id row, db.rows id = some row → Coherent row.columns
  edges : ∀ id row, db.rows id = some row → ∀ followee, (id, followee) ∈ db.follows → 0 < row.columns.changeCount

/-- The columns of one row at two moments: counters never go back, and as long as one stands still
so does what it counts. -/
structure Counts (old new : Columns) : Prop where
  fetches : old.fetchCount ≤ new.fetchCount
  changes : old.changeCount ≤ new.changeCount
  applied : old.appliedEventId.isSome → new.appliedEventId.isSome
  unfetched : new.fetchCount = old.fetchCount → new.sameList old ∧ new.lastConfirmedAt = old.lastConfirmedAt ∧
    new.changeCount = old.changeCount
  unchanged : new.changeCount = old.changeCount → new.lastChangedAt = old.lastChangedAt

theorem Counts.refl (columns : Columns) : Counts columns columns :=
  ⟨le_rfl, le_rfl, id, fun _ => ⟨⟨rfl, rfl⟩, rfl, rfl⟩, fun _ => rfl⟩

theorem Counts.trans {first second third : Columns} (left : Counts first second) (right : Counts second third) :
    Counts first third := by
  refine ⟨left.fetches.trans right.fetches, left.changes.trans right.changes,
    fun applied => right.applied (left.applied applied), ?_, ?_⟩
  · intro same
    have fetches := right.fetches
    obtain ⟨newer, confirmed, changes⟩ := right.unfetched (le_antisymm (same.trans_le left.fetches) fetches)
    obtain ⟨older, earlier, before⟩ := left.unfetched (le_antisymm (fetches.trans_eq same) left.fetches)
    exact ⟨⟨newer.1.trans older.1, newer.2.trans older.2⟩, confirmed.trans earlier, changes.trans before⟩
  · intro same
    have changes := right.changes
    exact (right.unchanged (le_antisymm (same.trans_le left.changes) changes)).trans
      (left.unchanged (le_antisymm (changes.trans_eq same) left.changes))

/-- A row at two moments: its counters, and its edges while the change counter stands still. -/
structure Follows (before after : Database) (id : Nat) (row kept : PubkeyRow) : Prop where
  pubkey : kept.pubkey = row.pubkey
  counts : Counts row.columns kept.columns
  edges : kept.columns.changeCount = row.columns.changeCount →
    ∀ followee, (id, followee) ∈ after.follows ↔ (id, followee) ∈ before.follows

/-- Every row stays, and is counted. -/
def Audited (before after : Database) : Prop :=
  ∀ id row, before.rows id = some row → ∃ kept, after.rows id = some kept ∧ Follows before after id row kept

theorem Audited.refl (db : Database) : Audited db db :=
  fun _ row found => ⟨row, found, rfl, .refl _, fun _ _ => Iff.rfl⟩

theorem Audited.trans {first second third : Database} (left : Audited first second) (right : Audited second third) :
    Audited first third := by
  intro id row found
  obtain ⟨between, middle, earlier⟩ := left id row found
  obtain ⟨kept, last, later⟩ := right id between middle
  refine ⟨kept, last, later.pubkey.trans earlier.pubkey, earlier.counts.trans later.counts, ?_⟩
  intro same followee
  have changes := later.counts.changes
  have still := le_antisymm (same.trans_le earlier.counts.changes) changes
  exact (later.edges still followee).trans
    (earlier.edges (le_antisymm (changes.trans_eq same) earlier.counts.changes) followee)

/-- The statements as the writer issues them: a confirmation finds an applied event, and a
transaction counts a change exactly when it has edges to write. -/
def Tallies (stmt : Stmt) (db : Database) : Prop :=
  match stmt with
  | .confirmFetched id => ∀ row, db.rows id = some row → row.columns.appliedEventId.isSome
  | .applyDiff _ removed added _ _ changed => changed = (!added.isEmpty || !removed.isEmpty)
  | .updateStatus _ status _ => status = .notFound
  | _ => True

section Statement

variable {before after : Database} {stmt : Stmt} {id : Nat} {old new : Columns}

theorem Coherent.default : Coherent Columns.default where
  fetched := by simp [Columns.default]
  counted := by simp [Columns.default]
  dated := by simp [Columns.default]
  confirmed := by simp [Columns.default]
  changed := by simp [Columns.default]
  bounded := le_rfl

/-- A move that does not touch the churn columns keeps them coherent, unless it marks a row fetched. -/
private theorem Coherent.keeps (coherent : Coherent old) (same : new.sameList old)
    (fetches : new.fetchCount = old.fetchCount) (changes : new.changeCount = old.changeCount)
    (confirmed : new.lastConfirmedAt = old.lastConfirmedAt) (changed : new.lastChangedAt = old.lastChangedAt)
    (status : new.status = .fetched → old.status = .fetched) : Coherent new where
  fetched := fun marked => same.1 ▸ coherent.fetched (status marked)
  counted := by
    rw [fetches, same.1]
    exact coherent.counted
  dated := by
    rw [same.1, same.2]
    exact coherent.dated
  confirmed := by
    rw [confirmed, same.1]
    exact coherent.confirmed
  changed := by
    rw [changed, changes]
    exact coherent.changed
  bounded := by
    rw [fetches, changes]
    exact coherent.bounded

private theorem Coherent.apply (coherent : Coherent old) (now : DateTime) (eventId : Bytes) (createdAt : DateTime)
    (changed : Bool) : Coherent (old.apply now eventId createdAt changed) where
  fetched := fun _ => rfl
  counted := by simp [Columns.apply]
  dated := by simp [Columns.apply]
  confirmed := by simp [Columns.apply]
  changed := by
    cases changed with
    | true => simp [Columns.apply]
    | false => exact coherent.changed
  bounded := by
    have bounded := coherent.bounded
    cases changed <;> simp [Columns.apply] <;> omega

/-- A confirmation of an applied event keeps the columns coherent. -/
private theorem Coherent.confirm (coherent : Coherent old) (applied : old.appliedEventId.isSome) (now : DateTime) :
    Coherent (old.confirm now) where
  fetched := fun _ => applied
  counted := by simpa [Columns.confirm] using applied
  dated := coherent.dated
  confirmed := by simpa [Columns.confirm] using applied
  changed := coherent.changed
  bounded := Nat.le_succ_of_le coherent.bounded

private theorem Coherent.moves {row : PubkeyRow} (coherent : Coherent row.columns) (found : before.rows id = some row)
    (tallies : Tallies stmt before) (moves : Moves now stmt id row.columns new) : Coherent new := by
  cases moves with
  | stay => exact coherent
  | confirm => exact coherent.confirm (tallies row found) now
  | apply => exact coherent.apply now _ _ _
  | stamp =>
    have status : _ = FetchStatus.notFound := tallies
    subst status
    exact coherent.keeps ⟨rfl, rfl⟩ rfl rfl rfl rfl fun marked => by cases marked
  | claim => exact coherent.keeps ⟨rfl, rfl⟩ rfl rfl rfl rfl fun marked => by cases marked
  | reclaim => exact coherent.keeps ⟨rfl, rfl⟩ rfl rfl rfl rfl fun marked => by cases marked
  | requeue =>
    refine coherent.keeps ⟨rfl, rfl⟩ rfl rfl rfl rfl ?_
    intro marked
    simp only [Columns.requeue] at marked
    split at marked <;> cases marked

/-- Whatever a statement makes of a row, its counters count. -/
private theorem counts_of_moves (moves : Moves now stmt id old new) : Counts old new := by
  cases moves with
  | confirm => exact ⟨Nat.le_succ _, le_rfl, fun applied => applied, fun same => by simp [Columns.confirm] at same, fun _ => rfl⟩
  | @apply _ _ _ _ _ changed =>
    refine ⟨Nat.le_succ _, Nat.le_add_right _ _, fun _ => rfl, fun same => by simp [Columns.apply] at same, ?_⟩
    intro same
    cases changed with
    | true => simp [Columns.apply] at same
    | false => rfl
  | _ => exact ⟨le_rfl, le_rfl, fun applied => applied, fun _ => ⟨⟨rfl, rfl⟩, rfl, rfl⟩, fun _ => rfl⟩

/-- A transaction that writes edges counts a change. -/
private theorem audited_applyDiff {follower : Nat} {removed added : List Nat} {changed : Bool}
    (tallied : changed = (!added.isEmpty || !removed.isEmpty))
    (done : before.applyDiff now follower removed added eventId createdAt changed = .ok after) :
    Audited before after := by
  obtain ⟨rows, follows⟩ := Database.applyDiff_spec done
  intro id row found
  by_cases same : id = follower
  · subst same
    have moves : Moves now (.applyDiff id removed added eventId createdAt changed) id row.columns
        (row.columns.apply now eventId createdAt changed) := .apply
    refine ⟨⟨row.pubkey, row.columns.apply now eventId createdAt changed⟩, by simp [rows, found], rfl,
      counts_of_moves moves, ?_⟩
    intro still followee
    cases changed with
    | true => simp [Columns.apply] at still
    | false =>
      obtain ⟨rfl, rfl⟩ : added = [] ∧ removed = [] := by simpa using tallied.symm
      simp [follows]
  · refine ⟨row, by rw [rows, Database.updateRow_rows_of_ne _ _ same, found], rfl, .refl _, ?_⟩
    intro _ followee
    simp [follows, same]

theorem Audited.executes {reply : Except StoreError stmt.Ret} {locked : Finset Nat} (tallies : Tallies stmt before)
    (executes : stmt.Executes now locked before reply after) : Audited before after := by
  have other (edgeless : stmt.edits = none) : Audited before after := by
    intro id row found
    obtain ⟨columns, kept⟩ := executes.framed.persists id row found
    refine ⟨⟨row.pubkey, columns⟩, kept, rfl, ?_, ?_⟩
    · rcases executes.evolves kept with ⟨absent, _⟩ | ⟨old, present, _, moves⟩
      · cases absent.symm.trans found
      · obtain rfl := Option.some.inj (found.symm.trans present)
        exact counts_of_moves moves
    · intro _ followee
      exact executes.framed.follows id followee (by simp [edgeless])
  cases stmt with
  | applyDiff follower removed added eventId createdAt changed =>
    simp only [Stmt.Executes, Commits] at executes
    split at executes
    · rename_i next done
      obtain ⟨_, rfl⟩ := executes
      exact audited_applyDiff tallies done
    · obtain ⟨_, rfl⟩ := executes
      exact .refl _
  | _ => exact other rfl

/-- Every statement as the writer issues it keeps the churn columns truthful. -/
theorem Churn.executes {reply : Except StoreError stmt.Ret} {locked : Finset Nat} (churn : Churn before)
    (tallies : Tallies stmt before) (executes : stmt.Executes now locked before reply after) : Churn after := by
  have audited := Audited.executes tallies executes
  refine ⟨?_, ?_⟩
  · intro id kept found
    rcases executes.evolves found with ⟨_, _, fresh⟩ | ⟨row, present, _, moves⟩
    · exact fresh ▸ .default
    · exact (churn.rows id row present).moves present tallies moves
  · intro id kept found followee edge
    cases present : before.rows id with
    | none =>
      -- a row that is new has no edges yet: the statement that inserts it writes none
      obtain ⟨rfl, _⟩ := executes.framed.fresh id kept present found
      have old := (executes.framed.follows id followee fun edits => by cases edits).mp edge
      have known := (before.follows_references _ old).1
      simp [present] at known
    | some row =>
      obtain ⟨same, there, follows⟩ := audited id row present
      obtain rfl := Option.some.inj (found.symm.trans there)
      by_cases still : kept.columns.changeCount = row.columns.changeCount
      · rw [still]
        exact churn.edges id row present followee ((follows.edges still followee).mp edge)
      · have changes := follows.counts.changes
        omega

end Statement

section Worker

variable {verify : Event → Bool} {Note : Type}

/-- The daemon's statements tally, and keep what was counted. -/
def tallying (verify : Event → Bool) : Contract verify where
  holds := Churn
  guarantee := Tallies
  moves := Audited
  refl := .refl
  trans := .trans
  empty := {
    rows := fun id row found => by cases found
    edges := fun id row found => by cases found }
  ranges := by
    intro stmt ranges db
    cases stmt <;> trivial
  settles := by
    intro stmt settling db
    cases stmt <;> trivial
  moved := fun tallies executes => Audited.executes tallies executes
  kept := fun churn tallies executes => churn.executes tallies executes
  mixed := fun _ _ churn _ _ _ => ⟨⟨churn.rows, churn.edges⟩, fun _ row found => ⟨row, found, rfl, .refl _, fun _ _ => Iff.rfl⟩⟩

/-- A statement that tallies wherever it is made. -/
private theorem query_tallies {stmt : Stmt} {state : Database × Note}
    (tallies : ∀ later, Audited state.1 later → Tallies stmt later) :
    (tallying verify).Fulfills (fun _ _ => True) (query stmt) state :=
  (tallying verify).query_fulfills (fun later moved => tallies later moved.moves) fun _ _ _ _ _ _ _ _ => trivial

/-- The applied event as read, which the row keeps having. -/
private theorem selectAppliedEvent_tallies (follower : Nat) (state : Database × Note) :
    (tallying verify).Fulfills (fun current later => current.isSome →
      ∃ row, later.1.rows follower = some row ∧ row.columns.appliedEventId.isSome)
      (query (.selectAppliedEvent follower)) state := by
  refine (tallying verify).query_fulfills (fun later _ => show Tallies (.selectAppliedEvent follower) later from trivial) ?_
  intro current before after later _ executed rest _ recorded
  obtain ⟨now, locked, _, unchanged, replied⟩ := executed
  subst unchanged
  split at replied
  · rename_i old present
    obtain ⟨kept, there, follows⟩ := rest.moves follower old present
    exact ⟨kept, there, follows.counts.applied (Except.ok.inj replied ▸ recorded)⟩
  · cases replied

private theorem applyFollowList_tallies (follower : Nat) (eventId : Bytes) (createdAt : DateTime) (followeeIds : List Nat)
    (state : Database × Note) : (tallying verify).Fulfills (fun _ _ => True)
      (applyFollowList follower eventId createdAt followeeIds) state := by
  unfold applyFollowList
  apply (selectAppliedEvent_tallies follower state).ok_bind
  intro current later applied
  split
  · rename_i same
    have confirms (further : Database) (moved : Audited later.1 further) : Tallies (.confirmFetched follower) further := by
      intro row found
      obtain ⟨old, present, recorded⟩ := applied (same ▸ rfl)
      obtain ⟨kept, there, follows⟩ := moved follower old present
      obtain rfl := Option.some.inj (found.symm.trans there)
      exact follows.counts.applied recorded
    apply (query_tallies confirms).ok_bind
    exact fun _ _ _ => Safe.ret fun _ _ => trivial
  · have compares (further : Database) (_ : Audited later.1 further) : Tallies (.selectFollowees follower) further := trivial
    apply (query_tallies compares).ok_bind
    intro currentSet compared _
    have applies (removed added : List Nat) (further : Database) (_ : Audited compared.1 further) : Tallies
        (.applyDiff follower removed added eventId createdAt (!added.isEmpty || !removed.isEmpty)) further := rfl
    apply (query_tallies (applies _ _)).ok_bind
    exact fun _ _ _ => Safe.ret fun _ _ => trivial

private theorem upsertPubkey_tallies (key : Bytes) (state : Database × Note) :
    (tallying verify).Fulfills (fun _ _ => True) (upsertPubkey key) state := by
  have issues : (upsertPubkey key).run.Issues (fun stmt => ∀ db, Tallies stmt db) :=
    upsertPubkey_issues fun _ => trivial
  exact worker_safe_of_yields (fun _ tallies => tallies) (Prog.Yields.of_issues issues) state

private theorem applyValidated_tallies (vfl : ValidatedFollowList) (state : Database × Note) :
    (tallying verify).Fulfills (fun _ _ => True) (applyValidated vfl) state := by
  have issues : (upsertAll vfl.followeePubkeys).run.Issues (fun stmt => ∀ db, Tallies stmt db) :=
    upsertAll_issues _ fun _ _ _ => trivial
  unfold applyValidated
  apply (upsertPubkey_tallies vfl.followerPubkey.bytes state).ok_bind
  intro followerId between _
  apply (worker_safe_of_yields (fun _ tallies => tallies) (Prog.Yields.of_issues issues) between).ok_bind
  exact fun followeeIds later _ => applyFollowList_tallies followerId _ _ followeeIds later

private theorem tallying_fulfilled (verify : Event → Bool) : (tallying verify).Fulfilled where
  applies := fun vfl _ state _ => applyValidated_tallies vfl state
  knows := by
    intro _ _ claimed author _ state _
    apply (tallying verify).knownRelays_fulfills _ claimed author state
    intro stmt relisting db
    cases stmt <;> trivial

end Worker

section Daemon

variable {verify : Event → Bool} {anchor : Bytes} {workers : Workers}

private theorem tallying_of_run (run : Relation.ReflTransGen (DaemonStep verify anchor) ⟨Database.empty, []⟩ workers) :
    (tallying verify).Kept workers :=
  ((Contract.Kept.empty (tallying verify)).run (tallying_fulfilled verify) run).1

theorem Churn.of_run (run : Relation.ReflTransGen (DaemonStep verify anchor) ⟨Database.empty, []⟩ workers) :
    Churn workers.shared := (tallying_of_run run).holds

/-- The churn columns are truthful: however the daemon runs and whatever its relays return, the
columns of every row agree, and between any two moments of a run no counter goes back, while the
edges of a row whose change counter stands still are the same ones. -/
theorem counters_truthful (run : Relation.ReflTransGen (DaemonStep verify anchor) ⟨Database.empty, []⟩ workers) :
    Churn workers.shared ∧ ∀ later, Relation.ReflTransGen (DaemonStep verify anchor) workers later →
      Audited workers.shared later.shared := by
  refine ⟨Churn.of_run run, ?_⟩
  intro later further
  exact ((tallying_of_run run).run (tallying_fulfilled verify) further).2

/-- The theorem before and after a list is applied, which counts one change. -/
theorem counters_truthful_trail : Audited trailStarted.shared trailWorkers.shared ∧ Churn trailWorkers.shared ∧
    ∃ row, trailWorkers.shared.rows 1 = some row ∧ row.columns.changeCount = 1 := by
  have audited := (counters_truthful trail_claimed).2 _ trail_worked
  exact ⟨audited, (counters_truthful trail_run).1, _, rfl, by decide⟩

end Daemon

end WotCrawler.Crawl
