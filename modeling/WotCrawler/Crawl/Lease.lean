import WotCrawler.Crawl.Apply
import WotCrawler.Effect.Pool
import WotCrawler.Ingest.Winner
import WotCrawler.Store.Frame

/-! A worker among others: the rows it has claimed and not yet resolved are its own, and what
its programs do to the database while others act. -/

namespace WotCrawler.Crawl

open Effect Store Ingest

variable {id : Nat} {key : Bytes}

/-- A database together with the rows a worker has claimed and not yet resolved. -/
abbrev Desk := Database × Set Nat

/-- Every outcome a worker writes resolves that row. -/
def release (stmt : Stmt) (_ : Database) (pending : Set Nat) : Set Nat :=
  pending \ {id | stmt.outcome = some id}

def leasing (possible : Finset Nat → Prop) : Machine Sql Desk := (sqlWith possible).noting release

/-- Others keep every row and its key, and do not touch the worker's pending rows. -/
def leased : Reliance Desk where
  rely := fun before after => after.2 = before.2 ∧ Persists before.1 after.1 ∧
    ∀ id ∈ before.2, before.1.Untouched after.1 id
  refl := fun state => ⟨rfl, .refl state.1, fun _ _ => ⟨fun _ found => found, fun _ => Iff.rfl⟩⟩
  trans := by
    rintro first second third ⟨note, persists, untouched⟩ ⟨laterNote, laterPersists, laterUntouched⟩
    refine ⟨laterNote.trans note, persists.trans laterPersists, ?_⟩
    intro id pending
    obtain ⟨rows, edges⟩ := untouched id pending
    obtain ⟨laterRows, laterEdges⟩ := laterUntouched id (note ▸ pending)
    exact ⟨fun row found => laterRows row (rows row found),
      fun followee => (laterEdges followee).trans (edges followee)⟩

/-- Nobody else acts. -/
def alone : Reliance Desk where
  rely := fun before after => after = before
  refl := fun _ => rfl
  trans := fun first second => second.trans first

theorem alone_within {before after : Desk} (moved : alone.rely before after) :
    leased.rely before after := by
  have same : after = before := moved
  subst same
  exact leased.refl after

/-- A row's columns and edges are those of an applied list. -/
structure Lists (db : Database) (id : Nat) (vfl : ValidatedFollowList) : Prop where
  applied : ∃ row, db.rows id = some row ∧ row.columns.appliedEventId = some vfl.eventId.bytes ∧
    row.columns.appliedCreatedAt = some vfl.createdAt
  edges : ∀ key, db.followsKey id key ↔
    ∃ followee ∈ vfl.followeePubkeys, followee ≠ vfl.followerPubkey ∧ followee.bytes = key

/-- A row's columns and edges are those of an event. -/
structure Holds (db : Database) (id : Nat) (event : Event) : Prop where
  applied : ∃ row, db.rows id = some row ∧ row.columns.appliedEventId = some event.id.bytes ∧
    row.columns.appliedCreatedAt = some (timestampToDatetime event.createdAt)
  edges : ∀ key, db.followsKey id key ↔ ∃ followee ∈ followeeSet event, followee.bytes = key

/-- The list of an event, applied, is the event's. -/
theorem Lists.holds {event : Event} (extracted : Ingest.followeePubkeys event followCap = some followees)
    (lists : Lists db id (.fromEvent event followees)) : Holds db id event := by
  obtain ⟨_, same, _⟩ := followeePubkeys_spec extracted
  refine ⟨lists.applied, ?_⟩
  intro key
  rw [lists.edges key, ← same]
  constructor
  · rintro ⟨followee, member, _, rfl⟩
    exact ⟨followee, List.mem_toFinset.mpr member, rfl⟩
  · rintro ⟨followee, member, rfl⟩
    refine ⟨followee, List.mem_toFinset.mp member, ?_, rfl⟩
    rintro rfl
    rw [same] at member
    exact Finset.notMem_erase _ _ member

/-- Copies of one event say the same of a row. -/
theorem Holds.of_copy (verifier : Verifier) {event copy : Event} (verified : verifier.verify event = true)
    (copyVerified : verifier.verify copy = true) (same : event.id = copy.id)
    (holds : Holds db id event) : Holds db id copy := by
  have created := verifier.createdAt_eq verified copyVerified same
  have followees : followeeSet event = followeeSet copy := by
    rw [followeeSet, followeeSet, verifier.tags_eq verified copyVerified same,
      verifier.pubkey_eq verified copyVerified same]
  refine ⟨?_, ?_⟩
  · obtain ⟨row, found, applied, createdAt⟩ := holds.applied
    exact ⟨row, found, same ▸ applied, created ▸ createdAt⟩
  · intro key
    rw [holds.edges key, followees]

/-- What each statement of `apply_validated` does: it keeps its frame, names only the keys of
the list, and writes the outcome of its follower's row alone, which is then fetched. -/
structure Applies (vfl : ValidatedFollowList) (stmt : Stmt) (before after : Desk) : Prop where
  framed : Framed stmt before.1 after.1
  released : after.2 = release stmt before.1 before.2
  single : stmt.ranges = false
  named : ∀ key, stmt = .upsertPubkey key →
    key = vfl.followerPubkey.bytes ∨ ∃ followee ∈ vfl.followeePubkeys, followee.bytes = key
  owned : ∀ id, stmt.outcome = some id → id ∈ before.2 ∧ before.1.keyed id vfl.followerPubkey.bytes
  fetched : ∀ id, stmt.outcome = some id → ∃ row, after.1.rows id = some row ∧
    row.columns.status = .fetched ∧ row.columns.appliedEventId = some vfl.eventId.bytes
  lists : ∀ id, stmt.edits = some id → Lists after.1 id vfl

/-- A result that is a value, as described. -/
def succeeds (middle : α → Desk → Prop) : Except StoreError α → Desk → Prop
  | .ok value, state => middle value state
  | .error _, _ => False

/-- A key's row, once it exists, is pending here. -/
def Owns (key : Bytes) (state : Desk) : Prop :=
  ∀ later id, Persists state.1 later → later.keyed id key → id ∈ state.2

theorem Owns.of_keyed {state : Desk} (keyed : state.1.keyed id key) (pending : id ∈ state.2) :
    Owns key state := by
  intro later other persists present
  rwa [Database.keyed_unique present (persists.keyed keyed)]

/-- The same rows are pending, and no row is gone. -/
def Continues (before after : Desk) : Prop :=
  after.2 = before.2 ∧ Persists before.1 after.1

theorem Continues.trans (first : Continues before between) (second : Continues between after) :
    Continues before after :=
  ⟨second.1.trans first.1, first.2.trans second.2⟩

theorem Owns.later (owns : Owns key before) (continues : Continues before after) : Owns key after := by
  intro later id further keyed
  rw [continues.1]
  exact owns later id (continues.2.trans further) keyed

theorem release_of_none (quiet : stmt.outcome = none) (db : Database) (pending : Set Nat) :
    release stmt db pending = pending := by
  simp [release, quiet]

private theorem exists_of_mem_left {R : α → β → Prop} (related : List.Forall₂ R left right)
    (member : a ∈ left) : ∃ b ∈ right, R a b := by
  induction related with
  | nil => cases member
  | cons head tail ih =>
    cases member with
    | head => exact ⟨_, List.mem_cons_self .., head⟩
    | tail _ rest =>
      obtain ⟨b, present, holds⟩ := ih rest
      exact ⟨b, List.mem_cons_of_mem _ present, holds⟩

section Walk

variable {possible : Finset Nat → Prop} {reliance : Reliance Desk}
  {guarantee : Stmt → Desk → Desk → Prop}

/-- The rule of one query. -/
theorem query_safe {stmt : Stmt} {post : Except StoreError stmt.Ret → Desk → Prop}
    (step : ∀ before reply after now locked, reliance.rely state before →
      stmt.Executes now locked before.1 reply after.1 → Framed stmt before.1 after.1 →
      after.2 = release stmt before.1 before.2 →
      guarantee stmt before after ∧ ∀ later, reliance.rely after later → post reply later) :
    Safe (leasing possible) reliance guarantee post (query stmt).run state := by
  apply Safe.perform
  intro before reply after moved executed
  obtain ⟨⟨now, locked, _, executes⟩, released⟩ := executed
  exact step before reply after now locked moved executes executes.framed released

/-- The rule of sequence after a computation that cannot fail. -/
theorem succeeds_bind {first : StoreM α} {next : α → StoreM β} {middle : α → Desk → Prop}
    {post : Except StoreError β → Desk → Prop}
    (safe : Safe (leasing possible) reliance guarantee (succeeds middle) first.run state)
    (rest : ∀ value later, middle value later →
      Safe (leasing possible) reliance guarantee post (next value).run later) :
    Safe (leasing possible) reliance guarantee post (first >>= next).run state := by
  have settled : Safe (leasing possible) reliance guarantee (Safe.orFails middle post) first.run state := by
    apply safe.mono
    intro result later holds
    cases result with
    | ok value => exact holds
    | error error => exact holds.elim
  exact settled.except_bind rest

variable {vfl : ValidatedFollowList}

/-- A statement that writes no outcome, as a step of `apply_validated`. -/
private theorem applies_quiet {stmt : Stmt} (framed : Framed stmt before.1 after.1)
    (released : after.2 = release stmt before.1 before.2) (quiet : stmt.outcome = none)
    (single : stmt.ranges = false) (edgeless : stmt.edits = none)
    (named : ∀ key, stmt = .upsertPubkey key →
      key = vfl.followerPubkey.bytes ∨ ∃ followee ∈ vfl.followeePubkeys, followee.bytes = key) :
    Applies vfl stmt before after where
  framed := framed
  released := released
  single := single
  named := named
  owned := fun id writes => by rw [quiet] at writes; cases writes
  fetched := fun id writes => by rw [quiet] at writes; cases writes
  lists := fun id writes => by rw [edgeless] at writes; cases writes

variable (within : ∀ {before after}, reliance.rely before after → leased.rely before after)

include within

private theorem rely_continues (moved : reliance.rely before after) : Continues before after :=
  ⟨(within moved).1, (within moved).2.1⟩

theorem upsertPubkey_safe (author : PublicKey)
    (named : author = vfl.followerPubkey ∨ author ∈ vfl.followeePubkeys) (state : Desk) :
    Safe (leasing possible) reliance (Applies vfl)
      (succeeds fun id later => Continues state later ∧ later.1.keyed id author.bytes)
      (upsertPubkey author.bytes).run state := by
  have wide : ¬ author.bytes.length ≠ pubkeyLen := fun differs => differs author.width
  rw [upsertPubkey, if_neg wide]
  apply query_safe
  intro before reply after now locked moved executes framed released
  obtain ⟨rfl, inserted⟩ := executes
  have kept : Continues state after := by
    obtain ⟨note, persists⟩ := rely_continues within moved
    exact ⟨(released.trans (release_of_none rfl _ _)).trans note, persists.trans framed.persists⟩
  refine ⟨?_, ?_⟩
  · apply applies_quiet framed released rfl rfl rfl
    intro key same
    obtain rfl := Stmt.upsertPubkey.inj same
    cases named with
    | inl follower => exact .inl (congrArg PublicKey.bytes follower)
    | inr followee => exact .inr ⟨author, followee, rfl⟩
  · intro later rest
    have further := rely_continues within rest
    refine ⟨kept.trans further, further.2.keyed ?_⟩
    rw [inserted]
    exact (before.1.upsert_spec author.bytes).1

theorem upsertAll_safe (keys : List PublicKey) (named : ∀ key ∈ keys, key ∈ vfl.followeePubkeys)
    (state : Desk) :
    Safe (leasing possible) reliance (Applies vfl)
      (succeeds fun ids later => Continues state later ∧
        List.Forall₂ (fun key id => later.1.keyed id key.bytes) keys ids)
      (upsertAll keys).run state := by
  induction keys generalizing state with
  | nil =>
    apply Safe.ret
    intro later moved
    exact ⟨rely_continues within moved, .nil⟩
  | cons key rest ih =>
    unfold upsertAll
    apply succeeds_bind (upsertPubkey_safe within key (.inr (named key (List.mem_cons_self ..))) state)
    rintro id between ⟨first, keyed⟩
    apply succeeds_bind (ih (fun other member => named other (List.mem_cons_of_mem _ member)) between)
    rintro ids later ⟨second, listed⟩
    apply Safe.ret
    intro final moved
    have last := rely_continues within moved
    refine ⟨(first.trans second).trans last, .cons (last.2.keyed (second.2.keyed keyed)) ?_⟩
    exact listed.imp fun _ _ => last.2.keyed

omit within in
/-- The edge transaction turns the edges read into the list's, whoever the ids belong to. -/
private theorem applyDiff_lists {followeeIds current : List Nat}
    (follower : before.keyed followerId vfl.followerPubkey.bytes)
    (listed : List.Forall₂ (fun key id => before.keyed id key.bytes) vfl.followeePubkeys followeeIds)
    (read : ∀ followee, followee ∈ current ↔ (followerId, followee) ∈ before.follows)
    (new : newSet = (followeeIds.filter (fun id => id ≠ followerId)).dedup)
    (done : before.applyDiff now followerId (current.filter (fun id => id ∉ newSet))
      (newSet.filter (fun id => id ∉ current)) vfl.eventId.bytes vfl.createdAt changed = .ok after)
    (framed : Persists before after) : Lists after followerId vfl := by
  obtain ⟨rows, follows⟩ := Database.applyDiff_spec done
  obtain ⟨columns, present⟩ := follower
  have edges (followee : Nat) : (followerId, followee) ∈ after.follows ↔
      followee ∈ followeeIds ∧ followee ≠ followerId := by
    have member : followee ∈ newSet ↔ followee ∈ followeeIds ∧ followee ≠ followerId := by
      simp [new]
    rw [follows, ← member]
    simp only [← read, List.mem_filter, decide_eq_true_eq, Prod.mk.injEq, true_and, ne_eq]
    grind
  have row : after.rows followerId = some ⟨vfl.followerPubkey.bytes,
      columns.apply now vfl.eventId.bytes vfl.createdAt changed⟩ := by
    rw [rows]
    simp [present]
  refine ⟨⟨_, row, rfl, rfl⟩, ?_⟩
  intro key
  constructor
  · rintro ⟨followee, edge, keyed⟩
    obtain ⟨member, apart⟩ := (edges followee).mp edge
    obtain ⟨author, named, known⟩ := exists_of_mem_left listed.flip member
    have same := Database.keyed_key (framed.keyed known) keyed
    refine ⟨author, named, ?_, same⟩
    rintro rfl
    exact apart (Database.keyed_unique known ⟨columns, present⟩)
  · rintro ⟨author, named, apart, rfl⟩
    obtain ⟨followee, member, known⟩ := exists_of_mem_left listed named
    refine ⟨followee, (edges followee).mpr ⟨member, ?_⟩, framed.keyed known⟩
    rintro rfl
    exact apart (PublicKey.bytes_injective (Database.keyed_key known ⟨columns, present⟩))

/-- The row of a follower records the event of its list, and did so when the others last acted. -/
def Recorded (reliance : Reliance Desk) (vfl : ValidatedFollowList) (changed : Bool) (later : Desk) :
    Prop :=
  ∃ settled id, reliance.rely settled later ∧ settled.1.keyed id vfl.followerPubkey.bytes ∧
    (∃ row, settled.1.rows id = some row ∧ row.columns.appliedEventId = some vfl.eventId.bytes) ∧
    (changed = true → Lists settled.1 id vfl)

/-- The same, and the follower's row was stamped by its worker, which has resolved it. -/
def Closed (reliance : Reliance Desk) (vfl : ValidatedFollowList) (changed : Bool) (later : Desk) : Prop :=
  ∃ settled id, reliance.rely settled later ∧ settled.1.keyed id vfl.followerPubkey.bytes ∧
    id ∉ settled.2 ∧
    (∃ row, settled.1.rows id = some row ∧ row.columns.status = .fetched ∧
      row.columns.appliedEventId = some vfl.eventId.bytes) ∧
    (changed = true → Lists settled.1 id vfl)

omit within in
theorem Closed.recorded {later : Desk} (closed : Closed reliance vfl changed later) :
    Recorded reliance vfl changed later := by
  obtain ⟨settled, id, moved, keyed, _, ⟨row, found, _, applied⟩, lists⟩ := closed
  exact ⟨settled, id, moved, keyed, ⟨row, found, applied⟩, lists⟩

omit within in
theorem release_of_outcome {stmt : Stmt} (outcome : stmt.outcome = some id) (db : Database)
    (pending : Set Nat) : id ∉ release stmt db pending := by
  intro member
  exact member.2 outcome

private theorem selectAppliedEvent_safe {state : Desk} (pending : followerId ∈ state.2)
    (follower : state.1.keyed followerId key) :
    Safe (leasing possible) reliance (Applies vfl)
      (succeeds fun current later => Continues state later ∧ (current = some vfl.eventId.bytes →
        ∃ row, later.1.rows followerId = some row ∧
          row.columns.appliedEventId = some vfl.eventId.bytes))
      (query (.selectAppliedEvent followerId)).run state := by
  apply query_safe
  intro before reply after now locked moved executes framed released
  obtain ⟨unchanged, answered⟩ := executes
  have first := rely_continues within moved
  have note : after.2 = before.2 := released.trans (release_of_none rfl _ _)
  obtain ⟨columns, present⟩ := first.2.keyed follower
  rw [present] at answered
  refine ⟨applies_quiet framed released rfl rfl rfl (fun _ other => by cases other), ?_⟩
  intro later rest
  rw [answered]
  have last := rely_continues within rest
  refine ⟨(first.trans ⟨note, framed.persists⟩).trans last, ?_⟩
  intro same
  refine ⟨_, ((within rest).2.2 followerId ?_).1 _ (unchanged ▸ present), same⟩
  rwa [note, first.1]

private theorem confirmFetched_safe {state : Desk} (pending : followerId ∈ state.2)
    (follower : state.1.keyed followerId vfl.followerPubkey.bytes)
    (recorded : ∃ row, state.1.rows followerId = some row ∧
      row.columns.appliedEventId = some vfl.eventId.bytes) :
    Safe (leasing possible) reliance (Applies vfl)
      (succeeds fun _ later => Closed reliance vfl false later)
      (query (.confirmFetched followerId)).run state := by
  apply query_safe
  intro before reply after now locked moved executes framed released
  obtain ⟨rfl, written⟩ := executes
  have first := rely_continues within moved
  obtain ⟨row, found, applied⟩ := recorded
  have present := ((within moved).2.2 followerId pending).1 row found
  have confirmed : after.1.rows followerId = some ⟨row.pubkey, row.columns.confirm now⟩ := by
    rw [written]
    simp [present]
  refine ⟨⟨framed, released, rfl, (fun _ other => by cases other), ?_, ?_,
    (fun _ other => by cases other)⟩, ?_⟩
  · intro id writes
    obtain rfl := Option.some.inj writes
    exact ⟨first.1 ▸ pending, first.2.keyed follower⟩
  · intro id writes
    obtain rfl := Option.some.inj writes
    exact ⟨_, confirmed, rfl, applied⟩
  · intro later rest
    exact ⟨after, followerId, rest, framed.persists.keyed (first.2.keyed follower),
      released ▸ release_of_outcome rfl _ _, ⟨_, confirmed, rfl, applied⟩,
      fun impossible => by cases impossible⟩

private theorem selectFollowees_safe {state : Desk} (pending : followerId ∈ state.2) :
    Safe (leasing possible) reliance (Applies vfl)
      (succeeds fun current later => Continues state later ∧
        ∀ followee, followee ∈ current ↔ (followerId, followee) ∈ later.1.follows)
      (query (.selectFollowees followerId)).run state := by
  apply query_safe
  intro before reply after now locked moved executes framed released
  obtain ⟨unchanged, rows, rfl, _, answered⟩ := executes
  have first := rely_continues within moved
  have note : after.2 = before.2 := released.trans (release_of_none rfl _ _)
  refine ⟨applies_quiet framed released rfl rfl rfl (fun _ other => by cases other), ?_⟩
  intro later rest
  refine ⟨(first.trans ⟨note, framed.persists⟩).trans (rely_continues within rest), ?_⟩
  intro followee
  have kept := ((within rest).2.2 followerId (by rwa [note, first.1])).2 followee
  rw [kept, unchanged, answered]

private theorem applyDiff_safe {state : Desk} {current : List Nat} (pending : followerId ∈ state.2)
    (follower : state.1.keyed followerId vfl.followerPubkey.bytes)
    (listed : List.Forall₂ (fun key id => state.1.keyed id key.bytes) vfl.followeePubkeys followeeIds)
    (new : newSet = (followeeIds.filter (fun id => id ≠ followerId)).dedup)
    (read : ∀ followee, followee ∈ current ↔ (followerId, followee) ∈ state.1.follows) :
    Safe (leasing possible) reliance (Applies vfl)
      (succeeds fun _ later => Closed reliance vfl true later)
      (query (.applyDiff followerId (current.filter (fun id => id ∉ newSet))
        (newSet.filter (fun id => id ∉ current)) vfl.eventId.bytes vfl.createdAt changed)).run state := by
  apply query_safe
  intro before reply after now locked moved executes framed released
  have first := rely_continues within moved
  have known := first.2.keyed follower
  have named := listed.imp fun _ _ => first.2.keyed
  have stillRead (followee : Nat) : followee ∈ current ↔ (followerId, followee) ∈ before.1.follows :=
    (read followee).trans (((within moved).2.2 followerId pending).2 followee).symm
  obtain ⟨next, done⟩ : ∃ next, before.1.applyDiff now followerId
      (current.filter (fun id => id ∉ newSet)) (newSet.filter (fun id => id ∉ current))
      vfl.eventId.bytes vfl.createdAt changed = .ok next := by
    obtain ⟨columns, present⟩ := known
    apply Database.applyDiff_isOk (by simp [present])
    intro followee member
    have wanted : followee ∈ followeeIds ∧ followee ≠ followerId := by
      have inNew := List.mem_of_mem_filter member
      simpa [new] using inNew
    obtain ⟨author, _, columns, row⟩ := exists_of_mem_left named.flip wanted.1
    exact ⟨wanted.2.symm, by simp [row]⟩
  have committed : reply = .ok () ∧ after.1 = next := by
    simpa only [Stmt.Executes, done, Commits] using executes
  obtain ⟨rfl, rfl⟩ := committed
  have lists := applyDiff_lists known named stillRead new done framed.persists
  obtain ⟨rows, _⟩ := Database.applyDiff_spec done
  obtain ⟨columns, present⟩ := known
  have row : after.1.rows followerId = some ⟨vfl.followerPubkey.bytes,
      columns.apply now vfl.eventId.bytes vfl.createdAt changed⟩ := by
    rw [rows]
    simp [present]
  refine ⟨⟨framed, released, rfl, (fun _ other => by cases other), ?_, ?_, ?_⟩, ?_⟩
  · intro id writes
    obtain rfl := Option.some.inj writes
    exact ⟨first.1 ▸ pending, columns, present⟩
  · intro id writes
    obtain rfl := Option.some.inj writes
    exact ⟨_, row, rfl, rfl⟩
  · intro id writes
    obtain rfl := Option.some.inj writes
    exact lists
  · intro later rest
    exact ⟨after, followerId, rest, ⟨_, row⟩, released ▸ release_of_outcome rfl _ _, ⟨_, row, rfl, rfl⟩,
      fun _ => lists⟩

/-- The edge writer among others that leave its follower alone. -/
theorem applyFollowList_safe {state : Desk} (pending : followerId ∈ state.2)
    (follower : state.1.keyed followerId vfl.followerPubkey.bytes)
    (listed : List.Forall₂ (fun key id => state.1.keyed id key.bytes) vfl.followeePubkeys followeeIds) :
    Safe (leasing possible) reliance (Applies vfl) (succeeds (Closed reliance vfl))
      (applyFollowList followerId vfl.eventId.bytes vfl.createdAt followeeIds).run state := by
  unfold applyFollowList
  apply succeeds_bind (selectAppliedEvent_safe within pending follower)
  rintro current between ⟨continues, recorded⟩
  split
  · rename_i same
    apply succeeds_bind (confirmFetched_safe within (continues.1 ▸ pending)
      (continues.2.keyed follower) (recorded same))
    rintro _ later ⟨settled, id, moved, rest⟩
    apply Safe.ret
    intro final last
    exact ⟨settled, id, reliance.trans moved last, rest⟩
  · apply succeeds_bind (selectFollowees_safe within (continues.1 ▸ pending))
    rintro edges read ⟨further, reading⟩
    have kept := continues.trans further
    apply succeeds_bind (applyDiff_safe within (kept.1 ▸ pending) (kept.2.keyed follower)
      (listed.imp fun _ _ => kept.2.keyed) rfl reading)
    rintro _ later ⟨settled, id, moved, rest⟩
    apply Safe.ret
    intro final last
    exact ⟨settled, id, reliance.trans moved last, rest⟩

/-- The bridge among others that leave the follower's row alone: it cannot fail. -/
theorem applyValidated_closes {state : Desk} (owns : Owns vfl.followerPubkey.bytes state) :
    Safe (leasing possible) reliance (Applies vfl) (succeeds (Closed reliance vfl))
      (applyValidated vfl).run state := by
  unfold applyValidated
  apply succeeds_bind (upsertPubkey_safe within vfl.followerPubkey (.inl rfl) state)
  rintro followerId between ⟨continues, follower⟩
  apply succeeds_bind (upsertAll_safe within vfl.followeePubkeys (fun _ member => member) between)
  rintro followeeIds later ⟨further, listed⟩
  have known := further.2.keyed follower
  have pending := (owns.later (continues.trans further)) later.1 followerId (.refl _) known
  exact applyFollowList_safe within pending known listed

theorem applyValidated_safe {state : Desk} (owns : Owns vfl.followerPubkey.bytes state) :
    Safe (leasing possible) reliance (Applies vfl) (succeeds (Recorded reliance vfl))
      (applyValidated vfl).run state := by
  apply (applyValidated_closes within owns).mono
  intro result later holds
  cases result with
  | ok changed => exact Closed.recorded holds
  | error error => exact holds

end Walk

/-- Alone, the bridge leaves the list in its follower's row, and keeps what its statements keep. -/
theorem applyValidated_alone {vfl : ValidatedFollowList} {before : Database} (keeps : Database → Prop)
    (keyed : before.keyed id vfl.followerPubkey.bytes) (start : keeps before)
    (step : ∀ {stmt : Stmt} {early late : Desk}, Applies vfl stmt early late → keeps early.1 → keeps late.1) :
    Must sql (applyValidated vfl).run before fun reply after => (∃ changed, reply = .ok changed) ∧ keeps after ∧
      ∃ row, after.rows id = some row ∧ row.columns.status = .fetched ∧
        row.columns.appliedEventId = some vfl.eventId.bytes := by
  intro reply after run
  have owns : Owns vfl.followerPubkey.bytes (before, Set.univ) := fun _ _ _ _ => Set.mem_univ _
  have safe : Safe (leasing fun _ => True) alone (Applies vfl) (succeeds (Closed alone vfl))
      (applyValidated vfl).run (before, Set.univ) := applyValidated_closes alone_within owns
  have kept := safe.remember (fun desk => desk.1.keyed id vfl.followerPubkey.bytes ∧ keeps desk.1) ⟨keyed, start⟩
    (fun moved held => by have same := moved; subst same; exact held)
    (fun applies held => ⟨applies.framed.persists.keyed held.1, step applies held.2⟩)
  obtain ⟨final, noted⟩ := run.noting Set.univ
  obtain ⟨⟨known, keeps⟩, closed⟩ := kept.must _ _ noted
  cases reply with
  | error error => exact closed.elim
  | ok changed =>
    obtain ⟨settled, other, same, stands, _, recorded, _⟩ := closed
    obtain rfl : (after, final) = settled := same
    obtain rfl := Database.keyed_unique known stands
    exact ⟨⟨changed, rfl⟩, keeps, recorded⟩

end WotCrawler.Crawl
