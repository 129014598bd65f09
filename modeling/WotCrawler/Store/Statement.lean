import WotCrawler.Effect.Program
import WotCrawler.Store.Schema

/-! The SQL statements the crawler issues, each atomic under Read Committed, and what the
database may reply. The two transactions that write several rows are one statement each. -/

namespace WotCrawler.Store

open Effect Effect.Prog Sequence Ingest

/-- A leased author: its id and key. -/
structure ClaimedAuthor where
  id : Nat
  pubkey : Bytes
deriving DecidableEq

namespace Columns

/-- The fetched event is the applied one already. -/
def confirm (now : DateTime) (columns : Columns) : Columns :=
  { columns with
    status := .fetched
    lastFetchedAt := some now
    lastConfirmedAt := some now
    fetchCount := columns.fetchCount + 1 }

/-- A newly applied event, with the churn columns when the edges changed. -/
def apply (now : DateTime) (eventId : Bytes) (createdAt : DateTime) (changed : Bool)
    (columns : Columns) : Columns :=
  { columns with
    status := .fetched
    appliedEventId := some eventId
    appliedCreatedAt := some createdAt
    lastFetchedAt := some now
    lastConfirmedAt := some now
    fetchCount := columns.fetchCount + 1
    lastChangedAt := if changed then some now else columns.lastChangedAt
    changeCount := columns.changeCount + if changed then 1 else 0 }

def setStatus (status : FetchStatus) (ts : DateTime) (columns : Columns) : Columns :=
  { columns with status := status, lastFetchedAt := some ts }

def claim (now : DateTime) (columns : Columns) : Columns :=
  { columns with status := .inProgress, claimedAt := some now }

/-- What every reclaim sweep makes of a row it selects. -/
def reclaim (columns : Columns) : Columns :=
  { columns with status := .discovered, claimedAt := none, fetchAttempts := 0 }

def requeue (maxAttempts : Int) (now : DateTime) (columns : Columns) : Columns :=
  { columns with
    fetchAttempts := columns.fetchAttempts + 1
    status := if (columns.fetchAttempts + 1 : Int) ≥ maxAttempts then .failed else .discovered
    lastFetchedAt :=
      if (columns.fetchAttempts + 1 : Int) ≥ maxAttempts then some now else columns.lastFetchedAt
    claimedAt := none }

/-- An age comparison against a nullable timestamp. -/
def olderThan (timestamp : Option DateTime) (now : DateTime) (seconds : Int) : Bool :=
  timestamp.any (fun ts => ts < now - DateTime.ofSeconds seconds)

def isInProgress (columns : Columns) : Bool := columns.status = .inProgress

/-- The TTL sweep's `WHERE`. -/
def isStale (now : DateTime) (ttlSecs : Int) (columns : Columns) : Bool :=
  (columns.status = .fetched ∨ columns.status = .notFound ∨ columns.status = .failed) ∧
    olderThan columns.lastFetchedAt now ttlSecs

/-- The in-run sweep's `WHERE`. -/
def isExpired (now : DateTime) (ageSecs : Int) (columns : Columns) : Bool :=
  columns.isInProgress ∧ olderThan columns.claimedAt now ageSecs

end Columns

namespace Database

/-- The ids the claim selects: the lowest discovered ones that no transaction has locked. -/
def claimable (db : Database) (locked : Finset Nat) (limit : Nat) : List Nat :=
  ((List.range db.nextId).filter (fun id =>
    (db.rows id).any (fun row => row.columns.status = .discovered) ∧ id ∉ locked)).take limit

def claim (db : Database) (now : DateTime) (ids : List Nat) : Database :=
  db.update (fun id columns => if id ∈ ids then columns.claim now else columns)

/-- A sweep: reset every row its `WHERE` selects. -/
def sweep (db : Database) (selects : Columns → Bool) : Database :=
  db.update (fun _ columns => if selects columns then columns.reclaim else columns)

/-- The number of rows a sweep resets. -/
def selected (db : Database) (selects : Columns → Bool) : Nat :=
  ((List.range db.nextId).filter (fun id => (db.rows id).any (fun row => selects row.columns))).length

/-- The transaction of `apply_follow_list`. -/
def applyDiff (db : Database) (now : DateTime) (follower : Nat) (removed added : List Nat)
    (eventId : Bytes) (createdAt : DateTime) (changed : Bool) : Except StoreError Database := do
  let deleted := removed.foldl (fun db followee => db.deleteFollow follower followee) db
  let inserted ← added.foldlM (fun db followee => db.insertFollow follower followee) deleted
  return inserted.updateRow follower (Columns.apply now eventId createdAt changed)

/-- The transaction of `apply_relay_list`: drop the rows, then insert, first marker of a url. It is taken as it
commits by itself; of two for one pubkey that overlap, the later leaves rows of both. -/
def replaceRelays (db : Database) (pubkeyId : Nat) (relays : List (String × Marker))
    (seenAt : DateTime) : Except StoreError Database :=
  let rows := keepFirst RelayRow.url ∅ (relays.map (fun relay => ⟨relay.1, relay.2, seenAt⟩))
  if references : rows = [] ∨ (db.rows pubkeyId).isSome then
    .ok {
      rows := db.rows
      nextId := db.nextId
      follows := db.follows
      relays := Function.update db.relays pubkeyId rows
      ids := db.ids
      pubkey_unique := db.pubkey_unique
      follows_references := db.follows_references
      follows_check := db.follows_check
      relays_references := by
        intro id inhabited
        by_cases same : id = pubkeyId
        · subst same
          rw [Function.update_self] at inhabited
          exact references.resolve_left inhabited
        · rw [Function.update_of_ne same] at inhabited
          exact db.relays_references id inhabited
      relays_primary := by
        intro id
        by_cases same : id = pubkeyId
        · subst same
          rw [Function.update_self]
          exact keepFirst_nodup RelayRow.url ∅ _
        · rw [Function.update_of_ne same]
          exact db.relays_primary id }
  else .error (.sqlx (.database .foreignKeyViolation))

end Database

/-- The statements the crawler issues. -/
inductive Stmt where
  | selectAppliedEvent (id : Nat)
  | confirmFetched (id : Nat)
  | selectFollowees (follower : Nat)
  | applyDiff (follower : Nat) (removed added : List Nat) (eventId : Bytes) (createdAt : DateTime)
      (changed : Bool)
  | upsertPubkey (pubkey : Bytes)
  | updateStatus (id : Nat) (status : FetchStatus) (ts : DateTime)
  | claim (limit : Int)
  | reclaimInProgress
  | reclaimStale (ttlSecs : Int)
  | reclaimExpired (ageSecs : Int)
  | requeueOrFail (id : Nat) (maxAttempts : Int) (now : DateTime)
  | replaceRelays (pubkeyId : Nat) (relays : List (String × Marker)) (seenAt : DateTime)
  | selectWriteRelays (pubkeyId : Nat)

/-- What a statement returns when it succeeds. -/
abbrev Stmt.Ret : Stmt → Type
  | .selectAppliedEvent _ => Option Bytes
  | .confirmFetched _ => Unit
  | .selectFollowees _ => List Nat
  | .applyDiff _ _ _ _ _ _ => Unit
  | .upsertPubkey _ => Nat
  | .updateStatus _ _ _ => Unit
  | .claim _ => List ClaimedAuthor
  | .reclaimInProgress => Nat
  | .reclaimStale _ => Nat
  | .reclaimExpired _ => Nat
  | .requeueOrFail _ _ _ => Unit
  | .replaceRelays _ _ _ => Unit
  | .selectWriteRelays _ => List String

/-- A change that either happens or leaves the database as it was. -/
def Commits (change : Except StoreError Database) (before : Database)
    (reply : Except StoreError Unit) (after : Database) : Prop :=
  match change with
  | .ok next => reply = .ok () ∧ after = next
  | .error error => reply = .error error ∧ after = before

/-- A query for a set of values: each of them once, in any order. -/
def Returns (values : α → Prop) (before : Database) (reply : Except StoreError (List α))
    (after : Database) : Prop :=
  after = before ∧ ∃ rows, reply = .ok rows ∧ rows.Nodup ∧ ∀ value, value ∈ rows ↔ values value

/-- What a statement may reply and leave behind, given the transaction's `now()` and the rows
that other transactions have locked. -/
def Stmt.Executes (now : DateTime) (locked : Finset Nat) : (stmt : Stmt) → Database →
    Except StoreError stmt.Ret → Database → Prop
  | .selectAppliedEvent id, before, reply, after => after = before ∧
      reply = match before.rows id with
        | some row => .ok row.columns.appliedEventId
        | none => .error (.sqlx .rowNotFound)
  | .confirmFetched id, before, reply, after =>
      reply = .ok () ∧ after = before.updateRow id (Columns.confirm now)
  | .selectFollowees follower, before, reply, after =>
      Returns (fun followee => (follower, followee) ∈ before.follows) before reply after
  | .applyDiff follower removed added eventId createdAt changed, before, reply, after =>
      Commits (before.applyDiff now follower removed added eventId createdAt changed) before reply after
  | .upsertPubkey pubkey, before, reply, after =>
      reply = .ok (before.upsert pubkey).1 ∧ after = (before.upsert pubkey).2
  | .updateStatus id status ts, before, reply, after =>
      reply = .ok () ∧ after = before.updateRow id (Columns.setStatus status ts)
  | .claim limit, before, reply, after =>
      if limit < 0 then reply = .error (.sqlx (.database .invalidRowCountInLimit)) ∧ after = before
      else ∃ rows, reply = .ok rows ∧
        (rows.map ClaimedAuthor.id).Perm (before.claimable locked limit.toNat) ∧
        (∀ claimed ∈ rows, ∃ row, before.rows claimed.id = some row ∧ claimed.pubkey = row.pubkey) ∧
        after = before.claim now (before.claimable locked limit.toNat)
  | .reclaimInProgress, before, reply, after =>
      reply = .ok (before.selected Columns.isInProgress) ∧ after = before.sweep Columns.isInProgress
  | .reclaimStale ttlSecs, before, reply, after =>
      reply = .ok (before.selected (Columns.isStale now ttlSecs)) ∧
        after = before.sweep (Columns.isStale now ttlSecs)
  | .reclaimExpired ageSecs, before, reply, after =>
      reply = .ok (before.selected (Columns.isExpired now ageSecs)) ∧
        after = before.sweep (Columns.isExpired now ageSecs)
  | .requeueOrFail id maxAttempts ts, before, reply, after =>
      if (before.rows id).any (fun row => row.columns.fetchAttempts + 1 > 32767) then
        reply = .error (.sqlx (.database .numericValueOutOfRange)) ∧ after = before
      else reply = .ok () ∧ after = before.updateRow id (Columns.requeue maxAttempts ts)
  | .replaceRelays pubkeyId relays seenAt, before, reply, after =>
      Commits (before.replaceRelays pubkeyId relays seenAt) before reply after
  | .selectWriteRelays pubkeyId, before, reply, after =>
      Returns (fun url => ∃ relay ∈ before.relays pubkeyId,
        relay.url = url ∧ (relay.marker = .write ∨ relay.marker = .both)) before reply after

abbrev Sql : Signature where
  Op := Stmt
  Ret := fun stmt => Except StoreError stmt.Ret

/-- The database as it answers one statement after another, where the locks that other
transactions may hold are limited. -/
def sqlWith (possible : Finset Nat → Prop) : Machine Sql Database where
  exec := fun stmt before reply after =>
    ∃ now locked, possible locked ∧ stmt.Executes now locked before reply after

abbrev sql : Machine Sql Database := sqlWith (fun _ => True)

/-- A computation over the store, stopped by its first error. -/
abbrev StoreM := ExceptT StoreError (Prog Sql)

def query (stmt : Stmt) : StoreM stmt.Ret := ExceptT.mk (@perform Sql stmt)

theorem Database.mem_claimable {db : Database} {id : Nat} (member : id ∈ db.claimable locked limit) :
    id ∉ locked ∧ ∃ row, db.rows id = some row ∧ row.columns.status = .discovered := by
  have kept := List.mem_of_mem_take member
  have selected := (List.mem_filter.mp kept).2
  simp only [Option.any_eq_true, decide_eq_true_eq] at selected
  exact ⟨selected.2, selected.1⟩

private theorem map_filterMap_of_inverse {items : List α} {parse : α → Option β} {print : β → α}
    (inverse : ∀ item ∈ items, ∃ parsed, parse item = some parsed ∧ print parsed = item) :
    (items.filterMap parse).map print = items := by
  induction items with
  | nil => rfl
  | cons head rest ih =>
    obtain ⟨parsed, found, same⟩ := inverse head (List.mem_cons_self ..)
    rw [List.filterMap_cons_some found, List.map_cons, same,
      ih (fun item member => inverse item (List.mem_cons_of_mem _ member))]

private theorem commits_total (change : Except StoreError Database) (before : Database) :
    ∃ reply after, Commits change before reply after := by
  cases change with
  | ok next => exact ⟨.ok (), next, rfl, rfl⟩
  | error error => exact ⟨.error error, before, rfl, rfl⟩

private theorem returns_total {values : α → Prop} (rows : List α) (nodup : rows.Nodup)
    (listed : ∀ value, value ∈ rows ↔ values value) (before : Database) :
    ∃ reply after, Returns values before reply after :=
  ⟨.ok rows, before, rfl, rows, rfl, nodup, listed⟩

/-- The database answers every statement in every state. -/
theorem Stmt.executes_total (now : DateTime) (locked : Finset Nat) (stmt : Stmt) (before : Database) :
    ∃ reply after, stmt.Executes now locked before reply after := by
  cases stmt with
  | selectFollowees follower =>
    exact returns_total (before.followees follower).toList (Finset.nodup_toList _)
      (fun followee => by rw [Finset.mem_toList, Database.mem_followees]) before
  | applyDiff follower removed added eventId createdAt changed =>
    exact commits_total (before.applyDiff now follower removed added eventId createdAt changed) before
  | claim limit =>
    by_cases negative : limit < 0
    · simp [Stmt.Executes, negative]
    · have rows (id : Nat) (member : id ∈ before.claimable locked limit.toNat) :
          ∃ claimed, (before.rows id).map (fun row => ClaimedAuthor.mk id row.pubkey) = some claimed ∧
            claimed.id = id := by
        obtain ⟨_, row, found, _⟩ := Database.mem_claimable member
        exact ⟨⟨id, row.pubkey⟩, by simp [found], rfl⟩
      refine ⟨.ok ((before.claimable locked limit.toNat).filterMap fun id =>
        (before.rows id).map (fun row => ClaimedAuthor.mk id row.pubkey)),
        before.claim now (before.claimable locked limit.toNat), ?_⟩
      simp only [Stmt.Executes, if_neg negative, and_true]
      refine ⟨_, rfl, ?_, ?_⟩
      · rw [map_filterMap_of_inverse rows]
      · intro claimed member
        obtain ⟨id, _, made⟩ := List.mem_filterMap.mp member
        obtain ⟨row, found, rfl⟩ := Option.map_eq_some_iff.mp made
        exact ⟨row, found, rfl⟩
  | requeueOrFail id maxAttempts ts =>
    simp only [Stmt.Executes]
    split <;> exact ⟨_, _, rfl, rfl⟩
  | replaceRelays pubkeyId relays seenAt =>
    exact commits_total (before.replaceRelays pubkeyId relays seenAt) before
  | selectWriteRelays pubkeyId =>
    refine returns_total (((before.relays pubkeyId).filter
      (fun relay => relay.marker = .write ∨ relay.marker = .both)).map RelayRow.url) ?_ ?_ before
    · exact (before.relays_primary pubkeyId).sublist (List.filter_sublist.map _)
    · intro url
      simp [and_comm, and_assoc]
  | selectAppliedEvent id => exact ⟨_, before, rfl, rfl⟩
  | confirmFetched id => exact ⟨.ok (), _, rfl, rfl⟩
  | upsertPubkey pubkey => exact ⟨.ok _, _, rfl, rfl⟩
  | updateStatus id status ts => exact ⟨.ok (), _, rfl, rfl⟩
  | reclaimInProgress => exact ⟨.ok _, _, rfl, rfl⟩
  | reclaimStale ttlSecs => exact ⟨.ok _, _, rfl, rfl⟩
  | reclaimExpired ageSecs => exact ⟨.ok _, _, rfl, rfl⟩

/-- Where no lock is in the way the database answers every statement. -/
theorem sqlWith_total (unlocked : possible ∅) (stmt : Stmt) (before : Database) :
    ∃ reply after, (sqlWith possible).exec stmt before reply after := by
  obtain ⟨reply, after, executes⟩ := stmt.executes_total 0 ∅ before
  exact ⟨reply, after, 0, ∅, unlocked, executes⟩

theorem sql_total (stmt : Stmt) (before : Database) : ∃ reply after, sql.exec stmt before reply after :=
  sqlWith_total trivial stmt before

/-- A query makes its one statement. -/
theorem runs_query {stmt : Stmt} {reply : Except StoreError stmt.Ret} {before after : Database}
    (run : Runs (sqlWith possible) (query stmt).run before reply after) :
    ∃ now locked, possible locked ∧ stmt.Executes now locked before reply after := by
  obtain ⟨answer, between, executed, rest⟩ := runs_call_iff.mp run
  obtain ⟨rfl, rfl⟩ := runs_ret_iff.mp rest
  exact executed

/-- Where no lock is in the way a query returns. -/
theorem query_total (unlocked : possible ∅) (stmt : Stmt) (before : Database) :
    ∃ reply after, Runs (sqlWith possible) (query stmt).run before reply after := by
  obtain ⟨reply, after, executed⟩ := sqlWith_total unlocked stmt before
  exact ⟨reply, after, runs_call_iff.mpr ⟨reply, after, executed, .ret⟩⟩

end WotCrawler.Store
