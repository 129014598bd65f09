import WotCrawler.Crawl.Freshness
import WotCrawler.Crawl.Guarantee
import WotCrawler.Crawl.Provenance

/-! What the published graph rests on: every edge is in a verified follow list of its follower, and
every applied event is one, whatever the relays return and however the statements interleave. -/

namespace WotCrawler.Crawl

open Effect Store Ingest Relay

/-- The view `pubkey_lookup`. -/
def pubkeyLookup (db : Database) (id : Nat) : Option Bytes := (db.rows id).map PubkeyRow.pubkey

/-- A verified list of the author with this key. -/
structure Signed (verify : Event → Bool) (kind : Kind) (event : Event) (key : Bytes) : Prop where
  verified : verify event = true
  kind : event.kind = kind
  author : event.pubkey.bytes = key

/-- An edge is in a verified list of its follower. -/
def EdgeSigned (verify : Event → Bool) (kind : Kind) (db : Database) (follower followee : Nat) : Prop :=
  ∃ event, verify event = true ∧ event.kind = kind ∧ db.keyed follower event.pubkey.bytes ∧
    ∃ author ∈ followeeSet event, db.keyed followee author.bytes

/-- The rows and edges are backed by verified lists, and every key is one. -/
structure Authentic (verify : Event → Bool) (kind : Kind) (db : Database) : Prop where
  keys : ∀ id row, db.rows id = some row → ∃ author : PublicKey, author.bytes = row.pubkey
  applied : ∀ id row eventId, db.rows id = some row → row.columns.appliedEventId = some eventId →
    ∃ event, Signed verify kind event row.pubkey ∧ event.id.bytes = eventId ∧
      row.columns.appliedCreatedAt = some (timestampToDatetime event.createdAt)
  edges : ∀ follower followee, (follower, followee) ∈ db.follows → EdgeSigned verify kind db follower followee

/-- A statement that upserts a key proper, and writes no edges. -/
def Plain (stmt : Stmt) : Prop :=
  stmt.edits = none ∧ ∀ key, stmt = .upsertPubkey key → ∃ author : PublicKey, author.bytes = key

/-- An edge transaction records a verified list of its follower, and inserts what that list names. -/
structure BackedDiff (verify : Event → Bool) (kind : Kind) (db : Database) (follower : Nat) (added : List Nat)
    (eventId : Bytes) (createdAt : DateTime) (event : Event) : Prop where
  verified : verify event = true
  kind : event.kind = kind
  follower : db.keyed follower event.pubkey.bytes
  recorded : event.id.bytes = eventId ∧ createdAt = timestampToDatetime event.createdAt
  added : ∀ followee ∈ added, ∃ author ∈ followeeSet event, db.keyed followee author.bytes

/-- A statement that is plain, or a backed edge transaction. -/
def BackedStmt (verify : Event → Bool) (kind : Kind) (stmt : Stmt) (db : Database) : Prop :=
  match stmt with
  | .applyDiff follower _ added eventId createdAt _ =>
    ∃ event, BackedDiff verify kind db follower added eventId createdAt event
  | stmt => Plain stmt

variable {verify : Event → Bool} {kind : Kind} {before after db : Database} {stmt : Stmt}

theorem Plain.backed (plain : Plain stmt) (db : Database) : BackedStmt verify kind stmt db := by
  cases stmt with
  | applyDiff => cases plain.1
  | _ => exact plain

theorem plain_of_ranges (ranges : stmt.ranges = true) : Plain stmt := by
  cases stmt with
  | claim => exact ⟨rfl, fun key same => by cases same⟩
  | reclaimInProgress => exact ⟨rfl, fun key same => by cases same⟩
  | reclaimStale => exact ⟨rfl, fun key same => by cases same⟩
  | reclaimExpired => exact ⟨rfl, fun key same => by cases same⟩
  | _ => cases ranges

theorem Settling.plain (settling : Settling stmt) : Plain stmt := by
  cases stmt with
  | upsertPubkey key => exact ⟨rfl, fun other same => Stmt.upsertPubkey.inj same ▸ settling⟩
  | updateStatus => exact ⟨rfl, fun key same => by cases same⟩
  | requeueOrFail => exact ⟨rfl, fun key same => by cases same⟩
  | _ => cases settling

theorem Relisting.plain (relisting : Relisting stmt) : Plain stmt := by
  cases stmt with
  | selectWriteRelays => exact ⟨rfl, fun key same => by cases same⟩
  | replaceRelays => exact ⟨rfl, fun key same => by cases same⟩
  | _ => cases relisting

section Statement

theorem EdgeSigned.persists {follower followee : Nat} (signed : EdgeSigned verify kind before follower followee)
    (persists : Persists before after) : EdgeSigned verify kind after follower followee := by
  obtain ⟨event, verified, same, keyed, author, named, known⟩ := signed
  exact ⟨event, verified, same, persists.keyed keyed, author, named, persists.keyed known⟩

/-- A statement that upserts no other key leaves keys only. -/
private theorem keys_framed (framed : Framed stmt before after)
    (upserts : ∀ key, stmt = .upsertPubkey key → ∃ author : PublicKey, author.bytes = key)
    (keys : ∀ id row, before.rows id = some row → ∃ author : PublicKey, author.bytes = row.pubkey)
    (id : Nat) (row : PubkeyRow) (found : after.rows id = some row) : ∃ author : PublicKey, author.bytes = row.pubkey := by
  cases present : before.rows id with
  | none => exact upserts row.pubkey (framed.fresh id row present found).1
  | some old =>
    obtain ⟨author, key⟩ := keys id old present
    exact ⟨author, key.trans (Database.keyed_key (framed.persists.keyed (Database.keyed_of_row present))
      (Database.keyed_of_row found))⟩

/-- A row that the statement does not edit records what it recorded. -/
private theorem applied_framed (authentic : Authentic verify kind before) (framed : Framed stmt before after)
    {id : Nat} {row : PubkeyRow} {eventId : Bytes} (other : stmt.edits ≠ some id)
    (found : after.rows id = some row) (applied : row.columns.appliedEventId = some eventId) :
    ∃ event, Signed verify kind event row.pubkey ∧ event.id.bytes = eventId ∧
      row.columns.appliedCreatedAt = some (timestampToDatetime event.createdAt) := by
  cases present : before.rows id with
  | none =>
    rw [(framed.fresh id row present found).2] at applied
    cases applied
  | some old =>
    obtain ⟨sameEvent, sameCreated⟩ := framed.list id old row present found other
    obtain ⟨event, signed, recorded, created⟩ := authentic.applied id old eventId present (sameEvent ▸ applied)
    have key : old.pubkey = row.pubkey :=
      Database.keyed_key (framed.persists.keyed (Database.keyed_of_row present)) (Database.keyed_of_row found)
    exact ⟨event, key ▸ signed, recorded, sameCreated.trans created⟩

private theorem Authentic.plain (authentic : Authentic verify kind before) (framed : Framed stmt before after)
    (plain : Plain stmt) : Authentic verify kind after where
  keys := keys_framed framed plain.2 authentic.keys
  applied := by
    intro id row eventId found applied
    have other : stmt.edits ≠ some id := by
      rw [plain.1]
      exact fun same => by cases same
    exact applied_framed authentic framed other found applied
  edges := by
    intro follower followee edge
    have other : stmt.edits ≠ some follower := by
      rw [plain.1]
      exact fun same => by cases same
    exact (authentic.edges follower followee ((framed.follows follower followee other).mp edge)).persists framed.persists

private theorem Authentic.diff {follower : Nat} {removed added : List Nat} {eventId : Bytes} {createdAt now : DateTime}
    {changed : Bool} {event : Event} (authentic : Authentic verify kind before)
    (backed : BackedDiff verify kind before follower added eventId createdAt event)
    (framed : Framed (.applyDiff follower removed added eventId createdAt changed) before after)
    (done : before.applyDiff now follower removed added eventId createdAt changed = .ok after) :
    Authentic verify kind after := by
  obtain ⟨rows, follows⟩ := Database.applyDiff_spec done
  refine ⟨?_, ?_, ?_⟩
  · exact keys_framed framed (fun key same => by cases same) authentic.keys
  · intro id row eventId found applied
    by_cases edited : follower = id
    · subst edited
      rw [rows, Database.updateRow_rows_self] at found
      obtain ⟨old, present, rfl⟩ := Option.map_eq_some_iff.mp found
      cases applied
      obtain ⟨recorded, created⟩ := backed.recorded
      have key := Database.keyed_key backed.follower (Database.keyed_of_row present)
      exact ⟨event, ⟨backed.verified, backed.kind, key⟩, recorded, congrArg some created⟩
    · exact applied_framed authentic framed (fun same => edited (Option.some.inj same)) found applied
  · intro author followee edge
    rcases (follows _).mp edge with ⟨old, _⟩ | ⟨inserted, member, same⟩
    · exact (authentic.edges author followee old).persists framed.persists
    · obtain ⟨rfl, rfl⟩ := Prod.mk.inj same
      have signed : EdgeSigned verify kind before author followee :=
        ⟨event, backed.verified, backed.kind, backed.follower, backed.added followee member⟩
      exact signed.persists framed.persists

/-- Every backed statement keeps the rows and edges backed. -/
theorem Authentic.executes {locked : Finset Nat} {reply : Except StoreError stmt.Ret}
    (authentic : Authentic verify kind before) (backed : BackedStmt verify kind stmt before)
    (executes : stmt.Executes now locked before reply after) : Authentic verify kind after := by
  have framed := executes.framed
  cases stmt with
  | applyDiff follower removed added eventId createdAt changed =>
    obtain ⟨event, diff⟩ := backed
    simp only [Stmt.Executes, Commits] at executes
    split at executes
    · rename_i next done
      obtain ⟨_, rfl⟩ := executes
      exact authentic.diff diff framed done
    · obtain ⟨_, rfl⟩ := executes
      exact authentic
  | _ => exact authentic.plain framed backed

end Statement

section Worker

variable {Note : Type} {gate : GateParams} {fallback : Fallback} {author : PublicKey} {event : Event}

/-- Every statement is plain or backed, and keeps the rows and their keys. -/
def backing (verify : Event → Bool) : Contract verify where
  holds := Authentic verify Kind.contactList
  guarantee := BackedStmt verify Kind.contactList
  moves := Persists
  refl := .refl
  trans := .trans
  empty := {
    keys := fun id row found => by cases found
    applied := fun id row eventId found => by cases found
    edges := fun follower followee member => by simp [Database.empty] at member }
  ranges := fun stmt ranges db => (plain_of_ranges ranges).backed db
  settles := fun stmt settling db => settling.plain.backed db
  moved := fun _ executes => executes.framed.persists
  kept := fun authentic backed executes => authentic.executes backed executes
  mixed := fun _ _ authentic _ _ _ => ⟨⟨authentic.keys, authentic.applied, authentic.edges⟩, .refl _⟩

private theorem Plain.guaranteed (plain : Plain stmt) (db : Database) : (backing verify).guarantee stmt db :=
  plain.backed db

/-- A plain statement keeps what is known of the keys. -/
private theorem query_keeps {stmt : Stmt} {state : Database × Note} (plain : Plain stmt) :
    (backing verify).Fulfills (fun _ later => Persists state.1 later.1) (query stmt) state := by
  apply (backing verify).query_fulfills fun later _ => plain.guaranteed later
  exact fun _ _ _ _ _ _ _ moved => moved.moves

private theorem diff_backed {followerId : Nat} {state : Database × Note} (verified : verify event = true)
    (same : event.kind = Kind.contactList) (follower : state.1.keyed followerId event.pubkey.bytes) (removed added : List Nat)
    (changed : Bool) (followees : ∀ id ∈ added, ∃ author ∈ followeeSet event, state.1.keyed id author.bytes) :
    (backing verify).Fulfills (fun _ _ => True) (query (.applyDiff followerId removed added event.id.bytes
      (timestampToDatetime event.createdAt) changed)) state := by
  apply (backing verify).query_fulfills
  · intro later further
    refine ⟨event, verified, same, further.moves.keyed follower, ⟨rfl, rfl⟩, ?_⟩
    intro followee member
    obtain ⟨author, named, keyed⟩ := followees followee member
    exact ⟨author, named, further.moves.keyed keyed⟩
  · exact fun _ _ _ _ _ _ _ _ => trivial

/-- The edge writer, called for the ids of an event's author and followees. -/
private theorem applyFollowList_backed {followerId : Nat} {followeeIds : List Nat} {state : Database × Note}
    (verified : verify event = true) (same : event.kind = Kind.contactList) (follower : state.1.keyed followerId event.pubkey.bytes)
    (followees : ∀ id ∈ followeeIds, ∃ author ∈ followeeSet event, state.1.keyed id author.bytes) :
    (backing verify).Fulfills (fun _ _ => True)
      (applyFollowList followerId event.id.bytes (timestampToDatetime event.createdAt) followeeIds) state := by
  have plain {stmt : Stmt} (edgeless : stmt.edits = none) (other : ∀ key, stmt ≠ .upsertPubkey key) : Plain stmt :=
    ⟨edgeless, fun key upserts => absurd upserts (other key)⟩
  unfold applyFollowList
  apply (query_keeps (plain rfl fun key => by simp)).ok_bind
  intro currentEvent between known
  split
  · apply (query_keeps (plain rfl fun key => by simp)).ok_bind
    exact fun _ _ _ => Safe.ret fun _ _ => trivial
  · apply (query_keeps (plain rfl fun key => by simp)).ok_bind
    intro currentSet compared kept
    have persists := known.trans kept
    apply (diff_backed verified same (persists.keyed follower) _ _ _ ?_).ok_bind
    · exact fun _ _ _ => Safe.ret fun _ _ => trivial
    · intro followee added
      have listed := List.mem_of_mem_filter (List.mem_dedup.mp (List.mem_of_mem_filter added))
      obtain ⟨author, named, keyed⟩ := followees followee listed
      exact ⟨author, named, persists.keyed keyed⟩

private theorem applyValidated_backed (vfl : ValidatedFollowList) (emitted : EmittedOf verify Kind.contactList vfl)
    (state : Database × Note) (_ : (backing verify).holds state.1) :
    (backing verify).Fulfills (fun _ _ => True) (applyValidated vfl) state := by
  obtain ⟨event, followCap, followees, verified, same, extracted, rfl⟩ := emitted
  obtain ⟨_, listed, _⟩ := followeePubkeys_spec extracted
  unfold applyValidated
  apply ((backing verify).upsertPubkey_fulfills id event.pubkey state).ok_bind
  intro followerId between follower
  apply ((backing verify).upsertAll_fulfills id followees between).ok_bind
  intro followeeIds later known
  apply applyFollowList_backed verified same (Persists.keyed known.1.moves follower.2)
  intro id member
  obtain ⟨author, named, keyed⟩ := known.2.named id member
  exact ⟨author, listed ▸ List.mem_toFinset.mpr named, keyed⟩

private theorem backing_fulfilled (verify : Event → Bool) : (backing verify).Fulfilled where
  applies := applyValidated_backed
  knows := fun _ _ claimed author _ state _ =>
    (backing verify).knownRelays_fulfills (fun _ relisting => relisting.plain.backed) claimed author state

end Worker

section Daemon

variable {anchor : Bytes} {workers next : Workers}

theorem pubkeyLookup_of_keyed {id : Nat} {key : Bytes} (keyed : db.keyed id key) : pubkeyLookup db id = some key := by
  obtain ⟨columns, found⟩ := keyed
  rw [pubkeyLookup, found]
  rfl

theorem keyed_of_pubkeyLookup {id : Nat} {key : Bytes} (found : pubkeyLookup db id = some key) : db.keyed id key := by
  obtain ⟨row, present, rfl⟩ := Option.map_eq_some_iff.mp found
  exact Database.keyed_of_row present

private theorem backed_of_run (run : Relation.ReflTransGen (DaemonStep verify anchor) ⟨Database.empty, []⟩ workers) :
    (backing verify).Kept workers :=
  ((Contract.Kept.empty (backing verify)).run (backing_fulfilled verify) run).1

/-- Rows stay, with their keys. -/
theorem rows_persist (run : Relation.ReflTransGen (DaemonStep verify anchor) ⟨Database.empty, []⟩ workers)
    (further : Relation.ReflTransGen (DaemonStep verify anchor) workers next) : Persists workers.shared next.shared :=
  ((backed_of_run run).run (backing_fulfilled verify) further).2

/-- The published graph is genuine: however the daemon runs and whatever its relays return, an edge
read from the view leads, by the lookup at that moment or any later one, from the author of a
verified follow list to an author whom it names; every key is one that a claim can parse; and the
event that a row records is a verified list of its author. -/
theorem graph_genuine (run : Relation.ReflTransGen (DaemonStep verify anchor) ⟨Database.empty, []⟩ workers) :
    (∀ edge ∈ followEdges workers.shared, ∃ event, verify event = true ∧ event.kind = Kind.contactList ∧
      ∃ author ∈ followeeSet event, ∀ later, Relation.ReflTransGen (DaemonStep verify anchor) workers later →
        pubkeyLookup later.shared edge.1 = some event.pubkey.bytes ∧ pubkeyLookup later.shared edge.2 = some author.bytes) ∧
    (∀ id key, pubkeyLookup workers.shared id = some key → (PublicKey.fromSlice key).isSome ∧
      ∀ later, Relation.ReflTransGen (DaemonStep verify anchor) workers later → pubkeyLookup later.shared id = some key) ∧
    ∀ id row eventId, workers.shared.rows id = some row → row.columns.appliedEventId = some eventId →
      ∃ event, Signed verify Kind.contactList event row.pubkey ∧ event.id.bytes = eventId ∧
        row.columns.appliedCreatedAt = some (timestampToDatetime event.createdAt) := by
  have authentic : Authentic verify Kind.contactList workers.shared := (backed_of_run run).holds
  refine ⟨?_, ?_, authentic.applied⟩
  · intro edge member
    obtain ⟨event, verified, same, follower, author, named, followee⟩ := authentic.edges edge.1 edge.2 member
    refine ⟨event, verified, same, author, named, ?_⟩
    intro later further
    have persists := rows_persist run further
    exact ⟨pubkeyLookup_of_keyed (persists.keyed follower), pubkeyLookup_of_keyed (persists.keyed followee)⟩
  · intro id key found
    have keyed := keyed_of_pubkeyLookup found
    have ⟨columns, present⟩ := keyed
    obtain ⟨author, parsed⟩ := authentic.keys id _ present
    refine ⟨Option.isSome_iff_exists.mpr ⟨author, PublicKey.fromSlice_eq_some_iff.mpr parsed⟩, ?_⟩
    intro later further
    exact pubkeyLookup_of_keyed ((rows_persist run further).keyed keyed)

/-- The theorem once the followee of a list has a row. -/
theorem graph_genuine_trail : (1, 3) ∈ followEdges trailWorkers.shared ∧
    ∃ event, trailVerifier.verify event = true ∧ event.kind = Kind.contactList ∧ ∃ author ∈ followeeSet event,
      ∀ later, Relation.ReflTransGen (DaemonStep trailVerifier.verify sampleAuthor.bytes) trailWorkers later →
        pubkeyLookup later.shared 1 = some event.pubkey.bytes ∧ pubkeyLookup later.shared 3 = some author.bytes := by
  have member : (1, 3) ∈ followEdges trailWorkers.shared := by decide
  exact ⟨member, (graph_genuine trail_run).1 (1, 3) member⟩

end Daemon

end WotCrawler.Crawl
