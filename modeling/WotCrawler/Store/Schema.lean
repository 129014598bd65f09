import WotCrawler.Ingest.Gate

/-! The tables of the graph store with their constraints, and the updates its statements make. -/

namespace WotCrawler.Store

open Ingest

inductive FetchStatus where
  | discovered
  | inProgress
  | fetched
  | notFound
  | failed
deriving DecidableEq

/-- A failure the database reports about a statement. -/
inductive DbFault where
  | foreignKeyViolation
  | checkViolation
  | numericValueOutOfRange
  | invalidRowCountInLimit
deriving DecidableEq

inductive SqlxError where
  | rowNotFound
  | database (fault : DbFault)
  | protocol (message : String)
deriving DecidableEq

inductive StoreError where
  | sqlx (error : SqlxError)
  | migrate (message : String)
  | invalidPubkey (length : Nat)
deriving DecidableEq

/-- The columns of a `pubkeys` row that statements update. -/
structure Columns where
  status : FetchStatus
  lastFetchedAt : Option DateTime
  lastConfirmedAt : Option DateTime
  lastChangedAt : Option DateTime
  fetchCount : Nat
  changeCount : Nat
  appliedEventId : Option Bytes
  appliedCreatedAt : Option DateTime
  claimedAt : Option DateTime
  fetchAttempts : Nat
deriving DecidableEq

/-- The column defaults. -/
def Columns.default : Columns where
  status := .discovered
  lastFetchedAt := none
  lastConfirmedAt := none
  lastChangedAt := none
  fetchCount := 0
  changeCount := 0
  appliedEventId := none
  appliedCreatedAt := none
  claimedAt := none
  fetchAttempts := 0

/-- A `pubkeys` row: its key, which no statement changes, and its columns. -/
structure PubkeyRow where
  pubkey : Bytes
  columns : Columns
deriving DecidableEq

/-- A `pubkey_relays` row of one pubkey. -/
structure RelayRow where
  url : String
  marker : Marker
  seenAt : DateTime
deriving DecidableEq

/-- The tables, `pubkeys` by its primary key, together with their constraints. -/
structure Database where
  rows : Nat → Option PubkeyRow
  nextId : Nat
  follows : Finset (Nat × Nat)
  relays : Nat → List RelayRow
  ids : ∀ id, (rows id).isSome → id < nextId
  pubkey_unique : ∀ left right a b, rows left = some a → rows right = some b → a.pubkey = b.pubkey →
    left = right
  follows_references : ∀ edge ∈ follows, (rows edge.1).isSome ∧ (rows edge.2).isSome
  follows_check : ∀ edge ∈ follows, edge.1 ≠ edge.2
  relays_references : ∀ id, relays id ≠ [] → (rows id).isSome
  relays_primary : ∀ id, ((relays id).map RelayRow.url).Nodup

namespace Database

variable {db : Database} {id : Nat} {pubkey : Bytes}

/-- The migrated database before the first run. -/
def empty : Database where
  rows := fun _ => none
  nextId := 1
  follows := ∅
  relays := fun _ => []
  ids := by simp
  pubkey_unique := by simp
  follows_references := by simp
  follows_check := by simp
  relays_references := by simp
  relays_primary := by simp

/-- The outgoing edges of a pubkey. -/
def followees (db : Database) (follower : Nat) : Finset Nat :=
  (db.follows.filter (fun edge => edge.1 = follower)).image Prod.snd

theorem mem_followees : followee ∈ db.followees follower ↔ (follower, followee) ∈ db.follows := by
  simp [followees]

/-- An `UPDATE pubkeys`, given what it makes of each row's columns. -/
def update (db : Database) (set : Nat → Columns → Columns) : Database where
  rows := fun id => (db.rows id).map (fun row => { row with columns := set id row.columns })
  nextId := db.nextId
  follows := db.follows
  relays := db.relays
  ids := by simpa using db.ids
  pubkey_unique := by
    intro left right a b leftRow rightRow same
    obtain ⟨first, found, rfl⟩ := Option.map_eq_some_iff.mp leftRow
    obtain ⟨second, present, rfl⟩ := Option.map_eq_some_iff.mp rightRow
    exact db.pubkey_unique left right first second found present same
  follows_references := by simpa using db.follows_references
  follows_check := db.follows_check
  relays_references := by simpa using db.relays_references
  relays_primary := db.relays_primary

/-- An `UPDATE pubkeys ... WHERE id = $1`. -/
def updateRow (db : Database) (target : Nat) (set : Columns → Columns) : Database :=
  db.update (fun id columns => if id = target then set columns else columns)

@[simp] theorem update_rows (db : Database) (set : Nat → Columns → Columns) (id : Nat) :
    (db.update set).rows id =
      (db.rows id).map (fun row => { row with columns := set id row.columns }) := rfl

@[simp] theorem update_nextId (db : Database) (set : Nat → Columns → Columns) :
    (db.update set).nextId = db.nextId := rfl

@[simp] theorem update_follows (db : Database) (set : Nat → Columns → Columns) :
    (db.update set).follows = db.follows := rfl

@[simp] theorem update_relays (db : Database) (set : Nat → Columns → Columns) :
    (db.update set).relays = db.relays := rfl

@[simp] theorem updateRow_rows_self (db : Database) (target : Nat) (set : Columns → Columns) :
    (db.updateRow target set).rows target =
      (db.rows target).map (fun row => { row with columns := set row.columns }) := by
  simp [updateRow]

theorem updateRow_rows_of_ne (db : Database) (set : Columns → Columns) (apart : id ≠ target) :
    (db.updateRow target set).rows id = db.rows id := by
  simp [updateRow, apart]

@[simp] theorem updateRow_nextId (db : Database) (target : Nat) (set : Columns → Columns) :
    (db.updateRow target set).nextId = db.nextId := rfl

@[simp] theorem updateRow_follows (db : Database) (target : Nat) (set : Columns → Columns) :
    (db.updateRow target set).follows = db.follows := rfl

@[simp] theorem updateRow_relays (db : Database) (target : Nat) (set : Columns → Columns) :
    (db.updateRow target set).relays = db.relays := rfl

/-- The id of a key, through the unique index. -/
def findPubkey (db : Database) (pubkey : Bytes) : Option Nat :=
  (List.range db.nextId).find? (fun id => (db.rows id).any (fun row => row.pubkey = pubkey))

theorem findPubkey_eq_some_iff : db.findPubkey pubkey = some id ↔
    ∃ row, db.rows id = some row ∧ row.pubkey = pubkey := by
  constructor
  · intro found
    have holds := List.find?_some found
    simpa [Option.any_eq_true] using holds
  · rintro ⟨row, present, same⟩
    have bounded : id < db.nextId := db.ids id (by simp [present])
    cases found : db.findPubkey pubkey with
    | none =>
      have absent := List.find?_eq_none.mp found id (List.mem_range.mpr bounded)
      simp [present, same] at absent
    | some other =>
      have holds := List.find?_some found
      obtain ⟨otherRow, otherPresent, otherSame⟩ : ∃ row, db.rows other = some row ∧
          row.pubkey = pubkey := by simpa [Option.any_eq_true] using holds
      rw [db.pubkey_unique other id otherRow row otherPresent present (otherSame.trans same.symm)]

theorem findPubkey_eq_none_iff : db.findPubkey pubkey = none ↔
    ∀ id row, db.rows id = some row → row.pubkey ≠ pubkey := by
  constructor
  · intro absent id row present same
    have found := findPubkey_eq_some_iff.mpr ⟨row, present, same⟩
    rw [absent] at found
    cases found
  · intro fresh
    cases found : db.findPubkey pubkey with
    | none => rfl
    | some id =>
      obtain ⟨row, present, same⟩ := findPubkey_eq_some_iff.mp found
      exact absurd same (fresh id row present)

/-- Insert a row under the next identity value, for a key that has none. -/
def insertPubkey (db : Database) (pubkey : Bytes) (absent : db.findPubkey pubkey = none) : Database where
  rows := Function.update db.rows db.nextId (some ⟨pubkey, Columns.default⟩)
  nextId := db.nextId + 1
  follows := db.follows
  relays := db.relays
  ids := by
    intro id present
    by_cases new : id = db.nextId
    · omega
    · rw [Function.update_of_ne new] at present
      have bounded := db.ids id present
      omega
  pubkey_unique := by
    have fresh := findPubkey_eq_none_iff.mp absent
    intro left right a b leftRow rightRow same
    by_cases leftNew : left = db.nextId <;> by_cases rightNew : right = db.nextId
    · exact leftNew.trans rightNew.symm
    · rw [leftNew, Function.update_self] at leftRow
      rw [Function.update_of_ne rightNew] at rightRow
      obtain rfl := Option.some.inj leftRow
      exact absurd same.symm (fresh right b rightRow)
    · rw [rightNew, Function.update_self] at rightRow
      rw [Function.update_of_ne leftNew] at leftRow
      obtain rfl := Option.some.inj rightRow
      exact absurd same (fresh left a leftRow)
    · rw [Function.update_of_ne leftNew] at leftRow
      rw [Function.update_of_ne rightNew] at rightRow
      exact db.pubkey_unique left right a b leftRow rightRow same
  follows_references := by
    intro edge member
    obtain ⟨first, second⟩ := db.follows_references edge member
    exact ⟨by by_cases new : edge.1 = db.nextId <;> simp [new, first],
      by by_cases new : edge.2 = db.nextId <;> simp [new, second]⟩
  follows_check := db.follows_check
  relays_references := by
    intro id inhabited
    have present := db.relays_references id inhabited
    by_cases new : id = db.nextId <;> simp [new, present]
  relays_primary := db.relays_primary

/-- An insert that met a conflict still consumed an identity value. -/
def skipId (db : Database) : Database where
  rows := db.rows
  nextId := db.nextId + 1
  follows := db.follows
  relays := db.relays
  ids := fun id present => Nat.lt_succ_of_lt (db.ids id present)
  pubkey_unique := db.pubkey_unique
  follows_references := db.follows_references
  follows_check := db.follows_check
  relays_references := db.relays_references
  relays_primary := db.relays_primary

/-- `INSERT INTO pubkeys ... ON CONFLICT (pubkey) DO UPDATE SET pubkey = EXCLUDED.pubkey RETURNING id`. -/
def upsert (db : Database) (pubkey : Bytes) : Nat × Database :=
  match found : db.findPubkey pubkey with
  | some id => (id, db.skipId)
  | none => (db.nextId, db.insertPubkey pubkey found)

/-- `DELETE FROM follows WHERE follower_id = $1 AND followee_id = $2`. -/
def deleteFollow (db : Database) (follower followee : Nat) : Database where
  rows := db.rows
  nextId := db.nextId
  follows := db.follows.erase (follower, followee)
  relays := db.relays
  ids := db.ids
  pubkey_unique := db.pubkey_unique
  follows_references := fun edge member => db.follows_references edge (Finset.mem_of_mem_erase member)
  follows_check := fun edge member => db.follows_check edge (Finset.mem_of_mem_erase member)
  relays_references := db.relays_references
  relays_primary := db.relays_primary

/-- `INSERT INTO follows ... ON CONFLICT DO NOTHING`, against the check and the foreign keys. -/
def insertFollow (db : Database) (follower followee : Nat) : Except StoreError Database :=
  if check : follower = followee then .error (.sqlx (.database .checkViolation))
  else if references : (db.rows follower).isSome ∧ (db.rows followee).isSome then
    .ok {
      rows := db.rows
      nextId := db.nextId
      follows := insert (follower, followee) db.follows
      relays := db.relays
      ids := db.ids
      pubkey_unique := db.pubkey_unique
      follows_references := by
        intro edge member
        rcases Finset.mem_insert.mp member with rfl | old
        · exact references
        · exact db.follows_references edge old
      follows_check := by
        intro edge member
        rcases Finset.mem_insert.mp member with rfl | old
        · exact check
        · exact db.follows_check edge old
      relays_references := db.relays_references
      relays_primary := db.relays_primary }
  else .error (.sqlx (.database .foreignKeyViolation))

end Database

end WotCrawler.Store
