import WotCrawler.Store.Statement

/-! What each statement leaves alone, and what the edge transaction does to the rest. -/

namespace WotCrawler.Store

open Ingest

variable {id : Nat} {key other : Bytes} {before after : Database}

namespace Stmt

/-- The row whose fetch outcome a statement writes. -/
def outcome : Stmt → Option Nat
  | .confirmFetched id => some id
  | .applyDiff follower _ _ _ _ _ => some follower
  | .updateStatus id _ _ => some id
  | .requeueOrFail id _ _ => some id
  | _ => none

/-- The follower whose edges a statement writes. -/
def edits : Stmt → Option Nat
  | .applyDiff follower _ _ _ _ _ => some follower
  | _ => none

theorem outcome_of_edits {stmt : Stmt} (edits : stmt.edits = some id) : stmt.outcome = some id := by
  cases stmt with
  | applyDiff => exact edits
  | _ => cases edits

/-- The statements that update every row their `WHERE` selects. -/
def ranges : Stmt → Bool
  | .claim _ => true
  | .reclaimInProgress => true
  | .reclaimStale _ => true
  | .reclaimExpired _ => true
  | _ => false

end Stmt

/-- Rows stay, with their keys. -/
def Persists (before after : Database) : Prop :=
  ∀ id row, before.rows id = some row → ∃ columns, after.rows id = some ⟨row.pubkey, columns⟩

theorem Persists.refl (db : Database) : Persists db db :=
  fun _ row found => ⟨row.columns, found⟩

theorem Persists.trans (first : Persists before between) (second : Persists between after) :
    Persists before after := by
  intro id row found
  obtain ⟨columns, kept⟩ := first id row found
  obtain ⟨final, last⟩ := second id _ kept
  exact ⟨final, last⟩

namespace Database

/-- A row stands under a key. -/
def keyed (db : Database) (id : Nat) (key : Bytes) : Prop :=
  ∃ columns, db.rows id = some ⟨key, columns⟩

theorem keyed_of_row {db : Database} {row : PubkeyRow} (found : db.rows id = some row) :
    db.keyed id row.pubkey := ⟨row.columns, found⟩

theorem keyed_unique {db : Database} (left : db.keyed a key) (right : db.keyed b key) : a = b := by
  obtain ⟨_, first⟩ := left
  obtain ⟨_, second⟩ := right
  exact db.pubkey_unique a b _ _ first second rfl

theorem keyed_key {db : Database} (left : db.keyed id key) (right : db.keyed id other) :
    key = other := by
  obtain ⟨_, first⟩ := left
  obtain ⟨_, second⟩ := right
  exact congrArg PubkeyRow.pubkey (Option.some.inj (first.symm.trans second))

/-- The edges of a row, by the keys of their followees. -/
def followsKey (db : Database) (id : Nat) (key : Bytes) : Prop :=
  ∃ followee, (id, followee) ∈ db.follows ∧ db.keyed followee key

/-- A row and its edges are as before. -/
def Untouched (before after : Database) (id : Nat) : Prop :=
  (∀ row, before.rows id = some row → after.rows id = some row) ∧
    ∀ followee, (id, followee) ∈ after.follows ↔ (id, followee) ∈ before.follows

end Database

theorem Persists.keyed (persists : Persists before after) (keyed : before.keyed id key) :
    after.keyed id key := by
  obtain ⟨columns, found⟩ := keyed
  exact persists id _ found

/-- Edges that are as before lead to the same keys. -/
theorem Persists.followsKey_iff (persists : Persists before after)
    (same : ∀ followee, (id, followee) ∈ after.follows ↔ (id, followee) ∈ before.follows) :
    after.followsKey id key ↔ before.followsKey id key := by
  constructor
  · rintro ⟨followee, edge, keyed⟩
    have old := (same followee).mp edge
    obtain ⟨row, present⟩ := Option.isSome_iff_exists.mp (before.follows_references _ old).2
    have known := Database.keyed_of_row present
    rw [Database.keyed_key (persists.keyed known) keyed] at known
    exact ⟨followee, old, known⟩
  · rintro ⟨followee, edge, keyed⟩
    exact ⟨followee, (same followee).mpr edge, persists.keyed keyed⟩

/-- Two columns agree on the list that was applied. -/
def Columns.sameList (left right : Columns) : Prop :=
  left.appliedEventId = right.appliedEventId ∧ left.appliedCreatedAt = right.appliedCreatedAt

/-- What a statement leaves alone. -/
structure Framed (stmt : Stmt) (before after : Database) : Prop where
  persists : Persists before after
  fresh : ∀ id row, before.rows id = none → after.rows id = some row →
    stmt = .upsertPubkey row.pubkey ∧ row.columns = Columns.default
  follows : ∀ follower followee, stmt.edits ≠ some follower →
    ((follower, followee) ∈ after.follows ↔ (follower, followee) ∈ before.follows)
  list : ∀ id row kept, before.rows id = some row → after.rows id = some kept →
    stmt.edits ≠ some id → kept.columns.sameList row.columns
  columns : stmt.ranges = false → ∀ id row, before.rows id = some row → stmt.outcome ≠ some id →
    after.rows id = some row

namespace Database

variable {db : Database} {id : Nat} {pubkey : Bytes}

theorem upsert_spec (db : Database) (pubkey : Bytes) :
    (db.upsert pubkey).2.keyed (db.upsert pubkey).1 pubkey ∧
      (∀ id row, db.rows id = some row → (db.upsert pubkey).2.rows id = some row) ∧
      (∀ id row, db.rows id = none → (db.upsert pubkey).2.rows id = some row →
        row = ⟨pubkey, Columns.default⟩) ∧
      (db.upsert pubkey).2.follows = db.follows := by
  unfold upsert
  split
  · rename_i id found
    obtain ⟨row, present, same⟩ := findPubkey_eq_some_iff.mp found
    have keyed := keyed_of_row present
    rw [same] at keyed
    refine ⟨keyed, fun _ _ kept => kept, ?_, rfl⟩
    intro other row absent kept
    exact absurd (absent.symm.trans kept) (by simp)
  · rename_i absent
    have rows : (db.insertPubkey pubkey absent).rows =
        Function.update db.rows db.nextId (some ⟨pubkey, Columns.default⟩) := rfl
    refine ⟨⟨Columns.default, by simp [rows]⟩, ?_, ?_, rfl⟩
    · intro id row present
      have bounded : id < db.nextId := db.ids id (by simp [present])
      rw [rows, Function.update_of_ne (by omega)]
      exact present
    · intro id row missing present
      rw [rows] at present
      by_cases new : id = db.nextId
      · rw [new, Function.update_self] at present
        exact (Option.some.inj present).symm
      · rw [Function.update_of_ne new, missing] at present
        cases present

theorem deleteFollows_spec (db : Database) (follower : Nat) (removed : List Nat) :
    (removed.foldl (fun db followee => db.deleteFollow follower followee) db).rows = db.rows ∧
      ∀ edge, edge ∈ (removed.foldl (fun db followee => db.deleteFollow follower followee) db).follows ↔
        edge ∈ db.follows ∧ ∀ followee ∈ removed, edge ≠ (follower, followee) := by
  induction removed generalizing db with
  | nil => simp
  | cons head rest ih =>
    obtain ⟨rows, follows⟩ := ih (db.deleteFollow follower head)
    refine ⟨rows, ?_⟩
    intro edge
    rw [List.foldl_cons, follows]
    simp [deleteFollow, and_assoc, and_comm]

theorem insertFollow_eq_ok_iff : db.insertFollow follower followee = .ok after ↔
    follower ≠ followee ∧ (db.rows follower).isSome ∧ (db.rows followee).isSome ∧
      after.rows = db.rows ∧ after.nextId = db.nextId ∧ after.relays = db.relays ∧
      after.follows = insert (follower, followee) db.follows := by
  unfold insertFollow
  split
  · simp_all
  · split
    · rename_i apart references
      constructor
      · intro done
        obtain rfl := Except.ok.inj done
        exact ⟨apart, references.1, references.2, rfl, rfl, rfl, rfl⟩
      · rintro ⟨_, _, _, rows, nextId, relays, follows⟩
        congr 1
        cases after
        simp_all
    · simp_all

theorem insertFollows_spec (follower : Nat) (added : List Nat)
    (done : added.foldlM (fun db followee => db.insertFollow follower followee) db = .ok after) :
    after.rows = db.rows ∧ after.relays = db.relays ∧ ∀ edge, edge ∈ after.follows ↔
      edge ∈ db.follows ∨ ∃ followee ∈ added, edge = (follower, followee) := by
  induction added generalizing db with
  | nil =>
    obtain rfl := Except.ok.inj done
    simp
  | cons head rest ih =>
    rw [List.foldlM_cons] at done
    cases step : db.insertFollow follower head with
    | error error =>
      rw [step] at done
      cases done
    | ok between =>
      rw [step] at done
      obtain ⟨_, _, _, rows, _, relays, follows⟩ := insertFollow_eq_ok_iff.mp step
      obtain ⟨restRows, restRelays, restFollows⟩ := ih done
      refine ⟨restRows.trans rows, restRelays.trans relays, ?_⟩
      intro edge
      rw [restFollows, follows]
      simp [or_assoc, or_comm]

private theorem insertFollows_isOk (follower : Nat) (added : List Nat)
    (present : (db.rows follower).isSome)
    (listed : ∀ followee ∈ added, follower ≠ followee ∧ (db.rows followee).isSome) :
    ∃ after, added.foldlM (fun db followee => db.insertFollow follower followee) db = .ok after := by
  induction added generalizing db with
  | nil => exact ⟨db, rfl⟩
  | cons head rest ih =>
    obtain ⟨apart, headPresent⟩ := listed head (List.mem_cons_self ..)
    cases step : db.insertFollow follower head with
    | error error =>
      unfold insertFollow at step
      simp [apart, present, headPresent] at step
    | ok between =>
      obtain ⟨_, _, _, rows, _, _, _⟩ := insertFollow_eq_ok_iff.mp step
      have kept : (between.rows follower).isSome := rows ▸ present
      have others : ∀ followee ∈ rest, follower ≠ followee ∧ (between.rows followee).isSome := by
        intro followee member
        rw [rows]
        exact listed followee (List.mem_cons_of_mem _ member)
      obtain ⟨after, done⟩ := ih kept others
      exact ⟨after, by rw [List.foldlM_cons, step]; exact done⟩

/-- The steps of a committed edge transaction. -/
theorem exists_of_applyDiff
    (done : db.applyDiff now follower removed added eventId createdAt changed = .ok after) :
    ∃ between, added.foldlM (fun db followee => db.insertFollow follower followee)
        (removed.foldl (fun db followee => db.deleteFollow follower followee) db) = .ok between ∧
      after = between.updateRow follower (Columns.apply now eventId createdAt changed) := by
  unfold applyDiff at done
  cases inserted : added.foldlM (fun db followee => db.insertFollow follower followee)
      (removed.foldl (fun db followee => db.deleteFollow follower followee) db) with
  | error error =>
    simp only [inserted] at done
    cases done
  | ok between =>
    simp only [inserted] at done
    exact ⟨between, rfl, (Except.ok.inj done).symm⟩

/-- A committed edge transaction: the follower's edges lose those removed and gain those added,
and its row takes the applied event. -/
theorem applyDiff_spec
    (done : db.applyDiff now follower removed added eventId createdAt changed = .ok after) :
    after.rows = (db.updateRow follower (Columns.apply now eventId createdAt changed)).rows ∧
      ∀ edge, edge ∈ after.follows ↔
        (edge ∈ db.follows ∧ ∀ followee ∈ removed, edge ≠ (follower, followee)) ∨
          ∃ followee ∈ added, edge = (follower, followee) := by
  obtain ⟨between, inserted, rfl⟩ := exists_of_applyDiff done
  obtain ⟨deletedRows, deletedFollows⟩ := deleteFollows_spec db follower removed
  obtain ⟨rows, _, follows⟩ := insertFollows_spec follower added inserted
  refine ⟨?_, ?_⟩
  · funext id
    simp [updateRow, rows, deletedRows]
  · intro edge
    rw [updateRow_follows, follows, deletedFollows]

/-- The transaction commits when every added followee is another row that exists. -/
theorem applyDiff_isOk (present : (db.rows follower).isSome)
    (listed : ∀ followee ∈ added, follower ≠ followee ∧ (db.rows followee).isSome) :
    ∃ after, db.applyDiff now follower removed added eventId createdAt changed = .ok after := by
  obtain ⟨rows, _⟩ := deleteFollows_spec db follower removed
  have kept : ((removed.foldl (fun db followee => db.deleteFollow follower followee) db).rows
      follower).isSome := rows ▸ present
  obtain ⟨between, inserted⟩ := insertFollows_isOk follower added kept (by rwa [rows])
  refine ⟨between.updateRow follower (Columns.apply now eventId createdAt changed), ?_⟩
  unfold applyDiff
  simp only [inserted]
  rfl

end Database

/-- An update of existing rows keeps edges, keys and applied lists. -/
private theorem framed_update {set : Nat → Columns → Columns}
    (list : ∀ id columns, (set id columns).sameList columns)
    (target : stmt.ranges = false → ∀ id columns, stmt.outcome ≠ some id → set id columns = columns) :
    Framed stmt before (before.update set) where
  persists := fun id row found => ⟨set id row.columns, by simp [found]⟩
  fresh := by
    intro id row absent present
    simp [absent] at present
  follows := fun _ _ _ => Iff.rfl
  list := by
    intro id row kept found present _
    obtain rfl : { row with columns := set id row.columns } = kept := by simpa [found] using present
    exact list id row.columns
  columns := by
    intro single id row found other
    simp [found, target single id row.columns other]

private theorem framed_updateRow {set : Columns → Columns}
    (list : ∀ columns, (set columns).sameList columns) (target : stmt.outcome = some id) :
    Framed stmt before (before.updateRow id set) := by
  apply framed_update
  · intro other columns
    by_cases same : other = id
    · simpa [same] using list columns
    · simp [same, Columns.sameList]
  · intro _ other columns apart
    have different : other ≠ id := by
      rintro rfl
      exact apart target
    simp [different]

private theorem framed_refl (stmt : Stmt) (db : Database) : Framed stmt db db where
  persists := .refl db
  fresh := by
    intro id row absent present
    exact absurd (absent.symm.trans present) (by simp)
  follows := fun _ _ _ => Iff.rfl
  list := by
    intro id row kept found present _
    obtain rfl := Option.some.inj (found.symm.trans present)
    exact ⟨rfl, rfl⟩
  columns := fun _ _ _ found _ => found

private theorem framed_upsert (db : Database) (pubkey : Bytes) :
    Framed (.upsertPubkey pubkey) db (db.upsert pubkey).2 := by
  obtain ⟨_, old, new, follows⟩ := db.upsert_spec pubkey
  refine ⟨?_, ?_, ?_, ?_, ?_⟩
  · intro id row found
    exact ⟨row.columns, old id row found⟩
  · intro id row absent present
    obtain rfl := new id row absent present
    exact ⟨rfl, rfl⟩
  · intro follower followee _
    rw [follows]
  · intro id row kept found present _
    obtain rfl := Option.some.inj ((old id row found).symm.trans present)
    exact ⟨rfl, rfl⟩
  · intro _ id row found _
    exact old id row found

private theorem framed_applyDiff
    (done : before.applyDiff now follower removed added eventId createdAt changed = .ok after) :
    Framed (.applyDiff follower removed added eventId createdAt changed) before after := by
  obtain ⟨rows, follows⟩ := Database.applyDiff_spec done
  have single (id : Nat) (row : PubkeyRow) (found : before.rows id = some row)
      (other : follower ≠ id) : after.rows id = some row := by
    rw [rows, Database.updateRow_rows_of_ne _ _ (Ne.symm other)]
    exact found
  refine ⟨?_, ?_, ?_, ?_, ?_⟩
  · intro id row found
    by_cases same : follower = id
    · subst same
      refine ⟨Columns.apply now eventId createdAt changed row.columns, ?_⟩
      simp [rows, found]
    · exact ⟨row.columns, single id row found same⟩
  · intro id row absent present
    rw [rows] at present
    by_cases same : id = follower <;> simp [Database.updateRow, same, absent] at present
    simp [← same, absent] at present
  · intro other followee apart
    have different : other ≠ follower := by
      rintro rfl
      exact apart rfl
    rw [follows]
    simp [different]
  · intro id row kept found present apart
    have different : follower ≠ id := by
      rintro rfl
      exact apart rfl
    obtain rfl := Option.some.inj ((single id row found different).symm.trans present)
    exact ⟨rfl, rfl⟩
  · intro _ id row found apart
    apply single id row found
    rintro rfl
    exact apart rfl

private theorem framed_replaceRelays
    (done : before.replaceRelays pubkeyId relays seenAt = .ok after) :
    Framed (.replaceRelays pubkeyId relays seenAt) before after := by
  have same : after.rows = before.rows ∧ after.follows = before.follows := by
    unfold Database.replaceRelays at done
    dsimp only at done
    split at done
    · obtain rfl := Except.ok.inj done
      exact ⟨rfl, rfl⟩
    · cases done
  have kept := framed_refl (.replaceRelays pubkeyId relays seenAt) before
  refine ⟨?_, ?_, ?_, ?_, ?_⟩
  · simpa [Persists, same.1] using kept.persists
  · simpa only [same.1] using kept.fresh
  · simpa only [same.2] using kept.follows
  · simpa only [same.1] using kept.list
  · simpa only [same.1] using kept.columns

private theorem framed_commits {stmt : Stmt} {change : Except StoreError Database}
    (framed : ∀ next, change = .ok next → Framed stmt before next)
    (commits : Commits change before reply after) : Framed stmt before after := by
  unfold Commits at commits
  split at commits
  · rename_i next
    rw [commits.2]
    exact framed next rfl
  · rw [commits.2]
    exact framed_refl stmt before

/-- The frame rule of every statement. -/
theorem Stmt.Executes.framed (executes : Stmt.Executes now locked stmt before reply after) :
    Framed stmt before after := by
  have sweep (selects : Columns → Bool) : ∀ (id : Nat) (columns : Columns),
      (if selects columns then columns.reclaim else columns).sameList columns := by
    intro id columns
    split <;> exact ⟨rfl, rfl⟩
  cases stmt with
  | selectAppliedEvent id =>
    rw [executes.1]
    exact framed_refl _ before
  | confirmFetched id =>
    rw [executes.2]
    exact framed_updateRow (fun _ => ⟨rfl, rfl⟩) rfl
  | selectFollowees follower =>
    rw [executes.1]
    exact framed_refl _ before
  | applyDiff follower removed added eventId createdAt changed =>
    exact framed_commits (fun _ done => framed_applyDiff done) executes
  | upsertPubkey pubkey =>
    rw [executes.2]
    exact framed_upsert before pubkey
  | updateStatus id status ts =>
    rw [executes.2]
    exact framed_updateRow (fun _ => ⟨rfl, rfl⟩) rfl
  | claim limit =>
    simp only [Stmt.Executes] at executes
    split at executes
    · rw [executes.2]
      exact framed_refl _ before
    · obtain ⟨rows, _, _, _, rfl⟩ := executes
      apply framed_update
      · intro id columns
        split <;> exact ⟨rfl, rfl⟩
      · intro single
        cases single
  | reclaimInProgress =>
    rw [executes.2]
    exact framed_update (sweep Columns.isInProgress) (fun single => by cases single)
  | reclaimStale ttlSecs =>
    rw [executes.2]
    exact framed_update (sweep (Columns.isStale now ttlSecs)) (fun single => by cases single)
  | reclaimExpired ageSecs =>
    rw [executes.2]
    exact framed_update (sweep (Columns.isExpired now ageSecs)) (fun single => by cases single)
  | requeueOrFail id maxAttempts ts =>
    simp only [Stmt.Executes] at executes
    split at executes
    · rw [executes.2]
      exact framed_refl _ before
    · rw [executes.2]
      exact framed_updateRow (fun _ => ⟨rfl, rfl⟩) rfl
  | replaceRelays pubkeyId relays seenAt =>
    exact framed_commits (fun _ done => framed_replaceRelays done) executes
  | selectWriteRelays pubkeyId =>
    rw [executes.1]
    exact framed_refl _ before

/-- A statement about single rows touches the row whose outcome it writes and no other. -/
theorem Framed.untouched (framed : Framed stmt before after) (single : stmt.ranges = false)
    (other : stmt.outcome ≠ some id) : before.Untouched after id :=
  ⟨fun row found => framed.columns single id row found other,
    fun followee => framed.follows id followee fun edits => other (Stmt.outcome_of_edits edits)⟩

namespace Database

theorem claim_rows_of_mem {db : Database} {ids : List Nat} (member : id ∈ ids) (found : db.rows id = some row) :
    (db.claim now ids).rows id = some ⟨row.pubkey, row.columns.claim now⟩ := by
  simp [claim, found, member]

theorem claim_rows_of_notMem {db : Database} {ids : List Nat} (other : id ∉ ids) :
    (db.claim now ids).rows id = db.rows id := by
  simp [claim, other]

theorem sweep_rows_of_missed {db : Database} {selects : Columns → Bool}
    (missed : ∀ row, db.rows id = some row → selects row.columns = false) :
    (db.sweep selects).rows id = db.rows id := by
  cases found : db.rows id with
  | none => simp [sweep, found]
  | some row => simp [sweep, found, missed row found]

/-- A sweep that selects no row leaves the database. -/
theorem sweep_idle {db : Database} {selects : Columns → Bool}
    (idle : ∀ id row, db.rows id = some row → selects row.columns = false) : db.sweep selects = db := by
  have rows : (db.sweep selects).rows = db.rows := funext fun id => sweep_rows_of_missed (idle id)
  cases db
  simpa [sweep, update] using rows

end Database

/-- A claim that succeeds: distinct discovered rows, which are then in progress. -/
theorem claim_spec {locked : Finset Nat} {limit : Int} {batch : List ClaimedAuthor}
    (executes : Stmt.Executes now locked (.claim limit) before (.ok batch) after) :
    (batch.map ClaimedAuthor.id).Nodup ∧
      (∀ claimed ∈ batch, ∃ row, before.rows claimed.id = some row ∧ row.pubkey = claimed.pubkey ∧
        row.columns.status = .discovered) ∧
      after = before.claim now (batch.map ClaimedAuthor.id) := by
  simp only [Stmt.Executes] at executes
  split at executes
  · cases executes.1
  · obtain ⟨rows, answered, listed, keys, made⟩ := executes
    obtain rfl := Except.ok.inj answered
    refine ⟨?_, ?_, ?_⟩
    · apply listed.nodup_iff.mpr
      exact (List.nodup_range.filter _).sublist (List.take_sublist _ _)
    · intro claimed member
      obtain ⟨row, found, key⟩ := keys claimed member
      have selected := listed.mem_iff.mp (List.mem_map_of_mem member)
      obtain ⟨_, other, there, status⟩ := Database.mem_claimable selected
      obtain rfl := Option.some.inj (found.symm.trans there)
      exact ⟨row, found, key.symm, status⟩
    · rw [made]
      unfold Database.claim
      congr 1
      funext id columns
      simp only [listed.mem_iff]

/-- An empty claim among no locks finds no discovered row. -/
theorem claim_empty {limit : Int} (positive : 0 < limit)
    (executes : Stmt.Executes now ∅ (.claim limit) before (.ok []) after)
    (found : before.rows id = some row) : row.columns.status ≠ .discovered := by
  simp only [Stmt.Executes] at executes
  rw [if_neg (by omega)] at executes
  obtain ⟨rows, answered, listed, _⟩ := executes
  obtain rfl := Except.ok.inj answered
  have none : before.claimable ∅ limit.toNat = [] := by simpa using listed.symm
  intro discovered
  have bounded : id < before.nextId := before.ids id (by simp [found])
  have selected : id ∈ (List.range before.nextId).filter (fun id =>
      (before.rows id).any (fun row => row.columns.status = .discovered) ∧ id ∉ (∅ : Finset Nat)) := by
    simp [bounded, found, discovered]
  have nonempty : 0 < limit.toNat := by omega
  unfold Database.claimable at none
  rw [List.take_eq_nil_iff] at none
  cases none with
  | inl zero => omega
  | inr empty =>
    rw [empty] at selected
    cases selected

end WotCrawler.Store
