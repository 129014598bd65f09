import WotCrawler.Store.Frame
import WotCrawler.Store.Writer

/-! The stored relay lists: what replaces them and what leaves them alone, and which of an event's
`r` tags come back as write relays. -/

namespace WotCrawler.Store

open Effect Ingest Sequence

/-- The rows that a replacement stores. -/
def relayRows (relays : List (String × Marker)) (seenAt : DateTime) : List RelayRow :=
  keepFirst RelayRow.url ∅ (relays.map (fun relay => ⟨relay.1, relay.2, seenAt⟩))

/-- A row that `lookup_write_relays` returns. -/
def RelayRow.writes (row : RelayRow) : Prop := row.marker = .write ∨ row.marker = .both

instance : DecidablePred RelayRow.writes := fun row =>
  inferInstanceAs (Decidable (row.marker = .write ∨ row.marker = .both))

variable {db before after : Database} {id : Nat} {relays : List (String × Marker)} {seenAt : DateTime}

namespace Database

/-- The replacement changes the relays of its own pubkey, and nothing else. -/
theorem replaceRelays_spec (done : db.replaceRelays id relays seenAt = .ok after) :
    after.rows = db.rows ∧ after.follows = db.follows ∧
      after.relays = Function.update db.relays id (relayRows relays seenAt) := by
  unfold replaceRelays at done
  dsimp only at done
  split at done
  · obtain rfl := Except.ok.inj done
    exact ⟨rfl, rfl, rfl⟩
  · cases done

/-- Other relays for a pubkey. -/
def relist (db : Database) (id : Nat) (rows : List RelayRow) (references : rows ≠ [] → (db.rows id).isSome)
    (primary : (rows.map RelayRow.url).Nodup) : Database where
  rows := db.rows
  nextId := db.nextId
  follows := db.follows
  relays := Function.update db.relays id rows
  ids := db.ids
  pubkey_unique := db.pubkey_unique
  follows_references := db.follows_references
  follows_check := db.follows_check
  relays_references := by
    intro other inhabited
    by_cases same : other = id
    · subst same
      rw [Function.update_self] at inhabited
      exact references inhabited
    · rw [Function.update_of_ne same] at inhabited
      exact db.relays_references other inhabited
  relays_primary := by
    intro other
    by_cases same : other = id
    · subst same
      rwa [Function.update_self]
    · rw [Function.update_of_ne same]
      exact db.relays_primary other

section Relist

variable {rows : List RelayRow} {references : rows ≠ [] → (db.rows id).isSome} {primary : (rows.map RelayRow.url).Nodup}

theorem relist_relays_self : (db.relist id rows references primary).relays id = rows := Function.update_self ..

theorem relist_relays_of_ne (apart : other ≠ id) :
    (db.relist id rows references primary).relays other = db.relays other := Function.update_of_ne apart ..

end Relist

/-- It commits for a pubkey that exists. -/
theorem replaceRelays_isOk (present : (db.rows id).isSome) :
    ∃ after, db.replaceRelays id relays seenAt = .ok after := by
  unfold replaceRelays
  simp [present]

theorem upsert_relays (db : Database) (pubkey : Bytes) : (db.upsert pubkey).2.relays = db.relays := by
  unfold upsert
  split <;> rfl

/-- The upsert of a key that has a row finds it. -/
theorem upsert_of_keyed (keyed : db.keyed id pubkey) : (db.upsert pubkey).1 = id ∧
    (db.upsert pubkey).2.rows = db.rows ∧ (db.upsert pubkey).2.follows = db.follows := by
  obtain ⟨columns, present⟩ := keyed
  have found : db.findPubkey pubkey = some id := findPubkey_eq_some_iff.mpr ⟨_, present, rfl⟩
  unfold upsert
  split
  · rename_i other same
    exact ⟨Option.some.inj (same.symm.trans found), rfl, rfl⟩
  · rename_i absent
    cases absent.symm.trans found

theorem deleteFollows_relays (db : Database) (follower : Nat) (removed : List Nat) :
    (removed.foldl (fun db followee => db.deleteFollow follower followee) db).relays = db.relays := by
  induction removed generalizing db with
  | nil => rfl
  | cons head rest ih => exact ih (db.deleteFollow follower head)

theorem applyDiff_relays
    (done : db.applyDiff now follower removed added eventId createdAt changed = .ok after) :
    after.relays = db.relays := by
  obtain ⟨between, inserted, rfl⟩ := exists_of_applyDiff done
  obtain ⟨_, relays, _⟩ := insertFollows_spec follower added inserted
  rw [updateRow_relays, relays, deleteFollows_relays]

end Database

/-- The pubkey whose relay list a statement replaces. -/
def Stmt.lists : Stmt → Option Nat
  | .replaceRelays pubkeyId _ _ => some pubkeyId
  | _ => none

private theorem relays_commits {change : Except StoreError Database}
    (kept : ∀ next, change = .ok next → next.relays id = before.relays id)
    (commits : Commits change before reply after) : after.relays id = before.relays id := by
  unfold Commits at commits
  split at commits
  · rename_i next
    rw [commits.2]
    exact kept next rfl
  · rw [commits.2]

/-- A statement leaves every other relay list as it was. -/
theorem Stmt.Executes.relays_eq (executes : Stmt.Executes now locked stmt before reply after)
    (other : stmt.lists ≠ some id) : after.relays id = before.relays id := by
  cases stmt with
  | selectAppliedEvent target => rw [executes.1]
  | confirmFetched target => rw [executes.2, Database.updateRow_relays]
  | selectFollowees follower => rw [executes.1]
  | applyDiff follower removed added eventId createdAt changed =>
    exact relays_commits (fun next done => congrFun (Database.applyDiff_relays done) id) executes
  | upsertPubkey pubkey => rw [executes.2, Database.upsert_relays]
  | updateStatus target status ts => rw [executes.2, Database.updateRow_relays]
  | claim limit =>
    simp only [Stmt.Executes] at executes
    split at executes
    · rw [executes.2]
    · obtain ⟨rows, _, _, _, rfl⟩ := executes
      rfl
  | reclaimInProgress =>
    rw [executes.2]
    rfl
  | reclaimStale ttlSecs =>
    rw [executes.2]
    rfl
  | reclaimExpired ageSecs =>
    rw [executes.2]
    rfl
  | requeueOrFail target maxAttempts ts =>
    simp only [Stmt.Executes] at executes
    split at executes
    · rw [executes.2]
    · rw [executes.2, Database.updateRow_relays]
  | replaceRelays pubkeyId relays seenAt =>
    have apart : id ≠ pubkeyId := fun same => other (congrArg some same.symm)
    apply relays_commits _ executes
    intro next done
    rw [(Database.replaceRelays_spec done).2.2, Function.update_of_ne apart]
  | selectWriteRelays pubkeyId => rw [executes.1]

/-- For a pubkey that exists the writer replaces its relays, and changes nothing else. -/
theorem applyRelayList_must (present : (db.rows id).isSome) (relays : List (String × Marker)) (seenAt : DateTime) :
    Must sql (applyRelayList id relays seenAt).run db (fun reply after => reply = .ok () ∧ after.rows = db.rows ∧
      after.follows = db.follows ∧ after.relays = Function.update db.relays id (relayRows relays seenAt)) := by
  intro reply after run
  obtain ⟨_, _, _, executes⟩ := runs_query run
  obtain ⟨next, done⟩ : ∃ next, db.replaceRelays id relays seenAt = .ok next := Database.replaceRelays_isOk present
  simp only [Stmt.Executes, Commits, done] at executes
  rw [executes.2]
  exact ⟨executes.1, Database.replaceRelays_spec done⟩

/-- The lookup returns the urls of the write rows. -/
theorem lookupWriteRelays_must (db : Database) (id : Nat) :
    Must sql (lookupWriteRelays id).run db (fun reply after => after = db ∧ ∃ urls, reply = .ok urls ∧ urls.Nodup ∧
      ∀ url, url ∈ urls ↔ ∃ row ∈ db.relays id, row.url = url ∧ row.writes) := by
  intro reply after run
  obtain ⟨_, _, _, executes⟩ := runs_query run
  exact executes

/-- The first `r` tag of an event for a relay, by its normalized url. -/
def firstTag (event : Event) (url : String) : Option (RelayUrl × Option RelayMetadata) :=
  (extractRelayList event).find? (fun tag => tag.1.asStrWithoutTrailingSlash = url)

/-- A relay comes back as a write relay exactly when its first tag is a write tag or bare. -/
theorem relayRows_writes_iff (event : Event) (seenAt : DateTime) (url : String) :
    (∃ row ∈ relayRows (extractRelayPairs event) seenAt, row.url = url ∧ row.writes) ↔
      ∃ tag, firstTag event url = some tag ∧ tag.2 ≠ some .read := by
  have stored (row : RelayRow) : row ∈ relayRows (extractRelayPairs event) seenAt ↔
      ∃ tag, firstTag event row.url = some tag ∧
        (⟨tag.1.asStrWithoutTrailingSlash, markerOf tag.2, seenAt⟩ : RelayRow) = row := by
    rw [relayRows, extractRelayPairs, List.map_map, mem_keepFirst_iff_find?, List.find?_map, Option.map_eq_some_iff]
    rfl
  have writes (metadata : Option RelayMetadata) :
      markerOf metadata = .write ∨ markerOf metadata = .both ↔ metadata ≠ some .read := by
    rcases metadata with _ | _ | _ <;> simp [markerOf]
  constructor
  · intro ⟨row, member, same, writing⟩
    obtain ⟨tag, first, rfl⟩ := (stored row).mp member
    exact ⟨tag, same ▸ first, (writes tag.2).mp writing⟩
  · intro ⟨tag, first, writing⟩
    have same : tag.1.asStrWithoutTrailingSlash = url := by simpa using List.find?_some first
    refine ⟨⟨tag.1.asStrWithoutTrailingSlash, markerOf tag.2, seenAt⟩, ?_, same, (writes tag.2).mpr writing⟩
    exact (stored _).mpr ⟨tag, same.symm ▸ first, rfl⟩

/-- Persist an event's relay list under the id of its author, and read the write relays back. -/
def storeRelayList (event : Event) : StoreM (List String) := do
  let pubkeyId ← upsertPubkey event.pubkey.bytes
  applyRelayList pubkeyId (extractRelayPairs event) (timestampToDatetime event.createdAt)
  lookupWriteRelays pubkeyId

/-- A public key is upserted without an error, and has a row then. -/
theorem upsertPubkey_must (db : Database) (key : PublicKey) :
    Must sql (upsertPubkey key.bytes).run db (fun reply after => ∃ id, reply = .ok id ∧ after.keyed id key.bytes) := by
  have parsed : ¬ key.bytes.length ≠ pubkeyLen := not_not.mpr key.width
  rw [upsertPubkey, if_neg parsed]
  intro reply after run
  obtain ⟨_, _, _, executes⟩ := runs_query run
  exact ⟨_, executes.1, executes.2 ▸ (Database.upsert_spec db key.bytes).1⟩

/-- The upsert of a key that has a row changes no table. -/
theorem upsertPubkey_keyed {key : PublicKey} (keyed : db.keyed id key.bytes) :
    Must sql (upsertPubkey key.bytes).run db (fun reply after => reply = .ok id ∧ after.rows = db.rows ∧
      after.follows = db.follows ∧ after.relays = db.relays) := by
  have parsed : ¬ key.bytes.length ≠ pubkeyLen := not_not.mpr key.width
  rw [upsertPubkey, if_neg parsed]
  intro reply after run
  obtain ⟨_, _, _, answered, rfl⟩ := runs_query run
  obtain ⟨same, rows, follows⟩ := Database.upsert_of_keyed keyed
  exact ⟨same ▸ answered, rows, follows, db.upsert_relays key.bytes⟩

/-- What comes back are the write rows of the stored list. -/
private theorem storeRelayList_must (db : Database) (event : Event) :
    Must sql (storeRelayList event).run db (fun reply _ => ∃ urls, reply = .ok urls ∧ ∀ url, url ∈ urls ↔
      ∃ row ∈ relayRows (extractRelayPairs event) (timestampToDatetime event.createdAt), row.url = url ∧ row.writes) := by
  unfold storeRelayList
  refine (upsertPubkey_must db event.pubkey).except_bind ?_ ?_
  · intro id between ⟨_, same, columns, present⟩
    obtain rfl := Except.ok.inj same
    have exists_row : (between.rows id).isSome := by simp [present]
    refine (applyRelayList_must exists_row _ _).except_bind ?_ ?_
    · intro _ stored ⟨_, _, _, relays⟩
      refine (lookupWriteRelays_must stored id).mono ?_
      intro reply _ ⟨_, urls, returned, _, listed⟩
      exact ⟨urls, returned, by simpa [relays] using listed⟩
    · intro _ _ ⟨impossible, _⟩
      cases impossible
  · intro _ _ ⟨_, impossible, _⟩
    cases impossible

/-- The write relays of an event that survive the store are those whose first tag advertises writing. -/
theorem first_tags_survive (db : Database) (event : Event) :
    Must sql (storeRelayList event).run db (fun reply _ => ∃ urls, reply = .ok urls ∧
      ∀ url, url ∈ urls ↔ ∃ tag, firstTag event url = some tag ∧ tag.2 ≠ some .read) := by
  refine (storeRelayList_must db event).mono ?_
  intro reply _ ⟨urls, returned, listed⟩
  exact ⟨urls, returned, fun url => (listed url).trans (relayRows_writes_iff event _ url)⟩

/-- A relay list that names one relay for reading, and then for writing. -/
private def twiceTagged : Event :=
  { sampleEvent 1 10 "" with
    kind := Kind.relayList
    tags := [.relayMetadata ⟨"wss://relay"⟩ (some .read), .relayMetadata ⟨"wss://relay"⟩ (some .write)] }

/-- The relay of a later write tag is lost behind its read tag. -/
theorem write_tag_lost : ¬ ∀ (db : Database) (event : Event),
    Must sql (storeRelayList event).run db (fun reply _ => ∃ urls, reply = .ok urls ∧ ∀ url, url ∈ urls ↔
      ∃ tag ∈ extractRelayList event, tag.1.asStrWithoutTrailingSlash = url ∧ tag.2 ≠ some .read) := by
  intro survive
  obtain ⟨reply, after, run, -⟩ := May.of_total sql_total (storeRelayList twiceTagged).run .empty
  obtain ⟨urls, returned, tagged⟩ := survive _ _ reply after run
  obtain ⟨others, again, listed⟩ := storeRelayList_must _ _ reply after run
  obtain rfl := Except.ok.inj (returned.symm.trans again)
  have advertised : (RelayUrl.mk "wss://relay").asStrWithoutTrailingSlash ∈ urls :=
    (tagged _).mpr ⟨(⟨"wss://relay"⟩, some .write), by simp [extractRelayList, twiceTagged], rfl, by simp⟩
  obtain ⟨row, member, _, writes⟩ := (listed _).mp advertised
  have rows : relayRows (extractRelayPairs twiceTagged) (timestampToDatetime twiceTagged.createdAt) =
      [⟨(RelayUrl.mk "wss://relay").asStrWithoutTrailingSlash, .read, timestampToDatetime twiceTagged.createdAt⟩] := by
    simp [relayRows, extractRelayPairs, extractRelayList, twiceTagged, keepFirst, markerOf]
  rw [rows] at member
  obtain rfl := List.mem_singleton.mp member
  rcases writes with impossible | impossible <;> cases impossible

end WotCrawler.Store
