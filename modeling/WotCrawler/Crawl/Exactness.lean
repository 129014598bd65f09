import WotCrawler.Crawl.Authenticity
import WotCrawler.Crawl.Churn
import WotCrawler.Crawl.NewestWins

/-! What the crawl comes to where nobody signs a second list: every row is blank or exactly its author's
list, whatever is lost, delayed or repeated, and once every list was fetched nothing is missing. -/

namespace WotCrawler.Crawl

open Effect Store Ingest

/-- Nobody signs two lists. -/
def Single (verify : Event → Bool) (kind : Kind) : Prop :=
  ∀ first second, verify first = true → verify second = true → first.kind = kind → second.kind = kind →
    first.pubkey = second.pubkey → first = second

/-- Every row is blank, or holds a list of its author. -/
structure Exact (verify : Event → Bool) (kind : Kind) (db : Database) : Prop where
  authentic : Authentic verify kind db
  rows : ∀ id row, db.rows id = some row → Blank db id ∨ ∃ event, Signed verify kind event row.pubkey ∧ Holds db id event

/-- A transaction of an event's list removes nothing, and adds what is missing. -/
structure Completes (db : Database) (follower : Nat) (removed added : List Nat) (event : Event) : Prop where
  removed : removed = []
  present : ∀ author ∈ followeeSet event, ∃ followee, db.keyed followee author.bytes ∧
    (followee ∈ added ∨ (follower, followee) ∈ db.follows)

/-- A statement that is plain, or completes a list. -/
def Completing (verify : Event → Bool) (kind : Kind) (stmt : Stmt) (db : Database) : Prop :=
  match stmt with
  | .applyDiff follower removed added eventId createdAt _ =>
    ∃ event, BackedDiff verify kind db follower added eventId createdAt event ∧ Completes db follower removed added event
  | stmt => Plain stmt

/-- Rows and edges stay. -/
structure Grows (before after : Database) : Prop where
  persists : Persists before after
  follows : before.follows ⊆ after.follows

variable {verify : Event → Bool} {kind : Kind} {before after db : Database} {stmt : Stmt} {event : Event}

section Statement

variable {now : DateTime} {locked : Finset Nat} {reply : Except StoreError stmt.Ret}

private theorem Completing.backed (completing : Completing verify kind stmt db) : BackedStmt verify kind stmt db := by
  cases stmt with
  | applyDiff =>
    obtain ⟨event, backed, _⟩ := completing
    exact ⟨event, backed⟩
  | _ => exact completing

private theorem Plain.completing (plain : Plain stmt) (db : Database) : Completing verify kind stmt db := by
  cases stmt with
  | applyDiff => cases plain.1
  | _ => exact plain

private theorem Plain.follows (plain : Plain stmt) (framed : Framed stmt before after) {edge : Nat × Nat} :
    edge ∈ after.follows ↔ edge ∈ before.follows := by
  apply framed.follows edge.1 edge.2
  rw [plain.1]
  exact fun same => by cases same

/-- Whatever a completing statement does, rows and edges stay. -/
private theorem Grows.executes (completing : Completing verify kind stmt before)
    (executes : stmt.Executes now locked before reply after) : Grows before after := by
  refine ⟨executes.framed.persists, ?_⟩
  intro edge old
  cases stmt with
  | applyDiff follower removed added eventId createdAt changed =>
    obtain ⟨event, _, removes, _⟩ := completing
    simp only [Stmt.Executes, Commits] at executes
    split at executes
    · rename_i next done
      obtain ⟨_, rfl⟩ := executes
      refine ((Database.applyDiff_spec done).2 edge).mpr (.inl ⟨old, ?_⟩)
      rw [removes]
      exact fun _ none => by cases none
    · obtain ⟨_, rfl⟩ := executes
      exact old
  | _ => exact (Plain.follows completing executes.framed).mpr old

/-- A row that the statement does not edit is as it was. -/
private theorem Exact.framed (exact : Exact verify kind before) (framed : Framed stmt before after)
    {id : Nat} {row : PubkeyRow} (other : stmt.edits ≠ some id) (found : after.rows id = some row) :
    Blank after id ∨ ∃ event, Signed verify kind event row.pubkey ∧ Holds after id event := by
  cases present : before.rows id with
  | none => exact .inl (Blank.framed framed other fun old there => by cases present.symm.trans there)
  | some old =>
    rcases exact.rows id old present with blank | ⟨event, signed, holds⟩
    · exact .inl (Blank.framed framed other fun _ _ => blank)
    · have key := Database.keyed_key (framed.persists.keyed (Database.keyed_of_row present)) (Database.keyed_of_row found)
      exact .inr ⟨event, key ▸ signed, holds.framed framed other⟩

/-- An edge of the author leads to one whom the only list names. -/
private theorem named_of_edge {follower followee : Nat} (single : Single verify kind) (authentic : Authentic verify kind db)
    (signed : Signed verify kind event key) (keyed : db.keyed follower key) (edge : (follower, followee) ∈ db.follows) :
    ∃ author ∈ followeeSet event, db.keyed followee author.bytes := by
  obtain ⟨other, verified, same, owner, named⟩ := authentic.edges follower followee edge
  have owners := PublicKey.bytes_injective ((Database.keyed_key owner keyed).trans signed.author.symm)
  obtain rfl := single other event verified signed.verified same signed.kind owners
  exact named

/-- The transaction of the author's list leaves exactly that list. -/
private theorem holds_of_completes {follower : Nat} {removed added : List Nat} {eventId : Bytes} {createdAt : DateTime}
    {changed : Bool} (single : Single verify kind) (authentic : Authentic verify kind after)
    (backed : BackedDiff verify kind before follower added eventId createdAt event)
    (completes : Completes before follower removed added event)
    (framed : Framed (.applyDiff follower removed added eventId createdAt changed) before after)
    (done : before.applyDiff now follower removed added eventId createdAt changed = .ok after) :
    Holds after follower event := by
  obtain ⟨rows, follows⟩ := Database.applyDiff_spec done
  obtain ⟨recorded, created⟩ := backed.recorded
  have follower := framed.persists.keyed backed.follower
  refine ⟨?_, ?_⟩
  · obtain ⟨columns, present⟩ := backed.follower
    refine ⟨⟨event.pubkey.bytes, columns.apply now eventId createdAt changed⟩, by simp [rows, present], ?_, ?_⟩
    · exact congrArg some recorded.symm
    · exact congrArg some created
  · intro key
    constructor
    · rintro ⟨followee, edge, keyed⟩
      have signed : Signed verify kind event event.pubkey.bytes := ⟨backed.verified, backed.kind, rfl⟩
      obtain ⟨author, named, known⟩ := named_of_edge single authentic signed follower edge
      exact ⟨author, named, Database.keyed_key known keyed⟩
    · rintro ⟨author, named, rfl⟩
      obtain ⟨followee, known, there⟩ := completes.present author named
      refine ⟨followee, (follows _).mpr ?_, framed.persists.keyed known⟩
      rcases there with added | old
      · exact .inr ⟨followee, added, rfl⟩
      · refine .inl ⟨old, ?_⟩
        rw [completes.removed]
        exact fun _ none => by cases none

/-- Where nobody signs two lists, every completing statement keeps the rows exact. -/
private theorem Exact.executes (single : Single verify kind) (exact : Exact verify kind before)
    (completing : Completing verify kind stmt before) (executes : stmt.Executes now locked before reply after) :
    Exact verify kind after := by
  have authentic := exact.authentic.executes completing.backed executes
  have framed := executes.framed
  refine ⟨authentic, ?_⟩
  intro id row found
  by_cases other : stmt.edits = some id
  · cases stmt with
    | applyDiff follower removed added eventId createdAt changed =>
      obtain rfl := Option.some.inj other
      obtain ⟨event, backed, completes⟩ := completing
      simp only [Stmt.Executes, Commits] at executes
      split at executes
      · rename_i next done
        obtain ⟨_, rfl⟩ := executes
        have holds := holds_of_completes single authentic backed completes framed done
        have key := Database.keyed_key (framed.persists.keyed backed.follower) (Database.keyed_of_row found)
        exact .inr ⟨event, ⟨backed.verified, backed.kind, key⟩, holds⟩
      · obtain ⟨_, rfl⟩ := executes
        exact exact.rows _ row found
    | _ => cases other
  · exact exact.framed framed other found

end Statement

section Worker

variable {Note : Type} {state : Database × Note} {followerId : Nat} {followeeIds : List Nat} {followees : List PublicKey}

/-- The daemon's statements complete lists, where nobody signs two. -/
def charting (single : Single verify Kind.contactList) : Contract verify where
  holds := Exact verify Kind.contactList
  guarantee := Completing verify Kind.contactList
  moves := Grows
  refl := fun db => ⟨.refl db, subset_rfl⟩
  trans := fun first second => ⟨first.persists.trans second.persists, first.follows.trans second.follows⟩
  empty := ⟨(backing verify).empty, fun id row found => by cases found⟩
  ranges := fun stmt ranges db => (plain_of_ranges ranges).completing db
  settles := fun stmt settling db => settling.plain.completing db
  moved := fun completing executes => Grows.executes completing executes
  kept := fun exact completing executes => exact.executes single completing executes
  mixed := by
    intro before stored id rows _ _ exact _ references primary
    refine ⟨⟨⟨exact.authentic.keys, exact.authentic.applied, exact.authentic.edges⟩, ?_⟩, .refl _, subset_rfl⟩
    intro other row found
    refine (exact.rows other row found).imp_right ?_
    rintro ⟨event, signed, holds⟩
    exact ⟨event, signed, holds.applied, holds.edges⟩

variable (single : Single verify Kind.contactList)

private theorem Plain.completed (plain : Plain stmt) (db : Database) : (charting single).guarantee stmt db :=
  plain.completing db

private theorem query_completes {stmt : Stmt} (plain : Plain stmt) :
    (charting single).Fulfills (fun _ later => (charting single).Meanwhile state.1 later.1) (query stmt) state := by
  apply (charting single).query_fulfills fun later _ => plain.completed single later
  exact fun _ _ _ _ _ _ _ moved => moved

/-- The edges as read, which stay. -/
private theorem selectFollowees_completes (follower : Nat) :
    (charting single).Fulfills (fun current later => (charting single).Meanwhile state.1 later.1 ∧
      ∀ followee ∈ current, (follower, followee) ∈ later.1.follows) (query (.selectFollowees follower)) state := by
  have plain : Plain (.selectFollowees follower) := ⟨rfl, fun key upserts => by cases upserts⟩
  refine (charting single).query_fulfills (fun later _ => plain.completed single later) ?_
  intro current before after later _ executed rest moved
  obtain ⟨now, locked, _, unchanged, rows, replied, _, exactly⟩ := executed
  obtain rfl := Except.ok.inj replied
  refine ⟨moved, ?_⟩
  intro followee member
  exact rest.moves.follows (unchanged ▸ (exactly followee).mp member)

/-- The transaction that `apply_follow_list` makes of the edges it has read completes the list. -/
private theorem diff_completes {current : List Nat} {changed : Bool} (verified : verify event = true)
    (same : event.kind = Kind.contactList) (exact : Exact verify Kind.contactList state.1)
    (follower : state.1.keyed followerId event.pubkey.bytes) (listed : followees.toFinset = followeeSet event)
    (rows : RowsOf state.1 followees followeeIds) (read : ∀ followee ∈ current, (followerId, followee) ∈ state.1.follows) :
    let newSet := (followeeIds.filter (fun id => id ≠ followerId)).dedup
    (charting single).Fulfills (fun _ _ => True) (query (.applyDiff followerId (current.filter (fun id => id ∉ newSet))
      (newSet.filter (fun id => id ∉ current)) event.id.bytes (timestampToDatetime event.createdAt) changed)) state := by
  intro newSet
  have inside {id : Nat} : id ∈ newSet ↔ id ∈ followeeIds ∧ id ≠ followerId := by simp [newSet]
  have removes : current.filter (fun id => id ∉ newSet) = [] := by
    apply List.filter_eq_nil_iff.mpr
    intro followee member
    have edge := read followee member
    obtain ⟨author, named, keyed⟩ := named_of_edge single exact.authentic ⟨verified, same, rfl⟩ follower edge
    obtain ⟨id, found, known⟩ := rows.found author (List.mem_toFinset.mp (listed ▸ named))
    obtain rfl := Database.keyed_unique known keyed
    simp [inside, found, (state.1.follows_check _ edge).symm]
  apply (charting single).query_fulfills
  · intro later moved
    refine ⟨event, ⟨verified, same, moved.moves.persists.keyed follower, ⟨rfl, rfl⟩, ?_⟩, removes, ?_⟩
    · intro followee added
      obtain ⟨author, named, keyed⟩ := rows.named followee (inside.mp (List.mem_of_mem_filter added)).1
      exact ⟨author, listed ▸ List.mem_toFinset.mpr named, moved.moves.persists.keyed keyed⟩
    · intro author named
      obtain ⟨id, found, keyed⟩ := rows.found author (List.mem_toFinset.mp (listed ▸ named))
      refine ⟨id, moved.moves.persists.keyed keyed, ?_⟩
      by_cases old : id ∈ current
      · exact .inr (moved.moves.follows (read id old))
      · have other : id ≠ followerId := by
          rintro rfl
          have self := PublicKey.bytes_injective (Database.keyed_key keyed follower)
          exact (Finset.mem_erase.mp named).1 self
        exact .inl (List.mem_filter.mpr ⟨inside.mpr ⟨found, other⟩, by simpa using old⟩)
  · exact fun _ _ _ _ _ _ _ _ => trivial

private theorem applyFollowList_completes (verified : verify event = true) (same : event.kind = Kind.contactList)
    (exact : Exact verify Kind.contactList state.1) (follower : state.1.keyed followerId event.pubkey.bytes)
    (listed : followees.toFinset = followeeSet event) (rows : RowsOf state.1 followees followeeIds) :
    (charting single).Fulfills (fun _ _ => True)
      (applyFollowList followerId event.id.bytes (timestampToDatetime event.createdAt) followeeIds) state := by
  have plain {stmt : Stmt} (edgeless : stmt.edits = none) (other : ∀ key, stmt ≠ .upsertPubkey key) : Plain stmt :=
    ⟨edgeless, fun key upserts => absurd upserts (other key)⟩
  unfold applyFollowList
  apply (query_completes single (plain rfl fun key => by simp)).ok_bind
  intro currentEvent between known
  split
  · apply (query_completes single (plain rfl fun key => by simp)).ok_bind
    exact fun _ _ _ => Safe.ret fun _ _ => trivial
  · apply (selectFollowees_completes single followerId).ok_bind
    intro currentSet compared kept
    obtain ⟨moved, read⟩ := kept
    have moved := known.trans moved
    have rows := rows.persists moved.moves.persists
    refine (diff_completes single verified same (moved.keeps exact) (moved.moves.persists.keyed follower) listed rows read).ok_bind ?_
    exact fun _ _ _ => Safe.ret fun _ _ => trivial

private theorem applyValidated_completes (vfl : ValidatedFollowList) (emitted : EmittedOf verify Kind.contactList vfl)
    (state : Database × Note) (exact : (charting single).holds state.1) :
    (charting single).Fulfills (fun _ _ => True) (applyValidated vfl) state := by
  obtain ⟨event, followCap, followees, verified, same, extracted, rfl⟩ := emitted
  obtain ⟨_, listed, _⟩ := followeePubkeys_spec extracted
  unfold applyValidated
  apply ((charting single).upsertPubkey_fulfills Grows.persists event.pubkey state).ok_bind
  intro followerId between follower
  apply ((charting single).upsertAll_fulfills Grows.persists followees between).ok_bind
  intro followeeIds later rows
  have exact := rows.1.keeps (follower.1.keeps exact)
  exact applyFollowList_completes single verified same exact (rows.1.moves.persists.keyed follower.2) listed rows.2

private theorem charting_fulfilled : (charting single).Fulfilled where
  applies := applyValidated_completes single
  knows := fun _ _ claimed author _ state _ =>
    (charting single).knownRelays_fulfills (fun _ relisting => relisting.plain.completing) claimed author state

end Worker

section Daemon

variable {anchor : Bytes} {workers : Workers}

/-- What a run leaves in a static world. -/
private theorem exact_of_run (single : Single verify Kind.contactList)
    (run : Relation.ReflTransGen (DaemonStep verify anchor) ⟨Database.empty, []⟩ workers) :
    (charting single).Kept workers :=
  ((Contract.Kept.empty (charting single)).run (charting_fulfilled single) run).1

/-- Once every list of an author who has a row was fetched, everyone linked to the anchor has a row, and it
holds exactly that list. -/
theorem charted_of_run (single : Single verify Kind.contactList)
    (run : Relation.ReflTransGen (DaemonStep verify anchor) ⟨Database.empty, []⟩ workers)
    (anchored : Stored workers.shared anchor)
    (fetched : ∀ id row event, workers.shared.rows id = some row → Signed verify Kind.contactList event row.pubkey →
      row.columns.status = .fetched) (key : Bytes) (linked : Linked verify anchor key) :
    ∃ id, workers.shared.keyed id key ∧
      ∀ event, Signed verify Kind.contactList event key → Holds workers.shared id event := by
  have exact : Exact verify Kind.contactList workers.shared := (exact_of_run single run).holds
  have holds {id : Nat} {key : Bytes} {event : Event} (keyed : workers.shared.keyed id key)
      (signed : Signed verify Kind.contactList event key) : Holds workers.shared id event := by
    obtain ⟨columns, found⟩ := keyed
    rcases exact.rows id _ found with blank | ⟨other, owned, holds⟩
    · have applied := ((Churn.of_run run).rows id _ found).fetched (fetched id _ event found signed)
      rw [blank.1 _ found] at applied
      cases applied
    · have same := PublicKey.bytes_injective (owned.author.trans signed.author.symm)
      exact single other event owned.verified signed.verified owned.kind signed.kind same ▸ holds
  have stored : Stored workers.shared key := by
    induction linked with
    | anchor => exact anchored
    | @followed event key _ names ih =>
      obtain ⟨id, keyed⟩ := ih
      obtain ⟨followee, tagged, rfl⟩ := names.tagged
      by_cases self : followee = event.pubkey
      · exact ⟨id, self ▸ keyed⟩
      · have named : followee ∈ followeeSet event := Finset.mem_erase.mpr ⟨self, List.mem_toFinset.mpr tagged⟩
        have holds := holds keyed ⟨names.verified, names.kind, rfl⟩
        obtain ⟨other, _, known⟩ := (holds.edges followee.bytes).mpr ⟨followee, named, rfl⟩
        exact ⟨other, known⟩
  obtain ⟨id, keyed⟩ := stored
  exact ⟨id, keyed, fun event => holds keyed⟩

/-- A static world is charted exactly: where nobody signs two lists, in every run of the daemon and
whatever its relays return, every row is blank or holds exactly its author's list, and no edge is ever
removed. Once every list of an author who has a row was fetched, everyone linked to the anchor has a
row, and it holds exactly that list. -/
theorem graph_exact (single : Single verify Kind.contactList)
    (run : Relation.ReflTransGen (DaemonStep verify anchor) ⟨Database.empty, []⟩ workers) :
    (∀ id row, workers.shared.rows id = some row →
      Blank workers.shared id ∨ ∃ event, Signed verify Kind.contactList event row.pubkey ∧ Holds workers.shared id event) ∧
    (∀ later, Relation.ReflTransGen (DaemonStep verify anchor) workers later →
      workers.shared.follows ⊆ later.shared.follows) ∧
    (Stored workers.shared anchor →
      (∀ id row event, workers.shared.rows id = some row → Signed verify Kind.contactList event row.pubkey →
        row.columns.status = .fetched) →
      ∀ key, Linked verify anchor key → ∃ id, workers.shared.keyed id key ∧
        ∀ event, Signed verify Kind.contactList event key → Holds workers.shared id event) := by
  have kept := exact_of_run single run
  refine ⟨(kept.holds : Exact verify Kind.contactList workers.shared).rows, ?_, charted_of_run single run⟩
  exact fun later further => (kept.run (charting_fulfilled single) further).2.follows

/-- The theorem in a world with one list, once it was fetched. -/
theorem graph_exact_trail : (∃ id, trailWorkers.shared.keyed id sampleAuthor.bytes ∧ Holds trailWorkers.shared id trailEvent) ∧
    ∃ id, trailWorkers.shared.keyed id trailFollowee.bytes := by
  have single : Single trailVerifier.verify Kind.contactList := fun _ _ first second _ _ _ => trail_verified first second
  have found : trailWorkers.shared.rows 1 = some ⟨sampleAuthor.bytes, _⟩ := rfl
  have fetched (id : Nat) (row : PubkeyRow) (event : Event) (present : trailWorkers.shared.rows id = some row)
      (signed : Signed trailVerifier.verify Kind.contactList event row.pubkey) : row.columns.status = .fetched := by
    obtain rfl : event = trailEvent := of_decide_eq_true signed.verified
    have author : trailWorkers.shared.keyed 1 row.pubkey := signed.author ▸ ⟨_, found⟩
    obtain rfl := Database.keyed_unique (Database.keyed_of_row present) author
    obtain rfl := Option.some.inj (found.symm.trans present)
    decide
  have charted := (graph_exact single trail_run).2.2 ⟨1, _, found⟩ fetched
  have names : Names trailVerifier.verify Kind.contactList trailEvent trailFollowee.bytes :=
    ⟨by decide, rfl, trailFollowee, List.mem_singleton_self _, rfl⟩
  obtain ⟨id, keyed, holds⟩ := charted _ .anchor
  obtain ⟨followee, known, _⟩ := charted _ (.followed .anchor names)
  exact ⟨⟨id, keyed, holds trailEvent ⟨by decide, rfl, rfl⟩⟩, followee, known⟩

end Daemon

end WotCrawler.Crawl
