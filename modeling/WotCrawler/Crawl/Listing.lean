import WotCrawler.Crawl.Authenticity
import WotCrawler.Ingest.RelayList
import WotCrawler.Store.Relays

/-! What the stored relays rest on: each row says what a list that its author signed says of the relay, so whatever
the relays return, the fallback of an author asks relays that the author named for its lists. -/

namespace WotCrawler.Crawl

open Effect Store Ingest Relay Sequence

/-- The row of a relay is one that a verified list of the author of the pubkey stores. -/
structure ListedBy (verify : Event → Bool) (db : Database) (id : Nat) (row : RelayRow) (event : Event) : Prop where
  verified : verify event = true
  kind : event.kind = Kind.relayList
  author : db.keyed id event.pubkey.bytes
  lists : row ∈ relayRows (extractRelayPairs event) (timestampToDatetime event.createdAt)

/-- Every stored relay was listed by its author. This is said of each row by itself: replacements of one
pubkey that overlap leave rows of both. -/
def Listed (verify : Event → Bool) (db : Database) : Prop := ∀ id, ∀ row ∈ db.relays id, ∃ event, ListedBy verify db id row event

/-- A replacement stores what a verified list of its author says. -/
def ListingStmt (verify : Event → Bool) (stmt : Stmt) (db : Database) : Prop :=
  match stmt with
  | .replaceRelays id relays seenAt => ∃ event, verify event = true ∧ event.kind = Kind.relayList ∧
      db.keyed id event.pubkey.bytes ∧ relays = extractRelayPairs event ∧ seenAt = timestampToDatetime event.createdAt
  | _ => True

/-- The author named the relay for its lists: the first tag of a verified relay list that names it is not one
for reading. -/
def Wrote (verify : Event → Bool) (author : PublicKey) (url : String) : Prop :=
  ∃ event, Signed verify Kind.relayList event author.bytes ∧ ∃ tag, firstTag event url = some tag ∧ tag.2 ≠ some .read

variable {verify : Event → Bool} {before after db : Database} {stmt : Stmt} {id : Nat} {author : PublicKey} {event : Event} {row : RelayRow}

theorem listing_of_lists (other : stmt.lists = none) (db : Database) : ListingStmt verify stmt db := by
  cases stmt with
  | replaceRelays => cases other
  | _ => trivial

section Statement

theorem ListedBy.persists (listed : ListedBy verify before id row event) (persists : Persists before after) :
    ListedBy verify after id row event :=
  ⟨listed.verified, listed.kind, persists.keyed listed.author, listed.lists⟩

/-- A statement that lists nothing but what was signed leaves the lists so. -/
theorem Listed.executes {locked : Finset Nat} {reply : Except StoreError stmt.Ret} (listed : Listed verify before)
    (listing : ListingStmt verify stmt before) (executes : stmt.Executes now locked before reply after) :
    Listed verify after := by
  have persists := executes.framed.persists
  intro id row stored
  by_cases replaced : stmt.lists = some id
  · cases stmt with
    | replaceRelays pubkeyId relays seenAt =>
      obtain rfl := Option.some.inj replaced
      obtain ⟨event, verified, kind, author, rfl, rfl⟩ := listing
      simp only [Stmt.Executes, Commits] at executes
      split at executes
      · rename_i next done
        obtain ⟨_, rfl⟩ := executes
        rw [(Database.replaceRelays_spec done).2.2, Function.update_self] at stored
        exact ⟨event, verified, kind, persists.keyed author, stored⟩
      · obtain ⟨_, rfl⟩ := executes
        exact listed pubkeyId row stored
    | _ => cases replaced
  · rw [executes.relays_eq replaced] at stored
    obtain ⟨event, signed⟩ := listed id row stored
    exact ⟨event, signed.persists persists⟩

/-- Rows of two replacements that overlap are still rows of lists. -/
private theorem Listed.relist {stored : Database} {rows : List RelayRow} {references : rows ≠ [] → (stored.rows id).isSome}
    {primary : (rows.map RelayRow.url).Nodup} (listed : Listed verify stored) (earlier : Listed verify before)
    (persists : Persists before stored) (mixed : ∀ row ∈ rows, row ∈ before.relays id ∨ row ∈ stored.relays id) :
    Listed verify (stored.relist id rows references primary) := by
  have stands {other : Nat} {row : RelayRow} {event : Event} (same : ListedBy verify stored other row event) :
      ListedBy verify (stored.relist id rows references primary) other row event :=
    ⟨same.verified, same.kind, same.author, same.lists⟩
  intro other row member
  by_cases same : other = id
  · subst same
    have kept : row ∈ rows := by
      rwa [Database.relist_relays_self] at member
    rcases mixed row kept with old | new
    · obtain ⟨event, lists⟩ := earlier other row old
      exact ⟨event, stands (lists.persists persists)⟩
    · obtain ⟨event, lists⟩ := listed other row new
      exact ⟨event, stands lists⟩
  · have untouched : row ∈ stored.relays other := by
      rwa [Database.relist_relays_of_ne same] at member
    obtain ⟨event, lists⟩ := listed other row untouched
    exact ⟨event, stands lists⟩

/-- Whatever is looked up as a write relay its author named. -/
theorem Listed.wrote (listed : Listed verify db) (keyed : db.keyed id author.bytes) {url : String}
    (written : ∃ row ∈ db.relays id, row.url = url ∧ row.writes) : Wrote verify author url := by
  obtain ⟨row, member, same, writes⟩ := written
  obtain ⟨event, signed⟩ := listed id row member
  have own := Database.keyed_key signed.author keyed
  exact ⟨event, ⟨signed.verified, signed.kind, own⟩,
    (relayRows_writes_iff event _ url).mp ⟨row, signed.lists, same, writes⟩⟩

end Statement

section Worker

variable {Note : Type} {gate : GateParams} {fallback : Fallback} {claimed : ClaimedAuthor}

/-- Relays are stored as they were signed, and rows stay with their keys. -/
def listing (verify : Event → Bool) : Contract verify where
  holds := Listed verify
  guarantee := ListingStmt verify
  moves := Persists
  refl := .refl
  trans := .trans
  empty := fun id row stored => by cases stored
  ranges := by
    intro stmt ranges
    apply listing_of_lists
    cases stmt <;> first | rfl | cases ranges
  settles := by
    intro stmt settling
    apply listing_of_lists
    cases stmt <;> first | rfl | cases settling
  moved := fun _ executes => executes.framed.persists
  kept := fun listed listing executes => listed.executes listing executes
  mixed := fun earlier persists listed mixed _ _ => ⟨listed.relist earlier persists mixed, .refl _⟩

/-- A look-up returns write relays that the author of the row named. -/
private theorem lookupWriteRelays_wrote (author : PublicKey) (state : Database × Note) (listed : Listed verify state.1) :
    (listing verify).Fulfills (fun urls later => (listing verify).Meanwhile state.1 later.1 ∧
      (state.1.keyed id author.bytes → ∀ url ∈ urls, Wrote verify author url)) (lookupWriteRelays id) state := by
  apply (listing verify).query_fulfills
  · exact fun later _ => trivial
  · intro urls before after later moved executed _ known
    refine ⟨known, ?_⟩
    intro keyed url member
    obtain ⟨now, locked, _, _, rows, replied, _, exactly⟩ := executed
    obtain rfl := Except.ok.inj replied
    exact (moved.keeps listed).wrote (moved.moves.keyed keyed) ((exactly url).mp member)

/-- The replacement of an author's list. -/
private theorem applyRelayList_lists (state : Database × Note) (verified : verify event = true)
    (kind : event.kind = Kind.relayList) (keyed : state.1.keyed id event.pubkey.bytes) :
    (listing verify).Fulfills (fun _ later => (listing verify).Meanwhile state.1 later.1)
      (applyRelayList id (extractRelayPairs event) (timestampToDatetime event.createdAt)) state := by
  apply (listing verify).query_fulfills
  · exact fun later moved => ⟨event, verified, kind, moved.moves.keyed keyed, rfl, rfl⟩
  · exact fun _ _ _ _ _ _ _ moved => moved

private theorem resolved_signed {raw : List Event} {vrl : ValidatedRelayList}
    (resolved : resolveRelayList verify raw author now futureClampSecs = some vrl) :
    ∃ event, verify event = true ∧ event.kind = Kind.relayList ∧ event.pubkey = author ∧ vrl = .fromEvent event := by
  obtain ⟨winner, picked, made⟩ := Option.bind_eq_some_iff.mp resolved
  have listed := List.mem_filter.mp ((keepFirst_sublist Event.id ∅ _).subset (pickWinner_spec picked).1.1)
  obtain ⟨verified, kind, solicited⟩ := accept_iff.mp listed.2
  exact ⟨winner, verified, kind, Finset.mem_singleton.mp solicited, (Option.some.inj made).symm⟩

/-- The write relays that the fallback comes to know its author named, whatever it is sent. -/
private theorem resolveWriteRelays_wrote (verified : gate.verify = verify) (state : Database × Note)
    (listed : Listed verify state.1) :
    (listing verify).Fulfills (fun urls _ => state.1.keyed claimed.id author.bytes → ∀ url ∈ urls, Wrote verify author url)
      (resolveWriteRelays gate fallback claimed author) state := by
  have reread {later : Database × Note} (moved : (listing verify).Meanwhile state.1 later.1) (persisted : List String)
      (wrote : ∀ url ∈ persisted, Wrote verify author url) :
      (listing verify).Fulfills (fun urls _ => state.1.keyed claimed.id author.bytes → ∀ url ∈ urls, Wrote verify author url)
        (if persisted = [] then lookupWriteRelays claimed.id else return persisted) later := by
    split
    · apply (lookupWriteRelays_wrote author later (moved.keeps listed)).mono
      intro outcome final known
      cases outcome with
      | ok urls => exact fun keyed => known.2 (moved.moves.keyed keyed)
      | error error => trivial
    · exact Safe.ret fun _ _ _ => wrote
  have stays : (listing verify).Meanwhile state.1 state.1 := ⟨.refl state.1, id⟩
  have unknown := reread stays [] fun _ none => by cases none
  unfold resolveWriteRelays
  dsimp only
  split
  · exact unknown
  · split
    · exact unknown
    · rename_i vrl resolved
      rw [verified] at resolved
      obtain ⟨event, signed, kind, rfl, rfl⟩ := resolved_signed resolved
      apply ((listing verify).upsertPubkey_fulfills id event.pubkey state).ok_bind
      intro pubkeyId stored own
      apply (applyRelayList_lists stored signed kind own.2).ok_bind
      intro _ replaced moved
      have since := own.1.trans moved
      apply (lookupWriteRelays_wrote event.pubkey replaced (since.keeps listed)).ok_bind
      intro urls later known
      exact reread (since.trans known.1) urls (known.2 (moved.moves.keyed own.2))

theorem knownRelays_wrote (verified : gate.verify = verify) (state : Database × Note) (listed : Listed verify state.1) :
    (listing verify).Fulfills (fun urls _ => state.1.keyed claimed.id author.bytes → ∀ url ∈ urls, Wrote verify author url)
      (knownRelays gate fallback claimed author) state := by
  unfold knownRelays
  apply (lookupWriteRelays_wrote author state listed).ok_bind
  intro stored later known
  split
  · apply (resolveWriteRelays_wrote verified later (known.1.keeps listed)).mono
    intro outcome final wrote
    cases outcome with
    | ok urls => exact fun keyed => wrote (known.1.moves.keyed keyed)
    | error error => trivial
  · exact Safe.ret fun _ _ => known.2

private theorem listing_fulfilled (verify : Event → Bool) : (listing verify).Fulfilled where
  applies := by
    intro vfl _ state _
    have issues : (applyValidated vfl).run.Issues fun stmt : Stmt => stmt.lists = none :=
      applyValidated_issues ⟨fun _ => rfl, fun _ => rfl, fun _ => rfl, fun _ _ _ _ _ => rfl⟩ rfl fun _ _ => rfl
    exact worker_safe_of_yields (fun _ => listing_of_lists) (Prog.Yields.of_issues issues) state
  knows := by
    intro gate fallback claimed author verified state listed
    apply (knownRelays_wrote verified state listed).mono
    intro outcome later _
    cases outcome <;> trivial

end Worker

section Daemon

variable {anchor : Bytes} {workers : Workers}

/-- The stored relays are genuine: however the daemon runs and whatever its relays return, each stored relay of a
pubkey is a row of a verified relay list of its author; a look-up returns only write relays that the author
of the row named; and so does the fallback of an author with a row, whatever the relays send it and whatever the
other workers do meanwhile: it asks no relay for an author's lists that the author did not name for them. -/
theorem relay_lists_genuine (run : Relation.ReflTransGen (DaemonStep verify anchor) ⟨Database.empty, []⟩ workers) :
    (∀ id, ∀ row ∈ workers.shared.relays id, ∃ event, ListedBy verify workers.shared id row event) ∧
    (∀ id author urls after, workers.shared.keyed id author.bytes →
      sql.exec (.selectWriteRelays id) workers.shared (.ok urls) after → ∀ url ∈ urls, Wrote verify author url) ∧
    ∀ gate fallback claimed author, gate.verify = verify → workers.shared.keyed claimed.id author.bytes →
      ∀ batch : List ClaimedAuthor, (listing verify).Fulfills
        (fun writeRelays _ => ∀ url ∈ selectRelays fallback author writeRelays, Wrote verify author url)
        (knownRelays gate fallback claimed author) (workers.shared, batch) := by
  have kept := ((Contract.Kept.empty (listing verify)).run (listing_fulfilled verify) run).1
  refine ⟨kept.holds, ?_, ?_⟩
  · intro id author urls after keyed executed url member
    obtain ⟨now, locked, _, _, rows, replied, _, exactly⟩ := executed
    obtain rfl := Except.ok.inj replied
    exact kept.holds.wrote keyed ((exactly url).mp member)
  · intro gate fallback claimed author verified keyed batch
    apply (knownRelays_wrote verified (workers.shared, batch) kept.holds).mono
    intro outcome later wrote
    cases outcome with
    | ok writeRelays =>
      intro url selected
      exact wrote keyed url ((List.mem_insertionSort _).mp (List.mem_of_mem_take selected))
    | error error => trivial

/-- An author without a follow list, whose relay list names one relay for writing. -/
private def writeList : Event :=
  { sampleEvent 3 10 "" with kind := Kind.relayList, tags := [.relayMetadata ⟨"wss://outbox"⟩ (some .write)] }

private def writeSigned (event : Event) : Bool := event = writeList

private def writeUrl : String := (RelayUrl.mk "wss://outbox").asStrWithoutTrailingSlash

private def writeFallback : Fallback where
  enabled := true
  maxWriteRelays := 1
  score := fun _ _ => 0
  fallbackFetch := fun _ _ => .ok []
  relayListFetch := fun _ => .ok [writeList]

private def writeWorker : Prog Sql (Except StoreError Nat) :=
  (processBatch ⟨writeSigned, Kind.contactList, 100, 0, 10⟩ 3 writeFallback [Fleet.soleAuthor] (.ok [])).run

private theorem writeWorker_runs : ∃ after, Runs sql writeWorker claimedRow (.ok 0) after ∧
    after.relays 1 = [⟨writeUrl, .write, timestampToDatetime 10⟩] := by
  have unlisted : sql.exec (.selectWriteRelays 1) claimedRow (.ok []) claimedRow := by
    refine ⟨0, ∅, trivial, rfl, [], rfl, List.nodup_nil, ?_⟩
    have none : claimedRow.relays 1 = [] := rfl
    simp [none]
  obtain ⟨listed, replaced⟩ : ∃ listed, claimedRow.skipId.replaceRelays 1 [(writeUrl, .write)] (timestampToDatetime 10) =
      .ok listed := Database.replaceRelays_isOk rfl
  have stores : sql.exec (.replaceRelays 1 [(writeUrl, .write)] (timestampToDatetime 10)) claimedRow.skipId (.ok ()) listed :=
    ⟨0, ∅, trivial, by simp [Stmt.Executes, Commits, replaced]⟩
  have relays : listed.relays 1 = [⟨writeUrl, .write, timestampToDatetime 10⟩] := by
    rw [(Database.replaceRelays_spec replaced).2.2, Function.update_self]
    rfl
  have known : sql.exec (.selectWriteRelays 1) listed (.ok [writeUrl]) listed := by
    refine ⟨0, ∅, trivial, rfl, [writeUrl], rfl, List.nodup_singleton _, ?_⟩
    simp [relays, eq_comm]
  have missed : sql.exec (.updateStatus 1 .notFound (timestampToDatetime 100)) listed (.ok ())
      (listed.updateRow 1 (Columns.setStatus .notFound (timestampToDatetime 100))) := ⟨0, ∅, trivial, rfl, rfl⟩
  exact ⟨_, .call unlisted (.call trail_upserts_author (.call stores (.call known (.call missed .ret)))), relays⟩

/-- The theorem once a worker has stored that list. -/
theorem relay_lists_genuine_outbox : ∃ workers, Relation.ReflTransGen (DaemonStep writeSigned sampleAuthor.bytes)
      ⟨Database.empty, []⟩ workers ∧ workers.shared.relays 1 = [⟨writeUrl, .write, timestampToDatetime 10⟩] ∧
      ∀ row ∈ workers.shared.relays 1, ∃ event, ListedBy writeSigned workers.shared 1 row event := by
  have seeded : DaemonStep writeSigned sampleAuthor.bytes ⟨Database.empty, []⟩ ⟨Fleet.oneRow, []⟩ := .seed seeds_empty
  let started : Workers := ⟨claimedRow, [⟨[Fleet.soleAuthor], writeWorker⟩]⟩
  have claimed : DaemonStep writeSigned sampleAuthor.bytes ⟨Fleet.oneRow, []⟩ started := .claim (.call oneRow_claims .ret)
  obtain ⟨after, ran, relays⟩ := writeWorker_runs
  have found : started.tasks[0]? = some ⟨[Fleet.soleAuthor], writeWorker⟩ := rfl
  have worked : Relation.ReflTransGen (DaemonStep writeSigned sampleAuthor.bytes) started _ :=
    works_of_calls (Pool.runs_calls (ran.silent [Fleet.soleAuthor]) found)
  have run := ((Relation.ReflTransGen.single seeded).tail claimed).trans worked
  exact ⟨_, run, relays, (relay_lists_genuine run).1 1⟩

end Daemon

end WotCrawler.Crawl
