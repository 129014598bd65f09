import WotCrawler.Daemon.Recovery

/-! An author whose newest list is over the cap: the gate drops the author, and the batch takes it
for one that the union did not hold. -/

namespace WotCrawler.Daemon

open Effect Store Ingest Relay Crawl

/-- The id of a verified version of an author's list that the newest one supersedes. -/
def Outranked (verifier : Verifier) (newest : Event) (eventId : Bytes) : Prop :=
  ∃ event, verifier.verify event = true ∧ event.pubkey = newest.pubkey ∧ event.id.bytes = eventId ∧
    newest.supersedes event

/-- A statement that stamps the row `not_found`, or puts an outranked version in its place. -/
def Slights (verifier : Verifier) (id : Nat) (newest : Event) : Stmt → Prop
  | .updateStatus pubkeyId status _ => pubkeyId = id ∧ status = .notFound
  | .applyDiff _ _ _ eventId _ _ => Outranked verifier newest eventId
  | _ => False

/-- What a batch makes of an author's row: it issues no statement against the newest version, and
leaves neither the stamp nor an outranked version. -/
structure Heeded (verifier : Verifier) (id : Nat) (newest : Event) (after : Database × Trace) : Prop where
  issued : ∀ entry ∈ after.2, ¬ Slights verifier id newest entry.1
  status : ∀ row, after.1.rows id = some row → row.columns.status ≠ .notFound
  applied : ∀ row eventId, after.1.rows id = some row → row.columns.appliedEventId = some eventId →
    ¬ Outranked verifier newest eventId

/-- A list as the gate emits it for an author. -/
def Emitted (verify : Event → Bool) (author : PublicKey) (vfl : ValidatedFollowList) : Prop :=
  ∃ event followees, verify event = true ∧ event.pubkey = author ∧ vfl = .fromEvent event followees

variable {verifier : Verifier} {gate : GateParams} {fallback : Fallback} {batch : List ClaimedAuthor}
  {claimed : ClaimedAuthor} {newest : Event} {id : Nat}

/-- A version does not outrank itself, nor another author's. -/
private theorem not_outranked_of_emitted {vfl : ValidatedFollowList}
    (verified : verifier.verify newest = true) (emitted : Emitted verifier.verify author vfl)
    (current : author = newest.pubkey → vfl.eventId = newest.id) :
    ¬ Outranked verifier newest vfl.eventId.bytes := by
  obtain ⟨event, followees, eventVerified, owner, rfl⟩ := emitted
  rintro ⟨other, otherVerified, theirs, bytes, superseded⟩
  have same : other.id = event.id := EventId.bytes_injective bytes
  have mine : author = newest.pubkey := by
    rw [← theirs, ← owner]
    exact (verifier.pubkey_eq otherVerified eventVerified same).symm
  have ids : other.id = newest.id := same.trans (current mine)
  have times := verifier.createdAt_eq otherVerified verified ids
  cases superseded with
  | inl newer => exact absurd newer (by rw [times]; exact lt_irrefl _)
  | inr tied => exact absurd tied.2 (by rw [ids]; exact lt_irrefl _)

section Statements

/-- A program that issues nothing against the newest version. -/
private abbrev Heeding (verifier : Verifier) (id : Nat) (newest : Event) (prog : StoreM α) : Prop :=
  prog.run.Issues fun stmt => ¬ Slights verifier id newest stmt

/-- Applying a list that is not outranked. -/
private theorem applyValidated_heeding {vfl : ValidatedFollowList}
    (current : ¬ Outranked verifier newest vfl.eventId.bytes) :
    Heeding verifier id newest (applyValidated vfl) := by
  apply applyValidated_issues
  · exact ⟨fun _ slights => slights, fun _ slights => slights, fun _ slights => slights, fun _ _ _ _ _ => current⟩
  · exact fun slights => slights
  · exact fun _ _ slights => slights

/-- The fallback only reads and stores relays; what it recovers is a list of its author. -/
private theorem fallbackRecover_emitted (author : PublicKey) :
    (fallbackRecover gate fallback claimed author).run.Yields
      (fun stmt => ¬ Slights verifier id newest stmt)
      (ifOk fun recovered => ∀ vfl, recovered = some vfl → Emitted gate.verify author vfl) := by
  apply fallbackRecover_recovers
  · exact fun slights => slights
  · exact fun _ slights => slights
  · exact fun _ _ _ slights => slights
  · intro raw vfl listed
    obtain ⟨event, followees, _, verified, _, solicited, _, rfl⟩ := exists_of_mem_ingestEvents listed
    exact ⟨event, followees, verified, Finset.mem_singleton.mp solicited, rfl⟩

private theorem miss_heeding (apart : claimed.id ≠ id) : Heeding verifier id newest (do
    setFetchStatus claimed.id .notFound stamp
    return 0 : StoreM Nat) := by
  have stamped : Heeding verifier id newest (setFetchStatus claimed.id .notFound stamp) :=
    query_issues fun slights => apart slights.1
  exact stamped.except_bind fun _ => trivial

private theorem hit_heeding {vfl : ValidatedFollowList}
    (current : ¬ Outranked verifier newest vfl.eventId.bytes) : Heeding verifier id newest (do
      let _ ← applyValidated vfl
      return 1 : StoreM Nat) := by
  have applied : Heeding verifier id newest (applyValidated vfl) := applyValidated_heeding current
  exact applied.except_bind fun _ => trivial

/-- One author of a batch whose union gave the newest version's author its list. -/
private theorem resolveAuthor_heeding {byAuthor : PublicKey → Option ValidatedFollowList}
    (verified : verifier.verify newest = true) (same : gate.verify = verifier.verify)
    (indexed : ∀ author vfl, byAuthor author = some vfl → Emitted verifier.verify author vfl)
    (listed : ∃ vfl, byAuthor newest.pubkey = some vfl ∧ vfl.eventId = newest.id)
    (mine : claimed.id = id → PublicKey.fromSlice claimed.pubkey = some newest.pubkey) :
    Heeding verifier id newest (resolveAuthor gate fallback stamp byAuthor claimed) := by
  obtain ⟨newestList, found, current⟩ := listed
  unfold resolveAuthor
  split
  · rename_i malformed
    apply miss_heeding
    intro theirs
    rw [mine theirs] at malformed
    cases malformed
  · rename_i author parsed
    split
    · rename_i vfl hit
      apply hit_heeding
      apply not_outranked_of_emitted verified (indexed author vfl hit)
      intro theirs
      rw [theirs, found] at hit
      exact Option.some.inj hit ▸ current
    · rename_i missed
      have other : author ≠ newest.pubkey := by
        intro theirs
        rw [theirs, found] at missed
        cases missed
      have apart : claimed.id ≠ id := by
        intro theirs
        exact other (Option.some.inj (parsed.symm.trans (mine theirs)))
      dsimp only
      split
      · apply ((fallbackRecover_emitted author).except_bind _).issues
        · exact fun _ => True
        · intro recovered emitted
          apply Prog.Yields.of_issues
          split
          · rename_i vfl
            apply hit_heeding
            have theirs : Emitted verifier.verify author vfl := same ▸ emitted vfl rfl
            exact not_outranked_of_emitted verified theirs fun impossible => absurd impossible other
          · exact miss_heeding apart
      · exact miss_heeding apart

private theorem resolveAll_heeding {byAuthor : PublicKey → Option ValidatedFollowList} {rest : List ClaimedAuthor}
    (verified : verifier.verify newest = true) (same : gate.verify = verifier.verify)
    (indexed : ∀ author vfl, byAuthor author = some vfl → Emitted verifier.verify author vfl)
    (listed : ∃ vfl, byAuthor newest.pubkey = some vfl ∧ vfl.eventId = newest.id) (applied : Nat)
    (mine : ∀ claimed ∈ rest, claimed.id = id → PublicKey.fromSlice claimed.pubkey = some newest.pubkey) :
    Heeding verifier id newest (resolveAll gate fallback stamp byAuthor applied rest) := by
  induction rest generalizing applied with
  | nil => trivial
  | cons claimed rest ih =>
    have first : Heeding verifier id newest (resolveAuthor gate fallback stamp byAuthor claimed) :=
      resolveAuthor_heeding verified same indexed listed (mine claimed (List.mem_cons_self ..))
    unfold resolveAll
    apply first.except_bind
    intro counted
    exact ih (applied + counted) fun other member => mine other (List.mem_cons_of_mem _ member)

end Statements

section Rows

variable {db : Database} {byAuthor : PublicKey → Option ValidatedFollowList} {stamp : DateTime}

/-- A row whose last outcome was the event's list. -/
def Records (db : Database) (id : Nat) (eventId : EventId) : Prop :=
  ∃ row, db.rows id = some row ∧ row.columns.status = .fetched ∧ row.columns.appliedEventId = some eventId.bytes

theorem Records.untouched {before after : Database} (records : Records before id eventId)
    (untouched : before.Untouched after id) : Records after id eventId := by
  obtain ⟨row, found, recorded⟩ := records
  exact ⟨row, untouched.1 row found, recorded⟩

/-- Applying a list records its event. -/
private theorem applyValidated_records {vfl : ValidatedFollowList}
    (keyed : db.keyed id vfl.followerPubkey.bytes) :
    Must sql (applyValidated vfl).run db fun result after =>
      (∃ changed, result = .ok changed) → Records after id vfl.eventId := by
  intro result after run _
  exact (applyValidated_alone (fun _ => True) keyed trivial (fun _ _ => trivial) _ _ run).2.2

/-- An author with a list in the union ends with that list, whatever the fallback. -/
private theorem resolveAuthor_records {vfl : ValidatedFollowList}
    (indexed : ∀ author vfl, byAuthor author = some vfl → vfl.followerPubkey = author)
    (keyed : db.keyed claimed.id claimed.pubkey) (listed : listOf byAuthor claimed = some vfl) :
    Must sql (resolveAuthor gate fallback stamp byAuthor claimed).run db fun result after =>
      (∃ counted, result = .ok counted) → Records after claimed.id vfl.eventId := by
  obtain ⟨author, parsed, found⟩ := Option.bind_eq_some_iff.mp listed
  have key := PublicKey.fromSlice_eq_some_iff.mp parsed
  have same : vfl.followerPubkey.bytes = claimed.pubkey := by rw [indexed author vfl found, key]
  have applied : Must sql (applyValidated vfl).run db _ := applyValidated_records (same ▸ keyed)
  unfold resolveAuthor
  rw [parsed]
  dsimp only
  rw [found]
  refine applied.except_bind ?_ ?_
  · intro changed after records
    exact must_ret.mpr fun _ => records ⟨changed, rfl⟩
  · intro error after _ impossible
    obtain ⟨_, impossible⟩ := impossible
    cases impossible

/-- A batch that does not fail leaves every author that has a list in the union with that list. -/
private theorem resolveAll_records {rest : List ClaimedAuthor}
    (indexed : ∀ author vfl, byAuthor author = some vfl → vfl.followerPubkey = author) (applied : Nat)
    (distinct : (rest.map ClaimedAuthor.id).Nodup)
    (keyed : ∀ claimed ∈ rest, db.keyed claimed.id claimed.pubkey) :
    Must sql (resolveAll gate fallback stamp byAuthor applied rest).run db fun result after =>
      (∀ id, id ∉ rest.map ClaimedAuthor.id → db.Untouched after id) ∧
        ((∃ count, result = .ok count) → ∀ claimed ∈ rest, ∀ vfl, listOf byAuthor claimed = some vfl →
          Records after claimed.id vfl.eventId) := by
  induction rest generalizing applied db with
  | nil =>
    refine must_ret.mpr ⟨fun id _ => ⟨fun row found => found, fun followee => Iff.rfl⟩, ?_⟩
    exact fun _ claimed member => by cases member
  | cons claimed rest ih =>
    obtain ⟨apart, others⟩ := List.nodup_cons.mp distinct
    have mine := keyed claimed (List.mem_cons_self ..)
    have first : Must sql (resolveAuthor gate fallback stamp byAuthor claimed).run db fun result after =>
        (Persists db after ∧ ∀ id, id ≠ claimed.id → db.Untouched after id) ∧
          ∀ vfl, listOf byAuthor claimed = some vfl → (∃ counted, result = .ok counted) →
            Records after claimed.id vfl.eventId := by
      intro result after run
      refine ⟨resolveAuthor_untouched indexed mine _ _ run, ?_⟩
      exact fun vfl listed ok => resolveAuthor_records indexed mine listed _ _ run ok
    unfold resolveAll
    refine first.except_bind ?_ ?_
    · intro counted between holds
      obtain ⟨⟨persists, untouched⟩, records⟩ := holds
      have tail : Must sql (resolveAll gate fallback stamp byAuthor (applied + counted) rest).run between _ :=
        ih (applied + counted) others fun other member =>
          persists.keyed (keyed other (List.mem_cons_of_mem _ member))
      refine tail.mono ?_
      intro result after left
      obtain ⟨beyond, recorded⟩ := left
      refine ⟨?_, ?_⟩
      · intro id outside
        obtain ⟨different, elsewhere⟩ := not_or.mp fun member => outside (List.mem_cons.mpr member)
        have early := untouched id different
        have late := beyond id elsewhere
        exact ⟨fun row found => late.1 row (early.1 row found),
          fun followee => (late.2 followee).trans (early.2 followee)⟩
      · intro ok other member vfl listed
        rcases List.mem_cons.mp member with rfl | inside
        · exact (records vfl listed ⟨counted, rfl⟩).untouched (beyond _ apart)
        · exact recorded ok other inside vfl listed
    · intro error after holds
      refine ⟨?_, ?_⟩
      · intro id outside
        exact holds.1.2 id fun same => outside (same ▸ List.mem_cons_self ..)
      · intro impossible
        obtain ⟨_, impossible⟩ := impossible
        cases impossible

/-- Without a fallback, an author that the gate emitted no list for is stamped. -/
private theorem processBatch_misses {events : List Event} (claims : Claims db batch) (member : claimed ∈ batch)
    (disabled : fallback.enabled = false) (listless : gate.listFor batch events claimed = none) :
    Must sql (processBatch gate maxAttempts fallback batch (.ok events)).run db fun _ after =>
      ∃ row, after.rows claimed.id = some row ∧ row.columns.status = .notFound := by
  have ready : Ready batch (db, {id | id ∈ batch.map ClaimedAuthor.id}) := by
    intro other inside
    obtain ⟨columns, found, _⟩ := claims.rows other inside
    exact ⟨List.mem_map_of_mem inside, columns, found⟩
  obtain ⟨columns, found, _⟩ := claims.rows claimed member
  have safe : Safe (leasing fun _ => True) alone (Resolves (gate.listFor batch events)
      (timestampToDatetime gate.now) batch) _ (processBatch gate maxAttempts fallback batch (.ok events)).run
      (db, {id | id ∈ batch.map ClaimedAuthor.id}) :=
    processBatch_resolves alone_within disabled claims.distinct ready events
  have kept := safe.remember
    (fun desk => ∃ row, desk.1.rows claimed.id = some row ∧ (claimed.id ∈ desk.2 ∨ row.columns.status = .notFound))
    ⟨_, found, .inl (List.mem_map_of_mem member)⟩
    (fun moved held => by have same := moved; subst same; exact held) ?_
  · intro reply after run
    obtain ⟨final, noted⟩ := run.noting {id | id ∈ batch.map ClaimedAuthor.id}
    obtain ⟨⟨row, there, outcome⟩, ended⟩ := kept.must _ _ noted
    cases reply with
    | error error => exact ended.elim
    | ok count =>
      rcases outcome with pending | stamped
      · exact absurd pending (ended.1 claimed member)
      · exact ⟨row, there, stamped⟩
  · intro stmt before after resolves held
    obtain ⟨row, there, outcome⟩ := held
    by_cases writes : stmt.outcome = some claimed.id
    · obtain ⟨_, other, inside, same, settles⟩ := resolves.owned claimed.id writes
      obtain rfl : other = claimed := List.inj_on_of_nodup_map claims.distinct inside member same
      rw [listless] at settles
      exact ⟨_, settles.2 row there, .inr rfl⟩
    · refine ⟨row, resolves.framed.columns resolves.single claimed.id row there writes, ?_⟩
      rcases outcome with pending | stamped
      · rw [resolves.released]
        exact .inl ⟨pending, writes⟩
      · exact .inr stamped

end Rows

section Seen

variable {db : Database} {events : List Event} {author : PublicKey} {event : Event}

/-- The newest admissible version of an author. -/
private abbrev Newest (verify : Event → Bool) (gate : GateParams) (events : List Event) (author : PublicKey)
    (newest : Event) : Prop :=
  Nip01Winner (Admissible verify events gate.wantKind gate.now gate.futureClampSecs author) newest

private theorem exists_traced (prog : Prog Sql (Except StoreError Nat)) (db : Database) :
    ∃ reply after, Runs sql.tracing prog (db, []) reply after := by
  obtain ⟨reply, after, run, _⟩ := May.tracing sql_total prog (db, [])
  exact ⟨reply, after, run⟩

private theorem exists_newest (member : claimed ∈ batch) (bytes : author.bytes = claimed.pubkey)
    (seen : Admissible verifier.verify events gate.wantKind gate.now gate.futureClampSecs author event) :
    ∃ newest, Newest verifier.verify gate events author newest := by
  have parsed : PublicKey.fromSlice claimed.pubkey = some author := PublicKey.fromSlice_eq_some_iff.mpr bytes
  have solicited : author ∈ (requestedAuthors batch).toFinset :=
    List.mem_toFinset.mpr (List.mem_filterMap.mpr ⟨claimed, member, parsed⟩)
  obtain ⟨newest, found⟩ := pickWinner_group_isSome verifier events gate.wantKind _ gate.now gate.futureClampSecs
    author solicited seen
  exact ⟨newest, (pickWinner_group_winner verifier events gate.wantKind _ gate.now gate.futureClampSecs author
    found).2⟩

/-- The gate gives the author a list exactly if the newest version is within the cap, and then its. -/
private theorem listFor_newest (verified : gate.verify = verifier.verify) (member : claimed ∈ batch)
    (bytes : author.bytes = claimed.pubkey) (newer : Newest verifier.verify gate events author newest) :
    ((∃ vfl, gate.listFor batch events claimed = some vfl) ↔ (followeeSet newest).card ≤ gate.followCap) ∧
      ∀ vfl, gate.listFor batch events claimed = some vfl → vfl.eventId = newest.id := by
  have parsed : PublicKey.fromSlice claimed.pubkey = some author := PublicKey.fromSlice_eq_some_iff.mpr bytes
  have listed (vfl : ValidatedFollowList) (found : gate.listFor batch events claimed = some vfl) :
      vfl.eventId = newest.id ∧ (followeeSet newest).card ≤ gate.followCap := by
    obtain ⟨winner, followees, ⟨other, reparsed, wins, small⟩, _, _, rfl⟩ := listFor_eq_some verifier verified found
    obtain rfl := Option.some.inj (parsed.symm.trans reparsed)
    have same := wins.id_eq newer
    have tags := verifier.tags_eq wins.member.2.1 newer.member.2.1 same
    have owner := verifier.pubkey_eq wins.member.2.1 newer.member.2.1 same
    refine ⟨same, ?_⟩
    unfold followeeSet at small ⊢
    rwa [← tags, ← owner]
  refine ⟨⟨?_, ?_⟩, fun vfl found => (listed vfl found).1⟩
  · intro found
    obtain ⟨vfl, found⟩ := found
    exact (listed vfl found).2
  · intro small
    exact listFor_isSome verifier verified member ⟨author, parsed, newer, small⟩

/-- Where the gate emitted the newest version, no statement of the batch is against it, whatever
the fallback is told and whatever the store replies. -/
theorem processBatch_heeding {vfl : ValidatedFollowList} (maxAttempts : Int) (fallback : Fallback)
    (verified : gate.verify = verifier.verify) (distinct : (batch.map ClaimedAuthor.id).Nodup) (member : claimed ∈ batch)
    (parsed : PublicKey.fromSlice claimed.pubkey = some newest.pubkey) (genuine : verifier.verify newest = true)
    (listed : gate.listFor batch events claimed = some vfl) (current : vfl.eventId = newest.id) :
    (processBatch gate maxAttempts fallback batch (.ok events)).run.Issues
      (fun stmt => ¬ Slights verifier claimed.id newest stmt) := by
  unfold processBatch
  rw [if_neg (List.ne_nil_of_mem member)]
  apply resolveAll_heeding genuine verified
  · intro author vfl found
    have same := indexByAuthor_follower found
    have emitted := List.mem_reverse.mp (List.mem_of_find?_eq_some found)
    obtain ⟨event, followees, _, accepted, _, _, _, rfl⟩ := exists_of_mem_ingestEvents emitted
    exact ⟨event, followees, verified ▸ accepted, same, rfl⟩
  · obtain ⟨author, reparsed, found⟩ := Option.bind_eq_some_iff.mp listed
    obtain rfl := Option.some.inj (parsed.symm.trans reparsed)
    exact ⟨vfl, found, current⟩
  · intro other inside same
    obtain rfl : other = claimed := List.inj_on_of_nodup_map distinct inside member same
    exact parsed

/-- An author of whom the union held an admissible version is heeded, whatever the fallback does,
exactly when its newest version names no more followees than the cap allows. -/
theorem newest_heeded_iff (verified : gate.verify = verifier.verify) (claims : Claims db batch)
    (member : claimed ∈ batch) (bytes : author.bytes = claimed.pubkey)
    (seen : Admissible verifier.verify events gate.wantKind gate.now gate.futureClampSecs author event) :
    ∃ newest, Nip01Winner (Admissible verifier.verify events gate.wantKind gate.now gate.futureClampSecs author)
        newest ∧
      ((∀ maxAttempts fallback reply after, Runs sql.tracing
          (processBatch gate maxAttempts fallback batch (.ok events)).run (db, []) reply after →
          Heeded verifier claimed.id newest after) ↔
        (followeeSet newest).card ≤ gate.followCap) := by
  obtain ⟨newest, newer⟩ : ∃ newest, Newest verifier.verify gate events author newest :=
    exists_newest member bytes seen
  obtain ⟨emits, current⟩ := listFor_newest verified member bytes newer
  obtain ⟨_, genuine, owner, _⟩ := newer.member
  refine ⟨newest, newer, ?_, ?_⟩
  · intro heeded
    apply emits.mp
    by_contra listless
    have missing : gate.listFor batch events claimed = none := by
      simpa [← Option.isSome_iff_exists] using listless
    obtain ⟨reply, after, run⟩ := exists_traced (processBatch gate 0 noOpFallback batch (.ok events)).run db
    have disabled : noOpFallback.enabled = false := rfl
    obtain ⟨row, found, stamped⟩ := processBatch_misses claims member disabled missing _ _ run.untraced
    exact (heeded 0 noOpFallback reply after run).status row found stamped
  · intro small maxAttempts fallback reply after run
    obtain ⟨vfl, listed⟩ := emits.mpr small
    have parsed : PublicKey.fromSlice claimed.pubkey = some newest.pubkey :=
      PublicKey.fromSlice_eq_some_iff.mpr (owner ▸ bytes)
    have issues := processBatch_heeding maxAttempts fallback verified claims.distinct member parsed genuine listed
      (current vfl listed)
    have keyed (other : ClaimedAuthor) (inside : other ∈ batch) : db.keyed other.id other.pubkey := by
      obtain ⟨columns, found, _⟩ := claims.rows other inside
      exact ⟨columns, found⟩
    have processed := run.untraced
    unfold processBatch at processed
    rw [if_neg (List.ne_nil_of_mem member)] at processed
    have records : Must sql (resolveAll gate fallback (timestampToDatetime gate.now) (indexByAuthor
        (ingestEvents gate.verify events gate.wantKind (requestedAuthors batch).toFinset gate.now
          gate.futureClampSecs gate.followCap)) 0 batch).run db _ :=
      resolveAll_records (fun _ _ found => indexByAuthor_follower found) 0 claims.distinct keyed
    obtain ⟨row, found, fetched, applied⟩ := (records _ _ processed).2 (processBatch_ok_told claims events _ _ run).1 claimed
      member vfl listed
    refine ⟨?_, ?_, ?_⟩
    · intro entry traced
      rcases issues.traced run entry traced with early | heeds
      · cases early
      · exact heeds
    · intro other there stamped
      obtain rfl := Option.some.inj (found.symm.trans there)
      cases fetched.symm.trans stamped
    · intro other eventId there recorded
      obtain rfl := Option.some.inj (found.symm.trans there)
      obtain rfl := Option.some.inj (applied.symm.trans recorded)
      obtain ⟨winner, followees, wins, _, _, rfl⟩ := listFor_eq_some verifier verified listed
      obtain ⟨_, _, best, _⟩ := wins
      apply not_outranked_of_emitted genuine ⟨winner, followees, best.member.2.1, rfl, rfl⟩
      exact fun _ => current _ listed

end Seen

section Example

private theorem crowded_width : (List.replicate 32 2 : Bytes).length = 32 := rfl

/-- A list that names one followee. -/
def crowdedEvent : Event := { sampleEvent 1 20 "" with tags := [.publicKey ⟨List.replicate 32 2, crowded_width⟩] }

def crowdedVerifier : Verifier where
  verify := fun event => event = crowdedEvent
  pubkey_eq := fun first second _ =>
    congrArg Event.pubkey ((of_decide_eq_true first).trans (of_decide_eq_true second).symm)
  kind_eq := fun first second _ =>
    congrArg Event.kind ((of_decide_eq_true first).trans (of_decide_eq_true second).symm)
  createdAt_eq := fun first second _ =>
    congrArg Event.createdAt ((of_decide_eq_true first).trans (of_decide_eq_true second).symm)
  tags_eq := fun first second _ =>
    congrArg Event.tags ((of_decide_eq_true first).trans (of_decide_eq_true second).symm)

/-- A gate that lets lists of at most the given length pass. -/
def crowdedGate (followCap : Nat) : GateParams :=
  ⟨crowdedVerifier.verify, Kind.contactList, 100, 0, followCap⟩

private theorem crowded_admissible (followCap : Nat) : Admissible crowdedVerifier.verify [crowdedEvent]
    (crowdedGate followCap).wantKind (crowdedGate followCap).now (crowdedGate followCap).futureClampSecs
    sampleAuthor crowdedEvent := by
  refine ⟨List.mem_singleton_self _, by decide, rfl, rfl, ?_⟩
  exact (by decide : (20 : Timestamp) ≤ Timestamp.saturatingAdd 100 0)

/-- The union holds the author's only list, which is over the cap: the author is `not_found`. -/
theorem newest_heeded_fails : Admissible crowdedVerifier.verify [crowdedEvent] (crowdedGate 0).wantKind
      (crowdedGate 0).now (crowdedGate 0).futureClampSecs sampleAuthor crowdedEvent ∧
    ∃ reply after, Runs sql.tracing (processBatch (crowdedGate 0) 3 noOpFallback [Fleet.soleAuthor]
        (.ok [crowdedEvent])).run (claimedRow, []) reply after ∧
      ∃ row, after.1.rows 1 = some row ∧ row.columns.status = .notFound := by
  refine ⟨crowded_admissible 0, ?_⟩
  obtain ⟨reply, after, run⟩ := exists_traced
    (processBatch (crowdedGate 0) 3 noOpFallback [Fleet.soleAuthor] (.ok [crowdedEvent])).run claimedRow
  have disabled : noOpFallback.enabled = false := rfl
  have missing : (crowdedGate 0).listFor [Fleet.soleAuthor] [crowdedEvent] Fleet.soleAuthor = none := by decide
  exact ⟨reply, after, run, processBatch_misses claimedRow_claims (List.mem_singleton_self _) disabled missing
    _ _ run.untraced⟩

/-- The theorem at that list. -/
theorem newest_heeded_iff_crowded : ∃ newest,
    Nip01Winner (Admissible crowdedVerifier.verify [crowdedEvent] Kind.contactList 100 0 sampleAuthor) newest ∧
      ((∀ maxAttempts fallback reply after, Runs sql.tracing (processBatch (crowdedGate 1) maxAttempts
          fallback [Fleet.soleAuthor] (.ok [crowdedEvent])).run (claimedRow, []) reply after →
          Heeded crowdedVerifier 1 newest after) ↔
        (followeeSet newest).card ≤ 1) :=
  newest_heeded_iff rfl claimedRow_claims (List.mem_singleton_self _) rfl (crowded_admissible 1)

end Example

end WotCrawler.Daemon
