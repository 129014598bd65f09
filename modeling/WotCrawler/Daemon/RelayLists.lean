import WotCrawler.Daemon.Recovery
import WotCrawler.Store.Relays

/-! Which write relays a recovery knows, and which relay list stays stored when one author is
recovered again and again: the one persisted last, which need not be the newest. -/

namespace WotCrawler.Daemon

open Effect Store Crawl Ingest

/-- The event whose relay list `resolve_relay_list` returns. -/
def resolvedEvent (gate : GateParams) (fallback : Fallback) (author : PublicKey) : Option Event :=
  match fallback.relayListFetch author with
  | .error _ => none
  | .ok raw => pickWinner (acceptedEvents gate.verify raw Kind.relayList {author}) gate.now gate.futureClampSecs

/-- The event that a recovery persists. It looks for none while a write relay is stored. -/
def persistedEvent (gate : GateParams) (fallback : Fallback) (db : Database) (claimed : ClaimedAuthor)
    (author : PublicKey) : Option Event :=
  if ∃ row ∈ db.relays claimed.id, row.writes then none else resolvedEvent gate fallback author

/-- The rows of an event's relay list. -/
def listedRows (event : Event) : List RelayRow :=
  relayRows (extractRelayPairs event) (timestampToDatetime event.createdAt)

/-- The same rows, which a table holds in no order. -/
def SameRows (left right : List RelayRow) : Prop := ∀ row, row ∈ left ↔ row ∈ right

/-- The relay lists once an event of one pubkey was persisted, if there was one. -/
def relisted (relays : Nat → List RelayRow) (id : Nat) : Option Event → Nat → List RelayRow
  | none => relays
  | some event => Function.update relays id (listedRows event)

/-- The recoveries of one author, one after another, with the events they persisted. Between them
any statement may run that does not replace the author's relay list. -/
inductive Recoveries (verifier : Verifier) (author : PublicKey) (id : Nat) : List Event → Database → Prop where
  | start (keyed : db.keyed id author.bytes) (unlisted : db.relays id = []) : Recoveries verifier author id [] db
  | recover (run : Recoveries verifier author id persisted before) (same : claimed.id = id)
      (verified : gate.verify = verifier.verify)
      (recovered : Runs sql (fallbackRecover gate fallback claimed author).run before reply after) :
      Recoveries verifier author id
        (persisted ++ (persistedEvent gate fallback before claimed author).toList) after
  | other (run : Recoveries verifier author id persisted before) (elsewhere : stmt.lists ≠ some id)
      (executed : sql.exec stmt before reply after) : Recoveries verifier author id persisted after

variable {verifier : Verifier} {gate : GateParams} {fallback : Fallback} {claimed : ClaimedAuthor}
  {author : PublicKey} {event winner : Event} {persisted : List Event} {db before after : Database} {id : Nat}

/-- What looking for the write relays leaves: at most the author's own relay list is replaced. -/
structure Looked (gate : GateParams) (fallback : Fallback) (claimed : ClaimedAuthor) (author : PublicKey)
    (before : Database) (writeRelays : List String) (after : Database) : Prop where
  rows : after.rows = before.rows
  follows : after.follows = before.follows
  relays : after.relays =
    relisted before.relays claimed.id (persistedEvent gate fallback before claimed author)
  stored : ∀ url, url ∈ writeRelays ↔ ∃ row ∈ after.relays claimed.id, row.url = url ∧ row.writes

theorem resolveWriteRelays_of_none (nothing : resolvedEvent gate fallback author = none) :
    resolveWriteRelays gate fallback claimed author = lookupWriteRelays claimed.id := by
  unfold resolvedEvent at nothing
  unfold resolveWriteRelays
  cases fetched : fallback.relayListFetch author with
  | error error => rfl
  | ok raw =>
    simp only [fetched] at nothing
    simp only [resolveRelayList, nothing]
    rfl

theorem resolveWriteRelays_of_some (found : resolvedEvent gate fallback author = some event) :
    resolveWriteRelays gate fallback claimed author = (do
      let pubkeyId ← upsertPubkey author.bytes
      applyRelayList pubkeyId (extractRelayPairs event) (timestampToDatetime event.createdAt)
      let persisted ← lookupWriteRelays pubkeyId
      if persisted = [] then lookupWriteRelays claimed.id else return persisted) := by
  unfold resolvedEvent at found
  unfold resolveWriteRelays
  cases fetched : fallback.relayListFetch author with
  | error error =>
    simp only [fetched] at found
    cases found
  | ok raw =>
    simp only [fetched] at found
    simp only [resolveRelayList, found]
    rfl

private theorem lookup_looked (nothing : persistedEvent gate fallback before claimed author = none) :
    Must sql (lookupWriteRelays claimed.id).run before fun reply after =>
      ∃ writeRelays, reply = .ok writeRelays ∧ Looked gate fallback claimed author before writeRelays after := by
  refine (lookupWriteRelays_must before claimed.id).mono ?_
  intro reply after ⟨same, urls, answered, _, listed⟩
  subst same
  exact ⟨urls, answered, rfl, rfl, by rw [nothing]; rfl, listed⟩

private theorem resolve_looked (keyed : before.keyed claimed.id author.bytes)
    (unlisted : ¬ ∃ row ∈ before.relays claimed.id, row.writes) :
    Must sql (resolveWriteRelays gate fallback claimed author).run before fun reply after =>
      ∃ writeRelays, reply = .ok writeRelays ∧ Looked gate fallback claimed author before writeRelays after := by
  have persists : persistedEvent gate fallback before claimed author = resolvedEvent gate fallback author :=
    if_neg unlisted
  cases found : resolvedEvent gate fallback author with
  | none =>
    rw [resolveWriteRelays_of_none found]
    exact lookup_looked (persists.trans found)
  | some event =>
    rw [resolveWriteRelays_of_some found]
    refine (upsertPubkey_keyed keyed).except_bind ?_ (by simp)
    intro pubkeyId upserted ⟨same, rows, follows, relays⟩
    obtain rfl := Except.ok.inj same
    have present : (upserted.rows claimed.id).isSome := by
      obtain ⟨columns, stands⟩ := keyed
      simp [rows, stands]
    refine (applyRelayList_must present _ _).except_bind ?_ (by simp)
    intro _ stored ⟨_, storedRows, storedFollows, replaced⟩
    have list : stored.relays =
        relisted before.relays claimed.id (persistedEvent gate fallback before claimed author) := by
      rw [replaced, relays, persists, found]
      rfl
    refine (lookupWriteRelays_must stored claimed.id).except_bind ?_ (by simp)
    intro urls after ⟨unchanged, _, answered, _, listed⟩
    subst unchanged
    obtain rfl := Except.ok.inj answered
    have looked : Looked gate fallback claimed author before urls after :=
      ⟨storedRows.trans rows, storedFollows.trans follows, list, listed⟩
    split
    · refine (lookupWriteRelays_must after claimed.id).mono ?_
      intro reply final ⟨kept, others, again, _, relisted⟩
      subst kept
      exact ⟨others, again, looked.rows, looked.follows, looked.relays, relisted⟩
    · exact must_ret.mpr ⟨urls, rfl, looked⟩

/-- The first half of a recovery cannot fail, and knows the write relays that are stored then. -/
theorem knownRelays_must (keyed : before.keyed claimed.id author.bytes) :
    Must sql (knownRelays gate fallback claimed author).run before fun reply after =>
      ∃ writeRelays, reply = .ok writeRelays ∧ Looked gate fallback claimed author before writeRelays after := by
  unfold knownRelays
  refine (lookupWriteRelays_must before claimed.id).except_bind ?_ (by simp)
  intro stored between ⟨unchanged, _, answered, _, listed⟩
  subst unchanged
  obtain rfl := Except.ok.inj answered
  split
  · rename_i empty
    apply resolve_looked keyed
    intro ⟨row, member, writes⟩
    have known := (listed row.url).mpr ⟨row, member, rfl, writes⟩
    simp [empty] at known
  · rename_i inhabited
    obtain ⟨url, known⟩ := List.exists_mem_of_ne_nil _ inhabited
    obtain ⟨row, member, _, writes⟩ := (listed url).mp known
    have nothing : persistedEvent gate fallback between claimed author = none := if_pos ⟨row, member, writes⟩
    exact must_ret.mpr ⟨stored, rfl, rfl, rfl, by rw [nothing]; rfl, listed⟩

/-- So for a whole recovery. -/
theorem fallbackRecover_relays (keyed : before.keyed claimed.id author.bytes) :
    Must sql (fallbackRecover gate fallback claimed author).run before fun _ after => after.rows = before.rows ∧
      after.relays = relisted before.relays claimed.id (persistedEvent gate fallback before claimed author) := by
  rw [fallbackRecover_eq]
  refine (knownRelays_must keyed).except_bind ?_ (by simp)
  intro _ after ⟨_, _, looked⟩
  exact must_ret.mpr ⟨looked.rows, looked.relays⟩

/-- What is persisted is a verified relay list of the author, received and not dated past the clamp. -/
theorem resolvedEvent_spec (verified : gate.verify = verifier.verify)
    (found : resolvedEvent gate fallback author = some event) : ∃ raw, fallback.relayListFetch author = .ok raw ∧
      Admissible verifier.verify raw Kind.relayList gate.now gate.futureClampSecs author event := by
  unfold resolvedEvent at found
  split at found
  · cases found
  · rename_i raw fetched
    obtain ⟨⟨kept, inTime⟩, _⟩ := pickWinner_spec found
    rw [verified] at kept
    obtain ⟨received, genuine, kind, solicited⟩ := mem_of_mem_acceptedEvents verifier raw Kind.relayList {author} kept
    exact ⟨raw, fetched, received, genuine, Finset.mem_singleton.mp solicited, kind, inTime⟩

theorem resolvedEvent_of_persisted (found : persistedEvent gate fallback db claimed author = some event) :
    resolvedEvent gate fallback author = some event := by
  unfold persistedEvent at found
  split at found
  · cases found
  · exact found

/-- The list that stands once these were persisted: that of the last. -/
def lastListed (persisted : List Event) : List RelayRow := (persisted.getLast?.map listedRows).getD []

theorem relisted_lastListed (relays : Nat → List RelayRow) (stands : relays id = lastListed persisted)
    (next : Option Event) : relisted relays id next id = lastListed (persisted ++ next.toList) := by
  cases next with
  | none => simpa [relisted] using stands
  | some event => simp [relisted, lastListed]

/-- The stored list is that of the event persisted last. -/
theorem Recoveries.stands (run : Recoveries verifier author id persisted db) :
    db.keyed id author.bytes ∧ db.relays id = lastListed persisted := by
  induction run with
  | start keyed unlisted => exact ⟨keyed, unlisted⟩
  | recover run same verified recovered ih =>
    subst same
    obtain ⟨rows, relays⟩ := fallbackRecover_relays ih.1 _ _ recovered
    refine ⟨?_, ?_⟩
    · simpa [Database.keyed, rows] using ih.1
    · rw [relays]
      exact relisted_lastListed _ ih.2 _
  | other run elsewhere executed ih =>
    obtain ⟨now, locked, _, executes⟩ := executed
    exact ⟨executes.framed.persists.keyed ih.1, (executes.relays_eq elsewhere).trans ih.2⟩

/-- Every event persisted is a verified relay list of the author. -/
theorem Recoveries.genuine (run : Recoveries verifier author id persisted db) :
    ∀ event ∈ persisted, verifier.verify event = true ∧ event.kind = Kind.relayList ∧ event.pubkey = author := by
  induction run with
  | start keyed unlisted => simp
  | @recover persisted before claimed gate fallback reply after run same verified recovered ih =>
    intro event member
    cases List.mem_append.mp member with
    | inl old => exact ih event old
    | inr new =>
      have found := resolvedEvent_of_persisted (Option.mem_toList.mp new)
      obtain ⟨_, _, _, verified, owner, kind, _⟩ := resolvedEvent_spec verified found
      exact ⟨verified, kind, owner⟩
  | other run elsewhere executed ih => exact ih

/-- After every sequence of recoveries the newest relay list persisted is the one stored exactly where
the event persisted last lists the same. -/
theorem relay_list_newest_iff (run : Recoveries verifier author id persisted db)
    (wins : Nip01Winner (fun event => event ∈ persisted) winner) :
    SameRows (db.relays id) (listedRows winner) ↔
      ∃ last, persisted.getLast? = some last ∧ SameRows (listedRows last) (listedRows winner) := by
  have inhabited : persisted ≠ [] := List.ne_nil_of_mem wins.member
  have last := List.getLast?_eq_some_getLast inhabited
  rw [run.stands.2]
  simp [lastListed, last]

section Example

/-- A relay list without a write relay. -/
private def newerList : Event :=
  { newerEvent with kind := Kind.relayList, tags := [.relayMetadata ⟨"wss://inbox"⟩ (some .read)] }

/-- The version before it, which a stale relay still returns. -/
private def olderList : Event :=
  { olderEvent with kind := Kind.relayList, tags := [.relayMetadata ⟨"wss://outbox"⟩ (some .write)] }

private theorem lists_eq {left right : Event} (first : left ∈ [newerList, olderList])
    (second : right ∈ [newerList, olderList]) (same : left.id = right.id) : left = right := by
  have distinct : ([newerList, olderList].map Event.id).Nodup := by decide
  exact List.inj_on_of_nodup_map distinct first second same

private def listVerifier : Verifier where
  verify := fun event => event ∈ [newerList, olderList]
  pubkey_eq := fun first second same =>
    congrArg Event.pubkey (lists_eq (of_decide_eq_true first) (of_decide_eq_true second) same)
  kind_eq := fun first second same =>
    congrArg Event.kind (lists_eq (of_decide_eq_true first) (of_decide_eq_true second) same)
  createdAt_eq := fun first second same =>
    congrArg Event.createdAt (lists_eq (of_decide_eq_true first) (of_decide_eq_true second) same)
  tags_eq := fun first second same =>
    congrArg Event.tags (lists_eq (of_decide_eq_true first) (of_decide_eq_true second) same)

private def listGate : GateParams := { versionsGate with verify := listVerifier.verify }

/-- The curated relays return one version, and no write relay returns anything. -/
private def returning (event : Event) : Fallback where
  enabled := true
  maxWriteRelays := 1
  score := fun _ _ => 0
  fallbackFetch := fun _ _ => .ok []
  relayListFetch := fun _ => .ok [event]

private theorem Recoveries.extend (run : Recoveries listVerifier sampleAuthor 1 persisted before) (event : Event)
    (unwritten : ∀ row ∈ lastListed persisted, ¬ row.writes)
    (found : resolvedEvent listGate (returning event) sampleAuthor = some event) :
    ∃ after, Recoveries listVerifier sampleAuthor 1 (persisted ++ [event]) after := by
  obtain ⟨reply, after, recovered, -⟩ := May.of_total sql_total
    (fallbackRecover listGate (returning event) Fleet.soleAuthor sampleAuthor).run before
  have next := run.recover rfl rfl recovered
  have unlisted : ¬ ∃ row ∈ before.relays Fleet.soleAuthor.id, row.writes := by
    intro ⟨row, member, writes⟩
    exact unwritten row (run.stands.2 ▸ member) writes
  have persists : persistedEvent listGate (returning event) before Fleet.soleAuthor sampleAuthor = some event :=
    (if_neg unlisted).trans found
  rw [persists] at next
  exact ⟨after, next⟩

private theorem lists_recovered : ∃ db, Recoveries listVerifier sampleAuthor 1 [newerList, olderList] db := by
  have start : Recoveries listVerifier sampleAuthor 1 [] claimedRow := .start ⟨_, rfl⟩ rfl
  obtain ⟨between, first⟩ := start.extend newerList (by simp [lastListed]) rfl
  have unwritten : ∀ row ∈ lastListed ([] ++ [newerList]), ¬ row.writes := by
    simp [lastListed, listedRows, relayRows, extractRelayPairs, extractRelayList, newerList, Sequence.keepFirst,
      markerOf, RelayRow.writes]
  exact first.extend olderList unwritten rfl

private theorem newerList_wins : Nip01Winner (fun event => event ∈ [newerList, olderList]) newerList := by
  refine ⟨by simp, ?_⟩
  intro event member
  rcases List.mem_pair.mp member with rfl | rfl
  · exact .inl rfl
  · exact .inr (.inl (by decide))

private theorem lists_differ : ¬ SameRows (listedRows olderList) (listedRows newerList) := by
  intro same
  have stale := same ⟨(RelayUrl.mk "wss://outbox").asStrWithoutTrailingSlash, .write, timestampToDatetime olderList.createdAt⟩
  simp [listedRows, relayRows, extractRelayPairs, extractRelayList, newerList, olderList, Sequence.keepFirst, markerOf]
    at stale

/-- The newest list has no write relay, so the author is resolved again, and a stale relay answers. -/
theorem stale_list_stored : ¬ ∀ (verifier : Verifier) (author : PublicKey) (id : Nat) (persisted : List Event)
    (db : Database) (winner : Event), Recoveries verifier author id persisted db →
    Nip01Winner (fun event => event ∈ persisted) winner → SameRows (db.relays id) (listedRows winner) := by
  intro newest
  obtain ⟨db, run⟩ := lists_recovered
  have stored := newest _ _ _ _ _ _ run newerList_wins
  rw [run.stands.2] at stored
  exact lists_differ (by simpa [lastListed] using stored)

/-- The theorem at that run. -/
theorem relay_list_newest_pair : ∃ db, Recoveries listVerifier sampleAuthor 1 [newerList, olderList] db ∧
    (SameRows (db.relays 1) (listedRows newerList) ↔
      ∃ last, [newerList, olderList].getLast? = some last ∧ SameRows (listedRows last) (listedRows newerList)) := by
  obtain ⟨db, run⟩ := lists_recovered
  exact ⟨db, run, relay_list_newest_iff run newerList_wins⟩

end Example

end WotCrawler.Daemon
