import WotCrawler.Daemon.RelayLists
import WotCrawler.Store.Transition

/-! The arm of a curated miss with the fallback enabled: what becomes of the author's row, what is asked
of the write relays, and what stays as it was. -/

namespace WotCrawler.Daemon

open Effect Store Crawl Ingest

/-- The newest admissible list that the asked relays return, within the cap. -/
def Recovers (verifier : Verifier) (gate : GateParams) (fallback : Fallback) (author : PublicKey)
    (asked : List String) (winner : Event) : Prop :=
  ∃ raw, fallback.fallbackFetch author asked = .ok raw ∧
    Nip01Winner (Admissible verifier.verify raw gate.wantKind gate.now gate.futureClampSecs author) winner ∧
    (followeeSet winner).card ≤ gate.followCap

/-- How the arm ends. -/
def settleMiss (claimed : ClaimedAuthor) (stamp : DateTime) : Option ValidatedFollowList → StoreM Nat
  | some vfl => do
    let _ ← applyValidated vfl
    return 1
  | none => do
    setFetchStatus claimed.id .notFound stamp
    return 0

variable {verifier : Verifier} {gate : GateParams} {fallback : Fallback} {claimed : ClaimedAuthor}
  {author : PublicKey} {event winner : Event} {vfl : ValidatedFollowList} {before after : Database} {id : Nat}

theorem applyStmt_lists {stmt : Stmt} (applies : ApplyStmt vouched stmt) : stmt.lists = none := by
  cases stmt with
  | replaceRelays pubkeyId relays seenAt => cases applies
  | _ => rfl

theorem applyStmt_resets {stmt : Stmt} (applies : ApplyStmt vouched stmt) :
    stmt.resets now columns = false := by
  cases stmt <;> first | rfl | cases applies

/-- The statements that apply a list spend no attempt. -/
theorem applyStmt_attempts {stmt : Stmt} {reply : Except StoreError stmt.Ret} (applies : ApplyStmt vouched stmt)
    (executes : stmt.Executes now locked before reply after) (present : before.rows id = some row) :
    ∃ kept, after.rows id = some kept ∧ kept.columns.fetchAttempts = row.columns.fetchAttempts := by
  obtain ⟨columns, found⟩ := executes.framed.persists id row present
  refine ⟨_, found, ?_⟩
  rcases executes.evolves found with ⟨absent, _⟩ | ⟨old, there, _, moves⟩
  · cases absent.symm.trans present
  · obtain rfl := Option.some.inj (there.symm.trans present)
    cases moves with
    | stay => rfl
    | confirm => rfl
    | apply => rfl
    | stamp => cases applies
    | claim discovered => cases applies
    | requeue few => cases applies
    | reclaim selected =>
      rw [applyStmt_resets applies] at selected
      cases selected

/-- What applying a list has made of the database so far. -/
structure Applying (vfl : ValidatedFollowList) (id : Nat) (before after : Database) : Prop where
  persists : Persists before after
  others : ∀ other, other ≠ id → before.Untouched after other
  fresh : ∀ other row, before.rows other = none → after.rows other = some row →
    row.columns = Columns.default ∧ ∃ followee ∈ vfl.followeePubkeys, followee.bytes = row.pubkey

theorem Applying.refl : Applying vfl id before before where
  persists := .refl before
  others := fun _ _ => ⟨fun _ found => found, fun _ => Iff.rfl⟩
  fresh := by
    intro other row absent found
    cases absent.symm.trans found

theorem Applying.step {stmt : Stmt} {early late : Desk} (keyed : before.keyed id vfl.followerPubkey.bytes)
    (applying : Applying vfl id before early.1) (applies : Applies vfl stmt early late) :
    Applying vfl id before late.1 := by
  have standing := applying.persists.keyed keyed
  have mine (other : Nat) (writes : stmt.outcome = some other) : other = id :=
    Database.keyed_unique (applies.owned other writes).2 standing
  refine ⟨applying.persists.trans applies.framed.persists, ?_, ?_⟩
  · intro other apart
    have untouched : early.1.Untouched late.1 other :=
      applies.framed.untouched applies.single fun writes => apart (mine other writes)
    obtain ⟨rows, edges⟩ := applying.others other apart
    exact ⟨fun row found => untouched.1 row (rows row found),
      fun followee => (untouched.2 followee).trans (edges followee)⟩
  · intro other row absent found
    cases earlier : early.1.rows other with
    | some old =>
      have apart : other ≠ id := by
        rintro rfl
        obtain ⟨columns, present⟩ := keyed
        cases absent.symm.trans present
      have kept := applies.framed.columns applies.single other old earlier fun writes => apart (mine other writes)
      obtain rfl := Option.some.inj (kept.symm.trans found)
      exact applying.fresh other old absent earlier
    | none =>
      obtain ⟨upserts, default⟩ := applies.framed.fresh other row earlier found
      refine ⟨default, ?_⟩
      rcases applies.named row.pubkey upserts with follower | followee
      · have same := Database.keyed_unique (applies.framed.persists.keyed standing)
          (follower ▸ Database.keyed_of_row found)
        subst same
        obtain ⟨columns, present⟩ := standing
        cases earlier.symm.trans present
      · exact followee

/-- No attempt was spent, and no relay list changed. -/
structure Sparing (before after : Database) : Prop where
  attempts : ∀ id row, before.rows id = some row → ∃ kept, after.rows id = some kept ∧
    kept.columns.fetchAttempts = row.columns.fetchAttempts
  relays : after.relays = before.relays

theorem Sparing.step {stmt : Stmt} {reply : Except StoreError stmt.Ret} {between : Database}
    (sparing : Sparing before between) (applies : ApplyStmt vouched stmt)
    (executed : sql.exec stmt between reply after) : Sparing before after := by
  obtain ⟨now, locked, _, executes⟩ := executed
  refine ⟨?_, ?_⟩
  · intro id row found
    obtain ⟨kept, there, same⟩ := sparing.attempts id row found
    obtain ⟨last, present, equal⟩ := applyStmt_attempts applies executes there
    exact ⟨last, present, equal.trans same⟩
  · funext id
    have other : stmt.lists ≠ some id := by simp [applyStmt_lists applies]
    rw [executes.relays_eq other, sparing.relays]

/-- Applying a list to a row that stands under its follower's key. -/
theorem applyValidated_applying (keyed : before.keyed id vfl.followerPubkey.bytes) :
    Must sql (applyValidated vfl).run before fun reply after => (∃ changed, reply = .ok changed) ∧
      Fetched after id ∧ Applying vfl id before after ∧ Sparing before after := by
  intro reply after run
  obtain ⟨ok, applying, row, found, status, _⟩ := applyValidated_alone (Applying vfl id before) keyed .refl
    (fun applies applying => applying.step keyed applies) _ _ run
  have issues : (applyValidated vfl).run.Issues (ApplyStmt fun _ => True) :=
    applyValidated_issues applyStmt_permits trivial fun _ _ => trivial
  have sparing : Sparing before after :=
    issues.preserves run (fun applies executed sparing => sparing.step applies executed)
      ⟨fun id row found => ⟨row, found, rfl⟩, rfl⟩
  exact ⟨ok, ⟨row, found, status⟩, applying, sparing⟩

/-- The urls that a recovery asks, of the write relays it knows. -/
def askedRelays (fallback : Fallback) (author : PublicKey) (writeRelays : List String) : Option (List String) :=
  if writeRelays = [] then none else some (selectRelays fallback author writeRelays)

theorem resolveAuthor_missed (parsed : PublicKey.fromSlice claimed.pubkey = some author)
    (missed : byAuthor author = none) (enabled : fallback.enabled = true) :
    resolveAuthor gate fallback stamp byAuthor claimed = (do
      let writeRelays ← knownRelays gate fallback claimed author
      settleMiss claimed stamp (recoverFrom gate fallback author writeRelays)) := by
  unfold resolveAuthor
  simp only [parsed, missed, enabled, if_true]
  rw [fallbackRecover_eq, Prog.except_bind_assoc]
  congr 1

section Asked

variable {writeRelays : List String} (looked : Looked gate fallback claimed author before writeRelays after)

include looked

theorem Looked.asked_isSome : (askedRelays fallback author writeRelays).isSome ↔
    ∃ row ∈ after.relays claimed.id, row.writes := by
  unfold askedRelays
  split
  · rename_i empty
    simp only [Option.isSome_none, Bool.false_eq_true, false_iff]
    intro ⟨row, member, writes⟩
    have known := (looked.stored row.url).mpr ⟨row, member, rfl, writes⟩
    simp [empty] at known
  · rename_i inhabited
    obtain ⟨url, known⟩ := List.exists_mem_of_ne_nil _ inhabited
    obtain ⟨row, member, _, writes⟩ := (looked.stored url).mp known
    simp only [Option.isSome_some, true_iff]
    exact ⟨row, member, writes⟩

theorem Looked.asked_stored (asked : urls ∈ askedRelays fallback author writeRelays) :
    urls.length ≤ fallback.maxWriteRelays ∧ ∀ url ∈ urls, ∃ row ∈ after.relays claimed.id, row.url = url ∧ row.writes := by
  unfold askedRelays at asked
  split at asked
  · cases asked
  · obtain rfl := Option.some.inj asked
    refine ⟨List.length_take_le _ _, ?_⟩
    intro url selected
    have known : url ∈ writeRelays := (List.perm_insertionSort _ writeRelays).mem_iff.mp (List.mem_of_mem_take selected)
    exact (looked.stored url).mp known

/-- Only the author's list may change, to that of an event it was asked for. -/
theorem Looked.relays_changed (verified : gate.verify = verifier.verify) (changed : after.relays id ≠ before.relays id) :
    id = claimed.id ∧ ∃ raw event, fallback.relayListFetch author = .ok raw ∧
      Admissible verifier.verify raw Kind.relayList gate.now gate.futureClampSecs author event ∧
      after.relays id = listedRows event := by
  rw [looked.relays] at changed ⊢
  cases persists : persistedEvent gate fallback before claimed author with
  | none => exact absurd (by rw [persists]; rfl) changed
  | some event =>
    rw [persists] at changed
    obtain ⟨raw, fetched, admissible⟩ := resolvedEvent_spec verified (resolvedEvent_of_persisted persists)
    by_cases own : id = claimed.id
    · subst own
      exact ⟨rfl, raw, event, fetched, admissible, by simp [relisted]⟩
    · exact absurd (Function.update_of_ne own ..) changed

end Asked

theorem recoverFrom_eq_some (verified : gate.verify = verifier.verify)
    (found : recoverFrom gate fallback author writeRelays = some vfl) :
    ∃ urls ∈ askedRelays fallback author writeRelays, ∃ winner followees,
      Recovers verifier gate fallback author urls winner ∧ winner.pubkey = author ∧
      followeePubkeys winner gate.followCap = some followees ∧ vfl = .fromEvent winner followees := by
  unfold recoverFrom at found
  split at found
  · cases found
  · rename_i known
    obtain ⟨raw, winner, followees, fetched, wins, owner, extracted, made⟩ := recovered_eq_some verified found
    exact ⟨_, by simp [askedRelays, known], winner, followees,
      ⟨raw, fetched, wins, (followeePubkeys_spec extracted).2.2⟩, owner, extracted, made⟩

theorem recoverFrom_eq_none (verified : gate.verify = verifier.verify)
    (nothing : recoverFrom gate fallback author writeRelays = none) :
    ¬ ∃ urls ∈ askedRelays fallback author writeRelays, ∃ winner, Recovers verifier gate fallback author urls winner := by
  intro ⟨urls, asked, winner, raw, fetched, wins, small⟩
  unfold recoverFrom at nothing
  unfold askedRelays at asked
  split at nothing
  · rename_i empty
    simp [empty] at asked
  · rename_i known
    rw [if_neg known] at asked
    obtain rfl := Option.some.inj asked
    have found := recovered_isSome verified fetched wins small
    simp [nothing] at found

section Example

/-- The write relays return the author's list, and the curated relays none. -/
def answering : Fallback where
  enabled := true
  maxWriteRelays := 1
  score := fun _ _ => 0
  fallbackFetch := fun _ _ => .ok [newerEvent]
  relayListFetch := fun _ => .error (.fetchTimeout "wss://curated")

theorem answering_recovers (urls : List String) :
    Recovers versionsVerifier versionsGate answering sampleAuthor urls newerEvent := by
  refine ⟨[newerEvent], rfl, ⟨⟨by simp, by decide, rfl, rfl, by decide⟩, ?_⟩, by decide⟩
  intro event admissible
  exact .inl (congrArg Event.id (List.mem_singleton.mp admissible.1))

end Example

end WotCrawler.Daemon
