import WotCrawler.Crawl.NewestWins
import WotCrawler.Ingest.RelayList
import WotCrawler.Relay.Pagination

/-! The clock skew that the future clamp allows, end to end: pagination starts at the present, so a
list dated later is out of its reach, whatever the clamp. -/

namespace WotCrawler.Daemon

open Effect Effect.Prog Sequence Ingest Relay Crawl

/-- `acquire_validated_lists` over the pagination of one chunk. -/
def acquireChunk {sig : Signature} (gate : GateParams) (requested : Finset PublicKey)
    (timestampNow : Prog sig Timestamp) (authors : List PublicKey) (cap : Nat)
    (fetch : Filter → Prog sig (Except RelayError (List Event))) :
    Prog sig (Except RelayError (List ValidatedFollowList)) := do
  let fetched ← paginateChunk timestampNow authors gate.wantKind cap fetch
  return gate.acquire requested fetched

/-- The stored events of an author that the gate would admit. -/
abbrev Stored (verifier : Verifier) (gate : GateParams) (pool : EventSet) (author : PublicKey) : Event → Prop :=
  Admissible verifier.verify pool.events.toList gate.wantKind gate.now gate.futureClampSecs author

/-- A list is that of the winner among some events, within the cap. -/
def Emits (gate : GateParams) (admissible : Event → Prop) (list : ValidatedFollowList) : Prop :=
  ∃ winner followees, Nip01Winner admissible winner ∧ followeePubkeys winner gate.followCap = some followees ∧
    list = .fromEvent winner followees

/-- The author's list is that of the newest event the relay stores within the clamp. -/
def Tolerates (verifier : Verifier) (gate : GateParams) (pool : EventSet) (author : PublicKey)
    (lists : List ValidatedFollowList) : Prop :=
  ∀ list, list.followerPubkey = author → (list ∈ lists ↔ Emits gate (Stored verifier gate pool author) list)

/-- The newest event within the clamp is dated by the start of the pagination, unless it and the
newest that is are both over the cap. -/
def InReach (verifier : Verifier) (gate : GateParams) (pool : EventSet) (author : PublicKey)
    (first : Timestamp) : Prop :=
  ∀ winner, Nip01Winner (Stored verifier gate pool author) winner → winner.createdAt ≤ first ∨
    (gate.followCap < (followeeSet winner).card ∧
      ∀ earlier, Nip01Winner (Stored verifier gate (pool.upTo first) author) earlier →
        gate.followCap < (followeeSet earlier).card)

section Reach

variable {verifier : Verifier} {gate : GateParams} {pool : EventSet} {author : PublicKey} {first : Timestamp}
  {event winner : Event}

theorem stored_upTo_iff : Stored verifier gate (pool.upTo first) author event ↔
    Stored verifier gate pool author event ∧ event.createdAt ≤ first := by
  simp only [Stored, Admissible, Finset.mem_toList, EventSet.upTo, mem_upTo]
  tauto

theorem mem_of_stored (stored : Stored verifier gate pool author event) : event ∈ pool.events :=
  Finset.mem_toList.mp stored.1

/-- An event dated by the start that wins within the clamp wins among those dated by the start. -/
theorem winner_upTo (wins : Nip01Winner (Stored verifier gate pool author) winner)
    (dated : winner.createdAt ≤ first) :
    Nip01Winner (Stored verifier gate (pool.upTo first) author) winner := by
  refine ⟨stored_upTo_iff.mpr ⟨wins.member, dated⟩, ?_⟩
  intro event early
  exact wins.wins event (stored_upTo_iff.mp early).1

/-- What the relay stores by the start stands for what it stores within the clamp exactly where the
winner is in reach. -/
theorem emits_upTo_iff : (∀ list, list.followerPubkey = author →
      (Emits gate (Stored verifier gate (pool.upTo first) author) list ↔
        Emits gate (Stored verifier gate pool author) list)) ↔
    InReach verifier gate pool author first := by
  constructor
  · intro same winner wins
    by_cases dated : winner.createdAt ≤ first
    · exact .inl dated
    · refine .inr ⟨?_, ?_⟩
      · by_contra within
        obtain ⟨followees, extracted⟩ := followeePubkeys_isSome (not_lt.mp within)
        have owner : winner.pubkey = author := wins.member.2.2.1
        obtain ⟨earlier, _, early, _, made⟩ := (same _ owner).mpr ⟨winner, followees, wins, extracted, rfl⟩
        obtain ⟨stored, older⟩ := stored_upTo_iff.mp early.member
        have ids : winner.id = earlier.id := congrArg ValidatedFollowList.eventId made
        have copy := pool.distinct _ (mem_of_stored wins.member) _ (mem_of_stored stored) ids
        exact dated (copy ▸ older)
      · intro earlier early
        by_contra within
        obtain ⟨followees, extracted⟩ := followeePubkeys_isSome (not_lt.mp within)
        obtain ⟨stored, older⟩ := stored_upTo_iff.mp early.member
        have owner : earlier.pubkey = author := stored.2.2.1
        obtain ⟨newest, _, newestWins, _, made⟩ := (same _ owner).mp ⟨earlier, followees, early, extracted, rfl⟩
        have ids : earlier.id = winner.id :=
          (congrArg ValidatedFollowList.eventId made).trans (newestWins.id_eq wins)
        have copy := pool.distinct _ (mem_of_stored stored) _ (mem_of_stored wins.member) ids
        exact dated (copy ▸ older)
  · intro reach list owner
    constructor
    · intro ⟨earlier, followees, early, extracted, made⟩
      obtain ⟨stored, _⟩ := stored_upTo_iff.mp early.member
      obtain ⟨winner, wins⟩ := exists_winner verifier _ _ _ _ stored
      rcases reach winner wins with dated | ⟨_, large⟩
      · have ids := early.id_eq (winner_upTo wins dated)
        obtain rfl := pool.distinct _ (mem_of_stored stored) _ (mem_of_stored wins.member) ids
        exact ⟨earlier, followees, wins, extracted, made⟩
      · exact absurd (followeePubkeys_spec extracted).2.2 (not_le.mpr (large earlier early))
    · intro ⟨winner, followees, wins, extracted, made⟩
      rcases reach winner wins with dated | ⟨large, _⟩
      · exact ⟨winner, followees, winner_upTo wins dated, extracted, made⟩
      · exact absurd (followeePubkeys_spec extracted).2.2 (not_le.mpr large)

/-- Lists that emit what the relay stores by the start tolerate the skew exactly within reach. -/
theorem tolerates_iff_inReach {lists : List ValidatedFollowList}
    (emits : ∀ list, list.followerPubkey = author →
      (list ∈ lists ↔ Emits gate (Stored verifier gate (pool.upTo first) author) list)) :
    Tolerates verifier gate pool author lists ↔ InReach verifier gate pool author first := by
  rw [← emits_upTo_iff]
  constructor
  · intro tolerates list owner
    exact (emits list owner).symm.trans (tolerates list owner)
  · intro same list owner
    exact (emits list owner).trans (same list owner)

/-- A sparse pool has room in every window. -/
theorem one_le_of_sparse {pool : Finset Event} (sparse : Sparse pool cap) : 1 ≤ cap :=
  Nat.one_le_of_lt (sparse 0)

variable {machine : Machine sig State} {fetch : Filter → Prog sig (Except RelayError (List Event))}
  {authors : List PublicKey} {cap : Nat} {requested : Finset PublicKey}

/-- An `Ok` result emits for a requested author what the relay stores by the start. -/
theorem acquireChunk_emits {timestampNow : Prog sig Timestamp} {state : State}
    (verified : gate.verify = verifier.verify) (positive : 1 ≤ cap)
    (started : Must machine timestampNow state (fun now _ => now = first))
    (honest : HonestRelay machine fetch pool.events authors gate.wantKind cap) :
    Must machine (acquireChunk gate requested timestampNow authors cap fetch) state (fun result _ =>
      ∀ lists, result = .ok lists → ∀ author ∈ requested, ∀ list, list.followerPubkey = author →
        (list ∈ lists ↔
          Emits gate (Stored verifier gate (pool.upTo first) author) list)) := by
  have paged : Must machine (paginateChunk timestampNow authors gate.wantKind cap fetch) state (fun result _ =>
      (∀ out, result = .ok out → Complete (pool.upTo first).events out) ∧ _) :=
    paginateChunk_upTo positive first started (fun event early => (mem_upTo.mp early).2) (honest.upTo_first first)
  rw [acquireChunk, must_bind]
  refine paged.mono ?_
  intro fetched between held
  obtain ⟨complete, _⟩ := held
  rw [pure_eq, must_ret]
  intro lists acquired author solicited list owner
  cases fetched with
  | error error => cases acquired
  | ok out =>
    obtain rfl := Except.ok.inj acquired
    have whole := (complete out rfl).2
    have same : Admissible verifier.verify out gate.wantKind gate.now gate.futureClampSecs author =
        Stored verifier gate (pool.upTo first) author := by
      apply admissible_congr
      intro event _
      rw [whole, Finset.mem_toList]
    rw [verified, mem_ingestEvents_iff]
    constructor
    · intro emitted
      obtain ⟨winner, followees, _, wins, extracted, made⟩ := emitted
      obtain rfl : winner.pubkey = author := by simpa [made, ValidatedFollowList.fromEvent] using owner
      exact ⟨winner, followees, same ▸ wins, extracted, made⟩
    · intro emits
      obtain ⟨winner, followees, wins, extracted, made⟩ := emits
      obtain rfl : winner.pubkey = author := by simpa [made, ValidatedFollowList.fromEvent] using owner
      exact ⟨winner, followees, solicited, same ▸ wins, extracted, made⟩

theorem sparse_upTo (sparse : Sparse pool.events cap) (first : Timestamp) : Sparse (pool.upTo first).events cap := by
  intro second
  have inside : tied (pool.upTo first).events Event.createdAt second ⊆ tied pool.events Event.createdAt second :=
    Finset.filter_subset_filter _ (Finset.filter_subset _ _)
  exact (Finset.card_le_card inside).trans_lt (sparse second)

/-- On a sparse relay, whose events span fewer seconds than the page budget, some run returns `Ok`. -/
theorem acquireChunk_returns {timestampNow : Prog sig Timestamp} {state : State} (sparse : Sparse pool.events cap)
    (clock : May machine timestampNow state (fun _ _ => True))
    (started : Must machine timestampNow state (fun now _ => now = first))
    (honest : HonestRelay machine fetch pool.events authors gate.wantKind cap)
    (few : ((pool.upTo first).events.image Event.createdAt).card ≤ maxPagesPerChunk - 1) :
    May machine (acquireChunk gate requested timestampNow authors cap fetch) state (fun result _ =>
      ∃ lists, result = .ok lists) := by
  have paged := paginateChunk_upTo (one_le_of_sparse sparse) first started
    (fun event (early : event ∈ (pool.upTo first).events) => (mem_upTo.mp early).2) (honest.upTo_first first)
  rw [acquireChunk, may_bind]
  refine ((paginateChunk_returns clock honest.answers).and_must paged).mono ?_
  intro fetched between ⟨_, _, okIff⟩
  obtain ⟨out, rfl⟩ := (okIff few).mpr (sparse_upTo sparse first)
  rw [pure_eq, may_ret]
  exact ⟨_, rfl⟩

/-- The clock skew that the clamp allows is tolerated exactly where the winner is in reach. -/
theorem skew_tolerated_iff {timestampNow : Prog sig Timestamp} {state : State}
    (verified : gate.verify = verifier.verify) (sparse : Sparse pool.events cap)
    (started : Must machine timestampNow state (fun now _ => now = first))
    (honest : HonestRelay machine fetch pool.events authors gate.wantKind cap) :
    Must machine (acquireChunk gate requested timestampNow authors cap fetch) state (fun result _ =>
      ∀ lists, result = .ok lists → ∀ author ∈ requested,
        (Tolerates verifier gate pool author lists ↔ InReach verifier gate pool author first)) := by
  refine (acquireChunk_emits verified (one_le_of_sparse sparse) started honest).mono ?_
  intro result after emits lists done author solicited
  exact tolerates_iff_inReach (emits lists done author solicited)

end Reach

section Example

/-- A relay with a list dated ten seconds ahead of the crawler's clock, and the version before it. -/
private def aheadStore : RelayStore := ⟨"wss://relay.example", {newerEvent, olderEvent}⟩

private def aheadPool : ClientPool := ⟨[aheadStore], by decide⟩

private def aheadEvents : EventSet := ⟨aheadStore.chunkEvents [sampleAuthor] Kind.contactList, by decide⟩

private def slowClock : Nat → Timestamp := fun _ => 10

/-- The daemon's gate at that clock. -/
private def clampGate : GateParams := ⟨versionsVerifier.verify, Kind.contactList, 10, 3600, 10000⟩

private theorem ahead_honest : HonestRelay (poolNet aheadPool slowClock) (clientFetch defaultFetchTimeout)
    aheadEvents.events [sampleAuthor] clampGate.wantKind 3 := honestRelay_of_single rfl _ _ _ _ _

private theorem ahead_sparse : Sparse aheadEvents.events 3 := by
  intro second
  have few : aheadEvents.events.card = 2 := by decide
  have size := Finset.card_filter_le aheadEvents.events (fun event => event.createdAt = second)
  unfold tied
  omega

private theorem ahead_started : Must (poolNet aheadPool slowClock) timestampNow 0 (fun now _ => now = 10) :=
  must_timestampNow.mpr rfl

private theorem ahead_returns : May (poolNet aheadPool slowClock)
    (acquireChunk clampGate {sampleAuthor} timestampNow [sampleAuthor] 3 (clientFetch defaultFetchTimeout)) 0
    (fun result _ => ∃ lists, result = .ok lists) :=
  acquireChunk_returns ahead_sparse (may_timestampNow.mpr trivial) ahead_started ahead_honest (by decide)

private theorem newer_wins : Nip01Winner (Stored versionsVerifier clampGate aheadEvents sampleAuthor) newerEvent := by
  refine ⟨⟨Finset.mem_toList.mpr (by decide), by decide, rfl, rfl, by decide⟩, ?_⟩
  intro event stored
  have member : event = newerEvent ∨ event = olderEvent := by
    simpa [aheadStore] using (Finset.mem_filter.mp (mem_of_stored stored)).1
  rcases member with rfl | rfl
  · exact .inl rfl
  · exact .inr (.inl (by decide))

private theorem newer_out_of_reach : ¬ InReach versionsVerifier clampGate aheadEvents sampleAuthor 10 := by
  intro reach
  rcases reach newerEvent newer_wins with dated | ⟨large, _⟩
  · exact absurd dated (by decide)
  · exact absurd large (by decide)

/-- The list within the clamp is never asked for: the version before it is emitted instead. -/
theorem skew_ignored : ¬ ∀ (pool : ClientPool) (clock : Nat → Timestamp) (events : EventSet) (gate : GateParams)
    (author : PublicKey) (cap : Nat),
    HonestRelay (poolNet pool clock) (clientFetch defaultFetchTimeout) events.events [author] gate.wantKind cap →
    Sparse events.events cap → gate.verify = versionsVerifier.verify → gate.now ≤ clock 0 →
    Must (poolNet pool clock)
      (acquireChunk gate {author} timestampNow [author] cap (clientFetch defaultFetchTimeout)) 0
      (fun result _ => ∀ lists, result = .ok lists → Tolerates versionsVerifier gate events author lists) := by
  intro tolerant
  obtain ⟨result, after, run, lists, done⟩ := ahead_returns
  have tolerates := tolerant _ _ _ _ _ _ ahead_honest ahead_sparse rfl (le_refl 10) result after run lists done
  have emits := acquireChunk_emits rfl (by decide) ahead_started ahead_honest result after run lists done sampleAuthor
    (Finset.mem_singleton_self _)
  exact newer_out_of_reach ((tolerates_iff_inReach emits).mp tolerates)

/-- The theorem at that relay. -/
theorem skew_tolerated_ahead : May (poolNet aheadPool slowClock)
    (acquireChunk clampGate {sampleAuthor} timestampNow [sampleAuthor] 3 (clientFetch defaultFetchTimeout)) 0
    (fun result _ => ∃ lists, result = .ok lists ∧
      (Tolerates versionsVerifier clampGate aheadEvents sampleAuthor lists ↔
        InReach versionsVerifier clampGate aheadEvents sampleAuthor 10)) := by
  refine (ahead_returns.and_must (skew_tolerated_iff rfl ahead_sparse ahead_started ahead_honest)).mono ?_
  intro result _ ⟨⟨lists, done⟩, exactly⟩
  exact ⟨lists, done, exactly lists done sampleAuthor (Finset.mem_singleton_self _)⟩

end Example

end WotCrawler.Daemon
