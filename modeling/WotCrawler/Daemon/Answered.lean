import WotCrawler.Crawl.Fencing
import WotCrawler.Crawl.Statements
import WotCrawler.Daemon.FanOut

/-! What a `not_found` stamp of the daemon says: when some relay answered, and when none was asked,
or none of those that were asked. -/

namespace WotCrawler.Daemon

open Effect Store Crawl Ingest Relay

variable {threshold : Rat} {around : Surroundings} {network : Network} {relays : List String}
  {registry : RelayHealthRegistry} {batch : List ClaimedAuthor}

/-- An author stamped `not_found` was asked for, the fetch came back, and a curated relay answered. -/
def StampsAnswered (fanOut : FanOut) (relays : List String) (batch : List ClaimedAuthor)
    (issued : List Stmt) : Prop :=
  ∀ claimed ∈ batch, ∀ ts, Stmt.updateStatus claimed.id .notFound ts ∈ issued →
    ∃ author, PublicKey.fromSlice claimed.pubkey = some author ∧
      ∃ query ∈ fanOut.queries, author ∈ query.authors ∧ (∃ events, query.outcome = .ok events) ∧
        ∃ relay ∈ relays, relay ∈ query.answered author

/-- Whatever the fetches come back with, and whatever the fallback finds, every run of a batch stamps
`not_found` only after an answer. Which relays answer, and how fast, is that of the network. -/
def NotFoundAnswered (threshold : Rat) (around : Surroundings) (network : Network) (relays : List String)
    (registry : RelayHealthRegistry) (batch : List ClaimedAuthor) : Prop :=
  ∀ maxLimit fetchComplete gate maxAttempts fallback db reply left,
    Runs sql.recording (processBatch gate maxAttempts fallback batch
      (fetchUnion threshold around (network.returning maxLimit fetchComplete) relays registry batch).outcome).run
      (db, []) reply left →
    StampsAnswered (fetchUnion threshold around (network.returning maxLimit fetchComplete) relays registry batch)
      relays batch left.2

private theorem resolveAuthor_missing (claimed : ClaimedAuthor) :
    resolveAuthor Fleet.plainGate noOpFallback 0 (fun _ => none) claimed = (do
      setFetchStatus claimed.id .notFound 0
      return 0) := by
  unfold resolveAuthor
  split <;> rfl

/-- Without lists and fallback every author is stamped. -/
private theorem resolveAll_stamps (batch : List ClaimedAuthor) (applied : Nat) (db : Database)
    (issued : List Stmt) :
    May sql.recording (resolveAll Fleet.plainGate noOpFallback 0 (fun _ => none) applied batch).run
      (db, issued) (fun _ left => issued ⊆ left.2 ∧
        ∀ claimed ∈ batch, Stmt.updateStatus claimed.id .notFound 0 ∈ left.2) := by
  induction batch generalizing applied db issued with
  | nil => exact may_ret.mpr ⟨List.Subset.refl issued, fun _ member => by cases member⟩
  | cons claimed rest ih =>
    have stamped : Stmt.Executes 0 ∅ (.updateStatus claimed.id .notFound 0) db (.ok ())
      (db.updateRow claimed.id (Columns.setStatus .notFound 0)) := ⟨rfl, rfl⟩
    unfold resolveAll
    rw [resolveAuthor_missing]
    refine may_call.mpr ⟨.ok (), (_, _), ⟨⟨0, ∅, trivial, stamped⟩, rfl⟩, ?_⟩
    apply (ih (applied + 0) _ _).mono
    rintro result left ⟨kept, listed⟩
    refine ⟨fun stmt member => kept (List.mem_append_left _ member), ?_⟩
    intro other member
    cases List.mem_cons.mp member with
    | inl head => exact head ▸ kept (List.mem_append_right _ (List.mem_singleton_self _))
    | inr tail => exact listed other tail

/-- Relays that all answer that they have nothing leave every author of the batch stamped. -/
private theorem processBatch_empty_stamps (nonempty : batch ≠ []) : ∃ reply left,
    Runs sql.recording (processBatch Fleet.plainGate 0 noOpFallback batch (.ok [])).run
      (Database.empty, []) reply left ∧
      ∀ claimed ∈ batch, Stmt.updateStatus claimed.id .notFound 0 ∈ left.2 := by
  obtain ⟨reply, left, run, _, listed⟩ := resolveAll_stamps batch 0 Database.empty []
  refine ⟨reply, left, ?_, listed⟩
  unfold processBatch
  rw [if_neg nonempty]
  exact run

/-- Every fetch comes back empty. -/
private def Network.empty (network : Network) : Network := network.returning (fun _ _ => 0) fun _ _ _ _ => .ok []

private theorem fetchUnion_empty (threshold : Rat) (around : Surroundings) (network : Network) (relays : List String)
    (registry : RelayHealthRegistry) (batch : List ClaimedAuthor) :
    (fetchUnion threshold around network.empty relays registry batch).outcome = .ok [] := by
  unfold fetchUnion
  dsimp only
  split
  · rfl
  · exact visitRelays_empty

/-- A curated relay answered a query exactly if an answer is heard. -/
private theorem fetchUnion_answered {author : PublicKey} (requested : author ∈ requestedAuthors batch)
    {maxLimit : Nat → String → Nat}
    {fetchComplete : Nat → String → List PublicKey → Nat → Except RelayError (List Event)}
    (succeeded : (fetchUnion threshold around (network.returning maxLimit fetchComplete) relays registry batch).outcome =
      .ok union) :
    (∃ query ∈ (fetchUnion threshold around (network.returning maxLimit fetchComplete) relays registry batch).queries,
        query.authors = requestedAuthors batch ∧ (∃ events, query.outcome = .ok events) ∧
        ∃ relay ∈ relays, relay ∈ query.answered author) ↔
      answerHeard threshold around network relays author 0 relays registry = true := by
  unfold fetchUnion at succeeded ⊢
  dsimp only at succeeded ⊢
  rw [if_neg (List.ne_nil_of_mem requested)] at succeeded ⊢
  exact visitRelays_answered succeeded

/-- The authors of every query are those of the batch. -/
private theorem fetchUnion_authors {query : Query}
    (queried : query ∈ (fetchUnion threshold around network relays registry batch).queries) :
    query.authors = requestedAuthors batch := by
  unfold fetchUnion at queried
  dsimp only at queried
  split at queried
  · cases queried
  · exact visitRelays_authors queried

/-- Where every fetch comes back empty all authors are stamped, so an answer is heard for each. -/
private theorem heard_of_answered (answered : NotFoundAnswered threshold around network relays registry batch)
    (member : claimed ∈ batch) : ∃ author, PublicKey.fromSlice claimed.pubkey = some author ∧
      answerHeard threshold around network relays author 0 relays registry = true := by
  obtain ⟨reply, left, run, stamped⟩ := processBatch_empty_stamps (List.ne_nil_of_mem member)
  have empty := fetchUnion_empty threshold around network relays registry batch
  rw [← empty] at run
  obtain ⟨author, parsed, query, queried, asked, came, relay⟩ :=
    answered (fun _ _ => 0) (fun _ _ _ _ => .ok []) Fleet.plainGate 0 noOpFallback Database.empty reply left run claimed
      member 0 (stamped claimed member)
  have requested : author ∈ requestedAuthors batch := List.mem_filterMap.mpr ⟨claimed, member, parsed⟩
  exact ⟨author, parsed, (fetchUnion_answered requested empty).mp
    ⟨query, queried, fetchUnion_authors queried, came, relay⟩⟩

/-- The daemon's `not_found` means that a relay answered exactly when, for every author of the batch, the key is well
formed and a curated relay answers a request for it in the turn of one that the health gate lets through. -/
theorem notFoundAnswered_iff :
    NotFoundAnswered threshold around network relays registry batch ↔
      ∀ claimed ∈ batch, ∃ author, PublicKey.fromSlice claimed.pubkey = some author ∧
        answerHeard threshold around network relays author 0 relays registry = true := by
  constructor
  · exact fun answered claimed member => heard_of_answered answered member
  · intro condition maxLimit fetchComplete gate maxAttempts fallback db reply left run claimed member ts stamped
    obtain ⟨author, parsed, hears⟩ := condition claimed member
    have requested : author ∈ requestedAuthors batch := List.mem_filterMap.mpr ⟨claimed, member, parsed⟩
    refine ⟨author, parsed, ?_⟩
    cases fetched : (fetchUnion threshold around (network.returning maxLimit fetchComplete) relays registry
        batch).outcome with
    | error error =>
      -- an error of the union stamps nothing
      rw [fetched] at run
      cases (processBatch_error_issues gate maxAttempts fallback batch error).recorded run _ stamped with
      | inl earlier => cases earlier
      | inr requeues =>
        obtain ⟨_, _, _, same⟩ := requeues
        cases same
    | ok union =>
      obtain ⟨query, queried, asked, came, relay⟩ := (fetchUnion_answered requested fetched).mpr hears
      exact ⟨query, queried, asked ▸ requested, came, relay⟩

section Example

/-- One curated relay that failed a second ago. -/
private def outage : RelayHealthRegistry :=
  ((RelayHealthRegistry.new .binary64 1).recordConnectFailure "wss://relay").markAttempt "wss://relay" 0

private def aSecondLater : Surroundings := ⟨fun _ => secs 1, fun _ registry => registry⟩

/-- Its network, where it answers everything, or is out of reach. -/
private def reachable (answers : List String) : Network := ⟨fun _ _ => 500, fun _ _ _ _ => .ok [], fun _ _ => answers, fun _ => 0⟩

/-- A claimed author turns into a `not_found` row where every curated relay is skipped, although it would answer, and
where it is asked and does not answer. -/
theorem notFoundAnswered_fails :
    ¬ NotFoundAnswered (1 / 4) aSecondLater (reachable ["wss://relay"]) ["wss://relay"] outage
        [⟨1, sampleAuthor.bytes⟩] ∧
      ¬ NotFoundAnswered (1 / 4) aSecondLater (reachable []) ["wss://relay"] (.new .binary64 1)
        [⟨1, sampleAuthor.bytes⟩] := by
  have skipped : answerHeard (1 / 4) aSecondLater (reachable ["wss://relay"]) ["wss://relay"] sampleAuthor 0 ["wss://relay"]
      outage = false := by
    decide +kernel
  have silent : answerHeard (1 / 4) aSecondLater (reachable []) ["wss://relay"] sampleAuthor 0 ["wss://relay"]
      (.new .binary64 1) = false := by
    decide +kernel
  have parsed : PublicKey.fromSlice sampleAuthor.bytes = some sampleAuthor := rfl
  refine ⟨?_, ?_⟩
  · intro answered
    obtain ⟨author, same, hears⟩ := heard_of_answered answered (List.mem_singleton_self _)
    obtain rfl := Option.some.inj (parsed.symm.trans same)
    rw [skipped] at hears
    cases hears
  · intro answered
    obtain ⟨author, same, hears⟩ := heard_of_answered answered (List.mem_singleton_self _)
    obtain rfl := Option.some.inj (parsed.symm.trans same)
    rw [silent] at hears
    cases hears

end Example

end WotCrawler.Daemon
