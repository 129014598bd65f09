import WotCrawler.Crawl.Apply
import WotCrawler.Relay.Health

/-! The daemon's fetch of one batch: every curated relay in turn, unless the health gate skips it. -/

namespace WotCrawler.Daemon

open Crawl Ingest Relay Store

/-- A complete fetch that was made in a relay's turn: for which authors, which relays answered a
request for an author, and what came back. -/
structure Query where
  relay : String
  authors : List PublicKey
  answered : PublicKey → List String
  outcome : Except RelayError (List Event)

/-- What the fan-out meets besides the relays: the time of each visit, and what other batches
and the notice consumer make of the shared registry before it. -/
structure Surroundings where
  clock : Nat → Instant
  others : Nat → RelayHealthRegistry → RelayHealthRegistry

/-- The relays at each visit: the window cap they advertise, the complete fetch through the
admission gate, which relays of the pool answer a request for an author, and how long it took. The
requests go to the whole pool, and one that no relay answers comes back empty. -/
structure Network where
  maxLimit : Nat → String → Nat
  fetchComplete : Nat → String → List PublicKey → Nat → Except RelayError (List Event)
  answers : Nat → PublicKey → List String
  latency : Nat → Duration

structure FanOut where
  outcome : Except RelayError (List Event)
  registry : RelayHealthRegistry
  queries : List Query

/-- The loop over the curated relays. The first error ends it; a skipped relay adds nothing. -/
def visitRelays (threshold : Rat) (around : Surroundings) (network : Network) (authors : List PublicKey) :
    Nat → List String → RelayHealthRegistry → FanOut
  | _, [], registry => ⟨.ok [], registry, []⟩
  | visit, relay :: rest, registry =>
    match (around.others visit registry).tryMarkAttempt relay threshold (around.clock visit) with
    | (false, skipped) => visitRelays threshold around network authors (visit + 1) rest skipped
    | (true, marked) =>
      let outcome := network.fetchComplete visit relay authors (network.maxLimit visit relay)
      let recorded := marked.recordFetchHealth relay (network.latency visit) outcome
      match outcome with
      | .error error => ⟨.error error, recorded, [⟨relay, authors, network.answers visit, outcome⟩]⟩
      | .ok events =>
        let union := visitRelays threshold around network authors (visit + 1) rest recorded
        ⟨union.outcome.map (events ++ ·), union.registry,
          ⟨relay, authors, network.answers visit, outcome⟩ :: union.queries⟩

/-- The `fetch_union` closure of the daemon. -/
def fetchUnion (threshold : Rat) (around : Surroundings) (network : Network) (relays : List String)
    (registry : RelayHealthRegistry) (batch : List ClaimedAuthor) : FanOut :=
  let authors := requestedAuthors batch
  if authors = [] then ⟨.ok [], registry, []⟩
  else visitRelays threshold around network authors 0 relays registry

/-- A curated relay answers a request for the author, in the turn of one that the gate lets through.
The fetches of the turns before it came back. -/
def answerHeard (threshold : Rat) (around : Surroundings) (network : Network) (curated : List String) (author : PublicKey) :
    Nat → List String → RelayHealthRegistry → Bool
  | _, [], _ => false
  | visit, relay :: rest, registry =>
    let here := around.others visit registry
    if here.routeAllowed relay threshold (around.clock visit) then
      curated.any (· ∈ network.answers visit author) ||
        answerHeard threshold around network curated author (visit + 1) rest
          ((here.markAttempt relay (around.clock visit)).recordSuccess relay (network.latency visit))
    else answerHeard threshold around network curated author (visit + 1) rest here

variable {threshold : Rat} {around : Surroundings} {network : Network} {authors : List PublicKey}
  {relays : List String} {registry : RelayHealthRegistry} {visit : Nat}

/-- A relay the gate skips leaves the registry as it was. -/
theorem visitRelays_skip
    (skips : (around.others visit registry).routeAllowed relay threshold (around.clock visit) = false) :
    visitRelays threshold around network authors visit (relay :: rest) registry =
      visitRelays threshold around network authors (visit + 1) rest (around.others visit registry) := by
  rw [visitRelays, RelayHealthRegistry.tryMarkAttempt_eq, skips]
  rfl

/-- A relay that the gate lets through and that errs ends the loop. -/
theorem visitRelays_error
    (allowed : (around.others visit registry).routeAllowed relay threshold (around.clock visit) = true)
    (erred : network.fetchComplete visit relay authors (network.maxLimit visit relay) = .error error) :
    (visitRelays threshold around network authors visit (relay :: rest) registry).outcome = .error error := by
  rw [visitRelays, RelayHealthRegistry.tryMarkAttempt_eq, allowed]
  simp only [if_true, erred]

/-- One that answers adds its events to those of the rest. -/
theorem visitRelays_ok
    (allowed : (around.others visit registry).routeAllowed relay threshold (around.clock visit) = true)
    (answered : network.fetchComplete visit relay authors (network.maxLimit visit relay) = .ok events) :
    (visitRelays threshold around network authors visit (relay :: rest) registry).outcome =
      (visitRelays threshold around network authors (visit + 1) rest
        (((around.others visit registry).markAttempt relay (around.clock visit)).recordSuccess relay
          (network.latency visit))).outcome.map (events ++ ·) := by
  rw [visitRelays, RelayHealthRegistry.tryMarkAttempt_eq, allowed]
  simp only [if_true, answered, RelayHealthRegistry.recordFetchHealth]

/-- Every query is for the authors of the batch. -/
theorem visitRelays_authors {query : Query}
    (queried : query ∈ (visitRelays threshold around network authors visit relays registry).queries) :
    query.authors = authors := by
  induction relays generalizing visit registry with
  | nil => cases queried
  | cons relay rest ih =>
    cases allowed : (around.others visit registry).routeAllowed relay threshold (around.clock visit) with
    | false =>
      rw [visitRelays_skip allowed] at queried
      exact ih queried
    | true =>
      rw [visitRelays, RelayHealthRegistry.tryMarkAttempt_eq, allowed] at queried
      simp only [if_true] at queried
      split at queried
      · obtain rfl := List.mem_singleton.mp queried
        rfl
      · rcases List.mem_cons.mp queried with rfl | later
        · rfl
        · exact ih later

/-- The same relays, as they answer and as fast, where the fetches come back so. -/
def Network.returning (network : Network) (maxLimit : Nat → String → Nat)
    (fetchComplete : Nat → String → List PublicKey → Nat → Except RelayError (List Event)) : Network :=
  { network with maxLimit := maxLimit, fetchComplete := fetchComplete }

variable {maxLimit : Nat → String → Nat} {curated : List String} {author : PublicKey}
  {fetchComplete : Nat → String → List PublicKey → Nat → Except RelayError (List Event)}

private theorem exists_of_map_ok {result : Except ε α} {change : α → β} (mapped : result.map change = .ok value) :
    ∃ before, result = .ok before := by
  cases result with
  | error error => cases mapped
  | ok before => exact ⟨before, rfl⟩

/-- Whatever the fetches of a fan-out that succeeds came back with, a curated relay answered one of
them exactly if an answer is heard. -/
theorem visitRelays_answered
    (succeeded : (visitRelays threshold around (network.returning maxLimit fetchComplete) authors visit relays
      registry).outcome = .ok union) :
    (∃ query ∈ (visitRelays threshold around (network.returning maxLimit fetchComplete) authors visit relays
        registry).queries, query.authors = authors ∧ (∃ events, query.outcome = .ok events) ∧
        ∃ relay ∈ curated, relay ∈ query.answered author) ↔
      answerHeard threshold around network curated author visit relays registry = true := by
  induction relays generalizing visit registry union with
  | nil => simp [visitRelays, answerHeard]
  | cons relay rest ih =>
    cases allowed : (around.others visit registry).routeAllowed relay threshold (around.clock visit) with
    | false =>
      rw [visitRelays_skip allowed] at succeeded ⊢
      rw [ih succeeded, answerHeard]
      simp only [allowed, Bool.false_eq_true, if_false]
    | true =>
      rw [visitRelays, RelayHealthRegistry.tryMarkAttempt_eq, allowed] at succeeded ⊢
      simp only [if_true] at succeeded ⊢
      split at succeeded
      · cases succeeded
      · -- the turn itself, or one of the later turns
        rename_i events fetched
        obtain ⟨later, came⟩ := exists_of_map_ok succeeded
        have tail := ih came
        rw [fetched] at tail
        simp only [fetched, List.exists_mem_cons_iff, answerHeard, allowed, if_true, Bool.or_eq_true, List.any_eq_true,
          decide_eq_true_eq]
        refine or_congr ⟨fun turn => turn.2.2, fun answered => ⟨?_, ⟨events, rfl⟩, answered⟩⟩ tail
        trivial

/-- Fetches that come back empty make an empty union. -/
theorem visitRelays_empty : (visitRelays threshold around (network.returning maxLimit fun _ _ _ _ => .ok []) authors visit
    relays registry).outcome = .ok [] := by
  induction relays generalizing visit registry with
  | nil => rfl
  | cons relay rest ih =>
    cases allowed : (around.others visit registry).routeAllowed relay threshold (around.clock visit) with
    | false => rw [visitRelays_skip allowed, ih]
    | true =>
      rw [visitRelays_ok allowed rfl, ih]
      rfl

end WotCrawler.Daemon
