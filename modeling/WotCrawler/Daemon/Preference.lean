import WotCrawler.Crawl.Apply
import WotCrawler.Daemon.Fallback
import WotCrawler.Relay.Notices
import WotCrawler.Sequence.Precedence

/-! The order in which a fallback prefers write relays. Its own fetches record no health, so that
what a write relay did before has no say in it. -/

namespace WotCrawler.Daemon

open Crawl Ingest Relay Sequence

/-- A fetch that a fallback made, and how long it took. -/
structure RelayCall where
  relay : String
  outcome : Except RelayError (List Event)
  latency : Duration

/-- The shared registry of health, and the fetches that went through the fallback's closures. -/
structure RelayHistory where
  registry : RelayHealthRegistry
  calls : List RelayCall

/-- `fetch_complete_with_timeout` behind `admit_per_relay`: neither records the outcome. -/
def askRelay (answers : Nat → String → Except RelayError (List Event) × Duration) :
    RelayFetch (StateM RelayHistory) := fun visit relay _ _ history =>
  let (outcome, latency) := answers visit relay
  (outcome, { history with calls := history.calls ++ [⟨relay, outcome, latency⟩] })

namespace RelayHistory

def fresh (alpha : Rat) : RelayHistory := ⟨.new .binary64 alpha, []⟩

def withRegistry (history : RelayHistory) (registry : RelayHealthRegistry) : RelayHistory :=
  { history with registry := registry }

/-- A call of `fallback_fetch`. -/
def fallback (history : RelayHistory) (answers : Nat → String → Except RelayError (List Event) × Duration)
    (author : PublicKey) (writeRelays : List String) : RelayHistory :=
  (fallbackFetch (askRelay answers) author writeRelays history).2

/-- A call of `relay_list_fetch`. -/
def relayList (history : RelayHistory) (answers : Nat → String → Except RelayError (List Event) × Duration)
    (curated : List String) (author : PublicKey) : RelayHistory :=
  (relayListFetch (askRelay answers) curated author history).2

end RelayHistory

/-- The steps of a daemon: the fan-out decides an attempt of a curated relay and records its
outcome, a notice of some relay is handled, and the fallback's closures are called. -/
inductive HistoryStep (governor : Governor) (curated : List String) (noticed : String → Prop)
    (history : RelayHistory) : RelayHistory → Prop where
  | attempt (listed : relay ∈ curated) (threshold : Rat) (now : Instant) :
      HistoryStep governor curated noticed history
        (history.withRegistry (history.registry.tryMarkAttempt relay threshold now).2)
  | record (listed : relay ∈ curated) (latency : Duration) (outcome : Except RelayError (List Event)) :
      HistoryStep governor curated noticed history
        (history.withRegistry (history.registry.recordFetchHealth relay latency outcome))
  | notice (limits : RateLimiterRegistry governor) (draw : Nat → Nat) (named : noticed relay) (text : String) :
      HistoryStep governor curated noticed history
        (history.withRegistry (handleRelayMessage ⟨limits, history.registry⟩ draw relay text).health)
  | fallback (answers : Nat → String → Except RelayError (List Event) × Duration) (author : PublicKey)
      (writeRelays : List String) :
      HistoryStep governor curated noticed history (history.fallback answers author writeRelays)
  | relayList (answers : Nat → String → Except RelayError (List Event) × Duration) (author : PublicKey) :
      HistoryStep governor curated noticed history (history.relayList answers curated author)

/-- Every fetch of one relay failed, every fetch of the other succeeded at once, and there are such. -/
structure Evidence (calls : List RelayCall) (failing working : String) : Prop where
  tried : ∃ call ∈ calls, call.relay = failing
  failed : ∀ call ∈ calls, call.relay = failing → ∃ error, call.outcome = .error error
  worked : ∃ call ∈ calls, call.relay = working
  answered : ∀ call ∈ calls, call.relay = working → call.latency = 0 ∧ ∃ events, call.outcome = .ok events

/-- The order of an author's write relays, of which the first ones are selected. -/
def rankRelays (fallback : Fallback) (author : PublicKey) (writeRelays : List String) : List String :=
  writeRelays.insertionSort (fun a b => fallback.score author b ≤ fallback.score author a)

/-- The failing relay is not placed ahead of the working one, nor selected while that is left out. -/
def Prefers (fallback : Fallback) (author : PublicKey) (writeRelays : List String) (failing working : String) : Prop :=
  ¬ [failing, working].Sublist (rankRelays fallback author writeRelays) ∧
    ¬ (failing ∈ selectRelays fallback author writeRelays ∧ working ∉ selectRelays fallback author writeRelays)

theorem Evidence.ne (evidence : Evidence calls failing working) : failing ≠ working := by
  rintro rfl
  obtain ⟨call, member, same⟩ := evidence.tried
  obtain ⟨error, failed⟩ := evidence.failed call member same
  obtain ⟨_, events, answered⟩ := evidence.answered call member same
  rw [failed] at answered
  cases answered

variable {governor : Governor} {curated : List String} {noticed : String → Prop} {history after : RelayHistory}
  {answers : Nat → String → Except RelayError (List Event) × Duration} {relay : String}

/-- The loop of the fallback's closures leaves every score as it was. -/
theorem fetchEach_registry (authors : List PublicKey) (kind : Kind) (union : List Event) (visit : Nat)
    (relays : List String) (history : RelayHistory) :
    (fetchEach (fun visit relay => askRelay answers visit relay authors kind) union visit relays history).2.registry =
      history.registry := by
  induction relays generalizing union visit history with
  | nil => rfl
  | cons relay rest ih =>
    rw [fetchEach]
    simp only [bind, StateT.bind, askRelay]
    cases answered : (answers visit relay).1 with
    | error error => rfl
    | ok events => exact ih (union ++ events) (visit + 1) _

theorem score_notice_of_ne (registries : SharedRegistries governor) (draw : Nat → Nat) (apart : relay ≠ other)
    (text : String) : (handleRelayMessage registries draw other text).health.score relay =
      registries.health.score relay := by
  unfold handleRelayMessage
  split
  · exact RelayHealthRegistry.score_update_of_ne apart
  · exact RelayHealthRegistry.score_update_of_ne apart
  · rfl

/-- A relay that is not curated and not noticed keeps its score, whatever the fallbacks meet. -/
theorem HistoryStep.score (step : HistoryStep governor curated noticed history after) (uncurated : relay ∉ curated)
    (unnoticed : ¬ noticed relay) : after.registry.score relay = history.registry.score relay := by
  cases step with
  | attempt listed threshold now => exact RelayHealthRegistry.score_tryMarkAttempt
  | record listed latency outcome =>
    exact RelayHealthRegistry.score_recordFetchHealth_of_ne (ne_of_mem_of_not_mem listed uncurated).symm latency outcome
  | notice limits draw named text =>
    apply score_notice_of_ne
    rintro rfl
    exact unnoticed named
  | fallback answers author writeRelays =>
    rw [RelayHistory.fallback, fallbackFetch, fetchEach_registry]
  | relayList answers author =>
    rw [RelayHistory.relayList, relayListFetch, fetchEach_registry]

/-- Such a relay is taken for healthy after every history. -/
theorem score_of_history (run : Relation.ReflTransGen (HistoryStep governor curated noticed) (.fresh alpha) history)
    (uncurated : relay ∉ curated) (unnoticed : ¬ noticed relay) : history.registry.score relay = 1 := by
  induction run with
  | refl => rfl
  | tail _ step ih => exact (step.score uncurated unnoticed).trans ih

variable {fallback : Fallback} {author : PublicKey} {writeRelays : List String} {failing working : String}

theorem rankRelays_nodup (distinct : writeRelays.Nodup) : (rankRelays fallback author writeRelays).Nodup :=
  (List.perm_insertionSort _ writeRelays).nodup_iff.mpr distinct

/-- The sort is stable: relays of one score stay in the order in which the store returned them. -/
theorem rankRelays_stable (level : fallback.score author failing = fallback.score author working)
    (order : [failing, working].Sublist writeRelays) :
    [failing, working].Sublist (rankRelays fallback author writeRelays) := by
  unfold rankRelays
  exact List.pair_sublist_insertionSort level.symm.le order

/-- After every history that tells two write relays apart, the fallback prefers the one that works
exactly where the store returned it first. -/
theorem prefers_working_iff
    (run : Relation.ReflTransGen (HistoryStep governor curated noticed) (.fresh alpha) history)
    (evidence : Evidence history.calls failing working)
    (uncurated : failing ∉ curated ∧ working ∉ curated) (unnoticed : ¬ noticed failing ∧ ¬ noticed working)
    (reads : fallback.score author failing = history.registry.score failing ∧
      fallback.score author working = history.registry.score working)
    (distinct : writeRelays.Nodup) (stored : failing ∈ writeRelays ∧ working ∈ writeRelays) :
    Prefers fallback author writeRelays failing working ↔ [working, failing].Sublist writeRelays := by
  have level : fallback.score author failing = fallback.score author working := by
    rw [reads.1, reads.2, score_of_history run uncurated.1 unnoticed.1, score_of_history run uncurated.2 unnoticed.2]
  constructor
  · intro prefers
    rcases pair_total evidence.ne stored.1 stored.2 with behind | ahead
    · exact absurd (rankRelays_stable level behind) prefers.1
    · exact ahead
  · intro ahead
    have nodup : (rankRelays fallback author writeRelays).Nodup := rankRelays_nodup distinct
    have ranked := rankRelays_stable level.symm ahead
    refine ⟨not_pair_swap nodup ranked, ?_⟩
    rintro ⟨selected, left⟩
    exact left (mem_take_of_pair nodup ranked selected)

section Example

/-- One relay is down, and every other answers at once. -/
private def answersButOne (_visit : Nat) (relay : String) : Except RelayError (List Event) × Duration :=
  if relay = "wss://down" then (.error (.fetchTimeout "down"), defaultFetchTimeout) else (.ok [], 0)

/-- Two fallbacks, one for each relay. -/
private def heard : RelayHistory :=
  ((RelayHistory.fresh 1).fallback answersButOne sampleAuthor ["wss://down"]).fallback answersButOne sampleAuthor
    ["wss://up"]

private theorem heard_calls : heard.calls =
    [⟨"wss://down", .error (.fetchTimeout "down"), defaultFetchTimeout⟩, ⟨"wss://up", .ok [], 0⟩] := rfl

private theorem heard_run :
    Relation.ReflTransGen (HistoryStep gcra [] fun _ => False) (.fresh 1) heard :=
  (Relation.ReflTransGen.single (.fallback answersButOne sampleAuthor ["wss://down"])).tail
    (.fallback answersButOne sampleAuthor ["wss://up"])

private theorem heard_evidence : Evidence heard.calls "wss://down" "wss://up" := by
  rw [heard_calls]
  constructor <;> simp

/-- The fallback of a later author, which takes one write relay. -/
private def laterFallback : Fallback where
  enabled := true
  maxWriteRelays := 1
  score := fun _ => heard.registry.score
  fallbackFetch := fun _ _ => .ok []
  relayListFetch := fun _ => .ok []

/-- The relay that works is preferred where it is stored first. -/
theorem prefers_working_stored : Prefers laterFallback sampleAuthor ["wss://up", "wss://down"] "wss://down" "wss://up" :=
  (prefers_working_iff heard_run heard_evidence ⟨List.not_mem_nil, List.not_mem_nil⟩ ⟨not_false, not_false⟩ ⟨rfl, rfl⟩
    (by simp) (by simp)).mpr (List.Sublist.refl _)

/-- Where it is stored last, the relay that is down is selected and the one that works is left out. -/
theorem prefers_failing : ¬ ∀ (history : RelayHistory) (fallback : Fallback) (writeRelays : List String)
    (failing working : String),
    Relation.ReflTransGen (HistoryStep gcra [] fun _ => False) (.fresh 1) history →
    Evidence history.calls failing working → fallback.score = (fun _ => history.registry.score) →
    writeRelays.Nodup → failing ∈ writeRelays → working ∈ writeRelays →
    Prefers fallback sampleAuthor writeRelays failing working := by
  intro prefers
  have both := prefers heard laterFallback ["wss://down", "wss://up"] "wss://down" "wss://up" heard_run heard_evidence rfl
    (by simp) (by simp) (by simp)
  have healthy (relay : String) : laterFallback.score sampleAuthor relay = 1 := by
    have uncurated : relay ∉ ([] : List String) := List.not_mem_nil
    exact score_of_history heard_run uncurated not_false
  exact both.1 (rankRelays_stable ((healthy "wss://down").trans (healthy "wss://up").symm) (List.Sublist.refl _))

end Example

end WotCrawler.Daemon
