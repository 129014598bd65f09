import WotCrawler.Ingest.Gate
import WotCrawler.Relay.Notices

/-! The keys of a relay: the notice consumer takes the parsed url, the fan-out the configured
string, and the write relays come without their trailing slashes. -/

namespace WotCrawler.Daemon

open Ingest Relay

/-- A message of a relay, as far as the notice consumer looks at it. -/
inductive RelayMessage where
  | notice (message : String)
  | closed (message : String)
  | other
deriving DecidableEq

def RelayMessage.text : RelayMessage → Option String
  | .notice message => some message
  | .closed message => some message
  | .other => none

variable {governor : Governor}

/-- One notification of the pool, in the loop of `spawn_notice_consumer`. -/
def consumeNotice (registries : SharedRegistries governor) (draw : Nat → Nat) (relayUrl : RelayUrl)
    (message : RelayMessage) : SharedRegistries governor :=
  match message.text with
  | some text => handleRelayMessage registries draw relayUrl.asStr text
  | none => registries

/-- A `rate-limited` message of a relay counts where the fan-out looks the configured relay up,
which is where its next success clears the count. -/
def RateLimitedReaches (governor : Governor) (relayUrl : RelayUrl) (config : String) : Prop :=
  ∀ (registries : SharedRegistries governor) draw message text, RelayMessage.text message = some text →
    classifyNotice text = .rateLimited →
    (consumeNotice registries draw relayUrl message).health.score config =
        registries.health.next (registries.health.rounding (1 / 5)) (registries.health.score config) ∧
      (consumeNotice registries draw relayUrl message).limits.failureCount config =
        min (registries.limits.failureCount config + 1) (2 ^ 32 - 1) ∧
      ((consumeNotice registries draw relayUrl message).limits.reset config).failureCount relayUrl.asStr = 0

/-- So does a `blocked` message, in the health score alone. -/
def BlockedReaches (governor : Governor) (relayUrl : RelayUrl) (config : String) : Prop :=
  ∀ (registries : SharedRegistries governor) draw message text, RelayMessage.text message = some text →
    classifyNotice text = .blocked →
    (consumeNotice registries draw relayUrl message).health.score config =
      registries.health.next 0 (registries.health.score config)

/-- An `r` tag that denotes the relay is stored under the configured string. -/
def WritesUnder (relayUrl : RelayUrl) (config : String) : Prop :=
  ∀ (event : Event) metadata, Tag.relayMetadata relayUrl metadata ∈ event.tags →
    (config, markerOf metadata) ∈ extractRelayPairs event

/-- Every configured relay that the pool accepts has one key throughout. -/
def OneKey (governor : Governor) (parse : String → Option RelayUrl) (relays : List String) : Prop :=
  ∀ config ∈ relays, ∀ relayUrl, parse config = some relayUrl →
    RateLimitedReaches governor relayUrl config ∧ BlockedReaches governor relayUrl config ∧
      WritesUnder relayUrl config

/-- The configured string is that of its url, and has no trailing slash. -/
def Plain (relayUrl : RelayUrl) (config : String) : Prop :=
  config = relayUrl.asStr ∧ relayUrl.asStr.endsWith "/" = false

variable {relayUrl : RelayUrl} {config : String}

theorem update_score (registry : RelayHealthRegistry) (relay other : String) (sample : Rat) :
    (registry.update relay sample).score other = if other = relay
      then registry.next sample (registry.score relay) else registry.score other := by
  by_cases same : other = relay
  · subst same
    simp [RelayHealthRegistry.update, RelayHealthRegistry.score]
  · simp [RelayHealthRegistry.update, RelayHealthRegistry.score, same]

private theorem rateLimited_reaches : RateLimitedReaches governor relayUrl relayUrl.asStr := by
  intro registries draw message text carried kind
  have health : (consumeNotice registries draw relayUrl message).health =
      registries.health.recordRateLimited relayUrl.asStr := by
    simp only [consumeNotice, carried, handleRelayMessage, kind]
  have limits : (consumeNotice registries draw relayUrl message).limits =
      (registries.limits.recordNotice draw relayUrl.asStr text).2 := by
    simp only [consumeNotice, carried, handleRelayMessage, kind]
  refine ⟨?_, ?_, ?_⟩
  · rw [health, RelayHealthRegistry.recordRateLimited, update_score, if_pos rfl]
  · rw [limits]
    simp [RateLimiterRegistry.recordNotice, kind, RateLimiterRegistry.failureCount]
  · simp [RateLimiterRegistry.reset, RateLimiterRegistry.failureCount]

private theorem blocked_reaches : BlockedReaches governor relayUrl relayUrl.asStr := by
  intro registries draw message text carried kind
  have health : (consumeNotice registries draw relayUrl message).health =
      registries.health.recordConnectFailure relayUrl.asStr := by
    simp only [consumeNotice, carried, handleRelayMessage, kind]
  rw [health, RelayHealthRegistry.recordConnectFailure, update_score, if_pos rfl]

/-- A `rate-limited` message of an unknown relay counts under its parsed url alone. -/
private theorem asStr_of_reaches (reaches : RateLimitedReaches governor relayUrl config) :
    config = relayUrl.asStr := by
  by_contra other
  have kind : classifyNotice slowDown = .rateLimited := by decide
  have counted := (reaches ⟨.withParams 1 0 0, .new .binary64 1⟩ (fun _ => 0) (.notice slowDown) slowDown rfl kind).2.1
  have limits : (consumeNotice (⟨.withParams 1 0 0, .new .binary64 1⟩ : SharedRegistries governor) (fun _ => 0) relayUrl
      (.notice slowDown)).limits.failureCount config = 0 := by
    simp only [consumeNotice, RelayMessage.text, handleRelayMessage, kind, RateLimiterRegistry.recordNotice,
      RateLimiterRegistry.failureCount, Function.update_of_ne other, RateLimiterRegistry.withParams, Option.getD_none]
  rw [limits] at counted
  simp [RateLimiterRegistry.failureCount, RateLimiterRegistry.withParams] at counted

theorem asStrWithoutTrailingSlash_eq_iff (relayUrl : RelayUrl) :
    relayUrl.asStrWithoutTrailingSlash = relayUrl.asStr ↔ relayUrl.asStr.endsWith "/" = false := by
  have trimmed : relayUrl.asStrWithoutTrailingSlash = relayUrl.asStr ↔
      relayUrl.asStr.toList.rdropWhile (· = '/') = relayUrl.asStr.toList := by
    rw [RelayUrl.asStrWithoutTrailingSlash, ← String.toList_inj, String.toList_ofList]
  rw [trimmed, List.rdropWhile_eq_self_iff, ← Bool.not_eq_true]
  have suffix : relayUrl.asStr.endsWith "/" = true ↔ ['/'] <:+ relayUrl.asStr.toList := by
    have slice : relayUrl.asStr.toSlice.endsWith "/" = true ↔ _ := String.Slice.endsWith_string_iff
    simpa using slice
  rw [suffix]
  constructor
  · rintro last ⟨front, whole⟩
    have nonempty : relayUrl.asStr.toList ≠ [] := by simp [← whole]
    have slash := last nonempty
    simp [← whole] at slash
  · intro bare nonempty slash
    refine bare ⟨relayUrl.asStr.toList.dropLast, ?_⟩
    have same : relayUrl.asStr.toList.getLast nonempty = '/' := of_decide_eq_true slash
    rw [← same, List.dropLast_append_getLast]

private theorem writesUnder_iff : WritesUnder relayUrl config ↔ relayUrl.asStrWithoutTrailingSlash = config := by
  constructor
  · intro writes
    have single := writes { sampleEvent 0 0 "" with tags := [.relayMetadata relayUrl none] } none
      (List.mem_singleton_self _)
    have pairs : extractRelayPairs { sampleEvent 0 0 "" with tags := [.relayMetadata relayUrl none] } =
        [(relayUrl.asStrWithoutTrailingSlash, .both)] := rfl
    rw [pairs] at single
    exact (Prod.mk.inj (List.mem_singleton.mp single)).1.symm
  · intro same event metadata tagged
    refine List.mem_map.mpr ⟨(relayUrl, metadata), List.mem_filterMap.mpr ⟨_, tagged, rfl⟩, ?_⟩
    exact congrArg (Prod.mk · (markerOf metadata)) same

/-- One key throughout needs the string of the url, without a trailing slash. -/
theorem OneKey.plain {parse : String → Option RelayUrl} {relays : List String} (oneKey : OneKey governor parse relays)
    (member : config ∈ relays) (parsed : parse config = some relayUrl) : Plain relayUrl config := by
  obtain ⟨reaches, _, writes⟩ := oneKey config member relayUrl parsed
  have same := asStr_of_reaches reaches
  have stripped := writesUnder_iff.mp writes
  exact ⟨same, (asStrWithoutTrailingSlash_eq_iff relayUrl).mp (stripped.trans same)⟩

/-- A relay has one key throughout exactly if its configured string is the one that its parsed url
gives, and has no trailing slash. -/
theorem oneKey_iff (governor : Governor) (parse : String → Option RelayUrl) (relays : List String) :
    OneKey governor parse relays ↔
      ∀ config ∈ relays, ∀ relayUrl, parse config = some relayUrl → Plain relayUrl config := by
  constructor
  · exact fun oneKey config member relayUrl parsed => oneKey.plain member parsed
  · intro plain config member relayUrl parsed
    obtain ⟨rfl, bare⟩ := plain config member relayUrl parsed
    exact ⟨rateLimited_reaches, blocked_reaches,
      writesUnder_iff.mpr ((asStrWithoutTrailingSlash_eq_iff relayUrl).mpr bare)⟩

/-- A relay that is configured with a trailing slash, and the parser there. -/
def hostUrl : RelayUrl := ⟨"wss://host/"⟩

def parseHost (text : String) : Option RelayUrl := if text = hostUrl.asStr then some hostUrl else none

/-- A relay list that names it. -/
private def namesHost : Event := { sampleEvent 0 0 "" with tags := [.relayMetadata hostUrl none] }

/-- It has two keys: its notices count under the one, and write relays are looked up under the other. -/
theorem oneKey_fails : ¬ OneKey gcra parseHost ["wss://host/"] ∧
    extractRelayPairs namesHost = [("wss://host", .both)] ∧
    (consumeNotice unnoticed.registries (fun _ => 0) hostUrl (.notice slowDown)).health.score "wss://host" = 1 ∧
    (consumeNotice unnoticed.registries (fun _ => 0) hostUrl (.notice slowDown)).limits.failureCount "wss://host" = 0 := by
  have trimmed : hostUrl.asStrWithoutTrailingSlash = "wss://host" := by decide
  have kind : classifyNotice slowDown = .rateLimited := by decide
  have apart : "wss://host" ≠ hostUrl.asStr := by decide
  refine ⟨?_, ?_, ?_, ?_⟩
  · intro oneKey
    have parsed : parseHost "wss://host/" = some hostUrl := if_pos rfl
    have writes := writesUnder_iff.mp (oneKey _ (List.mem_singleton_self _) _ parsed).2.2
    rw [trimmed] at writes
    exact absurd writes (by decide)
  · exact congrArg (fun key => [(key, Marker.both)]) trimmed
  · simp only [consumeNotice, RelayMessage.text, handleRelayMessage, kind, RelayHealthRegistry.recordRateLimited,
      update_score, if_neg apart]
    rfl
  · simp only [consumeNotice, RelayMessage.text, handleRelayMessage, kind, RateLimiterRegistry.recordNotice,
      RateLimiterRegistry.failureCount, Function.update_of_ne apart]
    rfl

end WotCrawler.Daemon
