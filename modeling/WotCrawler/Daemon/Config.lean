import WotCrawler.Crawl.Driver
import WotCrawler.Relay.Health
import WotCrawler.Relay.RateLimit

/-! The daemon's configuration: what `validate` accepts, and where the daemon consumes it. -/

namespace WotCrawler.Daemon

open Crawl Relay Ingest

def defaultConcurrency : Nat := 8

def defaultBatchSize : Int := 64

def defaultPerRelayConcurrency : Nat := 4

def defaultRelayHealthThreshold : Rat := 1 / 4

def defaultHealthAlpha : Rat := 3 / 10

def defaultProgressInterval : Duration := secs 60

def defaultStalenessScanInterval : Duration := secs 300

def defaultReclaimInterval : Duration := secs 60

def defaultReclaimAge : Duration := secs 300

/-- The tunables that `validate` checks or a timer or semaphore is built from. An `f64` that is
not a number or not finite is `none`. -/
structure Config where
  anchorPubkey : String
  relays : List String
  databaseUrl : String
  ttl : Duration
  concurrency : Nat := defaultConcurrency
  batchSize : Int := defaultBatchSize
  reqsPerSecond : Nat := defaultReqsPerSecond
  progressInterval : Duration := defaultProgressInterval
  stalenessScanInterval : Duration := defaultStalenessScanInterval
  reclaimInterval : Duration := defaultReclaimInterval
  reclaimAge : Duration := defaultReclaimAge
  nip65MaxWriteRelays : Nat := defaultNip65MaxWriteRelays
  relayHealthThreshold : Option Rat := some defaultRelayHealthThreshold
  perRelayConcurrency : Nat := defaultPerRelayConcurrency
  healthAlpha : Option Rat := some defaultHealthAlpha

/-- A config that sets the required fields only. -/
def Config.minimal (anchor : String) (urls : List String) (database : String) (age : Duration) : Config where
  anchorPubkey := anchor
  relays := urls
  databaseUrl := database
  ttl := age

/-- `anyhow::ensure!`. -/
def ensure (condition : Bool) (message : String) : Except String Unit :=
  if condition then .ok () else .error message

/-- `text.trim().is_empty()`. -/
def trimsEmpty (text : String) : Bool := text.toList.all isWhitespace

/-- `text.contains(part)`. -/
def contains (part text : String) : Bool := part.toList <:+: text.toList

/-- The semantic checks, first failure first, given how an anchor is parsed. -/
def validate (parse : String → Except String PublicKey) (c : Config) : Except String Unit := do
  match parse c.anchorPubkey with
  | .ok _ => pure ()
  | .error error => throw s!"invalid anchor_pubkey: {error}"
  ensure (!c.relays.isEmpty) "relays must be non-empty"
  ensure (c.ttl > 0) "ttl must be > 0"
  ensure (!trimsEmpty c.databaseUrl) "database_url must be non-empty"
  ensure (contains "://" c.databaseUrl) "database_url must look like a URL (scheme://...)"
  ensure (c.concurrency > 0) "concurrency must be > 0"
  ensure (c.batchSize > 0) "batch_size must be > 0"
  ensure (c.reqsPerSecond > 0) "reqs_per_second must be > 0"
  ensure (c.nip65MaxWriteRelays > 0) "nip65_max_write_relays must be > 0"
  ensure (c.perRelayConcurrency > 0) "per_relay_concurrency must be > 0"
  ensure (c.relayHealthThreshold.any fun threshold => 0 ≤ threshold && threshold ≤ 1)
    "relay_health_threshold must be in [0,1]"
  ensure (c.healthAlpha.any fun alpha => 0 < alpha && alpha ≤ 1) "health_alpha must be in (0,1]"

namespace Config

/-- The periods handed to `tokio::time::interval`: by the gauge sampler, the progress summary,
the staleness scan and the in-run reclaim. -/
def intervals (c : Config) : List Duration :=
  [c.progressInterval, c.progressInterval, c.stalenessScanInterval, c.reclaimInterval]

/-- The sizes handed to `Semaphore::new`: the crawl's, and one for each relay. -/
def semaphores (c : Config) : List Nat := [c.concurrency, c.perRelayConcurrency]

/-- What `validate` lets through. -/
structure Accepted (parse : String → Except String PublicKey) (c : Config) : Prop where
  anchor : ∃ key, parse c.anchorPubkey = .ok key
  relays : c.relays ≠ []
  ttl : 0 < c.ttl
  url : contains "://" c.databaseUrl = true
  concurrency : 0 < c.concurrency
  batchSize : 0 < c.batchSize
  reqsPerSecond : 0 < c.reqsPerSecond
  writeRelays : 0 < c.nip65MaxWriteRelays
  perRelay : 0 < c.perRelayConcurrency
  threshold : ∃ threshold, c.relayHealthThreshold = some threshold ∧ 0 ≤ threshold ∧ threshold ≤ 1
  alpha : ∃ alpha, c.healthAlpha = some alpha ∧ 0 < alpha ∧ alpha ≤ 1

variable {parse : String → Except String PublicKey} {c : Config}

private theorem ensure_eq_ok_iff {condition : Bool} {message : String} :
    ensure condition message = .ok () ↔ condition = true := by
  cases condition with
  | true => exact iff_of_true rfl rfl
  | false => exact iff_of_false (fun same => by cases same) Bool.false_ne_true

/-- One check passes and the rest do. -/
private theorem ensure_bind_iff {condition : Bool} {message : String} {rest : Unit → Except String Unit} :
    (ensure condition message >>= rest) = .ok () ↔ condition = true ∧ rest () = .ok () := by
  cases condition with
  | true => exact ⟨fun passed => ⟨rfl, passed⟩, fun both => both.2⟩
  | false =>
    constructor
    · exact fun failed => by cases failed
    · exact fun both => absurd both.1 Bool.false_ne_true

/-- A text with a visible character is not empty when it is trimmed. -/
private theorem not_trimsEmpty (text : String) (url : contains "://" text = true) : trimsEmpty text = false := by
  have inside : "://".toList <:+: text.toList := of_decide_eq_true url
  have member : ':' ∈ text.toList := inside.subset (by decide)
  cases empty : trimsEmpty text with
  | false => rfl
  | true =>
    have blank : isWhitespace ':' = true := List.all_eq_true.mp empty ':' member
    exact absurd blank (by decide)

/-- `validate` accepts exactly these. -/
theorem validate_eq_ok_iff : validate parse c = .ok () ↔ c.Accepted parse := by
  unfold validate
  cases parsed : parse c.anchorPubkey with
  | error error =>
    constructor
    · exact fun failed => by cases failed
    · intro accepted
      obtain ⟨key, same⟩ := accepted.anchor
      cases parsed.symm.trans same
  | ok key =>
    simp only [ensure_bind_iff, ensure_eq_ok_iff, Bool.not_eq_true', List.isEmpty_eq_false_iff,
      decide_eq_true_eq, Option.any_eq_true, Bool.and_eq_true, gt_iff_lt]
    constructor
    · rintro ⟨relays, ttl, _, url, concurrency, batchSize, reqsPerSecond, writeRelays, perRelay,
        ⟨threshold, some, within⟩, alpha, same, positive⟩
      exact ⟨⟨key, parsed⟩, relays, ttl, url, concurrency, batchSize, reqsPerSecond, writeRelays, perRelay,
        ⟨threshold, some, within⟩, alpha, same, positive⟩
    · intro accepted
      exact ⟨accepted.relays, accepted.ttl, not_trimsEmpty _ accepted.url, accepted.url, accepted.concurrency,
        accepted.batchSize, accepted.reqsPerSecond, accepted.writeRelays, accepted.perRelay, accepted.threshold,
        accepted.alpha⟩

/-- Nothing the daemon builds from the config panics, and its admission gate lets an idle relay in. -/
structure Runnable (c : Config) : Prop where
  intervals : ∀ period ∈ c.intervals, period ≠ 0
  semaphores : ∀ size ∈ c.semaphores, size ≤ maxPermits
  admits : ∀ (health : RelayHealthRegistry) (relay : String), 0 ≤ health.score relay → health.score relay ≤ 1 →
    health.admits relay 0 c.perRelayConcurrency = true

/-- The default of every tunable passes its own check, and the daemon can run with it. -/
theorem minimal_runnable {key : PublicKey} {anchor database : String} {urls : List String} {age : Duration}
    (parsed : parse anchor = .ok key) (named : urls ≠ []) (fresh : 0 < age) (url : contains "://" database = true) :
    (minimal anchor urls database age).Accepted parse ∧ (minimal anchor urls database age).Runnable := by
  have threshold : 0 ≤ defaultRelayHealthThreshold ∧ defaultRelayHealthThreshold ≤ 1 := by
    norm_num [defaultRelayHealthThreshold]
  have alpha : 0 < defaultHealthAlpha ∧ defaultHealthAlpha ≤ 1 := by
    norm_num [defaultHealthAlpha]
  have counts : 0 < defaultConcurrency ∧ 0 < defaultBatchSize ∧ 0 < defaultReqsPerSecond ∧
      0 < defaultNip65MaxWriteRelays ∧ 0 < defaultPerRelayConcurrency := by decide
  obtain ⟨concurrency, batchSize, reqsPerSecond, writeRelays, perRelay⟩ := counts
  refine ⟨⟨⟨key, parsed⟩, named, fresh, url, concurrency, batchSize, reqsPerSecond, writeRelays, perRelay,
    ⟨_, rfl, threshold⟩, _, rfl, alpha⟩, ?_, ?_, ?_⟩
  · simp [intervals, minimal, defaultProgressInterval, defaultStalenessScanInterval, defaultReclaimInterval, secs]
  · simp [semaphores, minimal, defaultConcurrency, defaultPerRelayConcurrency, maxPermits]
  · intro health relay _ score
    have narrow : defaultPerRelayConcurrency < 2 ^ 32 := by decide
    exact RelayHealthRegistry.admits_idle perRelay narrow score

/-- The daemon can run with an accepted config exactly when its timers have periods, its crawl
permits are few enough, and its permits for one relay are a `u32`. -/
theorem validate_runnable_iff (parse : String → Except String PublicKey) (c : Config) :
    validate parse c = .ok () → (c.Runnable ↔
      (c.progressInterval ≠ 0 ∧ c.stalenessScanInterval ≠ 0 ∧ c.reclaimInterval ≠ 0) ∧
        c.concurrency ≤ 2 ^ 61 - 1 ∧ c.perRelayConcurrency ≤ 2 ^ 32 - 1) := by
  intro valid
  have accepted := validate_eq_ok_iff.mp valid
  have periods : (∀ period ∈ c.intervals, period ≠ 0) ↔
      c.progressInterval ≠ 0 ∧ c.stalenessScanInterval ≠ 0 ∧ c.reclaimInterval ≠ 0 := by
    simp [intervals]
  have sizes : (∀ size ∈ c.semaphores, size ≤ maxPermits) ↔
      c.concurrency ≤ maxPermits ∧ c.perRelayConcurrency ≤ maxPermits := by simp [semaphores]
  constructor
  · intro runnable
    refine ⟨periods.mp runnable.intervals, (sizes.mp runnable.semaphores).1, ?_⟩
    by_contra beyond
    have wide : 2 ^ 32 ≤ c.perRelayConcurrency := by omega
    -- The score at which the permits become the first number that is no `u32`.
    let health : RelayHealthRegistry := ⟨.binary64, 1, fun _ => some (2 ^ 32 / c.perRelayConcurrency), fun _ => none⟩
    have score : health.score "" = 2 ^ 32 / c.perRelayConcurrency := rfl
    have positive : (0 : Rat) < c.perRelayConcurrency := by exact_mod_cast accepted.perRelay
    have most : health.score "" ≤ 1 := by
      rw [score, div_le_one positive]
      exact_mod_cast wide
    have admitted := runnable.admits health "" (by rw [score]; positivity) most
    rw [RelayHealthRegistry.not_admits_of_wide wide score] at admitted
    cases admitted
  · rintro ⟨timers, crawl, relay⟩
    refine ⟨periods.mpr timers, sizes.mpr ⟨crawl, ?_⟩, ?_⟩
    · unfold maxPermits
      omega
    · intro health relay _ score
      exact RelayHealthRegistry.admits_idle accepted.perRelay (by omega) score

section Example

private def anyKey : PublicKey where
  bytes := List.replicate 32 1
  width := by decide

private def sampleAnchor : String := "0101010101010101010101010101010101010101010101010101010101010101"

/-- The hex parser, at the sample anchor. -/
private def sampleParse (text : String) : Except String PublicKey :=
  if text = sampleAnchor then .ok anyKey else .error "Invalid public key"

def minimalConfig : Config :=
  minimal sampleAnchor ["wss://relay.example"] "postgres://localhost/wot" (secs 86400)

private theorem minimal_accepted : minimalConfig.Accepted sampleParse ∧ minimalConfig.Runnable :=
  minimal_runnable rfl (by decide) (by decide) (by decide)

/-- The theorem at the minimal config. -/
theorem validate_runnable_iff_minimal : validate sampleParse minimalConfig = .ok () ∧ (minimalConfig.Runnable ↔
    (minimalConfig.progressInterval ≠ 0 ∧ minimalConfig.stalenessScanInterval ≠ 0 ∧
      minimalConfig.reclaimInterval ≠ 0) ∧
      minimalConfig.concurrency ≤ 2 ^ 61 - 1 ∧ minimalConfig.perRelayConcurrency ≤ 2 ^ 32 - 1) := by
  have valid : validate sampleParse minimalConfig = .ok () := validate_eq_ok_iff.mpr minimal_accepted.1
  exact ⟨valid, validate_runnable_iff _ _ valid⟩

/-- An accepted config whose progress interval is zero, one with too many crawl permits, and one
whose permits for a relay are no `u32` at full health. -/
theorem validate_fails :
    (validate sampleParse { minimalConfig with progressInterval := 0 } = .ok () ∧
      ¬ ({ minimalConfig with progressInterval := 0 } : Config).Runnable) ∧
    (validate sampleParse { minimalConfig with concurrency := 2 ^ 61 } = .ok () ∧
      ¬ ({ minimalConfig with concurrency := 2 ^ 61 } : Config).Runnable) ∧
    (validate sampleParse { minimalConfig with perRelayConcurrency := 2 ^ 32 } = .ok () ∧
      ¬ ({ minimalConfig with perRelayConcurrency := 2 ^ 32 } : Config).Runnable) := by
  have accepted := minimal_accepted.1
  refine ⟨⟨?_, ?_⟩, ⟨?_, ?_⟩, ?_, ?_⟩
  · exact validate_eq_ok_iff.mpr { accepted with }
  · intro runnable
    exact runnable.intervals 0 (List.mem_cons_self ..) rfl
  · exact validate_eq_ok_iff.mpr { accepted with concurrency := by decide }
  · intro runnable
    exact absurd (runnable.semaphores (2 ^ 61) (List.mem_cons_self ..)) (by decide)
  · exact validate_eq_ok_iff.mpr { accepted with perRelay := by decide }
  · intro runnable
    have healthy : (RelayHealthRegistry.new .binary64 1).score "wss://relay.example" = 1 := rfl
    have admitted := runnable.admits (.new .binary64 1) "wss://relay.example" (by rw [healthy]; norm_num) (by rw [healthy])
    rw [RelayHealthRegistry.not_admits_of_wide (le_refl _) (by rw [healthy]; norm_num)] at admitted
    cases admitted

end Example

end Config

end WotCrawler.Daemon
