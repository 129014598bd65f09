import WotCrawler.Relay.Fetch

/-! The rate limiter of every relay, its notices, and the backoff schedule they are given. -/

namespace WotCrawler.Relay

def defaultReqsPerSecond : Nat := 4

def defaultBackoffBase : Duration := secs 1

def defaultBackoffCap : Duration := secs 300

inductive NoticeKind where
  | rateLimited
  | blocked
  | other
deriving DecidableEq

/-- The `White_Space` characters, which `str::trim` drops at both ends. -/
def isWhitespace (c : Char) : Bool :=
  (0x09 ≤ c.toNat && c.toNat ≤ 0x0D) || (0x2000 ≤ c.toNat && c.toNat ≤ 0x200A) ||
    c.toNat ∈ [0x20, 0x85, 0xA0, 0x1680, 0x2028, 0x2029, 0x202F, 0x205F, 0x3000]

def trim (chars : List Char) : List Char := (chars.dropWhile isWhitespace).rdropWhile isWhitespace

/-- The machine-readable prefix of a message is its first token, up to a colon. -/
def classifyNotice (message : String) : NoticeKind :=
  match String.ofList (trim (message.toList.takeWhile (· ≠ ':'))) with
  | "rate-limited" => .rateLimited
  | "blocked" => .blocked
  | "restricted" => .blocked
  | _ => .other

/-- `base * 2^failures` up to the cap. The shift drops the bits past 127; the result of
`Duration::from_nanos` is a `u64` of nanoseconds. -/
def backoffDelayUnjittered (failures : Nat) (base cap : Duration) : Duration :=
  if failures ≥ 64 then cap
  else
    let scaled := min (base * 2 ^ failures % 2 ^ 128) cap
    min (min scaled (2 ^ 64 - 1)) cap

/-- The schedule with its jitter, where `draw` picks from `0..=bound`. -/
def backoffDelay (draw : Nat → Nat) (failures : Nat) (base cap : Duration) : Duration :=
  let capped := backoffDelayUnjittered failures base cap
  let half := capped / 2
  let span := capped - half
  let jitter := if span = 0 then 0 else draw (span % 2 ^ 64)
  half + jitter

/-- A random draw stays within its bound. -/
def Draws (draw : Nat → Nat) : Prop := ∀ bound, draw bound ≤ bound

theorem backoffDelayUnjittered_le_cap (failures : Nat) (base cap : Duration) :
    backoffDelayUnjittered failures base cap ≤ cap := by
  unfold backoffDelayUnjittered
  split
  · exact le_refl cap
  · exact min_le_right _ _

/-- A delay lies in the upper half of the schedule. -/
theorem backoffDelay_within {draw : Nat → Nat} (draws : Draws draw) (failures : Nat) (base cap : Duration) :
    backoffDelayUnjittered failures base cap / 2 ≤ backoffDelay draw failures base cap ∧
      backoffDelay draw failures base cap ≤ backoffDelayUnjittered failures base cap := by
  unfold backoffDelay
  generalize backoffDelayUnjittered failures base cap = capped
  have bound := draws ((capped - capped / 2) % 2 ^ 64)
  have less := Nat.mod_le (capped - capped / 2) (2 ^ 64)
  dsimp only
  generalize draw ((capped - capped / 2) % 2 ^ 64) = drawn at bound ⊢
  have whole : capped / 2 + (capped - capped / 2) = capped := Nat.add_sub_cancel' (Nat.div_le_self capped 2)
  split
  · exact ⟨le_refl _, Nat.div_le_self capped 2⟩
  · exact ⟨Nat.le_add_right _ _, (Nat.add_le_add_left (bound.trans less) _).trans whole.le⟩

/-- The `governor` crate: a limiter for a quota of requests per second, and whether it has a token
at an instant, with the limiter after taking it. -/
structure Governor where
  Limiter : Type
  direct : (reqsPerSecond : Nat) → Limiter
  check : Limiter → Instant → Option Limiter

/-- A limiter for each relay that was asked for, and the consecutive notices of the relays. -/
structure RateLimiterRegistry (governor : Governor) where
  reqsPerSecond : Nat
  base : Duration
  cap : Duration
  limiters : String → Option governor.Limiter
  failures : String → Option Nat

namespace RateLimiterRegistry

variable {governor : Governor}

def withParams (reqsPerSecond : Nat) (base cap : Duration) : RateLimiterRegistry governor where
  reqsPerSecond := reqsPerSecond
  base := base
  cap := cap
  limiters := fun _ => none
  failures := fun _ => none

/-- The first half of `acquire`: the relay's limiter is created on first use. -/
def enter (registry : RateLimiterRegistry governor) (relay : String) : RateLimiterRegistry governor :=
  { registry with
    limiters := Function.update registry.limiters relay
      (some ((registry.limiters relay).getD (governor.direct registry.reqsPerSecond))) }

/-- The second half: `until_ready` completes at an instant at which the limiter has a token. -/
def untilReady (registry : RateLimiterRegistry governor) (relay : String) (now : Instant) :
    Option (RateLimiterRegistry governor) := do
  let limiter ← registry.limiters relay
  let taken ← governor.check limiter now
  return { registry with limiters := Function.update registry.limiters relay (some taken) }

def failureCount (registry : RateLimiterRegistry governor) (relay : String) : Nat :=
  (registry.failures relay).getD 0

/-- Only a `rate-limited` notice counts, in a `u32` that saturates, and only it has a delay. -/
def recordNotice (registry : RateLimiterRegistry governor) (draw : Nat → Nat) (relay message : String) :
    Option Duration × RateLimiterRegistry governor :=
  match classifyNotice message with
  | .rateLimited =>
    let failures := min (registry.failureCount relay + 1) (2 ^ 32 - 1)
    (some (backoffDelay draw (failures - 1) registry.base registry.cap),
      { registry with failures := Function.update registry.failures relay (some failures) })
  | .blocked => (none, registry)
  | .other => (none, registry)

def reset (registry : RateLimiterRegistry governor) (relay : String) : RateLimiterRegistry governor :=
  { registry with failures := Function.update registry.failures relay none }

variable {registry : RateLimiterRegistry governor} {relay : String}

/-- A notice leaves every limiter as it was. -/
@[simp] theorem recordNotice_limiters (draw : Nat → Nat) (relay message : String) :
    (registry.recordNotice draw relay message).2.limiters = registry.limiters := by
  unfold recordNotice
  split <;> rfl

@[simp] theorem reset_limiters (relay : String) : (registry.reset relay).limiters = registry.limiters := rfl

/-- Entering changes no limiter there is. -/
theorem enter_limiters {other : String} (present : registry.limiters other = some limiter) :
    (registry.enter relay).limiters other = some limiter := by
  by_cases same : other = relay
  · subst same
    simp [enter, present]
  · simp [enter, Function.update_of_ne same, present]

/-- Completing takes a token of the relay's own limiter, and of no other. -/
theorem untilReady_spec {after : RateLimiterRegistry governor} (ready : registry.untilReady relay now = some after) :
    ∃ limiter taken, registry.limiters relay = some limiter ∧ governor.check limiter now = some taken ∧
      after = { registry with limiters := Function.update registry.limiters relay (some taken) } := by
  unfold untilReady at ready
  obtain ⟨limiter, present, rest⟩ := Option.bind_eq_some_iff.mp ready
  obtain ⟨taken, checked, made⟩ := Option.bind_eq_some_iff.mp rest
  exact ⟨limiter, taken, present, checked, (Option.some.inj made).symm⟩

theorem untilReady_of_check (present : registry.limiters relay = some limiter)
    (checked : governor.check limiter now = some taken) : registry.untilReady relay now =
      some { registry with limiters := Function.update registry.limiters relay (some taken) } := by
  unfold untilReady
  rw [present, Option.bind_eq_bind, Option.bind_some, checked]
  rfl

end RateLimiterRegistry

end WotCrawler.Relay
