import WotCrawler.Relay.Health
import WotCrawler.Relay.RateLimit

/-! What a notice does to the shared registries, and how long it keeps its relay from being
asked: as long as the relay's own limiter happens to have no token. -/

namespace WotCrawler.Relay

variable {governor : Governor}

/-- The registries that the notice consumer and the fetch path share. -/
structure SharedRegistries (governor : Governor) where
  limits : RateLimiterRegistry governor
  health : RelayHealthRegistry

/-- Route a relay's message into both registries. The delay of a notice is dropped. -/
def handleRelayMessage (registries : SharedRegistries governor) (draw : Nat → Nat) (relay message : String) :
    SharedRegistries governor :=
  match classifyNotice message with
  | .rateLimited => {
      limits := (registries.limits.recordNotice draw relay message).2
      health := registries.health.recordRateLimited relay }
  | .blocked => {
      limits := (registries.limits.recordNotice draw relay message).2
      health := registries.health.recordConnectFailure relay }
  | .other => registries

/-- The registries at an instant; and for each relay the end of the longest backoff that its
notices were given since its last reset. -/
structure Moment (governor : Governor) where
  registries : SharedRegistries governor
  now : Instant
  deadline : String → Instant

namespace Moment

def tick (moment : Moment governor) (later : Instant) : Moment governor := { moment with now := later }

def withLimits (moment : Moment governor) (limits : RateLimiterRegistry governor) : Moment governor :=
  { moment with registries := { moment.registries with limits := limits } }

/-- The delay that a message is given. -/
def delay (moment : Moment governor) (draw : Nat → Nat) (relay message : String) : Option Duration :=
  (moment.registries.limits.recordNotice draw relay message).1

def notice (moment : Moment governor) (draw : Nat → Nat) (relay message : String) : Moment governor where
  registries := handleRelayMessage moment.registries draw relay message
  now := moment.now
  deadline :=
    match moment.delay draw relay message with
    | some delay => Function.update moment.deadline relay (max (moment.deadline relay) (moment.now + delay))
    | none => moment.deadline

/-- A reset lifts the deadline. -/
def reset (moment : Moment governor) (relay : String) : Moment governor where
  registries := { moment.registries with limits := moment.registries.limits.reset relay }
  now := moment.now
  deadline := Function.update moment.deadline relay 0

/-- From now on until an instant, the relay's limiter has no token. -/
def Dry (moment : Moment governor) (relay : String) (ending : Instant) : Prop :=
  ∀ instant, moment.now ≤ instant → instant < ending →
    ∃ limiter, moment.registries.limits.limiters relay = some limiter ∧ governor.check limiter instant = none

/-- Every `acquire` that completes now does so at or after its relay's deadline. -/
def Parked (moment : Moment governor) : Prop :=
  ∀ relay limits, moment.registries.limits.untilReady relay moment.now = some limits →
    moment.deadline relay ≤ moment.now

end Moment

open Moment

/-- The steps of the shared registries: time passes, a message is handled, `acquire` is called and
completes, a relay is reset. The condition concerns the notices that are given a delay. -/
inductive NoticeStep (meets : Moment governor → String → Duration → Prop) (moment : Moment governor) :
    Moment governor → Prop where
  | tick (later : moment.now ≤ instant) : NoticeStep meets moment (moment.tick instant)
  | message (draws : Draws draw) (relay text : String)
      (met : ∀ delay, moment.delay draw relay text = some delay → meets moment relay delay) :
      NoticeStep meets moment (moment.notice draw relay text)
  | call (relay : String) : NoticeStep meets moment (moment.withLimits (moment.registries.limits.enter relay))
  | complete (relay : String)
      (ready : moment.registries.limits.untilReady relay moment.now = some limits) :
      NoticeStep meets moment (moment.withLimits limits)
  | reset (relay : String) : NoticeStep meets moment (moment.reset relay)

/-- The state before any relay was asked. -/
def Moment.fresh (governor : Governor) (reqsPerSecond : Nat) (base cap : Duration) (alpha : Rat) : Moment governor where
  registries := ⟨.withParams reqsPerSecond base cap, .new .binary64 alpha⟩
  now := 0
  deadline := fun _ => 0

/-- Every relay's deadline has passed, or its limiter is dry until then. -/
def Holding (moment : Moment governor) : Prop :=
  ∀ relay, moment.deadline relay ≤ moment.now ∨ moment.Dry relay (moment.deadline relay)

/-- The limiter of a notice's relay is dry for the whole backoff. -/
def DryFor (moment : Moment governor) (relay : String) (delay : Duration) : Prop :=
  moment.Dry relay (moment.now + delay)

variable {moment after : Moment governor} {relay : String}

@[simp] theorem handleRelayMessage_limiters (registries : SharedRegistries governor) (draw : Nat → Nat)
    (relay message : String) :
    (handleRelayMessage registries draw relay message).limits.limiters = registries.limits.limiters := by
  unfold handleRelayMessage
  split
  · simp only [RateLimiterRegistry.recordNotice_limiters]
  · simp only [RateLimiterRegistry.recordNotice_limiters]
  · rfl

@[simp] theorem Moment.notice_now (moment : Moment governor) (draw : Nat → Nat) (relay message : String) :
    (moment.notice draw relay message).now = moment.now := by
  simp only [Moment.notice]

@[simp] theorem Moment.notice_limiters (moment : Moment governor) (draw : Nat → Nat) (relay message : String) :
    (moment.notice draw relay message).registries.limits.limiters = moment.registries.limits.limiters := by
  simp only [Moment.notice, handleRelayMessage_limiters]

/-- A limiter that is left alone stays dry. -/
theorem Moment.Dry.later (dry : moment.Dry relay ending) (passed : moment.now ≤ after.now)
    (kept : ∀ limiter, moment.registries.limits.limiters relay = some limiter →
      after.registries.limits.limiters relay = some limiter) : after.Dry relay ending := by
  intro instant since before
  obtain ⟨limiter, present, none⟩ := dry instant (passed.trans since) before
  exact ⟨limiter, kept limiter present, none⟩

/-- Two spans without a token make one. -/
theorem Moment.Dry.max (dry : moment.Dry relay first) (also : moment.Dry relay second) :
    moment.Dry relay (max first second) := by
  intro instant since before
  cases lt_max_iff.mp before with
  | inl early => exact dry instant since early
  | inr early => exact also instant since early

theorem Holding.parked (holding : Holding moment) : moment.Parked := by
  intro relay limits ready
  obtain ⟨limiter, taken, present, checked, _⟩ := RateLimiterRegistry.untilReady_spec ready
  cases holding relay with
  | inl passed => exact passed
  | inr dry =>
    by_contra early
    obtain ⟨other, there, none⟩ := dry moment.now (le_refl _) (not_le.mp early)
    obtain rfl := Option.some.inj (present.symm.trans there)
    rw [none] at checked
    cases checked

/-- Where every delayed notice finds its relay's limiter dry, the deadlines hold from step to step. -/
theorem Holding.step (holding : Holding moment) (step : NoticeStep DryFor moment after) : Holding after := by
  intro relay
  cases step with
  | @tick instant later =>
    cases holding relay with
    | inl passed => exact .inl (passed.trans later)
    | inr dry => exact .inr (dry.later later fun _ present => present)
  | @message draw draws sender text met =>
    have kept (limiter : governor.Limiter) (present : moment.registries.limits.limiters relay = some limiter) :
        (moment.notice draw sender text).registries.limits.limiters relay = some limiter := by
      simp [present]
    have still : moment.now ≤ (moment.notice draw sender text).now := by simp
    have others : moment.deadline relay ≤ (moment.notice draw sender text).now ∨
        (moment.notice draw sender text).Dry relay (moment.deadline relay) :=
      (holding relay).imp (fun passed => passed.trans still) fun dry => dry.later still kept
    cases given : moment.delay draw sender text with
    | none =>
      have same : (moment.notice draw sender text).deadline = moment.deadline := by simp [Moment.notice, given]
      rw [same]
      exact others
    | some delay =>
      have moved : (moment.notice draw sender text).deadline = Function.update moment.deadline sender
          (max (moment.deadline sender) (moment.now + delay)) := by simp [Moment.notice, given]
      rw [moved]
      by_cases same : relay = sender
      · subst same
        rw [Function.update_self]
        right
        have dry : moment.Dry relay (moment.now + delay) := met delay given
        cases holding relay with
        | inl passed =>
          rw [max_eq_right (passed.trans (Nat.le_add_right _ _))]
          exact dry.later still kept
        | inr earlier => exact (earlier.max dry).later still kept
      · rw [Function.update_of_ne same]
        exact others
  | call called =>
    apply (holding relay).imp_right
    intro dry
    exact dry.later (le_refl _) fun limiter present => RateLimiterRegistry.enter_limiters present
  | @complete limits completed ready =>
    obtain ⟨limiter, taken, _, _, made⟩ := RateLimiterRegistry.untilReady_spec ready
    by_cases same : relay = completed
    · subst same
      exact .inl (holding.parked relay _ ready)
    · apply (holding relay).imp_right
      intro dry
      have untouched : limits.limiters relay = moment.registries.limits.limiters relay := by
        rw [made]
        exact Function.update_of_ne same _ _
      exact dry.later (le_refl _) fun limiter present => untouched.trans present
  | reset cleared =>
    by_cases same : relay = cleared
    · subst same
      left
      exact (Function.update_self relay 0 moment.deadline).le.trans (Nat.zero_le _)
    · have untouched : (moment.reset cleared).deadline relay = moment.deadline relay :=
        Function.update_of_ne same _ _
      rw [untouched]
      exact (holding relay).imp_right fun dry => dry.later (le_refl _) fun _ present => present

/-- The backoff holds along every run in which each delayed notice finds its relay's limiter
without a token for the whole delay: the fetch gate itself never asks for the backoff. -/
theorem parked_of_dry (run : Relation.ReflTransGen (NoticeStep DryFor)
    (Moment.fresh governor reqsPerSecond base cap alpha) moment) : moment.Parked := by
  have holding : Holding moment := by
    induction run with
    | refl => exact fun relay => .inl (le_refl 0)
    | tail run step ih => exact ih.step step
  exact holding.parked

/-- A limiter with a token before its relay's deadline lets an `acquire` complete too early. -/
private theorem not_parked_of_token
    (grants : ∀ reqsPerSecond instant, ∃ taken, governor.check (governor.direct reqsPerSecond) instant = some taken)
    (since : moment.now ≤ instant) (early : instant < moment.deadline relay)
    (token : ∀ limiter, moment.registries.limits.limiters relay = some limiter →
      ∃ taken, governor.check limiter instant = some taken) :
    ∃ after, Relation.ReflTransGen (NoticeStep fun _ _ _ => True) moment after ∧ ¬ after.Parked := by
  have waited : NoticeStep (fun _ _ _ => True) moment (moment.tick instant) := .tick since
  have called : NoticeStep (fun _ _ _ => True) (moment.tick instant)
      ((moment.tick instant).withLimits ((moment.tick instant).registries.limits.enter relay)) := .call relay
  refine ⟨_, (Relation.ReflTransGen.single waited).tail called, ?_⟩
  have entered : ∃ limiter taken, ((moment.tick instant).registries.limits.enter relay).limiters relay = some limiter ∧
      governor.check limiter instant = some taken := by
    cases present : moment.registries.limits.limiters relay with
    | none =>
      obtain ⟨taken, checked⟩ := grants moment.registries.limits.reqsPerSecond instant
      exact ⟨_, taken, by simp [RateLimiterRegistry.enter, Moment.tick, present], checked⟩
    | some limiter =>
      obtain ⟨taken, checked⟩ := token limiter present
      exact ⟨limiter, taken, RateLimiterRegistry.enter_limiters present, checked⟩
  obtain ⟨limiter, taken, present, checked⟩ := entered
  intro parked
  have late := parked relay _ (RateLimiterRegistry.untilReady_of_check present checked)
  exact absurd late (not_le.mpr early)

/-- The condition is needed: a notice whose relay's limiter has a token before the backoff ends
breaks some continuation, as a new limiter has one at once. -/
theorem dry_of_parked {delay : Duration}
    (grants : ∀ reqsPerSecond instant, ∃ taken, governor.check (governor.direct reqsPerSecond) instant = some taken)
    (given : moment.delay draw relay text = some delay)
    (parked : ∀ after, Relation.ReflTransGen (NoticeStep fun _ _ _ => True) (moment.notice draw relay text) after →
      after.Parked) : DryFor moment relay delay := by
  intro instant since before
  have moved : (moment.notice draw relay text).deadline = Function.update moment.deadline relay
      (max (moment.deadline relay) (moment.now + delay)) := by simp [Moment.notice, given]
  have early : instant < (moment.notice draw relay text).deadline relay := by
    rw [moved, Function.update_self]
    exact lt_max_of_lt_right before
  by_contra wet
  push Not at wet
  have passed : (moment.notice draw relay text).now ≤ instant := by simpa using since
  have token (limiter : governor.Limiter)
      (present : (moment.notice draw relay text).registries.limits.limiters relay = some limiter) :
      ∃ taken, governor.check limiter instant = some taken := by
    rw [Moment.notice_limiters] at present
    exact Option.ne_none_iff_exists'.mp (wet limiter present)
  obtain ⟨after, run, late⟩ := not_parked_of_token grants passed early token
  exact late (parked after run)

section Example

/-- A limiter of the `governor` crate: the theoretical arrival time of the next request, the time
a request takes from the quota, and how far ahead of its arrival one is let through. -/
structure Gcra where
  tat : Option Nat
  period : Nat
  tolerance : Nat

/-- The generic cell rate algorithm. -/
def gcra : Governor where
  Limiter := Gcra
  direct := fun reqsPerSecond => ⟨none, secs 1 / reqsPerSecond, secs 1 / reqsPerSecond * (reqsPerSecond - 1)⟩
  check := fun limiter now =>
    let tat := limiter.tat.getD now
    if now < tat - limiter.tolerance then none
    else some { limiter with tat := some (max tat now + limiter.period) }

theorem gcra_grants (reqsPerSecond instant : Nat) :
    ∃ taken, gcra.check (gcra.direct reqsPerSecond) instant = some taken := by
  have due : ¬ instant < instant - secs 1 / reqsPerSecond * (reqsPerSecond - 1) := not_lt.mpr (Nat.sub_le _ _)
  simp [gcra, due]

def slowDown : String := "rate-limited: slow down"

private theorem draws_zero : Draws (fun _ => 0) := fun bound => Nat.zero_le bound

/-- The first notice of a relay is given half a second, by the lowest draw. -/
private theorem delay_first {moment : Moment governor} (base : moment.registries.limits.base = defaultBackoffBase)
    (cap : moment.registries.limits.cap = defaultBackoffCap)
    (unknown : moment.registries.limits.failures relay = none) :
    moment.delay (fun _ => 0) relay slowDown = some 500000000 := by
  have kind : classifyNotice slowDown = .rateLimited := by decide
  simp only [Moment.delay, RateLimiterRegistry.recordNotice, kind, RateLimiterRegistry.failureCount, unknown,
    Option.getD_none, base, cap]
  decide

private theorem deadline_first {moment : Moment governor} (none : moment.deadline relay = 0)
    (start : moment.now = 0) (given : moment.delay (fun _ => 0) relay slowDown = some 500000000) :
    (moment.notice (fun _ => 0) relay slowDown).deadline relay = 500000000 := by
  have moved : (moment.notice (fun _ => 0) relay slowDown).deadline = Function.update moment.deadline relay
      (max (moment.deadline relay) (moment.now + 500000000)) := by simp only [Moment.notice, given]
  rw [moved, Function.update_self, none, start]
  rfl

/-- The daemon's registries by default. -/
def unnoticed : Moment gcra := .fresh gcra defaultReqsPerSecond defaultBackoffBase defaultBackoffCap (3 / 10)

/-- After the first `rate-limited` notice of a relay. -/
def noticed : Moment gcra := unnoticed.notice (fun _ => 0) "wss://relay" slowDown

private theorem unnoticed_given : unnoticed.delay (fun _ => 0) "wss://relay" slowDown = some 500000000 :=
  delay_first rfl rfl rfl

/-- That relay is asked again at once. -/
theorem notice_unparked : ∃ moment : Moment gcra,
    Relation.ReflTransGen (NoticeStep fun _ _ _ => True) unnoticed moment ∧
    moment.now = 0 ∧ moment.deadline "wss://relay" = 500000000 ∧
    ∃ limits, moment.registries.limits.untilReady "wss://relay" moment.now = some limits := by
  have handled : NoticeStep (fun _ _ _ => True) unnoticed noticed :=
    .message draws_zero "wss://relay" slowDown fun _ _ => trivial
  have called : NoticeStep (fun _ _ _ => True) noticed
      (noticed.withLimits (noticed.registries.limits.enter "wss://relay")) := .call "wss://relay"
  have unknown : noticed.registries.limits.limiters "wss://relay" = none := by
    simp only [noticed, Moment.notice_limiters]
    rfl
  have present : (noticed.registries.limits.enter "wss://relay").limiters "wss://relay" =
      some (gcra.direct noticed.registries.limits.reqsPerSecond) := by
    simp only [RateLimiterRegistry.enter, unknown, Option.getD_none, Function.update_self]
  obtain ⟨taken, checked⟩ := gcra_grants noticed.registries.limits.reqsPerSecond 0
  refine ⟨_, (Relation.ReflTransGen.single handled).tail called, rfl, ?_, ?_⟩
  · exact deadline_first rfl rfl unnoticed_given
  · exact ⟨_, RateLimiterRegistry.untilReady_of_check present checked⟩

/-- A relay that was asked for at a quota of one request per second, and whose limiter is new. -/
def asked : Moment gcra :=
  let start := Moment.fresh gcra 1 defaultBackoffBase defaultBackoffCap (3 / 10)
  start.withLimits (start.registries.limits.enter "wss://relay")

private theorem asked_limiter : asked.registries.limits.limiters "wss://relay" = some (gcra.direct 1) := by
  simp [asked, Moment.withLimits, Moment.fresh, RateLimiterRegistry.enter, RateLimiterRegistry.withParams]

/-- A limiter of one request per second, after its only token. -/
def spentLimiter : Gcra := ⟨some 1000000000, 1000000000, 0⟩

private theorem spentLimiter_taken : gcra.check (gcra.direct 1) 0 = some spentLimiter := by
  simp [gcra, secs, spentLimiter]

private theorem spentLimiter_dry (instant : Nat) (early : instant < 500000000) :
    gcra.check spentLimiter instant = none := by
  have waits : instant < 1000000000 - 0 := by omega
  simp only [gcra, spentLimiter, Option.getD_some]
  rw [if_pos waits]

/-- The relay of that limiter, asked once. -/
def askedOnce : Moment gcra :=
  asked.withLimits { asked.registries.limits with
    limiters := Function.update asked.registries.limits.limiters "wss://relay" (some spentLimiter) }

private theorem askedOnce_given : askedOnce.delay (fun _ => 0) "wss://relay" slowDown = some 500000000 :=
  delay_first rfl rfl rfl

/-- The theorem at a quota of one request per second, whose token is taken when the notice comes. -/
theorem parked_of_dry_slow : ∃ moment : Moment gcra,
    Relation.ReflTransGen (NoticeStep DryFor) (.fresh gcra 1 defaultBackoffBase defaultBackoffCap (3 / 10)) moment ∧
    moment.deadline "wss://relay" = 500000000 ∧ moment.Parked := by
  have called : NoticeStep DryFor (.fresh gcra 1 defaultBackoffBase defaultBackoffCap (3 / 10)) asked :=
    .call "wss://relay"
  have completed : NoticeStep DryFor asked askedOnce :=
    .complete "wss://relay" (RateLimiterRegistry.untilReady_of_check asked_limiter spentLimiter_taken)
  have present : askedOnce.registries.limits.limiters "wss://relay" = some spentLimiter := by
    simp only [askedOnce, Moment.withLimits, Function.update_self]
    rfl
  have dry (delay : Duration) (given : askedOnce.delay (fun _ => 0) "wss://relay" slowDown = some delay) :
      DryFor askedOnce "wss://relay" delay := by
    obtain rfl := Option.some.inj (askedOnce_given.symm.trans given)
    intro instant _ before
    have zero : askedOnce.now = 0 := rfl
    rw [zero, Nat.zero_add] at before
    exact ⟨spentLimiter, present, spentLimiter_dry instant before⟩
  have noticed : NoticeStep DryFor askedOnce (askedOnce.notice (fun _ => 0) "wss://relay" slowDown) :=
    .message draws_zero "wss://relay" slowDown dry
  have run := ((Relation.ReflTransGen.single called).tail completed).tail noticed
  exact ⟨_, run, deadline_first rfl rfl askedOnce_given, parked_of_dry run⟩

end Example

end WotCrawler.Relay
