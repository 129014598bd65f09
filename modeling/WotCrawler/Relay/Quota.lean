import WotCrawler.Relay.Notices
import WotCrawler.Sequence.Metering

/-! The limiters behind their `Arc`s: calls of `acquire` that wait side by side, some given up midway, drive
one limiter for each relay. -/

namespace WotCrawler.Relay

open Sequence

variable {governor : Governor}

/-- The registry as it is shared: the map holds handles of the limiters made so far. -/
structure SharedLimiters (governor : Governor) where
  reqsPerSecond : Nat
  base : Duration
  cap : Duration
  heap : List governor.Limiter
  limiters : List (String × Nat)
  failures : String → Option Nat

namespace SharedLimiters

def withParams (governor : Governor) (reqsPerSecond : Nat) (base cap : Duration) : SharedLimiters governor where
  reqsPerSecond := reqsPerSecond
  base := base
  cap := cap
  heap := []
  limiters := []
  failures := fun _ => none

/-- The entry of a relay, made on first use; the handle is cloned under the lock of the map. -/
def entry (registry : SharedLimiters governor) (relay : String) : Nat × SharedLimiters governor :=
  match registry.limiters.lookup relay with
  | some handle => (handle, registry)
  | none => (registry.heap.length,
      { registry with
        heap := registry.heap ++ [governor.direct registry.reqsPerSecond]
        limiters := registry.limiters ++ [(relay, registry.heap.length)] })

def activeRelayCount (registry : SharedLimiters governor) : Nat := registry.limiters.length

def hasLimiter (registry : SharedLimiters governor) (relay : String) : Bool :=
  (registry.limiters.lookup relay).isSome

/-- The limiter that the map's handle of a relay points to. -/
def limiter (registry : SharedLimiters governor) (relay : String) : Option governor.Limiter :=
  (registry.limiters.lookup relay).bind fun handle => registry.heap[handle]?

/-- The registry with the limiters in place of their handles. -/
def plain (registry : SharedLimiters governor) : RateLimiterRegistry governor where
  reqsPerSecond := registry.reqsPerSecond
  base := registry.base
  cap := registry.cap
  limiters := registry.limiter
  failures := registry.failures

end SharedLimiters

/-- A call of `acquire`, by the handle it has cloned. -/
structure AcquireCall where
  relay : String
  handle : Nat
  waits : Bool

/-- The registries with the calls of `acquire`; and, for each relay, the instants at which calls were let
through, and the `rate-limited` notices since its last reset. -/
structure Acquiring (governor : Governor) where
  registry : SharedLimiters governor
  health : RelayHealthRegistry
  now : Instant
  calls : List AcquireCall
  granted : List (String × Instant)
  noticed : String → Nat

namespace Acquiring

/-- The map is locked, and the call waits outside of the lock. -/
def call (state : Acquiring governor) (relay : String) : Acquiring governor :=
  let entered := state.registry.entry relay
  { state with registry := entered.2, calls := state.calls ++ [⟨relay, entered.1, true⟩] }

/-- `until_ready` completes with the limiter that the call holds. -/
def complete (state : Acquiring governor) (index : Nat) (call : AcquireCall) (taken : governor.Limiter) :
    Acquiring governor :=
  { state with
    registry := { state.registry with heap := state.registry.heap.set call.handle taken }
    calls := state.calls.set index { call with waits := false }
    granted := state.granted ++ [(call.relay, state.now)] }

/-- The future of a call is dropped. -/
def giveUp (state : Acquiring governor) (index : Nat) (call : AcquireCall) : Acquiring governor :=
  { state with calls := state.calls.set index { call with waits := false } }

/-- A message is routed to both registries, and touches no limiter. -/
def message (state : Acquiring governor) (draw : Nat → Nat) (relay text : String) : Acquiring governor :=
  let handled := handleRelayMessage ⟨state.registry.plain, state.health⟩ draw relay text
  { state with
    registry := { state.registry with failures := handled.limits.failures }
    health := handled.health
    noticed := match classifyNotice text with
      | .rateLimited => Function.update state.noticed relay (state.noticed relay + 1)
      | _ => state.noticed }

def reset (state : Acquiring governor) (relay : String) : Acquiring governor :=
  { state with
    registry := { state.registry with failures := Function.update state.registry.failures relay none }
    noticed := Function.update state.noticed relay 0 }

/-- The instants at which a relay's calls were let through. -/
def grantsOf (state : Acquiring governor) (relay : String) : List Instant :=
  (state.granted.filter fun grant => grant.1 = relay).map Prod.snd

/-- The registries as the rest of the crawler sees them. -/
def moment (state : Acquiring governor) (deadline : String → Instant) : Moment governor where
  registries := ⟨state.registry.plain, state.health⟩
  now := state.now
  deadline := deadline

def fresh (governor : Governor) (reqsPerSecond : Nat) (base cap : Duration) (alpha : Rat) : Acquiring governor where
  registry := .withParams governor reqsPerSecond base cap
  health := .new .binary64 alpha
  now := 0
  calls := []
  granted := []
  noticed := fun _ => 0

end Acquiring

/-- The steps of the shared registries, call by call. -/
inductive AcquireStep (state : Acquiring governor) : Acquiring governor → Prop where
  | tick (later : state.now ≤ instant) : AcquireStep state { state with now := instant }
  | call (relay : String) : AcquireStep state (state.call relay)
  | complete (found : state.calls[index]? = some call) (waits : call.waits = true)
      (present : state.registry.heap[call.handle]? = some limiter)
      (token : governor.check limiter state.now = some taken) : AcquireStep state (state.complete index call taken)
  | giveUp (found : state.calls[index]? = some call) : AcquireStep state (state.giveUp index call)
  | message (draws : Draws draw) (relay text : String) : AcquireStep state (state.message draw relay text)
  | reset (relay : String) : AcquireStep state (state.reset relay)

namespace SharedLimiters

variable {registry : SharedLimiters governor} {relay other : String} {handle : Nat}

/-- Each relay has one handle, and each limiter one relay. -/
structure Distinct (registry : SharedLimiters governor) : Prop where
  keys : (registry.limiters.map Prod.fst).Nodup
  handles : registry.limiters.map Prod.snd = List.range registry.heap.length

namespace Distinct

theorem lookup (distinct : registry.Distinct) (listed : (relay, handle) ∈ registry.limiters) :
    registry.limiters.lookup relay = some handle := by
  obtain ⟨front, rest, parted⟩ := List.append_of_mem listed
  rw [List.lookup_eq_some_iff]
  refine ⟨front, rest, parted, ?_⟩
  intro entry earlier
  have keys := distinct.keys
  rw [parted, List.map_append, List.map_cons, List.nodup_append] at keys
  exact bne_iff_ne.mpr (keys.2.2 entry.1 (List.mem_map_of_mem earlier) relay List.mem_cons_self).symm

theorem relay_eq (distinct : registry.Distinct) (listed : (relay, handle) ∈ registry.limiters)
    (also : (other, handle) ∈ registry.limiters) : relay = other := by
  have handles : (registry.limiters.map Prod.snd).Nodup := distinct.handles ▸ List.nodup_range
  exact congrArg Prod.fst (List.inj_on_of_nodup_map handles listed also rfl)

theorem bound (distinct : registry.Distinct) (listed : (relay, handle) ∈ registry.limiters) :
    handle < registry.heap.length := by
  rw [← List.mem_range, ← distinct.handles]
  exact List.mem_map_of_mem listed

end Distinct

theorem mem_of_lookup (found : registry.limiters.lookup relay = some handle) :
    (relay, handle) ∈ registry.limiters := by
  obtain ⟨front, rest, parted, _⟩ := List.lookup_eq_some_iff.mp found
  rw [parted]
  exact List.mem_append_right _ List.mem_cons_self

theorem entry_listed (registry : SharedLimiters governor) (relay : String) :
    (relay, (registry.entry relay).1) ∈ (registry.entry relay).2.limiters := by
  unfold entry
  split
  · rename_i found
    exact mem_of_lookup found
  · exact List.mem_append_right _ (List.mem_singleton_self _)

theorem entry_keeps (listed : (other, handle) ∈ registry.limiters) :
    (other, handle) ∈ (registry.entry relay).2.limiters := by
  unfold entry
  split
  · exact listed
  · exact List.mem_append_left _ listed

theorem entry_keys : (registry.entry relay).2.limiters.map Prod.fst =
    registry.limiters.map Prod.fst ++ if (registry.limiters.lookup relay).isSome then [] else [relay] := by
  unfold entry
  split
  · rename_i found
    simp [found]
  · rename_i absent
    simp [absent]

theorem Distinct.entry (distinct : registry.Distinct) (relay : String) : (registry.entry relay).2.Distinct := by
  unfold SharedLimiters.entry
  split
  · exact distinct
  · rename_i absent
    refine ⟨?_, ?_⟩
    · rw [List.map_append, List.map_singleton, List.nodup_append]
      refine ⟨distinct.keys, List.nodup_singleton _, ?_⟩
      intro key present new only
      obtain rfl := List.mem_singleton.mp only
      rintro rfl
      obtain ⟨entry, listed, rfl⟩ := List.mem_map.mp present
      rw [distinct.lookup listed] at absent
      cases absent
    · rw [List.map_append, distinct.handles, List.length_append, List.length_singleton, List.range_succ]
      rfl

/-- A call enters the plain registry. -/
theorem entry_plain (distinct : registry.Distinct) (relay : String) :
    (registry.entry relay).2.plain = registry.plain.enter relay := by
  have limiters : (registry.entry relay).2.limiter = Function.update registry.limiter relay
      (some ((registry.limiter relay).getD (governor.direct registry.reqsPerSecond))) := by
    unfold entry
    split
    · rename_i handle found
      have bound := distinct.bound (mem_of_lookup found)
      have present : registry.limiter relay = some registry.heap[handle] := by
        simp [limiter, found, List.getElem?_eq_getElem bound]
      rw [present, Option.getD_some, ← present, Function.update_eq_self]
    · rename_i absent
      have missing : registry.limiter relay = none := by simp [limiter, absent]
      rw [missing, Option.getD_none]
      funext other
      by_cases same : other = relay
      · subst same
        rw [Function.update_self]
        simp [limiter, List.lookup_append, absent]
      · rw [Function.update_of_ne same]
        unfold limiter
        dsimp only
        rw [List.lookup_append]
        cases found : registry.limiters.lookup other with
        | none => simp [List.lookup, beq_eq_false_iff_ne.mpr same]
        | some handle =>
          have bound := distinct.bound (mem_of_lookup found)
          simp [List.getElem?_append_left bound]
  have rest : (registry.entry relay).2.reqsPerSecond = registry.reqsPerSecond ∧
      (registry.entry relay).2.base = registry.base ∧ (registry.entry relay).2.cap = registry.cap ∧
      (registry.entry relay).2.failures = registry.failures := by
    unfold entry
    split <;> exact ⟨rfl, rfl, rfl, rfl⟩
  unfold plain RateLimiterRegistry.enter
  rw [limiters, rest.1, rest.2.1, rest.2.2.1, rest.2.2.2]

/-- A grant is made by the relay's own limiter, and no other relay sees it. -/
theorem limiter_set (distinct : registry.Distinct) (listed : (relay, handle) ∈ registry.limiters)
    (taken : governor.Limiter) : ({ registry with heap := registry.heap.set handle taken }).limiter =
      Function.update registry.limiter relay (some taken) := by
  funext other
  by_cases same : other = relay
  · subst same
    rw [Function.update_self]
    simp [limiter, distinct.lookup listed, List.getElem?_set_self (distinct.bound listed)]
  · rw [Function.update_of_ne same]
    unfold limiter
    dsimp only
    cases found : registry.limiters.lookup other with
    | none => rfl
    | some there =>
      have apart : handle ≠ there := by
        rintro rfl
        exact same (distinct.relay_eq (mem_of_lookup found) listed)
      simp [List.getElem?_set_ne apart]

end SharedLimiters

variable {state after : Acquiring governor} {relay : String} {reqsPerSecond : Nat} {base cap : Duration} {alpha : Rat}

/-- What holds of the registries after any calls, notices and resets. -/
structure Shared (reqsPerSecond : Nat) (state : Acquiring governor) : Prop where
  rate : state.registry.reqsPerSecond = reqsPerSecond
  distinct : state.registry.Distinct
  holds : ∀ call ∈ state.calls, (call.relay, call.handle) ∈ state.registry.limiters
  asked : ∀ relay, relay ∈ state.registry.limiters.map Prod.fst → relay ∈ state.calls.map AcquireCall.relay
  grants : ∀ relay, Grants governor.check (governor.direct reqsPerSecond) (state.grantsOf relay)
    ((state.registry.limiter relay).getD (governor.direct reqsPerSecond))
  ordered : state.granted.Pairwise fun earlier later => earlier.2 ≤ later.2
  past : ∀ grant ∈ state.granted, grant.2 ≤ state.now
  counted : ∀ relay, state.registry.plain.failureCount relay = min (state.noticed relay) (2 ^ 32 - 1)

namespace Shared

theorem fresh (governor : Governor) (reqsPerSecond : Nat) (base cap : Duration) (alpha : Rat) :
    Shared reqsPerSecond (.fresh governor reqsPerSecond base cap alpha) where
  rate := rfl
  distinct := ⟨.nil, rfl⟩
  holds := fun call none => by cases none
  asked := fun relay none => by cases none
  grants := fun relay => .none
  ordered := .nil
  past := fun grant none => by cases none
  counted := fun relay => rfl

private theorem set_relays {calls : List AcquireCall} {index : Nat} {old new : AcquireCall}
    (found : calls[index]? = some old) (same : new.relay = old.relay) :
    (calls.set index new).map AcquireCall.relay = calls.map AcquireCall.relay := by
  obtain ⟨bound, rfl⟩ := List.getElem?_eq_some_iff.mp found
  rw [List.map_set, same, ← List.getElem_map AcquireCall.relay]
  · exact List.set_getElem_self _
  · rwa [List.length_map]

private theorem set_holds {calls : List AcquireCall} {limiters : List (String × Nat)} {index : Nat} {old : AcquireCall}
    (holds : ∀ call ∈ calls, (call.relay, call.handle) ∈ limiters) (found : calls[index]? = some old) :
    ∀ call ∈ calls.set index { old with waits := false }, (call.relay, call.handle) ∈ limiters := by
  intro call member
  rcases List.mem_or_eq_of_mem_set member with there | rfl
  · exact holds call there
  · exact holds old (List.mem_of_getElem? found)

theorem call (shared : Shared reqsPerSecond state) (relay : String) : Shared reqsPerSecond (state.call relay) := by
  have plain := SharedLimiters.entry_plain shared.distinct relay
  refine ⟨?_, shared.distinct.entry relay, ?_, ?_, ?_, shared.ordered, shared.past, ?_⟩
  · exact (congrArg RateLimiterRegistry.reqsPerSecond plain).trans shared.rate
  · intro call member
    rcases List.mem_append.mp member with old | new
    · exact SharedLimiters.entry_keeps (shared.holds call old)
    · obtain rfl := List.mem_singleton.mp new
      exact SharedLimiters.entry_listed state.registry relay
  · intro key listed
    rw [show (state.call relay).calls.map AcquireCall.relay = state.calls.map AcquireCall.relay ++ [relay] by
      simp [Acquiring.call]]
    have keys : key ∈ (state.registry.entry relay).2.limiters.map Prod.fst := listed
    rw [SharedLimiters.entry_keys] at keys
    rcases List.mem_append.mp keys with old | new
    · exact List.mem_append_left _ (shared.asked key old)
    · split at new
      · cases new
      · exact List.mem_append_right _ new
  · intro key
    have kept : ((state.call relay).registry.limiter key).getD (governor.direct reqsPerSecond) =
        (state.registry.limiter key).getD (governor.direct reqsPerSecond) := by
      have limiters : (state.call relay).registry.limiter = (state.registry.plain.enter relay).limiters :=
        congrArg RateLimiterRegistry.limiters plain
      rw [limiters, RateLimiterRegistry.enter]
      by_cases same : key = relay
      · subst same
        simp [SharedLimiters.plain, shared.rate]
      · simp [SharedLimiters.plain, Function.update_of_ne same]
    rw [kept]
    exact shared.grants key
  · intro key
    exact (congrArg (fun registry => registry.failureCount key) plain).trans (shared.counted key)

theorem complete {call : AcquireCall} {limiter taken : governor.Limiter} (shared : Shared reqsPerSecond state)
    (found : state.calls[index]? = some call) (present : state.registry.heap[call.handle]? = some limiter)
    (token : governor.check limiter state.now = some taken) :
    Shared reqsPerSecond (state.complete index call taken) := by
  have listed := shared.holds call (List.mem_of_getElem? found)
  have limiters := SharedLimiters.limiter_set shared.distinct listed taken
  have own : state.registry.limiter call.relay = some limiter := by
    rw [SharedLimiters.limiter, shared.distinct.lookup listed]
    exact present
  refine ⟨shared.rate, ⟨shared.distinct.keys, ?_⟩, set_holds shared.holds found, ?_, ?_, ?_, ?_, shared.counted⟩
  · exact shared.distinct.handles.trans (by simp [Acquiring.complete])
  · intro key there
    rw [show (state.complete index call taken).calls.map AcquireCall.relay = state.calls.map AcquireCall.relay from
      set_relays found rfl]
    exact shared.asked key there
  · intro key
    rw [show (state.complete index call taken).registry.limiter =
      Function.update state.registry.limiter call.relay (some taken) from limiters]
    by_cases same : key = call.relay
    · subst same
      have more : (state.complete index call taken).grantsOf call.relay =
          state.grantsOf call.relay ++ [state.now] := by
        simp [Acquiring.grantsOf, Acquiring.complete]
      rw [more, Function.update_self, Option.getD_some]
      have before := shared.grants call.relay
      rw [own, Option.getD_some] at before
      exact .grant before token
    · have others : (state.complete index call taken).grantsOf key = state.grantsOf key := by
        simp [Acquiring.grantsOf, Acquiring.complete, Ne.symm same]
      rw [others, Function.update_of_ne same]
      exact shared.grants key
  · apply List.pairwise_append.mpr
    refine ⟨shared.ordered, List.pairwise_singleton _ _, ?_⟩
    intro earlier member last only
    obtain rfl := List.mem_singleton.mp only
    exact shared.past earlier member
  · intro grant member
    rcases List.mem_append.mp member with old | new
    · exact shared.past grant old
    · obtain rfl := List.mem_singleton.mp new
      exact le_refl _

theorem giveUp {call : AcquireCall} (shared : Shared reqsPerSecond state) (found : state.calls[index]? = some call) :
    Shared reqsPerSecond (state.giveUp index call) where
  rate := shared.rate
  distinct := shared.distinct
  holds := set_holds shared.holds found
  asked := by
    intro key there
    rw [show (state.giveUp index call).calls.map AcquireCall.relay = state.calls.map AcquireCall.relay from
      set_relays found rfl]
    exact shared.asked key there
  grants := shared.grants
  ordered := shared.ordered
  past := shared.past
  counted := shared.counted

/-- The notices are apart from the limiters. -/
private theorem withFailures (shared : Shared reqsPerSecond state) (failures : String → Option Nat)
    (health : RelayHealthRegistry) (noticed : String → Nat)
    (counted : ∀ relay, (failures relay).getD 0 = min (noticed relay) (2 ^ 32 - 1)) :
    Shared reqsPerSecond { state with
      registry := { state.registry with failures := failures }, health := health, noticed := noticed } where
  rate := shared.rate
  distinct := ⟨shared.distinct.keys, shared.distinct.handles⟩
  holds := shared.holds
  asked := shared.asked
  grants := shared.grants
  ordered := shared.ordered
  past := shared.past
  counted := counted

theorem message (shared : Shared reqsPerSecond state) (draw : Nat → Nat) (relay text : String) :
    Shared reqsPerSecond (state.message draw relay text) := by
  apply shared.withFailures
  intro key
  have before : (state.registry.failures key).getD 0 = min (state.noticed key) (2 ^ 32 - 1) := shared.counted key
  unfold handleRelayMessage RateLimiterRegistry.recordNotice
  cases kind : classifyNotice text with
  | rateLimited =>
    by_cases same : key = relay
    · subst same
      simp only [Function.update_self, Option.getD_some, RateLimiterRegistry.failureCount, SharedLimiters.plain]
      omega
    · simp only [Function.update_of_ne same]
      exact before
  | blocked => exact before
  | other => exact before

theorem reset (shared : Shared reqsPerSecond state) (relay : String) : Shared reqsPerSecond (state.reset relay) := by
  apply shared.withFailures
  intro key
  by_cases same : key = relay
  · subst same
    rw [Function.update_self, Function.update_self]
    rfl
  · rw [Function.update_of_ne same, Function.update_of_ne same]
    exact shared.counted key

theorem step (shared : Shared reqsPerSecond state) (step : AcquireStep state after) : Shared reqsPerSecond after := by
  cases step with
  | tick later =>
    exact ⟨shared.rate, shared.distinct, shared.holds, shared.asked, shared.grants, shared.ordered,
      fun grant member => (shared.past grant member).trans later, shared.counted⟩
  | call relay => exact shared.call relay
  | complete found waits present token => exact shared.complete found present token
  | giveUp found => exact shared.giveUp found
  | message draws relay text => exact shared.message _ relay text
  | reset relay => exact shared.reset relay

theorem run (run : Relation.ReflTransGen AcquireStep (.fresh governor reqsPerSecond base cap alpha) state) :
    Shared reqsPerSecond state := by
  induction run with
  | refl => exact fresh governor reqsPerSecond base cap alpha
  | tail _ step ih => exact ih.step step

end Shared

/-- A message changes nothing of the limits but the notices. -/
theorem handleRelayMessage_limits (registries : SharedRegistries governor) (draw : Nat → Nat) (relay text : String) :
    (handleRelayMessage registries draw relay text).limits = { registries.limits with
      failures := (handleRelayMessage registries draw relay text).limits.failures } := by
  unfold handleRelayMessage RateLimiterRegistry.recordNotice
  cases classifyNotice text <;> rfl

/-- Each step is one of the plain registries, or none where a call is given up. -/
theorem AcquireStep.plain (shared : Shared reqsPerSecond state) (step : AcquireStep state after)
    (deadline : String → Instant) : ∃ ending,
    Relation.ReflTransGen (NoticeStep fun _ _ _ => True) (state.moment deadline) (after.moment ending) := by
  cases step with
  | tick later => exact ⟨deadline, .single (.tick later)⟩
  | call relay =>
    refine ⟨deadline, .single ?_⟩
    have same : (state.call relay).moment deadline =
        (state.moment deadline).withLimits ((state.moment deadline).registries.limits.enter relay) := by
      unfold Acquiring.moment Moment.withLimits
      rw [← SharedLimiters.entry_plain shared.distinct relay]
      rfl
    rw [same]
    exact .call relay
  | @complete index call limiter taken found waits present token =>
    refine ⟨deadline, .single ?_⟩
    have listed := shared.holds call (List.mem_of_getElem? found)
    have own : state.registry.plain.limiters call.relay = some limiter := by
      rw [show state.registry.plain.limiters = state.registry.limiter from rfl, SharedLimiters.limiter,
        shared.distinct.lookup listed]
      exact present
    have same : (state.complete index call taken).registry.plain = { state.registry.plain with
        limiters := Function.update state.registry.plain.limiters call.relay (some taken) } := by
      have limiters := SharedLimiters.limiter_set shared.distinct listed taken
      unfold SharedLimiters.plain Acquiring.complete
      rw [limiters]
    have moved : (state.complete index call taken).moment deadline = (state.moment deadline).withLimits _ :=
      congrArg (fun limits => (state.moment deadline).withLimits limits) same
    rw [moved]
    exact .complete call.relay (RateLimiterRegistry.untilReady_of_check own token)
  | giveUp found => exact ⟨deadline, .refl⟩
  | @message draw draws relay text =>
    refine ⟨((state.moment deadline).notice draw relay text).deadline, .single ?_⟩
    have same : (state.message draw relay text).moment ((state.moment deadline).notice draw relay text).deadline =
        (state.moment deadline).notice draw relay text := by
      have limits := handleRelayMessage_limits ⟨state.registry.plain, state.health⟩ draw relay text
      have whole : handleRelayMessage ⟨state.registry.plain, state.health⟩ draw relay text =
          ⟨(state.message draw relay text).registry.plain, (state.message draw relay text).health⟩ := by
        rw [show (state.message draw relay text).registry.plain = { state.registry.plain with
          failures := (handleRelayMessage ⟨state.registry.plain, state.health⟩ draw relay text).limits.failures } from
          rfl, ← limits]
        rfl
      unfold Moment.notice
      rw [show (state.moment deadline).registries = ⟨state.registry.plain, state.health⟩ from rfl, whole]
      rfl
    rw [same]
    exact .message draws relay text fun _ _ => trivial
  | reset relay => exact ⟨_, .single (.reset relay)⟩

/-- Any number of calls of `acquire`, at any relays, some of them given up, share the limiters. Whatever a governor
promises for one limiter that is asked again and again holds of each relay; a relay has a limiter if it was ever
asked for, and the count of the limiters is that of these relays; the failures of a relay are its notices since the
last reset, up to the width of the counter; and all of it is a run of the registries with their limiters in place. -/
theorem quota_shared {quota : ℕ → ℕ} (metered : Metered governor.check (governor.direct reqsPerSecond) quota)
    (run : Relation.ReflTransGen AcquireStep (.fresh governor reqsPerSecond base cap alpha) state) :
    (∀ relay origin width, (windowed origin width (state.grantsOf relay)).length ≤ quota width) ∧
    (∀ relay, state.registry.hasLimiter relay = true ↔ ∃ call ∈ state.calls, call.relay = relay) ∧
    state.registry.activeRelayCount = (state.calls.map AcquireCall.relay).toFinset.card ∧
    (∀ relay, state.registry.plain.failureCount relay = min (state.noticed relay) (2 ^ 32 - 1)) ∧
    ∃ deadline, Relation.ReflTransGen (NoticeStep fun _ _ _ => True)
      (.fresh governor reqsPerSecond base cap alpha) (state.moment deadline) := by
  have shared := Shared.run run
  have keys (relay : String) : relay ∈ state.registry.limiters.map Prod.fst ↔
      relay ∈ state.calls.map AcquireCall.relay := by
    refine ⟨shared.asked relay, ?_⟩
    intro asked
    obtain ⟨call, member, rfl⟩ := List.mem_map.mp asked
    exact List.mem_map_of_mem (shared.holds call member)
  refine ⟨?_, ?_, ?_, shared.counted, ?_⟩
  · intro relay origin width
    apply metered _ _ (shared.grants relay)
    exact List.Pairwise.map _ (fun _ _ earlier => earlier) (shared.ordered.filter _)
  · intro relay
    rw [SharedLimiters.hasLimiter, Option.isSome_iff_exists, ← List.mem_map, ← keys relay]
    constructor
    · intro found
      obtain ⟨handle, found⟩ := found
      exact List.mem_map_of_mem (SharedLimiters.mem_of_lookup found)
    · intro listed
      obtain ⟨entry, member, rfl⟩ := List.mem_map.mp listed
      exact ⟨entry.2, shared.distinct.lookup member⟩
  · have same : (state.registry.limiters.map Prod.fst).toFinset = (state.calls.map AcquireCall.relay).toFinset := by
      ext relay
      rw [List.mem_toFinset, List.mem_toFinset]
      exact keys relay
    rw [← same, List.toFinset_card_of_nodup shared.distinct.keys, List.length_map]
    rfl
  · clear keys shared
    induction run with
    | refl => exact ⟨fun _ => 0, .refl⟩
    | tail run step ih =>
      obtain ⟨deadline, earlier⟩ := ih
      obtain ⟨ending, more⟩ := step.plain (Shared.run run) deadline
      exact ⟨ending, earlier.trans more⟩

section Example

/-- The generic cell rate algorithm spaces its grants. -/
theorem gcra_cellRate (period tolerance : Nat) : CellRate gcra.check
    (fun limiter => limiter.period = period ∧ limiter.tolerance = tolerance) (fun limiter => limiter.tat.getD 0)
    period tolerance := by
  have granted (limiter : Gcra) (now : Instant) (taken : Gcra) (token : gcra.check limiter now = some taken) :
      limiter.tat.getD now ≤ now + limiter.tolerance ∧
        taken = { limiter with tat := some (max (limiter.tat.getD now) now + limiter.period) } := by
    simp only [gcra] at token
    split at token
    · cases token
    · rename_i early
      exact ⟨Nat.sub_le_iff_le_add.mp (not_lt.mp early), (Option.some.inj token).symm⟩
  have arrived (limiter : Gcra) (now : Instant) : limiter.tat.getD 0 ≤ limiter.tat.getD now := by
    cases limiter.tat with
    | none => exact Nat.zero_le _
    | some tat => exact le_refl tat
  refine ⟨?_, ?_, ?_⟩
  · intro limiter now taken valid token
    obtain ⟨_, rfl⟩ := granted limiter now taken token
    exact valid
  · intro limiter now taken valid token
    obtain ⟨rfl, rfl⟩ := valid
    exact (arrived limiter now).trans (granted limiter now taken token).1
  · intro limiter now taken valid token
    obtain ⟨rfl, rfl⟩ := valid
    obtain ⟨_, rfl⟩ := granted limiter now taken token
    exact Nat.add_le_add_right (max_le_max (arrived limiter now) (le_refl now)) _

/-- A limiter of so many requests per second lets, in any window, through what its burst and its rate allow. -/
theorem gcra_metered {reqsPerSecond : Nat} (positive : 0 < reqsPerSecond) (few : reqsPerSecond ≤ secs 1) :
    Metered gcra.check (gcra.direct reqsPerSecond) fun width =>
      width / (secs 1 / reqsPerSecond) + reqsPerSecond := by
  have period : 0 < secs 1 / reqsPerSecond := Nat.div_pos few positive
  have metered := (gcra_cellRate (secs 1 / reqsPerSecond) (secs 1 / reqsPerSecond * (reqsPerSecond - 1))).metered period
    (⟨rfl, rfl⟩ : (gcra.direct reqsPerSecond).period = _ ∧ _)
  intro instants limiter grants ordered origin width
  have bounded := metered instants limiter grants ordered origin width
  dsimp only at bounded
  rwa [Nat.add_mul_div_left _ _ period, Nat.add_assoc, Nat.sub_add_cancel positive] at bounded

/-- Two calls wait for one relay. -/
private def twoWait : Acquiring gcra :=
  ((Acquiring.fresh gcra defaultReqsPerSecond defaultBackoffBase defaultBackoffCap (3 / 10)).call "wss://relay").call
    "wss://relay"

/-- The theorem at two calls that wait side by side, of which one is let through and the other given up. -/
theorem quota_shared_pair : ∃ state : Acquiring gcra,
    state.grantsOf "wss://relay" = [0] ∧ state.registry.activeRelayCount = 1 ∧
    (windowed 0 (secs 1) (state.grantsOf "wss://relay")).length ≤ secs 1 / (secs 1 / 4) + 4 := by
  obtain ⟨taken, token⟩ := gcra_grants defaultReqsPerSecond 0
  have called : Relation.ReflTransGen AcquireStep
      (.fresh gcra defaultReqsPerSecond defaultBackoffBase defaultBackoffCap (3 / 10)) twoWait :=
    (Relation.ReflTransGen.single (.call "wss://relay")).tail (.call "wss://relay")
  have second : twoWait.calls[1]? = some ⟨"wss://relay", 0, true⟩ := rfl
  have granted := called.tail (.complete second rfl rfl token)
  have first : (twoWait.complete 1 ⟨"wss://relay", 0, true⟩ taken).calls[0]? = some ⟨"wss://relay", 0, true⟩ := rfl
  have given := granted.tail (.giveUp first)
  have metered := gcra_metered (Nat.succ_pos 3) (by decide : 4 ≤ secs 1)
  obtain ⟨bounded, _, counted, _⟩ := quota_shared metered given
  refine ⟨_, rfl, ?_, bounded "wss://relay" 0 (secs 1)⟩
  rw [counted]
  rfl

end Example

end WotCrawler.Relay
