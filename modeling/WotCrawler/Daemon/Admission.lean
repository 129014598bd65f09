import WotCrawler.Relay.Health
import WotCrawler.Sequence.Roster

/-! Batches at the daemon's gates: the crawl's permits, the admission of each relay, and its
semaphores. Every lock section, acquire and release is one step. -/

namespace WotCrawler.Daemon

open Relay Sequence

/-- Which of the daemon's closures fetches. -/
inductive Source where
  | fanOut
  | relayListFetch
  | fallbackFetch
deriving DecidableEq

structure Visit where
  relay : String
  source : Source
deriving DecidableEq

/-- A semaphore: an entry of `per_relay_sems` or of `fallback_sems`. -/
inductive SemKey where
  | perRelay (relay : String)
  | fallback (relay : String)
deriving DecidableEq

structure Limits where
  relays : List String
  concurrency : Nat
  perRelayConcurrency : Nat

/-- The semaphore a closure looks up. -/
def Visit.sem (limits : Limits) (visit : Visit) : SemKey :=
  match visit.source with
  | .fanOut => .perRelay visit.relay
  | .relayListFetch => if visit.relay ∈ limits.relays then .perRelay visit.relay else .fallback visit.relay
  | .fallbackFetch => .fallback visit.relay

/-- Where a visit stands in `admit_per_relay`: before and between the two reads of the gate, at the
semaphore, past it, and in the fetch, which takes a token for each window; then out again. -/
inductive Phase where
  | polling
  | comparing (inUse : Nat)
  | waiting
  | permitted
  | token
  | fetching
  | fetched
  | releasing
deriving DecidableEq

/-- Where a batch stands, with the visits it still plans. -/
inductive Stage where
  | queued (plan : List Visit)
  | idle (plan : List Visit)
  | visiting (phase : Phase) (visit : Visit) (rest : List Visit)
  | finished
deriving DecidableEq

/-- What the batches share: the free permits of the crawl and of each relay, the counters and scores. -/
structure Gates where
  crawl : Nat
  sems : SemKey → Nat
  inUse : String → Nat
  health : RelayHealthRegistry

/-- A step that takes a batch on. A visit may be skipped, for a degraded relay or after an error. -/
inductive Turn (limits : Limits) : Gates → Stage → Gates → Stage → Prop where
  | enter (free : 0 < gates.crawl) :
      Turn limits gates (.queued plan) { gates with crawl := gates.crawl - 1 } (.idle plan)
  | skip : Turn limits gates (.idle (visit :: rest)) gates (.idle rest)
  | visit : Turn limits gates (.idle (visit :: rest)) gates (.visiting .polling visit rest)
  | pass (admits : gates.health.admits visit.relay seen limits.perRelayConcurrency = true) :
      Turn limits gates (.visiting (.comparing seen) visit rest) gates (.visiting .waiting visit rest)
  | acquire (free : 0 < gates.sems (visit.sem limits)) :
      Turn limits gates (.visiting .waiting visit rest)
        { gates with sems := Function.update gates.sems (visit.sem limits) (gates.sems (visit.sem limits) - 1) }
        (.visiting .permitted visit rest)
  | incrInUse :
      Turn limits gates (.visiting .permitted visit rest)
        { gates with inUse := Function.update gates.inUse visit.relay (min (gates.inUse visit.relay + 1) (2 ^ 32 - 1)) }
        (.visiting .token visit rest)
  | grant : Turn limits gates (.visiting .token visit rest) gates (.visiting .fetching visit rest)
  | window : Turn limits gates (.visiting .fetching visit rest) gates (.visiting .token visit rest)
  | fetched : Turn limits gates (.visiting .fetching visit rest) gates (.visiting .fetched visit rest)
  | expire : Turn limits gates (.visiting .token visit rest) gates (.visiting .fetched visit rest)
  | decrInUse :
      Turn limits gates (.visiting .fetched visit rest)
        { gates with inUse := Function.update gates.inUse visit.relay (gates.inUse visit.relay - 1) }
        (.visiting .releasing visit rest)
  | release :
      Turn limits gates (.visiting .releasing visit rest)
        { gates with sems := Function.update gates.sems (visit.sem limits) (gates.sems (visit.sem limits) + 1) }
        (.idle rest)
  | leave : Turn limits gates (.idle []) { gates with crawl := gates.crawl + 1 } .finished

/-- A step of the admission loop that takes a batch nowhere: it reads the counter, or finds the
relay at its share and sleeps. -/
inductive Poll (limits : Limits) (gates : Gates) : Stage → Stage → Prop where
  | read : Poll limits gates (.visiting .polling visit rest) (.visiting (.comparing (gates.inUse visit.relay)) visit rest)
  | refuse (full : gates.health.admits visit.relay seen limits.perRelayConcurrency = false) :
      Poll limits gates (.visiting (.comparing seen) visit rest) (.visiting .polling visit rest)

structure Fleet where
  gates : Gates
  batches : List Stage

namespace Fleet

variable {limits : Limits} {fleet after : Fleet}

/-- The batch at an index takes a step that leads on. -/
def Moves (limits : Limits) (index : Nat) (before after : Fleet) : Prop :=
  ∃ stage next, before.batches[index]? = some stage ∧ Turn limits before.gates stage after.gates next ∧
    after.batches = before.batches.set index next

/-- The batch at an index takes a step of its admission loop. -/
def Polls (limits : Limits) (index : Nat) (before after : Fleet) : Prop :=
  ∃ stage next, before.batches[index]? = some stage ∧ Poll limits before.gates stage next ∧
    after = ⟨before.gates, before.batches.set index next⟩

/-- The fetches of a relay in flight, from their first token on. -/
def inFlight (fleet : Fleet) (relay : String) : Nat :=
  fleet.batches.countP fun stage => match stage with
    | .visiting .token visit _ => visit.relay = relay
    | .visiting .fetching visit _ => visit.relay = relay
    | _ => false

end Fleet

/-- Every score lies in the unit interval. -/
def Scored (health : RelayHealthRegistry) : Prop := ∀ relay, 0 ≤ health.score relay ∧ health.score relay ≤ 1

/-- The states reached from the start, when each batch is given its visits: a batch moves on, as
the condition allows, or polls, and the scores change. -/
inductive Gated (limits : Limits) (meets : Fleet → Stage → Prop) : Fleet → Prop where
  | start (scored : Scored health) (plans : List (List Visit)) :
      Gated limits meets
        ⟨⟨limits.concurrency, fun _ => limits.perRelayConcurrency, fun _ => 0, health⟩, plans.map .queued⟩
  | move (run : Gated limits meets fleet) (found : fleet.batches[index]? = some stage)
      (turn : Turn limits fleet.gates stage gates next) (met : meets fleet next) :
      Gated limits meets ⟨gates, fleet.batches.set index next⟩
  | poll (run : Gated limits meets fleet) (found : fleet.batches[index]? = some stage)
      (poll : Poll limits fleet.gates stage next) :
      Gated limits meets ⟨fleet.gates, fleet.batches.set index next⟩
  | rescore (run : Gated limits meets fleet) (scored : Scored health) :
      Gated limits meets ⟨{ fleet.gates with health := health }, fleet.batches⟩

/-- A visit in this phase has a permit of its semaphore. -/
def Phase.permit : Phase → Bool
  | .polling => false
  | .comparing _ => false
  | .waiting => false
  | _ => true

/-- It is counted as in use. -/
def Phase.counted : Phase → Bool
  | .token => true
  | .fetching => true
  | .fetched => true
  | _ => false

namespace Stage

/-- The batch has a permit of the crawl. -/
def inside : Stage → Bool
  | .idle _ => true
  | .visiting _ _ _ => true
  | _ => false

/-- The batch has a permit of a semaphore. -/
def holds (limits : Limits) (key : SemKey) : Stage → Bool
  | .visiting phase visit _ => phase.permit && visit.sem limits = key
  | _ => false

/-- The batch is counted in a relay's counter. -/
def uses (relay : String) : Stage → Bool
  | .visiting phase visit _ => phase.counted && visit.relay = relay
  | _ => false

end Stage

/-- The permits add up, and no counter is above the fetches it counts. -/
structure Reckoned (limits : Limits) (fleet : Fleet) : Prop where
  crawl : Conserved Stage.inside fleet.batches limits.concurrency fleet.gates.crawl
  sems : ∀ key, Conserved (Stage.holds limits key) fleet.batches limits.perRelayConcurrency (fleet.gates.sems key)
  inUse : ∀ relay, fleet.gates.inUse relay ≤ fleet.batches.countP (Stage.uses relay)
  scored : Scored fleet.gates.health

namespace Reckoned

variable {limits : Limits} {fleet : Fleet} {gates : Gates} {stage next : Stage} {index : Nat}

/-- A step of a batch that stays counted as it was. -/
private theorem inUse_keep (reckoned : Reckoned limits fleet) (found : fleet.batches[index]? = some stage)
    (uses : ∀ relay, next.uses relay = stage.uses relay) (relay : String) :
    fleet.gates.inUse relay ≤ (fleet.batches.set index next).countP (Stage.uses relay) := by
  rw [countP_set_same found (uses relay)]
  exact reckoned.inUse relay

/-- A step that changes no permit and no counter. -/
private theorem keep (reckoned : Reckoned limits fleet) (found : fleet.batches[index]? = some stage)
    (inside : next.inside = stage.inside) (holds : ∀ key, next.holds limits key = stage.holds limits key)
    (uses : ∀ relay, next.uses relay = stage.uses relay) :
    Reckoned limits ⟨fleet.gates, fleet.batches.set index next⟩ where
  crawl := reckoned.crawl.keep found inside
  sems := fun key => (reckoned.sems key).keep found (holds key)
  inUse := reckoned.inUse_keep found uses
  scored := reckoned.scored

theorem start {health : RelayHealthRegistry} (scored : Scored health) (plans : List (List Visit)) :
    Reckoned limits
      ⟨⟨limits.concurrency, fun _ => limits.perRelayConcurrency, fun _ => 0, health⟩, plans.map .queued⟩ := by
  have queued (stage : Stage) (member : stage ∈ plans.map Stage.queued) : ∃ plan, .queued plan = stage := by
    obtain ⟨plan, _, same⟩ := List.mem_map.mp member
    exact ⟨plan, same⟩
  refine ⟨.of_idle _ ?_, fun key => .of_idle _ ?_, fun relay => Nat.zero_le _, scored⟩
  · intro stage member
    obtain ⟨plan, rfl⟩ := queued stage member
    rfl
  · intro stage member
    obtain ⟨plan, rfl⟩ := queued stage member
    rfl

theorem poll (reckoned : Reckoned limits fleet) (found : fleet.batches[index]? = some stage)
    (poll : Poll limits fleet.gates stage next) : Reckoned limits ⟨fleet.gates, fleet.batches.set index next⟩ := by
  cases poll with
  | read => exact reckoned.keep found rfl (fun _ => rfl) (fun _ => rfl)
  | refuse full => exact reckoned.keep found rfl (fun _ => rfl) (fun _ => rfl)

/-- A permit of a semaphore is taken or given back. -/
private theorem sems_update (reckoned : Reckoned limits fleet) (found : fleet.batches[index]? = some stage)
    {key : SemKey} {count : Nat} (here : Conserved (Stage.holds limits key) (fleet.batches.set index next)
      limits.perRelayConcurrency count)
    (others : ∀ other, other ≠ key → next.holds limits other = stage.holds limits other) (other : SemKey) :
    Conserved (Stage.holds limits other) (fleet.batches.set index next) limits.perRelayConcurrency
      (Function.update fleet.gates.sems key count other) := by
  by_cases same : other = key
  · subst same
    rwa [Function.update_self]
  · rw [Function.update_of_ne same]
    exact (reckoned.sems other).keep found (others other same)

/-- A relay's counter changes. -/
private theorem inUse_update (reckoned : Reckoned limits fleet) (found : fleet.batches[index]? = some stage)
    {relay : String} {count : Nat} (here : count ≤ (fleet.batches.set index next).countP (Stage.uses relay))
    (others : ∀ other, other ≠ relay → next.uses other = stage.uses other) (other : String) :
    Function.update fleet.gates.inUse relay count other ≤
      (fleet.batches.set index next).countP (Stage.uses other) := by
  by_cases same : other = relay
  · subst same
    rwa [Function.update_self]
  · rw [Function.update_of_ne same, countP_set_same found (others other same)]
    exact reckoned.inUse other

theorem move (reckoned : Reckoned limits fleet) (found : fleet.batches[index]? = some stage)
    (turn : Turn limits fleet.gates stage gates next) : Reckoned limits ⟨gates, fleet.batches.set index next⟩ := by
  cases turn with
  | enter free =>
    refine ⟨reckoned.crawl.take found rfl rfl free, fun key => (reckoned.sems key).keep found rfl,
      reckoned.inUse_keep found fun _ => rfl, reckoned.scored⟩
  | leave =>
    refine ⟨reckoned.crawl.give found rfl rfl, fun key => (reckoned.sems key).keep found rfl,
      reckoned.inUse_keep found fun _ => rfl, reckoned.scored⟩
  | skip => exact reckoned.keep found rfl (fun _ => rfl) (fun _ => rfl)
  | visit => exact reckoned.keep found rfl (fun _ => rfl) (fun _ => rfl)
  | pass admits => exact reckoned.keep found rfl (fun _ => rfl) (fun _ => rfl)
  | grant => exact reckoned.keep found rfl (fun _ => rfl) (fun _ => rfl)
  | window => exact reckoned.keep found rfl (fun _ => rfl) (fun _ => rfl)
  | fetched => exact reckoned.keep found rfl (fun _ => rfl) (fun _ => rfl)
  | expire => exact reckoned.keep found rfl (fun _ => rfl) (fun _ => rfl)
  | acquire free =>
    refine ⟨reckoned.crawl.keep found rfl, ?_, reckoned.inUse_keep found fun _ => rfl, reckoned.scored⟩
    apply reckoned.sems_update found
    · exact (reckoned.sems _).take found rfl (decide_eq_true rfl) free
    · intro other apart
      exact decide_eq_false apart.symm
  | release =>
    refine ⟨reckoned.crawl.keep found rfl, ?_, reckoned.inUse_keep found fun _ => rfl, reckoned.scored⟩
    apply reckoned.sems_update found
    · exact (reckoned.sems _).give found (decide_eq_true rfl) rfl
    · intro other apart
      exact (decide_eq_false apart.symm).symm
  | incrInUse =>
    refine ⟨reckoned.crawl.keep found rfl, fun key => (reckoned.sems key).keep found rfl, ?_, reckoned.scored⟩
    apply reckoned.inUse_update found
    · rw [countP_set_add found rfl (decide_eq_true rfl)]
      exact (min_le_left _ _).trans (Nat.succ_le_succ (reckoned.inUse _))
    · intro other apart
      exact decide_eq_false apart.symm
  | decrInUse =>
    refine ⟨reckoned.crawl.keep found rfl, fun key => (reckoned.sems key).keep found rfl, ?_, reckoned.scored⟩
    apply reckoned.inUse_update found
    · apply Nat.sub_le_of_le_add
      refine le_of_le_of_eq (reckoned.inUse _) (countP_set_sub found ?_ rfl).symm
      exact decide_eq_true rfl
    · intro other apart
      exact (decide_eq_false apart.symm).symm

/-- The books of every state reached. -/
theorem of_gated {meets : Fleet → Stage → Prop} (run : Gated limits meets fleet) : Reckoned limits fleet := by
  induction run with
  | start scored plans => exact start scored plans
  | move run found turn met ih => exact ih.move found turn
  | poll run found poll ih => exact ih.poll found poll
  | rescore run scored ih => exact ⟨ih.crawl, ih.sems, ih.inUse, scored⟩

end Reckoned

end WotCrawler.Daemon
