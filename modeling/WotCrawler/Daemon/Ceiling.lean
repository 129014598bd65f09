import WotCrawler.Daemon.Admission

/-! What the gates guarantee: the ceiling on the fetches of one relay, and that they never lock up. -/

namespace WotCrawler.Daemon

open Relay Sequence

variable {limits : Limits} {fleet : Fleet} {stage next : Stage} {index : Nat}

section Ceiling

/-- A visit of a relay uses the semaphore that every visit of that relay in progress uses. -/
def Agrees (limits : Limits) (visit : Visit) (batches : List Stage) : Prop :=
  ∀ phase other rest, Stage.visiting phase other rest ∈ batches → other.relay = visit.relay →
    other.sem limits = visit.sem limits

/-- No visit begins at a relay that another batch visits through the other semaphore. -/
def OneDoor (limits : Limits) (fleet : Fleet) (next : Stage) : Prop :=
  ∀ visit rest, next = .visiting .polling visit rest → Agrees limits visit fleet.batches

/-- All visits in progress agree. -/
def Uniform (limits : Limits) (batches : List Stage) : Prop :=
  ∀ phase visit rest, Stage.visiting phase visit rest ∈ batches → Agrees limits visit batches

/-- A batch that visits no relay, or goes on with its visit, keeps the agreement. -/
private theorem Uniform.keep (uniform : Uniform limits fleet.batches)
    (same : ∀ phase visit rest, next = .visiting phase visit rest →
      ∃ phase rest, .visiting phase visit rest ∈ fleet.batches) :
    Uniform limits (fleet.batches.set index next) := by
  have stands (phase : Phase) (visit : Visit) (rest : List Visit)
      (member : Stage.visiting phase visit rest ∈ fleet.batches.set index next) :
      ∃ phase rest, .visiting phase visit rest ∈ fleet.batches := by
    rcases List.mem_or_eq_of_mem_set member with old | new
    · exact ⟨phase, rest, old⟩
    · exact same phase visit rest new.symm
  intro phase visit rest member phase' other rest' there relay
  obtain ⟨first, plan, here⟩ := stands phase visit rest member
  obtain ⟨second, later, beside⟩ := stands phase' other rest' there
  exact uniform first visit plan here second other later beside relay

/-- A visit that agrees with those in progress may begin. -/
private theorem Uniform.visit {visit : Visit} {rest : List Visit} (uniform : Uniform limits fleet.batches)
    (agrees : Agrees limits visit fleet.batches) :
    Uniform limits (fleet.batches.set index (.visiting .polling visit rest)) := by
  intro phase first plan member phase' second later there relay
  rcases List.mem_or_eq_of_mem_set member with old | new
  · rcases List.mem_or_eq_of_mem_set there with beside | begun
    · exact uniform phase first plan old phase' second later beside relay
    · obtain ⟨_, rfl, _⟩ := Stage.visiting.inj begun
      exact (agrees phase first plan old relay.symm).symm
  · obtain ⟨_, rfl, _⟩ := Stage.visiting.inj new
    rcases List.mem_or_eq_of_mem_set there with beside | begun
    · exact agrees phase' second later beside relay
    · obtain ⟨_, rfl, _⟩ := Stage.visiting.inj begun
      rfl

/-- Along a run whose visits begin as the condition says, all visits agree. -/
theorem uniform_of_gated (run : Gated limits (OneDoor limits) fleet) : Uniform limits fleet.batches := by
  induction run with
  | start scored plans =>
    intro phase visit rest member
    obtain ⟨plan, _, same⟩ := List.mem_map.mp member
    cases same
  | move run found turn met ih =>
    have member := List.mem_of_getElem? found
    cases turn with
    | visit => exact ih.visit (met _ _ rfl)
    | enter => exact ih.keep fun _ _ _ same => by cases same
    | skip => exact ih.keep fun _ _ _ same => by cases same
    | release => exact ih.keep fun _ _ _ same => by cases same
    | leave => exact ih.keep fun _ _ _ same => by cases same
    | _ =>
      apply ih.keep
      intro phase visit rest same
      obtain ⟨_, rfl, _⟩ := Stage.visiting.inj same
      exact ⟨_, _, member⟩
  | poll run found poll ih =>
    have member := List.mem_of_getElem? found
    cases poll with
    | _ =>
      apply ih.keep
      intro phase visit rest same
      obtain ⟨_, rfl, _⟩ := Stage.visiting.inj same
      exact ⟨_, _, member⟩
  | rescore run scored ih => exact ih

/-- The hard ceiling: along every run in which no visit begins at a relay that is visited through
the other semaphore, at most the configured number of fetches of a relay are in flight at once. -/
theorem in_flight_le (run : Gated limits (OneDoor limits) fleet) (relay : String) :
    fleet.inFlight relay ≤ limits.perRelayConcurrency := by
  have uniform := uniform_of_gated run
  have reckoned := Reckoned.of_gated run
  by_cases visited : ∃ phase visit rest, .visiting phase visit rest ∈ fleet.batches ∧ visit.relay = relay
  · obtain ⟨phase, visit, rest, here, rfl⟩ := visited
    refine le_trans ?_ (reckoned.sems (visit.sem limits)).held_le
    apply List.countP_mono_left
    intro stage member flies
    cases stage with
    | visiting phase' other rest' =>
      cases phase' with
      | token => exact decide_eq_true (uniform _ _ _ here _ _ _ member (of_decide_eq_true flies))
      | fetching => exact decide_eq_true (uniform _ _ _ here _ _ _ member (of_decide_eq_true flies))
      | _ => cases flies
    | _ => cases flies
  · have none : fleet.inFlight relay = 0 := by
      apply List.countP_eq_zero.mpr
      intro stage member flies
      cases stage with
      | visiting phase other rest =>
        cases phase with
        | token => exact visited ⟨_, other, rest, member, of_decide_eq_true flies⟩
        | fetching => exact visited ⟨_, other, rest, member, of_decide_eq_true flies⟩
        | _ => cases flies
      | _ => cases flies
    rw [none]
    exact Nat.zero_le _

/-- Fallback fetches go to relays outside the curated set only, and the other fetches to it. -/
def Apart (limits : Limits) (_ : Fleet) (next : Stage) : Prop :=
  ∀ visit rest, next = .visiting .polling visit rest →
    (visit.source = .fallbackFetch ↔ visit.relay ∉ limits.relays)

/-- Where the two sets are apart, each relay has one semaphore. -/
private theorem sem_of_apart {visit : Visit} (apart : visit.source = .fallbackFetch ↔ visit.relay ∉ limits.relays) :
    visit.sem limits = if visit.relay ∈ limits.relays then .perRelay visit.relay else .fallback visit.relay := by
  unfold Visit.sem
  cases source : visit.source with
  | fanOut =>
    have curated : visit.relay ∈ limits.relays := by
      by_contra outside
      cases source.symm.trans (apart.mpr outside)
    rw [if_pos curated]
  | relayListFetch => rfl
  | fallbackFetch => rw [if_neg (apart.mp source)]

/-- So a crawl whose authors name no curated relay as a write relay meets the condition. -/
theorem Gated.oneDoor (run : Gated limits (Apart limits) fleet) : Gated limits (OneDoor limits) fleet ∧
    ∀ phase visit rest, Stage.visiting phase visit rest ∈ fleet.batches →
      (visit.source = .fallbackFetch ↔ visit.relay ∉ limits.relays) := by
  induction run with
  | start scored plans =>
    refine ⟨.start scored plans, ?_⟩
    intro phase visit rest member
    obtain ⟨plan, _, same⟩ := List.mem_map.mp member
    cases same
  | @move fleet index stage gates next run found turn met ih =>
    obtain ⟨reached, apart⟩ := ih
    refine ⟨reached.move found turn ?_, ?_⟩
    · rintro visit rest rfl phase other plan member relay
      rw [sem_of_apart (apart phase other plan member), sem_of_apart (met visit rest rfl), relay]
    · intro phase visit rest member
      rcases List.mem_or_eq_of_mem_set member with old | rfl
      · exact apart phase visit rest old
      · have here := List.mem_of_getElem? found
        cases turn with
        | visit => exact met visit rest rfl
        | _ => exact apart _ visit rest here
  | @poll fleet index stage next run found poll ih =>
    obtain ⟨reached, apart⟩ := ih
    refine ⟨reached.poll found poll, ?_⟩
    intro phase visit rest member
    rcases List.mem_or_eq_of_mem_set member with old | rfl
    · exact apart phase visit rest old
    · have here := List.mem_of_getElem? found
      cases poll with
      | _ => exact apart _ visit rest here
  | rescore run scored ih => exact ⟨ih.1.rescore scored, ih.2⟩

section Example

private def sampleRelay : String := "wss://relay.example"

/-- One curated relay with one permit, and two batches at a time. -/
private def sampleLimits : Limits := ⟨[sampleRelay], 2, 1⟩

private def healthy : RelayHealthRegistry := .new .binary64 1

private theorem healthy_scored : Scored healthy := by
  intro relay
  have full : healthy.score relay = 1 := rfl
  rw [full]
  norm_num

private theorem healthy_admits : healthy.admits sampleRelay 0 sampleLimits.perRelayConcurrency = true := by
  have full : healthy.score sampleRelay = 1 := rfl
  exact RelayHealthRegistry.admits_idle (by decide) (by decide) (by rw [full])

/-- The fan-out fetches from the curated relay. -/
private def fanOutVisit : Visit := ⟨sampleRelay, .fanOut⟩

/-- Some author names it as a write relay. -/
private def fallbackVisit : Visit := ⟨sampleRelay, .fallbackFetch⟩

/-- The condition allows every step but the start of another visit. -/
private def Allows (meets : Fleet → Stage → Prop) (visit : Visit) : Prop :=
  ∀ fleet next, (∀ other rest, next = .visiting .polling other rest → other = visit) → meets fleet next

/-- A batch that is queued goes on until it has read the counter for its first visit. -/
private theorem reads {meets : Fleet → Stage → Prop} {visit : Visit} (run : Gated sampleLimits meets fleet)
    (met : Allows meets visit) (found : fleet.batches[index]? = some (.queued [visit])) (free : 0 < fleet.gates.crawl)
    (idle : fleet.gates.inUse visit.relay = 0) :
    Gated sampleLimits meets ⟨{ fleet.gates with crawl := fleet.gates.crawl - 1 },
      fleet.batches.set index (.visiting (.comparing 0) visit [])⟩ := by
  have bound := (List.getElem?_eq_some_iff.mp found).1
  have entered := run.move found (.enter free) (met _ _ fun _ _ same => by cases same)
  have begun := entered.move (List.getElem?_set_self bound) .visit
    (met _ _ fun _ _ same => (Stage.visiting.inj same).2.1.symm)
  rw [List.set_set] at begun
  have read := begun.poll (List.getElem?_set_self bound) .read
  rw [List.set_set] at read
  dsimp only at read
  rwa [idle] at read

/-- And on until it has passed the gate of that visit. -/
private theorem passes {meets : Fleet → Stage → Prop} {visit : Visit} (run : Gated sampleLimits meets fleet)
    (met : Allows meets visit) (found : fleet.batches[index]? = some (.queued [visit])) (free : 0 < fleet.gates.crawl)
    (idle : fleet.gates.inUse visit.relay = 0)
    (admits : fleet.gates.health.admits visit.relay 0 sampleLimits.perRelayConcurrency = true) :
    Gated sampleLimits meets
      ⟨{ fleet.gates with crawl := fleet.gates.crawl - 1 }, fleet.batches.set index (.visiting .waiting visit [])⟩ := by
  have bound := (List.getElem?_eq_some_iff.mp found).1
  have read := reads run met found free idle
  have passed := read.move (List.getElem?_set_self bound) (.pass admits) (met _ _ fun _ _ same => by cases same)
  rwa [List.set_set] at passed

/-- From there it goes on until it fetches. -/
private theorem fetches {meets : Fleet → Stage → Prop} {visit : Visit} (run : Gated sampleLimits meets fleet)
    (met : Allows meets visit) (found : fleet.batches[index]? = some (.visiting .waiting visit []))
    (free : 0 < fleet.gates.sems (visit.sem sampleLimits)) : ∃ gates, Gated sampleLimits meets
      ⟨gates, fleet.batches.set index (.visiting .fetching visit [])⟩ ∧
      ∀ key, key ≠ visit.sem sampleLimits → gates.sems key = fleet.gates.sems key := by
  have bound := (List.getElem?_eq_some_iff.mp found).1
  have acquired := run.move found (.acquire free) (met _ _ fun _ _ same => by cases same)
  have counted := acquired.move (List.getElem?_set_self bound) .incrInUse (met _ _ fun _ _ same => by cases same)
  rw [List.set_set] at counted
  have granted := counted.move (List.getElem?_set_self bound) .grant (met _ _ fun _ _ same => by cases same)
  rw [List.set_set] at granted
  exact ⟨_, granted, fun key apart => Function.update_of_ne apart _ _⟩

/-- The theorem at one fetch in flight. -/
theorem in_flight_le_one : ∃ fleet, Gated sampleLimits (OneDoor sampleLimits) fleet ∧
    fleet.inFlight sampleRelay = 1 ∧ fleet.inFlight sampleRelay ≤ sampleLimits.perRelayConcurrency := by
  have met : Allows (Apart sampleLimits) fanOutVisit := by
    intro fleet next only visit rest same
    obtain rfl := only visit rest same
    exact iff_of_false (by decide) (by decide)
  have passed := passes (.start healthy_scored [[fanOutVisit]]) met (rfl : _[0]? = _) (by decide) rfl healthy_admits
  obtain ⟨gates, fetching, _⟩ := fetches passed met (rfl : _[0]? = _) (by decide)
  have reached := fetching.oneDoor.1
  exact ⟨_, reached, rfl, in_flight_le reached sampleRelay⟩

/-- A fallback fetch beside a fetch of the fan-out: two at a relay that is allowed one. -/
theorem ceiling_fails : ∃ fleet, Gated sampleLimits (fun _ _ => True) fleet ∧
    fleet.inFlight sampleRelay = 2 ∧ sampleLimits.perRelayConcurrency = 1 := by
  have met (visit : Visit) : Allows (fun _ _ => True) visit := fun _ _ _ => trivial
  have first := passes (.start healthy_scored [[fanOutVisit], [fallbackVisit]]) (met fanOutVisit) (rfl : _[0]? = _)
    (by decide) rfl healthy_admits
  have second := passes first (met fallbackVisit) (rfl : _[1]? = _) (by decide) rfl healthy_admits
  obtain ⟨gates, fetching, others⟩ := fetches second (met fanOutVisit) (rfl : _[0]? = _) (by decide)
  have free : 0 < gates.sems (fallbackVisit.sem sampleLimits) := by
    rw [others _ (by decide)]
    exact Nat.one_pos
  obtain ⟨_, both, _⟩ := fetches fetching (met fallbackVisit) (rfl : _[1]? = _) free
  exact ⟨_, both, rfl, rfl⟩

end Example

end Ceiling

section Progress

/-- The batch at an index takes a step that leads on, where reading the gate and passing it is one. -/
def Fleet.Acts (limits : Limits) (index : Nat) (before after : Fleet) : Prop :=
  before.Moves limits index after ∨ ∃ between, before.Polls limits index between ∧ between.Moves limits index after

/-- No batch stands between the two reads of its gate. -/
def Fleet.Settled (fleet : Fleet) : Prop :=
  ∀ seen visit rest, Stage.visiting (.comparing seen) visit rest ∉ fleet.batches

private theorem moves {gates : Gates} (found : fleet.batches[index]? = some stage)
    (turn : Turn limits fleet.gates stage gates next) :
    fleet.Moves limits index ⟨gates, fleet.batches.set index next⟩ := ⟨stage, next, found, turn, rfl⟩

/-- Whoever has a permit of a relay can go on. -/
private theorem permitted_turn {phase : Phase} (permit : phase.permit = true) (gates : Gates) (visit : Visit)
    (rest : List Visit) : ∃ left next, Turn limits gates (.visiting phase visit rest) left next := by
  cases phase with
  | permitted => exact ⟨_, _, .incrInUse⟩
  | token => exact ⟨_, _, .grant⟩
  | fetching => exact ⟨_, _, .fetched⟩
  | fetched => exact ⟨_, _, .decrInUse⟩
  | releasing => exact ⟨_, _, .release⟩
  | _ => cases permit

/-- So can whoever is between two visits. -/
private theorem idle_turn (gates : Gates) (plan : List Visit) :
    ∃ left next, Turn limits gates (.idle plan) left next := by
  cases plan with
  | nil => exact ⟨_, _, .leave⟩
  | cons visit rest => exact ⟨_, _, .visit⟩

/-- Where nobody has a permit of a relay, all its permits are free. -/
private theorem free_of_unpermitted (reckoned : Reckoned limits fleet)
    (none : ∀ phase visit rest, Stage.visiting phase visit rest ∈ fleet.batches → phase.permit = false) (key : SemKey) :
    fleet.gates.sems key = limits.perRelayConcurrency := by
  apply (reckoned.sems key).all_free
  intro stage member
  cases stage with
  | visiting phase visit rest =>
    have unpermitted := none phase visit rest member
    simp [Stage.holds, unpermitted]
  | _ => rfl

/-- Nor is any fetch counted. -/
private theorem unused_of_unpermitted (reckoned : Reckoned limits fleet)
    (none : ∀ phase visit rest, Stage.visiting phase visit rest ∈ fleet.batches → phase.permit = false)
    (relay : String) : fleet.gates.inUse relay = 0 := by
  have counted : fleet.batches.countP (Stage.uses relay) = 0 := by
    apply List.countP_eq_zero.mpr
    intro stage member uses
    cases stage with
    | visiting phase visit rest =>
      have unpermitted := none phase visit rest member
      cases phase with
      | token => cases unpermitted
      | fetching => cases unpermitted
      | fetched => cases unpermitted
      | _ => cases uses
    | _ => cases uses
  exact Nat.eq_zero_of_le_zero (counted ▸ reckoned.inUse relay)

variable (positive : 1 ≤ limits.perRelayConcurrency) (narrow : limits.perRelayConcurrency < 2 ^ 32)

include positive narrow

/-- Where no fetch is counted, whoever reads the gate passes it. -/
private theorem polling_acts {visit : Visit} {rest : List Visit} (reckoned : Reckoned limits fleet)
    (unused : fleet.gates.inUse visit.relay = 0)
    (found : fleet.batches[index]? = some (.visiting .polling visit rest)) :
    ∃ between after, fleet.Polls limits index between ∧ between.Moves limits index after := by
  have bound := (List.getElem?_eq_some_iff.mp found).1
  have admits := RelayHealthRegistry.admits_idle positive narrow (reckoned.scored visit.relay).2
  have read : fleet.Polls limits index
      ⟨fleet.gates, fleet.batches.set index (.visiting (.comparing 0) visit rest)⟩ := by
    refine ⟨_, _, found, .read, ?_⟩
    rw [unused]
  exact ⟨_, _, read, moves (List.getElem?_set_self bound) (.pass admits)⟩

/-- A batch that compares passes the gate, or goes back to read it. -/
private theorem comparing_acts {visit : Visit} {rest : List Visit} {seen : Nat} (reckoned : Reckoned limits fleet)
    (unused : fleet.gates.inUse visit.relay = 0)
    (found : fleet.batches[index]? = some (.visiting (.comparing seen) visit rest)) :
    ∃ between after, Relation.ReflTransGen (Fleet.Polls limits index) fleet between ∧
      between.Moves limits index after := by
  cases admits : fleet.gates.health.admits visit.relay seen limits.perRelayConcurrency with
  | true => exact ⟨fleet, _, .refl, moves found (.pass admits)⟩
  | false =>
    have bound := (List.getElem?_eq_some_iff.mp found).1
    have refused : fleet.Polls limits index ⟨fleet.gates, fleet.batches.set index (.visiting .polling visit rest)⟩ :=
      ⟨_, _, found, .refuse admits, rfl⟩
    have books := reckoned.poll found (.refuse admits)
    obtain ⟨between, after, read, moved⟩ := polling_acts positive narrow books unused (List.getElem?_set_self bound)
    exact ⟨between, after, (Relation.ReflTransGen.single refused).tail read, moved⟩

/-- No deadlock and no live-lock: in every state reached with a batch unfinished, whatever the
scores have done, some batch can take a step that leads on, after at most some polls of its own;
and where no poll is half done, at once. -/
theorem gates_never_lock (crawl : 1 ≤ limits.concurrency) (run : Gated limits (fun _ _ => True) fleet)
    (unfinished : ∃ batch ∈ fleet.batches, batch ≠ .finished) :
    (∃ index between after, Relation.ReflTransGen (Fleet.Polls limits index) fleet between ∧
      between.Moves limits index after) ∧
    (fleet.Settled → ∃ index after, fleet.Acts limits index after) := by
  have reckoned := Reckoned.of_gated run
  have acts {index : Nat} {after : Fleet} (acts : fleet.Acts limits index after) :
      (∃ index between after, Relation.ReflTransGen (Fleet.Polls limits index) fleet between ∧
        between.Moves limits index after) ∧ (fleet.Settled → ∃ index after, fleet.Acts limits index after) := by
    refine ⟨?_, fun _ => ⟨index, after, acts⟩⟩
    rcases acts with moved | ⟨between, read, moved⟩
    · exact ⟨index, fleet, after, .refl, moved⟩
    · exact ⟨index, between, after, .single read, moved⟩
  -- Whoever has a permit goes on; else all permits are free and no fetch is counted.
  by_cases permitted : ∃ phase visit rest, Stage.visiting phase visit rest ∈ fleet.batches ∧ phase.permit = true
  · obtain ⟨phase, visit, rest, member, permit⟩ := permitted
    obtain ⟨index, found⟩ := List.getElem?_of_mem member
    obtain ⟨left, next, turn⟩ := permitted_turn permit fleet.gates visit rest
    exact acts (.inl (moves found turn))
  have none (phase : Phase) (visit : Visit) (rest : List Visit)
      (member : Stage.visiting phase visit rest ∈ fleet.batches) : phase.permit = false :=
    Bool.eq_false_iff.mpr fun permit => permitted ⟨phase, visit, rest, member, permit⟩
  have unused := unused_of_unpermitted reckoned none
  have free := free_of_unpermitted reckoned none
  -- A batch inside the crawl can then go on, or poll and go on.
  by_cases inside : ∃ stage ∈ fleet.batches, stage.inside = true
  · obtain ⟨stage, member, inside⟩ := inside
    obtain ⟨index, found⟩ := List.getElem?_of_mem member
    cases stage with
    | idle plan =>
      obtain ⟨left, next, turn⟩ := idle_turn fleet.gates plan
      exact acts (.inl (moves found turn))
    | visiting phase visit rest =>
      cases phase with
      | polling =>
        obtain ⟨between, after, read, moved⟩ := polling_acts positive narrow reckoned (unused _) found
        exact acts (.inr ⟨between, read, moved⟩)
      | comparing seen =>
        refine ⟨⟨index, comparing_acts positive narrow reckoned (unused _) found⟩, ?_⟩
        exact fun settled => absurd member (settled seen visit rest)
      | waiting =>
        have some : 0 < fleet.gates.sems (visit.sem limits) := by
          rw [free]
          exact positive
        exact acts (.inl (moves found (.acquire some)))
      | _ => cases none _ _ _ member
    | _ => cases inside
  -- Nobody is inside: the crawl's permits are free, and whoever is unfinished is queued.
  · obtain ⟨stage, member, pending⟩ := unfinished
    obtain ⟨index, found⟩ := List.getElem?_of_mem member
    have outside (other : Stage) (there : other ∈ fleet.batches) : other.inside = false :=
      Bool.eq_false_iff.mpr fun held => inside ⟨other, there, held⟩
    have all := reckoned.crawl.all_free outside
    cases stage with
    | queued plan =>
      have some : 0 < fleet.gates.crawl := by
        rw [all]
        exact crawl
      exact acts (.inl (moves found (.enter some)))
    | finished => exact absurd rfl pending
    | _ => cases outside _ member

omit positive narrow

/-- One batch has read the counter and not yet compared it, and another is queued. -/
private theorem polled_reached : ∃ fleet : Fleet, Gated sampleLimits (fun _ _ => True) fleet ∧
    fleet.batches = [.visiting (.comparing 0) fanOutVisit [], .queued [fallbackVisit]] := by
  have met : Allows (fun _ _ => True) fanOutVisit := fun _ _ _ => trivial
  have read := reads (.start healthy_scored [[fanOutVisit], [fallbackVisit]]) met (rfl : _[0]? = _) (by decide) rfl
  exact ⟨_, read, rfl⟩

/-- The theorem there. -/
theorem gates_never_lock_polled : ∃ fleet : Fleet,
    fleet.batches = [.visiting (.comparing 0) fanOutVisit [], .queued [fallbackVisit]] ∧ ¬ fleet.Settled ∧
      (∃ index between after, Relation.ReflTransGen (Fleet.Polls sampleLimits index) fleet between ∧
        between.Moves sampleLimits index after) ∧
      (fleet.Settled → ∃ index after, fleet.Acts sampleLimits index after) := by
  obtain ⟨fleet, run, polled⟩ := polled_reached
  have half : Stage.visiting (.comparing 0) fanOutVisit [] ∈ fleet.batches := by
    rw [polled]
    exact List.mem_cons_self ..
  have unfinished : ∃ batch ∈ fleet.batches, batch ≠ .finished := ⟨_, half, fun same => by cases same⟩
  exact ⟨fleet, polled, fun settled => settled 0 _ _ half, gates_never_lock (by decide) (by decide) (by decide) run unfinished⟩

end Progress

end WotCrawler.Daemon
