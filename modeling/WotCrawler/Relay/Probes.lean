import WotCrawler.Relay.Health

/-! Probes of degraded relays under concurrent callers: the score is read under one lock, and the
probe clock is checked and claimed under another. -/

namespace WotCrawler.Relay

/-- The section of `try_mark_attempt` on the probe clock, once the score was read. The clock is
read again for the mark. -/
def RelayHealthRegistry.claimProbe (registry : RelayHealthRegistry) (relay : String) (healthy : Bool)
    (checked marked : Instant) : Bool × RelayHealthRegistry :=
  if healthy then (true, registry.markAttempt relay marked)
  else
    let due := registry.probeDue relay checked
    (due, if due then registry.markAttempt relay marked else registry)

/-- Where nobody comes in between, the call is its two lock sections. -/
theorem RelayHealthRegistry.tryMarkAttempt_eq_claimProbe (registry : RelayHealthRegistry) (relay : String)
    (threshold : Rat) (now : Instant) : registry.tryMarkAttempt relay threshold now =
      registry.claimProbe relay (registry.score relay ≥ threshold) now now := by
  by_cases healthy : registry.score relay ≥ threshold <;> simp [tryMarkAttempt, claimProbe, healthy]

/-- Where a call of `try_mark_attempt` stands. -/
inductive ProbeCall where
  | called (relay : String) (threshold : Rat)
  | scored (relay : String) (healthy : Bool)
  | returned (granted : Bool)

/-- A call that was allowed, when it marked the attempt, and whether it found the score below
its threshold. -/
structure Grant where
  instant : Instant
  degraded : Bool

/-- The registry under its callers; and for each relay its grants, newest first. -/
structure ProbeRun where
  registry : RelayHealthRegistry
  now : Instant
  calls : List ProbeCall
  grants : String → List Grant

namespace ProbeRun

def fresh (alpha : Rat) (start : Instant) : ProbeRun where
  registry := .new .binary64 alpha
  now := start
  calls := []
  grants := fun _ => []

def tick (run : ProbeRun) (later : Instant) : ProbeRun := { run with now := later }

def sampled (run : ProbeRun) (relay : String) (sample : Rat) : ProbeRun :=
  { run with registry := run.registry.update relay sample }

def call (run : ProbeRun) (relay : String) (threshold : Rat) : ProbeRun :=
  { run with calls := run.calls ++ [.called relay threshold] }

def read (run : ProbeRun) (index : Nat) (relay : String) (threshold : Rat) : ProbeRun :=
  { run with calls := run.calls.set index (.scored relay (run.registry.score relay ≥ threshold)) }

def claim (run : ProbeRun) (index : Nat) (relay : String) (healthy : Bool) (checked marked : Instant) : ProbeRun :=
  let (granted, registry) := run.registry.claimProbe relay healthy checked marked
  { registry := registry
    now := marked
    calls := run.calls.set index (.returned granted)
    grants :=
      if granted then Function.update run.grants relay (⟨marked, !healthy⟩ :: run.grants relay)
      else run.grants }

end ProbeRun

/-- The steps of the callers and of the scores, on a clock that never goes back. -/
inductive ProbeStep (run : ProbeRun) : ProbeRun → Prop where
  | tick (later : run.now ≤ instant) : ProbeStep run (run.tick instant)
  | sample (relay : String) (sample : Rat) : ProbeStep run (run.sampled relay sample)
  | call (relay : String) (threshold : Rat) : ProbeStep run (run.call relay threshold)
  | read {index : Nat} (found : run.calls[index]? = some (.called relay threshold)) :
      ProbeStep run (run.read index relay threshold)
  | claim {index : Nat} (found : run.calls[index]? = some (.scored relay healthy)) (later : run.now ≤ checked)
      (elapsed : checked ≤ marked) : ProbeStep run (run.claim index relay healthy checked marked)

/-- Nothing later than the grant but a grant of a healthy relay, or one an interval on. -/
def Spaced (later earlier : Grant) : Prop :=
  earlier.instant ≤ later.instant ∧ (later.degraded = true → earlier.instant + probeInterval ≤ later.instant)

/-- The probe clock of every relay shows its newest grant, and its grants are spaced. -/
structure Clocked (run : ProbeRun) : Prop where
  newest (relay : String) : run.registry.lastProbe relay = (run.grants relay).head?.map Grant.instant
  past (relay : String) : ∀ grant ∈ run.grants relay, grant.instant ≤ run.now
  spaced (relay : String) : (run.grants relay).Pairwise Spaced

variable {run after : ProbeRun} {relay : String} {checked marked : Instant}

theorem RelayHealthRegistry.claimProbe_granted (registry : RelayHealthRegistry) (relay : String)
    (healthy : Bool) (checked marked : Instant) :
    (registry.claimProbe relay healthy checked marked).1 = (healthy || registry.probeDue relay checked) := by
  cases healthy <;> simp [claimProbe]

/-- The probe clock moves with a grant, and with nothing else. -/
theorem RelayHealthRegistry.claimProbe_registry (registry : RelayHealthRegistry) (relay : String)
    (healthy : Bool) (checked marked : Instant) :
    (registry.claimProbe relay healthy checked marked).2 =
      if (registry.claimProbe relay healthy checked marked).1 then registry.markAttempt relay marked
      else registry := by
  cases healthy <;> simp [claimProbe]

namespace Clocked

/-- A probe is due when every grant of the relay is an interval back. -/
theorem due_iff (clocked : Clocked run) (later : run.now ≤ checked) :
    run.registry.probeDue relay checked = true ↔
      ∀ grant ∈ run.grants relay, grant.instant + probeInterval ≤ checked := by
  have past := clocked.past relay
  have spaced := clocked.spaced relay
  rw [RelayHealthRegistry.probeDue, clocked.newest relay]
  cases grants : run.grants relay with
  | nil => simp
  | cons newest rest =>
    rw [grants] at past spaced
    have before : newest.instant ≤ checked := (past newest List.mem_cons_self).trans later
    have elapsed : probeInterval ≤ checked - newest.instant ↔ newest.instant + probeInterval ≤ checked :=
      Nat.le_sub_iff_add_le' before
    simp only [List.head?_cons, Option.map_some, ge_iff_le, decide_eq_true_eq, elapsed, List.forall_mem_cons]
    constructor
    · intro idle
      refine ⟨idle, ?_⟩
      intro grant older
      have order := (List.rel_of_pairwise_cons spaced older).1
      exact (Nat.add_le_add_right order _).trans idle
    · exact fun idle => idle.1

/-- A new grant is spaced from the earlier ones. -/
theorem grant (clocked : Clocked run) (later : run.now ≤ checked) (elapsed : checked ≤ marked)
    (granted : (healthy || run.registry.probeDue relay checked) = true) :
    ∀ earlier ∈ run.grants relay, Spaced ⟨marked, !healthy⟩ earlier := by
  intro earlier member
  have past := clocked.past relay earlier member
  refine ⟨past.trans (later.trans elapsed), ?_⟩
  intro degraded
  have unhealthy : healthy = false := by simpa using degraded
  have due : run.registry.probeDue relay checked = true := by simpa [unhealthy] using granted
  exact ((clocked.due_iff later).mp due earlier member).trans elapsed

theorem claim (clocked : Clocked run) (index : Nat) (later : run.now ≤ checked) (elapsed : checked ≤ marked) :
    Clocked (run.claim index relay healthy checked marked) := by
  have granted := run.registry.claimProbe_granted relay healthy checked marked
  have moved := run.registry.claimProbe_registry relay healthy checked marked
  have earlier (other : String) (grant : Grant) (member : grant ∈ run.grants other) : grant.instant ≤ marked :=
    (clocked.past other grant member).trans (later.trans elapsed)
  unfold ProbeRun.claim
  cases allowed : (run.registry.claimProbe relay healthy checked marked).1 with
  | false =>
    rw [allowed] at moved
    exact { newest := by simpa [allowed, moved] using clocked.newest
            past := by simpa [allowed] using earlier
            spaced := by simpa [allowed] using clocked.spaced }
  | true =>
    rw [allowed] at granted moved
    have spaced := clocked.grant later elapsed granted.symm
    refine { newest := ?_, past := ?_, spaced := ?_ } <;> intro other
    · simp only [allowed, moved, if_true, RelayHealthRegistry.markAttempt]
      by_cases same : other = relay
      · simp [same]
      · simpa [Function.update_of_ne same] using clocked.newest other
    · simp only [allowed, if_true]
      by_cases same : other = relay
      · subst same
        simpa using earlier other
      · simpa [Function.update_of_ne same] using earlier other
    · simp only [allowed, if_true]
      by_cases same : other = relay
      · subst same
        simpa using ⟨spaced, clocked.spaced other⟩
      · simpa [Function.update_of_ne same] using clocked.spaced other

theorem step (clocked : Clocked run) (step : ProbeStep run after) : Clocked after := by
  cases step with
  | tick later =>
    exact { clocked with past := fun relay grant member => (clocked.past relay grant member).trans later }
  | sample relay sample => exact { clocked with }
  | call relay threshold => exact { clocked with }
  | read found => exact { clocked with }
  | claim found later elapsed => exact clocked.claim _ later elapsed

/-- The clocks show the newest grants after every run. -/
theorem reached (run : Relation.ReflTransGen ProbeStep (.fresh alpha start) after) : Clocked after := by
  induction run with
  | refl =>
    exact { newest := fun _ => rfl
            past := by simp [ProbeRun.fresh]
            spaced := by simp [ProbeRun.fresh] }
  | tail _ step ih => exact ih.step step

end Clocked

/-- In every interleaving a probe is granted an interval after every earlier grant of its relay,
and a caller that found the score low is granted once no grant lies within the interval. -/
theorem one_probe_per_interval (run : Relation.ReflTransGen ProbeStep (.fresh alpha start) after) (relay : String) :
    ((after.grants relay).filter Grant.degraded).Pairwise
        (fun later earlier => earlier.instant + probeInterval ≤ later.instant) ∧
      (after.grants relay).Pairwise
        (fun later earlier => later.degraded = true → earlier.instant + probeInterval ≤ later.instant) ∧
      ∀ index checked marked, after.calls[index]? = some (.scored relay false) → after.now ≤ checked →
        checked ≤ marked → (∀ grant ∈ after.grants relay, grant.instant + probeInterval ≤ checked) →
        (after.claim index relay false checked marked).calls[index]? = some (.returned true) := by
  have clocked := Clocked.reached run
  have spaced := clocked.spaced relay
  refine ⟨?_, spaced.imp fun pair => pair.2, ?_⟩
  · rw [List.pairwise_filter]
    exact spaced.imp fun pair later _ => pair.2 later
  · intro index checked marked found later elapsed idle
    obtain ⟨bound, _⟩ := List.getElem?_eq_some_iff.mp found
    have due := (clocked.due_iff later).mpr idle
    have granted := after.registry.claimProbe_granted relay false checked marked
    rw [Bool.false_or, due] at granted
    simp [ProbeRun.claim, granted, bound]

/-- Two callers of a relay whose one fetch failed, once both have read its score. -/
private def twoCallers : ProbeRun :=
  (((((ProbeRun.fresh 1 0).sampled "wss://relay" 0).call "wss://relay" 1).call "wss://relay" 1).read 0
    "wss://relay" 1).read 1 "wss://relay" 1

/-- Of two callers that both found the relay degraded, one probes at once and the other after the
interval. -/
theorem one_probe_of_two_callers : ∃ run,
    Relation.ReflTransGen ProbeStep (.fresh 1 0) run ∧ run.grants "wss://relay" = [⟨0, true⟩] ∧
      (run.claim 1 "wss://relay" false (secs 60) (secs 60)).calls[1]? = some (.returned true) := by
  have read : Relation.ReflTransGen ProbeStep (.fresh 1 0) twoCallers :=
    ((((Relation.ReflTransGen.single (.sample "wss://relay" 0)).tail (.call "wss://relay" 1)).tail
      (.call "wss://relay" 1)).tail (.read rfl)).tail (.read rfl)
  have fallen : (RelayHealthRegistry.new .binary64 1).next 0 1 < 1 := by decide +kernel
  have calls : twoCallers.calls = [.scored "wss://relay" false, .scored "wss://relay" false] := by
    simpa [twoCallers, ProbeRun.fresh, ProbeRun.sampled, ProbeRun.call, ProbeRun.read,
      RelayHealthRegistry.update, RelayHealthRegistry.score, RelayHealthRegistry.new] using fallen
  have first : twoCallers.calls[0]? = some (.scored "wss://relay" false) := by simp [calls]
  have claimed := read.tail (.claim first (le_refl 0) (le_refl 0))
  have second : (twoCallers.claim 0 "wss://relay" false 0 0).calls[1]? = some (.scored "wss://relay" false) := by
    simp [ProbeRun.claim, calls]
  refine ⟨_, claimed, rfl, ?_⟩
  apply (one_probe_per_interval claimed "wss://relay").2.2 1 (secs 60) (secs 60) second (Nat.zero_le _) (le_refl _)
  intro grant member
  obtain rfl : grant = ⟨0, true⟩ := List.mem_singleton.mp member
  exact le_refl _

end WotCrawler.Relay
