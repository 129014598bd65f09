import WotCrawler.Relay.Health
import WotCrawler.Sequence.Roster

/-! Calls of `admit_per_relay` on one relay and one semaphore. Every lock section, acquire and
release is one step, and a call may be dropped at every await. -/

namespace WotCrawler.Relay

open Sequence

/-- How a call ends. -/
inductive Exit where
  | success
  | error
  | panic
  | dropped

/-- Where a call stands: not yet polled or asleep in the admission loop, between the two reads of
the check, at the semaphore, before the increment, in the fetch, with its guard dropped, or over. -/
inductive AdmitCall where
  | suspended
  | comparing (seen : Nat)
  | waiting
  | permitted
  | fetching
  | releasing (exit : Exit)
  | ended (exit : Exit)

namespace AdmitCall

/-- The call has a permit of the semaphore. -/
def permit : AdmitCall → Bool
  | .permitted => true
  | .fetching => true
  | .releasing _ => true
  | _ => false

/-- The call is between its increment and the end of its fetch. -/
def fetches : AdmitCall → Bool
  | .fetching => true
  | _ => false

/-- The call has passed the check and is not counted yet. -/
def uncounted : AdmitCall → Bool
  | .waiting => true
  | .permitted => true
  | _ => false

def passed (call : AdmitCall) : Bool := call.uncounted || call.fetches

end AdmitCall

/-- The relay's counter, the free permits of its semaphore, and the calls. -/
structure AdmitRun where
  health : RelayHealthRegistry
  inUse : Nat
  free : Nat
  calls : List AdmitCall

namespace AdmitRun

/-- Before any call. -/
def idle (health : RelayHealthRegistry) (perRelayConcurrency : Nat) : AdmitRun where
  health := health
  inUse := 0
  free := perRelayConcurrency
  calls := []

def inFlight (run : AdmitRun) : Nat := run.calls.countP AdmitCall.fetches

/-- The calls past the check whose fetch is not over. -/
def passed (run : AdmitRun) : Nat := run.calls.countP AdmitCall.passed

def call (run : AdmitRun) : AdmitRun := { run with calls := run.calls ++ [.suspended] }

/-- A call moves on and changes nothing else. -/
def moves (run : AdmitRun) (index : Nat) (next : AdmitCall) : AdmitRun :=
  { run with calls := run.calls.set index next }

def acquire (run : AdmitRun) (index : Nat) : AdmitRun :=
  { run with free := run.free - 1, calls := run.calls.set index .permitted }

/-- The counter is a `u32` that saturates at both ends. -/
def incrInUse (run : AdmitRun) (index : Nat) : AdmitRun :=
  { run with inUse := min (run.inUse + 1) (2 ^ 32 - 1), calls := run.calls.set index .fetching }

/-- The fetch is over, and the guard dropped with it. -/
def decrInUse (run : AdmitRun) (index : Nat) (exit : Exit) : AdmitRun :=
  { run with inUse := run.inUse - 1, calls := run.calls.set index (.releasing exit) }

def release (run : AdmitRun) (index : Nat) (exit : Exit) : AdmitRun :=
  { run with free := run.free + 1, calls := run.calls.set index (.ended exit) }

def rescore (run : AdmitRun) (health : RelayHealthRegistry) : AdmitRun := { run with health := health }

end AdmitRun

/-- The steps of the calls, where the relay's score stays in a range, and every pass of the check
meets a condition on the state and on the counter it has read. -/
inductive AdmitStep (relay : String) (perRelayConcurrency : Nat) (range : Rat → Prop) (meets : AdmitRun → Nat → Prop)
    (run : AdmitRun) : AdmitRun → Prop where
  | call : AdmitStep relay perRelayConcurrency range meets run run.call
  | read {index : Nat} (found : run.calls[index]? = some .suspended) :
      AdmitStep relay perRelayConcurrency range meets run (run.moves index (.comparing run.inUse))
  | pass {index : Nat} (found : run.calls[index]? = some (.comparing seen))
      (admits : run.health.admits relay seen perRelayConcurrency = true) (met : meets run seen) :
      AdmitStep relay perRelayConcurrency range meets run (run.moves index .waiting)
  | refuse {index : Nat} (found : run.calls[index]? = some (.comparing seen))
      (full : run.health.admits relay seen perRelayConcurrency = false) :
      AdmitStep relay perRelayConcurrency range meets run (run.moves index .suspended)
  | acquire {index : Nat} (found : run.calls[index]? = some .waiting) (free : 0 < run.free) :
      AdmitStep relay perRelayConcurrency range meets run (run.acquire index)
  | incrInUse {index : Nat} (found : run.calls[index]? = some .permitted) :
      AdmitStep relay perRelayConcurrency range meets run (run.incrInUse index)
  | decrInUse {index : Nat} (found : run.calls[index]? = some .fetching) (exit : Exit) :
      AdmitStep relay perRelayConcurrency range meets run (run.decrInUse index exit)
  | release {index : Nat} (found : run.calls[index]? = some (.releasing exit)) :
      AdmitStep relay perRelayConcurrency range meets run (run.release index exit)
  | drop {index : Nat} (found : run.calls[index]? = some .suspended ∨ run.calls[index]? = some .waiting) :
      AdmitStep relay perRelayConcurrency range meets run (run.moves index (.ended .dropped))
  | rescore (ranges : range (health.score relay)) :
      AdmitStep relay perRelayConcurrency range meets run (run.rescore health)

/-- The states that calls reach from a registry that knows of none. -/
def Admitted (relay : String) (perRelayConcurrency : Nat) (range : Rat → Prop) (meets : AdmitRun → Nat → Prop)
    (run : AdmitRun) : Prop :=
  ∃ health, range (health.score relay) ∧
    Relation.ReflTransGen (AdmitStep relay perRelayConcurrency range meets) (.idle health perRelayConcurrency) run

variable {relay : String} {perRelayConcurrency : Nat} {range : Rat → Prop} {meets : AdmitRun → Nat → Prop}
  {run after : AdmitRun} {index : Nat} {old new : AdmitCall}

private theorem inFlight_keep (found : run.calls[index]? = some old) (fetches : new.fetches = old.fetches) :
    (run.calls.set index new).countP AdmitCall.fetches = run.inFlight := countP_set_same found fetches

private theorem passed_keep (found : run.calls[index]? = some old) (passed : new.passed = old.passed) :
    (run.calls.set index new).countP AdmitCall.passed = run.passed := countP_set_same found passed

namespace AdmitStep

variable (step : AdmitStep relay perRelayConcurrency range meets run after)

include step

theorem permits (conserved : Conserved AdmitCall.permit run.calls perRelayConcurrency run.free) :
    Conserved AdmitCall.permit after.calls perRelayConcurrency after.free := by
  cases step with
  | call => simpa [Conserved, AdmitRun.call, AdmitCall.permit] using conserved
  | read found => exact conserved.keep found rfl
  | pass found admits met => exact conserved.keep found rfl
  | refuse found full => exact conserved.keep found rfl
  | acquire found free => exact conserved.take found rfl rfl free
  | incrInUse found => exact conserved.keep found rfl
  | decrInUse found exit => exact conserved.keep found rfl
  | release found => exact conserved.give found rfl rfl
  | drop found =>
    cases found with
    | inl suspended => exact conserved.keep suspended rfl
    | inr waiting => exact conserved.keep waiting rfl
  | rescore ranges => exact conserved

/-- The counter stays the number of fetches in flight, while a `u32` counts them. -/
theorem exact (before : run.inUse = run.inFlight) (narrow : after.inFlight < 2 ^ 32) :
    after.inUse = after.inFlight := by
  cases step with
  | call => simpa [AdmitRun.call, AdmitRun.inFlight, AdmitCall.fetches] using before
  | read found => exact before.trans (Eq.symm (inFlight_keep found rfl))
  | pass found admits met => exact before.trans (Eq.symm (inFlight_keep found rfl))
  | refuse found full => exact before.trans (Eq.symm (inFlight_keep found rfl))
  | acquire found free => exact before.trans (Eq.symm (inFlight_keep found rfl))
  | @incrInUse index found =>
    have added : (run.incrInUse index).inFlight = run.inFlight + 1 := countP_set_add found rfl rfl
    show min (run.inUse + 1) (2 ^ 32 - 1) = _
    omega
  | @decrInUse index found exit =>
    have fewer : (run.decrInUse index exit).inFlight + 1 = run.inFlight := countP_set_sub found rfl rfl
    show run.inUse - 1 = _
    omega
  | release found => exact before.trans (Eq.symm (inFlight_keep found rfl))
  | drop found =>
    cases found with
    | inl suspended => exact before.trans (Eq.symm (inFlight_keep suspended rfl))
    | inr waiting => exact before.trans (Eq.symm (inFlight_keep waiting rfl))
  | rescore ranges => exact before

theorem length_le : run.calls.length ≤ after.calls.length := by
  cases step <;> simp [AdmitRun.call, AdmitRun.moves, AdmitRun.acquire, AdmitRun.incrInUse,
    AdmitRun.decrInUse, AdmitRun.release, AdmitRun.rescore]

/-- The relay's score stays in its range. -/
theorem ranged (ranges : range (run.health.score relay)) : range (after.health.score relay) := by
  cases step with
  | rescore now => exact now
  | _ => exact ranges

/-- No call gets past the check but by passing it. -/
theorem passed_le : after.passed ≤ run.passed ∨ after.passed = run.passed + 1 ∧
    ∃ index seen, run.calls[index]? = some (.comparing seen) ∧
      run.health.admits relay seen perRelayConcurrency = true ∧ meets run seen ∧ after = run.moves index .waiting := by
  cases step with
  | call => simp [AdmitRun.call, AdmitRun.passed, AdmitCall.passed, AdmitCall.uncounted, AdmitCall.fetches]
  | read found => exact .inl (le_of_eq (passed_keep found rfl))
  | pass found admits met => exact .inr ⟨countP_set_add found rfl rfl, _, _, found, admits, met, rfl⟩
  | refuse found full => exact .inl (le_of_eq (passed_keep found rfl))
  | acquire found free => exact .inl (le_of_eq (passed_keep found rfl))
  | incrInUse found => exact .inl (le_of_eq (passed_keep found rfl))
  | decrInUse found exit => exact .inl (countP_set_le found rfl)
  | release found => exact .inl (le_of_eq (passed_keep found rfl))
  | drop found =>
    cases found with
    | inl suspended => exact .inl (le_of_eq (passed_keep suspended rfl))
    | inr waiting => exact .inl (countP_set_le waiting rfl)
  | rescore ranges => exact .inl (le_refl _)

end AdmitStep

/-- Every fetch in flight holds a permit. -/
theorem AdmitRun.inFlight_le (permits : Conserved AdmitCall.permit run.calls perRelayConcurrency run.free) :
    run.inFlight ≤ perRelayConcurrency := by
  refine le_trans (List.countP_mono_left ?_) permits.held_le
  intro call member fetches
  cases call with
  | fetching => rfl
  | _ => cases fetches

/-- The permits add up; and where neither the permits nor the calls are more than a `u32` counts,
the counter is the number of fetches in flight. -/
structure Booked (perRelayConcurrency : Nat) (run : AdmitRun) : Prop where
  permits : Conserved AdmitCall.permit run.calls perRelayConcurrency run.free
  exact : perRelayConcurrency < 2 ^ 32 ∨ run.calls.length < 2 ^ 32 → run.inUse = run.inFlight

namespace Booked

theorem step (booked : Booked perRelayConcurrency run)
    (step : AdmitStep relay perRelayConcurrency range meets run after) : Booked perRelayConcurrency after := by
  have permits := step.permits booked.permits
  refine ⟨permits, ?_⟩
  intro narrow
  have longer := step.length_le
  have held := AdmitRun.inFlight_le permits
  have called : after.inFlight ≤ after.calls.length := List.countP_le_length
  exact step.exact (booked.exact (narrow.imp_right longer.trans_lt)) (by omega)

/-- The books of every state reached. -/
theorem of_admitted (run : Admitted relay perRelayConcurrency range meets after) :
    Booked perRelayConcurrency after := by
  obtain ⟨health, _, path⟩ := run
  induction path with
  | refl => exact ⟨.of_idle _ (by simp [AdmitRun.idle]), fun _ => rfl⟩
  | tail _ step ih => exact ih.step step

end Booked

section Crowd

variable {health : RelayHealthRegistry} {fetching waiting : Nat}

/-- So many fetches in flight, and so many calls at the semaphore, that all passed the check. -/
def crowd (health : RelayHealthRegistry) (perRelayConcurrency fetching waiting : Nat) : AdmitRun where
  health := health
  inUse := min fetching (2 ^ 32 - 1)
  free := perRelayConcurrency - fetching
  calls := List.replicate fetching .fetching ++ List.replicate waiting .waiting

/-- While nobody is counted, any number of calls passes the check. -/
private theorem crowd_waits (idle : health.admits relay 0 perRelayConcurrency = true) (waiting : Nat) :
    Relation.ReflTransGen (AdmitStep relay perRelayConcurrency range fun _ _ => True)
      (.idle health perRelayConcurrency) (crowd health perRelayConcurrency 0 waiting) := by
  induction waiting with
  | zero => exact .refl
  | succ waiting ih =>
    have called : (crowd health perRelayConcurrency 0 waiting).call.calls[waiting]? = some .suspended := by
      simp [crowd, AdmitRun.call]
    have read : ((crowd health perRelayConcurrency 0 waiting).call.moves waiting (.comparing 0)).calls[waiting]? =
        some (.comparing 0) := by
      simp [crowd, AdmitRun.call, AdmitRun.moves]
    have passed := ((ih.tail .call).tail (.read called)).tail (.pass read idle trivial)
    convert passed using 1
    simp [crowd, AdmitRun.call, AdmitRun.moves, List.replicate_succ']

/-- A call at the semaphore takes a permit and starts its fetch. -/
private theorem crowd_fetches (free : fetching < perRelayConcurrency) :
    Relation.ReflTransGen (AdmitStep relay perRelayConcurrency range meets)
      (crowd health perRelayConcurrency fetching (waiting + 1))
      (crowd health perRelayConcurrency (fetching + 1) waiting) := by
  have found : (crowd health perRelayConcurrency fetching (waiting + 1)).calls[fetching]? = some .waiting := by
    simp [crowd, List.replicate_succ]
  have acquired : ((crowd health perRelayConcurrency fetching (waiting + 1)).acquire fetching).calls[fetching]? =
      some .permitted := by
    simp [crowd, AdmitRun.acquire, List.replicate_succ]
  have some : 0 < (crowd health perRelayConcurrency fetching (waiting + 1)).free := Nat.sub_pos_of_lt free
  have taken : AdmitStep relay perRelayConcurrency range meets _ _ := .acquire found some
  convert (Relation.ReflTransGen.single taken).tail (.incrInUse acquired) using 1
  simp only [crowd, AdmitRun.acquire, AdmitRun.incrInUse, AdmitRun.mk.injEq, true_and]
  refine ⟨by omega, by omega, ?_⟩
  rw [List.replicate_succ', List.replicate_succ]
  simp

/-- As many calls as there are permits can fetch at once, whatever the relay's share. -/
theorem admitted_crowd (ranges : range (health.score relay))
    (idle : health.admits relay 0 perRelayConcurrency = true) (within : fetching ≤ perRelayConcurrency) :
    Admitted relay perRelayConcurrency range (fun _ _ => True) (crowd health perRelayConcurrency fetching 0) := by
  have started (count : Nat) (waiting : Nat) (sum : count + waiting = fetching) :
      Relation.ReflTransGen (AdmitStep relay perRelayConcurrency range fun _ _ => True)
        (.idle health perRelayConcurrency) (crowd health perRelayConcurrency count waiting) := by
    induction count generalizing waiting with
    | zero => exact crowd_waits idle waiting
    | succ count ih => exact (ih (waiting + 1) (by omega)).trans (crowd_fetches (by omega))
  exact ⟨health, ranges, started fetching 0 rfl⟩

theorem crowd_inFlight (health : RelayHealthRegistry) (perRelayConcurrency fetching waiting : Nat) :
    (crowd health perRelayConcurrency fetching waiting).inFlight = fetching := by
  simp [crowd, AdmitRun.inFlight, AdmitCall.fetches, List.countP_replicate]

end Crowd

/-- The counter is exact where no more calls than a `u32` counts can be in flight at once. -/
theorem admission_exact (run : Admitted relay perRelayConcurrency range meets after)
    (narrow : perRelayConcurrency < 2 ^ 32 ∨ after.calls.length < 2 ^ 32) :
    after.inUse = after.inFlight ∧ after.inUse ≤ perRelayConcurrency ∧
      (∀ index : Nat, after.calls[index]? = some .fetching → 0 < after.inUse) ∧
      ((∀ call ∈ after.calls, ∃ exit, call = .ended exit) → after.inUse = 0) := by
  have booked := Booked.of_admitted run
  have exact := booked.exact narrow
  refine ⟨exact, exact ▸ AdmitRun.inFlight_le booked.permits, ?_, ?_⟩
  · intro index found
    rw [exact]
    exact List.countP_pos_iff.mpr ⟨.fetching, List.mem_of_getElem? found, rfl⟩
  · intro ended
    rw [exact]
    apply List.countP_eq_zero.mpr
    intro call member fetches
    obtain ⟨exit, rfl⟩ := ended call member
    cases fetches

/-- Two fetches in flight are two. -/
theorem admission_exact_pair : (crowd (.new .binary64 1) 2 2 0).inUse = (crowd (.new .binary64 1) 2 2 0).inFlight ∧
    (crowd (.new .binary64 1) 2 2 0).inUse ≤ 2 ∧ 0 < (crowd (.new .binary64 1) 2 2 0).inUse := by
  have idle : (RelayHealthRegistry.new .binary64 1).admits "wss://relay" 0 2 = true :=
    RelayHealthRegistry.admits_idle (by omega) (by omega) (le_refl _)
  have run : Admitted "wss://relay" 2 (fun _ => True) (fun _ _ => True) (crowd (.new .binary64 1) 2 2 0) :=
    admitted_crowd trivial idle (le_refl _)
  obtain ⟨exact, within, held, _⟩ := admission_exact run (.inl (by omega))
  exact ⟨exact, within, held 0 rfl⟩

/-- A relay of score one half, asked by as many calls at once as a `u32` does not count. -/
private theorem crowd_saturates : ∃ run, Admitted "wss://relay" (2 ^ 32) (fun _ => True) (fun _ _ => True) run ∧
    run.inFlight = 2 ^ 32 ∧ run.inUse = 2 ^ 32 - 1 := by
  have score : ((RelayHealthRegistry.new .binary64 (1 / 2)).update "wss://relay" 0).score "wss://relay" = 1 / 2 := by
    decide +kernel
  have idle : ((RelayHealthRegistry.new .binary64 (1 / 2)).update "wss://relay" 0).admits "wss://relay" 0 (2 ^ 32) = true := by
    have share : round (((2 ^ 32 : Nat) : Rat) * (1 / 2)) = 2 ^ 31 := by
      have half : ((2 ^ 32 : Nat) : Rat) * (1 / 2) = ((2 ^ 31 : Int) : Rat) := by norm_num
      rw [half, round_intCast]
    rw [RelayHealthRegistry.admits, RelayHealthRegistry.permits, score, share]
    rfl
  exact ⟨_, admitted_crowd trivial idle (le_refl _), crowd_inFlight .., rfl⟩

theorem admission_saturates : ¬ ∀ (relay : String) (perRelayConcurrency : Nat) (run : AdmitRun),
    1 ≤ perRelayConcurrency → Admitted relay perRelayConcurrency (fun _ => True) (fun _ _ => True) run →
    run.inUse = run.inFlight := by
  intro exact
  obtain ⟨run, admitted, inFlight, inUse⟩ := crowd_saturates
  have same := exact "wss://relay" (2 ^ 32) run (Nat.one_le_two_pow) admitted
  omega

end WotCrawler.Relay
