import WotCrawler.Relay.Health
import WotCrawler.Sequence.MovingAverage

/-! The health score of a relay as the moving average of the signals it gave. -/

namespace WotCrawler.Relay

open Numeric Sequence

/-- What a `record_*` call reports of a relay. -/
inductive Signal where
  | success (latency : Duration)
  | timeout
  | connectFailure
  | rateLimited

namespace Signal

def sample : Signal → Rat
  | .success latency => 1 / (1 + latency / 1000000000 / latencyScaleSecs)
  | .timeout => 0
  | .connectFailure => 0
  | .rateLimited => 1 / 5

/-- A success samples less the longer it took. -/
theorem sample_success_anti (faster : fast ≤ slow) : (success slow).sample ≤ (success fast).sample := by
  have scaled : (fast : Rat) / 1000000000 / latencyScaleSecs ≤ slow / 1000000000 / latencyScaleSecs := by
    unfold latencyScaleSecs
    gcongr
  have positive : (0 : Rat) < 1 + fast / 1000000000 / latencyScaleSecs := by
    unfold latencyScaleSecs
    positivity
  exact one_div_le_one_div_of_le positive (by linarith)

theorem sample_mem_Icc (signal : Signal) : signal.sample ∈ Set.Icc 0 1 := by
  cases signal with
  | success latency =>
    have longer : (0 : Rat) ≤ latency / 1000000000 / latencyScaleSecs := by
      unfold latencyScaleSecs
      positivity
    refine ⟨?_, ?_⟩
    · exact one_div_nonneg.mpr (by linarith)
    · exact (div_le_one (by linarith)).mpr (by linarith)
  | timeout => exact ⟨le_refl _, zero_le_one⟩
  | connectFailure => exact ⟨le_refl _, zero_le_one⟩
  | rateLimited => norm_num [sample]

end Signal

namespace RelayHealthRegistry

def record (registry : RelayHealthRegistry) (relay : String) : Signal → RelayHealthRegistry
  | .success latency => registry.recordSuccess relay latency
  | .timeout => registry.recordTimeout relay
  | .connectFailure => registry.recordConnectFailure relay
  | .rateLimited => registry.recordRateLimited relay

/-- The signals of all relays, in the order in which they came. -/
def observe (registry : RelayHealthRegistry) (history : List (String × Signal)) : RelayHealthRegistry :=
  history.foldl (fun registry entry => registry.record entry.1 entry.2) registry

/-- The samples that a relay itself gave. -/
def samplesOf (relay : String) (history : List (String × Signal)) : List Rat :=
  (history.filter (fun entry => entry.1 = relay)).map (fun entry => entry.2.sample)

variable {registry : RelayHealthRegistry} {relay : String}

/-- The seconds and the nanoseconds of a latency make up the whole of it. -/
theorem successSample_exact (exact : registry.rounding = .exact) (latency : Duration) :
    registry.successSample latency = (Signal.success latency).sample := by
  have split : ((1000000000 * (latency / 1000000000) + latency % 1000000000 : Nat) : Rat) = (latency : Nat) :=
    congrArg Nat.cast (Nat.div_add_mod latency 1000000000)
  have whole : ((latency / 1000000000 : Nat) : Rat) + ((latency % 1000000000 : Nat) : Rat) / 1000000000 =
      (latency : Nat) / 1000000000 := by
    push_cast at split
    linarith
  simp only [successSample, asSecsF64, exact, Signal.sample]
  exact congrArg (fun secs => 1 / (1 + secs / latencyScaleSecs)) whole

/-- In exact arithmetic a signal is its sample. -/
theorem record_eq_update (exact : registry.rounding = .exact) (relay : String) (signal : Signal) :
    registry.record relay signal = registry.update relay signal.sample := by
  cases signal with
  | success latency => exact congrArg (registry.update relay) (successSample_exact exact latency)
  | timeout => rfl
  | connectFailure => rfl
  | rateLimited =>
    rw [record, recordRateLimited, exact]
    rfl

theorem record_rounding (registry : RelayHealthRegistry) (relay : String) (signal : Signal) :
    (registry.record relay signal).rounding = registry.rounding ∧ (registry.record relay signal).alpha = registry.alpha := by
  cases signal <;> exact ⟨rfl, rfl⟩

/-- A fetch is recorded by the signal its outcome gives. -/
theorem recordFetchHealth_eq_record (registry : RelayHealthRegistry) (relay : String) (latency : Duration)
    (outcome : Except RelayError (List Event)) :
    ∃ signal, registry.recordFetchHealth relay latency outcome = registry.record relay signal := by
  cases outcome with
  | ok events => exact ⟨.success latency, rfl⟩
  | error error =>
    cases error with
    | fetchTimeout label => exact ⟨.timeout, rfl⟩
    | _ => exact ⟨.connectFailure, rfl⟩

theorem score_record_self (exact : registry.rounding = .exact) (signal : Signal) :
    (registry.record relay signal).score relay = blend registry.alpha (registry.score relay) signal.sample := by
  rw [record_eq_update exact, score_update_self]
  exact next_exact exact _ _

theorem score_record_of_ne (apart : relay ≠ other) (signal : Signal) :
    (registry.record other signal).score relay = registry.score relay := by
  cases signal <;> exact score_update_of_ne apart

/-- In exact arithmetic the score of a relay is the moving average of its own samples. -/
theorem score_observe (exact : registry.rounding = .exact) (history : List (String × Signal)) (relay : String) :
    (registry.observe history).score relay =
      movingAverage registry.alpha (registry.score relay) (samplesOf relay history) := by
  induction history generalizing registry with
  | nil => rfl
  | cons entry rest ih =>
    obtain ⟨other, signal⟩ := entry
    obtain ⟨stays, kept⟩ := record_rounding registry other signal
    refine (ih (stays.trans exact)).trans ?_
    rw [kept]
    by_cases same : other = relay
    · subst same
      rw [score_record_self exact]
      simp [samplesOf, movingAverage]
    · rw [score_record_of_ne (Ne.symm same)]
      simp [samplesOf, same]

theorem samplesOf_append (relay : String) (front back : List (String × Signal)) :
    samplesOf relay (front ++ back) = samplesOf relay front ++ samplesOf relay back := by
  simp [samplesOf]

theorem mem_samplesOf (member : sample ∈ samplesOf relay history) : sample ∈ Set.Icc 0 1 := by
  obtain ⟨entry, _, rfl⟩ := List.mem_map.mp member
  exact entry.2.sample_mem_Icc

/-- A larger sample at one place of the history is a larger one for its relay, or for none. -/
theorem samplesOf_replace (larger : Signal.sample worse ≤ Signal.sample better) (relay who : String)
    (front back : List (String × Signal)) :
    List.Forall₂ (· ≤ ·) (samplesOf relay (front ++ (who, worse) :: back))
      (samplesOf relay (front ++ (who, better) :: back)) := by
  have same (history : List (String × Signal)) :
      List.Forall₂ (· ≤ ·) (samplesOf relay history) (samplesOf relay history) := List.forall₂_refl _
  have split (signal : Signal) : samplesOf relay (front ++ (who, signal) :: back) =
      samplesOf relay front ++ (samplesOf relay [(who, signal)] ++ samplesOf relay back) := by
    rw [← List.singleton_append, samplesOf_append, samplesOf_append]
  rw [split, split]
  refine List.rel_append (same front) (List.rel_append ?_ (same back))
  by_cases own : who = relay
  · simpa [samplesOf, own] using larger
  · simp [samplesOf, own]

/-- The permits grow with the score. -/
theorem permits_mono {left right : RelayHealthRegistry} (score : left.score relay ≤ right.score other)
    (perRelayConcurrency : Nat) : left.permits relay perRelayConcurrency ≤ right.permits other perRelayConcurrency := by
  have share : (perRelayConcurrency * left.score relay : Rat) ≤ perRelayConcurrency * right.score other :=
    mul_le_mul_of_nonneg_left score (Nat.cast_nonneg _)
  have rounded : round (perRelayConcurrency * left.score relay : Rat) ≤
      round (perRelayConcurrency * right.score other) := by
    rw [round_eq, round_eq]
    exact Int.floor_mono (by linarith)
  exact max_le_max_right _ (min_le_min_right _ (Int.toNat_le_toNat rounded))

/-- For every smoothing factor in `(0, 1]` and every history, scores are averages of samples: they
stay within `[0, 1]`, grow with every sample, and are the relay's own; and the permits stay between
one and the cap and grow with the score. -/
theorem score_average {alpha : Rat} (positive : 0 < alpha) (most : alpha ≤ 1) :
    (∀ history relay, ((new .exact alpha).observe history).score relay ∈ Set.Icc 0 1) ∧
    (∀ front back who relay, ∀ worse better : Signal, worse.sample ≤ better.sample →
      ((new .exact alpha).observe (front ++ (who, worse) :: back)).score relay ≤
        ((new .exact alpha).observe (front ++ (who, better) :: back)).score relay) ∧
    (∀ signal, Signal.timeout.sample ≤ Signal.sample signal) ∧
    (∀ fast slow, fast ≤ slow → (Signal.success slow).sample ≤ (Signal.success fast).sample) ∧
    (∀ history who signal relay, relay ≠ who →
      ((new .exact alpha).observe (history ++ [(who, signal)])).score relay =
        ((new .exact alpha).observe history).score relay) ∧
    (∀ history relay perRelayConcurrency, 1 ≤ perRelayConcurrency →
      1 ≤ ((new .exact alpha).observe history).permits relay perRelayConcurrency ∧
        ((new .exact alpha).observe history).permits relay perRelayConcurrency ≤ perRelayConcurrency) ∧
    (∀ before after relay other perRelayConcurrency,
      ((new .exact alpha).observe before).score relay ≤ ((new .exact alpha).observe after).score other →
      ((new .exact alpha).observe before).permits relay perRelayConcurrency ≤
        ((new .exact alpha).observe after).permits other perRelayConcurrency) := by
  have unit (history : List (String × Signal)) (relay : String) :
      ((new .exact alpha).observe history).score relay ∈ Set.Icc 0 1 := by
    rw [score_observe rfl]
    exact movingAverage_mem_Icc positive.le most ⟨zero_le_one, le_refl _⟩ fun _ member => mem_samplesOf member
  refine ⟨unit, ?_, fun signal => signal.sample_mem_Icc.1, fun _ _ => Signal.sample_success_anti, ?_, ?_, ?_⟩
  · intro front back who relay worse better larger
    rw [score_observe rfl, score_observe rfl]
    exact movingAverage_mono positive.le most (le_refl _) (samplesOf_replace larger relay who front back)
  · intro history who signal relay apart
    rw [score_observe rfl, score_observe rfl, samplesOf_append]
    simp [samplesOf, Ne.symm apart]
  · intro history relay perRelayConcurrency some
    exact ⟨one_le_permits _ _ _, permits_le some (unit history relay).2⟩
  · intro before after relay other perRelayConcurrency higher
    exact permits_mono higher perRelayConcurrency

section Example

/-- A slow success, a timeout of another relay, and a `rate-limited` notice. -/
private def mixed : List (String × Signal) :=
  [("wss://slow", .success (secs 3)), ("wss://down", .timeout), ("wss://slow", .rateLimited)]

/-- The theorem at the default factor: the scores, what a timeout in place of the success would have
made of one, that a later signal of the other leaves it alone, and the permits of both. -/
theorem score_average_mixed : (0 : Rat) < 3 / 10 ∧ (3 / 10 : Rat) ≤ 1 ∧
    ((new .exact (3 / 10)).observe mixed).score "wss://slow" = 131 / 200 ∧ (131 / 200 : Rat) ∈ Set.Icc 0 1 ∧
    ((new .exact (3 / 10)).observe [("wss://slow", .timeout), ("wss://down", .timeout), ("wss://slow", .rateLimited)]).score
      "wss://slow" ≤ 131 / 200 ∧
    ((new .exact (3 / 10)).observe (mixed ++ [("wss://down", .connectFailure)])).score "wss://slow" = 131 / 200 ∧
    1 ≤ ((new .exact (3 / 10)).observe mixed).permits "wss://slow" 4 ∧
    ((new .exact (3 / 10)).observe mixed).permits "wss://slow" 4 ≤ ((new .exact (3 / 10)).observe mixed).permits "wss://down" 4 := by
  have positive : (0 : Rat) < 3 / 10 := by norm_num
  have most : (3 / 10 : Rat) ≤ 1 := by norm_num
  obtain ⟨unit, grows, timeout, _, own, capped, permits⟩ := score_average positive most
  have slow : ((new .exact (3 / 10)).observe mixed).score "wss://slow" = 131 / 200 := by
    decide +kernel
  have down : ((new .exact (3 / 10)).observe mixed).score "wss://down" = 7 / 10 := by
    decide +kernel
  have worse := grows [] [("wss://down", .timeout), ("wss://slow", .rateLimited)] "wss://slow" "wss://slow" .timeout
    (.success (secs 3)) (timeout _)
  refine ⟨positive, most, slow, slow ▸ unit _ _, worse.trans_eq slow, ?_, (capped _ _ 4 (by omega)).1, ?_⟩
  · exact (own mixed "wss://down" .connectFailure "wss://slow" (by decide)).trans slow
  · exact permits mixed mixed "wss://slow" "wss://down" 4 (by rw [slow, down]; norm_num)

end Example

end RelayHealthRegistry

end WotCrawler.Relay
