import WotCrawler.Effect.Memo
import WotCrawler.Relay.Nip11

/-! The cache of the relays' limits under the concurrent calls of all batches. Its lock is held for the
lookup and for the insertion, and not for the fetch between them. -/

namespace WotCrawler.Relay

open Effect

/-- The entries of the cache. -/
abbrev LimitCache := String → Option RelayLimits

namespace LimitCache

def new : LimitCache := fun _ => none

def get (cache : LimitCache) (relayUrl : String) : Option RelayLimits := cache relayUrl

def insert (cache : LimitCache) (relayUrl : String) (limits : RelayLimits) : Option RelayLimits × LimitCache :=
  (cache relayUrl, Function.update cache relayUrl (some limits))

/-- A fetch that failed counts as the defaults. -/
def unwrapOrDefaults (fetched : Except RelayError RelayLimits) : RelayLimits :=
  match fetched with
  | .ok limits => limits
  | .error _ => .defaults

/-- A call with nobody else around, given what its fetch would return. -/
def getOrFetch (cache : LimitCache) (fetched : Except RelayError RelayLimits) (relayUrl : String) :
    RelayLimits × LimitCache :=
  match cache.get relayUrl with
  | some limits => (limits, cache)
  | none =>
    let limits := unwrapOrDefaults fetched
    (limits, (cache.insert relayUrl limits).2)

end LimitCache

/-- What a call may make of the relay's document. -/
def Fetched (fromJson : DocumentParser) (relayUrl : String) (limits : RelayLimits) : Prop :=
  ∃ get outcome, fetchLimits fromJson get relayUrl = some outcome ∧ limits = LimitCache.unwrapOrDefaults outcome

variable {fromJson : DocumentParser} {relayUrl : String} {limits : RelayLimits} {memo : Memo String RelayLimits}

theorem Fetched.usable (fetched : Fetched fromJson relayUrl limits) : limits.Usable := by
  obtain ⟨get, outcome, made, rfl⟩ := fetched
  cases outcome with
  | ok limits => exact fetchLimits_usable made
  | error error => exact RelayLimits.usable_defaults

/-- The calls in flight, in atomic steps. -/
abbrev CacheStep (fromJson : DocumentParser) : Memo String RelayLimits → Memo String RelayLimits → Prop :=
  Memo.Step (Fetched fromJson)

/-- A call that nobody interrupts does what `get_or_fetch` does. -/
theorem getOrFetch_steps (fetched : Fetched fromJson relayUrl (LimitCache.unwrapOrDefaults outcome)) :
    ∃ after, Relation.ReflTransGen (CacheStep fromJson) memo after ∧
      after.entries = (LimitCache.getOrFetch memo.entries outcome relayUrl).2 ∧
      after.calls = memo.calls ++ [.answered relayUrl (LimitCache.getOrFetch memo.entries outcome relayUrl).1] := by
  have asks : CacheStep fromJson memo { memo with calls := memo.calls ++ [.asking relayUrl] } := .call relayUrl
  have asking : (memo.calls ++ [.asking relayUrl])[memo.calls.length]? = some (.asking relayUrl) := by simp
  unfold LimitCache.getOrFetch LimitCache.get
  cases present : memo.entries relayUrl with
  | some limits =>
    refine ⟨_, (Relation.ReflTransGen.single asks).tail (.hit asking present), rfl, ?_⟩
    simp
  | none =>
    have misses : CacheStep fromJson { memo with calls := memo.calls ++ [Lookup.asking relayUrl] } _ := .miss asking present
    have filling : ((memo.calls ++ [Lookup.asking relayUrl]).set memo.calls.length (.filling relayUrl))[memo.calls.length]? =
        some (.filling relayUrl) := by simp
    refine ⟨_, ((Relation.ReflTransGen.single asks).tail misses).tail (.fill filling fetched), rfl, ?_⟩
    simp

/-- The cache under any interleaving of its calls: it holds and returns usable limits only; a relay's
document is requested no more often than calls fetch it at once, those given up apart; an entry is
never lost, and from then on nothing more is requested; and once nobody fetches a relay any more, its
limits are those of every later call. -/
theorem limitCache_settles {most : Nat} (run : Relation.ReflTransGen
      (fun memo after => CacheStep fromJson memo after ∧ ∀ relayUrl, after.filling relayUrl ≤ most) Memo.empty memo) :
    (∀ relayUrl limits, memo.entries relayUrl = some limits ∨ .answered relayUrl limits ∈ memo.calls → limits.Usable) ∧
    (∀ relayUrl, memo.fetches relayUrl ≤ most + memo.lost relayUrl) ∧
    ∀ later, Relation.ReflTransGen (CacheStep fromJson) memo later →
      ∀ relayUrl limits, memo.entries relayUrl = some limits →
        (later.entries relayUrl).isSome ∧ later.fetches relayUrl = memo.fetches relayUrl ∧
        (memo.filling relayUrl = 0 → later.entries relayUrl = some limits ∧
          ∀ (index : Nat) answer, later.calls[index]? = some (.answered relayUrl answer) →
            memo.calls[index]? = some (.answered relayUrl answer) ∨ answer = limits) := by
  have sound : Memo.Sound (Fetched fromJson) memo := Memo.Sound.empty.run (Relation.ReflTransGen.mono (fun _ _ step => step.1) _ _ run)
  refine ⟨?_, ?_, ?_⟩
  · rintro relayUrl limits (present | answered)
    · exact (sound.entries relayUrl limits present).usable
    · exact (sound.answers relayUrl limits answered).usable
  · intro relayUrl
    exact Memo.fetches_le (Relation.ReflTransGen.mono (fun _ _ step => ⟨step.1, step.2 relayUrl⟩) _ _ run)
  · intro later further relayUrl limits present
    obtain ⟨kept, same⟩ := Memo.keeps_entry further (Option.isSome_of_eq_some present)
    refine ⟨kept, same, ?_⟩
    intro quiet
    obtain ⟨settled, answers⟩ := (Memo.Settled.mk present quiet).run further
    exact ⟨settled.entry, answers⟩

section Example

private theorem unreachable_fetched : Fetched (fun _ => .error "") "wss://relay" .defaults :=
  ⟨fun _ _ => .error "unreachable", .error (.nip11Fetch "wss://relay" "HTTP request failed: unreachable"), rfl, rfl⟩

/-- One call, which meets a relay that cannot be reached. -/
theorem unreachable_answered : ∃ memo : Memo String RelayLimits, Relation.ReflTransGen
      (fun memo after => CacheStep (fun _ => .error "") memo after ∧ ∀ relayUrl, after.filling relayUrl ≤ 1) Memo.empty memo ∧
    (memo.entries "wss://relay" = some .defaults ∧ memo.filling "wss://relay" = 0 ∧ memo.lost "wss://relay" = 0) ∧
    .answered "wss://relay" .defaults ∈ memo.calls := by
  have few (calls : List (Lookup String RelayLimits)) (single : calls.length ≤ 1) (relayUrl : String) :
      calls.countP (Memo.fills relayUrl) ≤ 1 := List.countP_le_length.trans single
  let asking : Memo String RelayLimits := { Memo.empty with calls := [.asking "wss://relay"] }
  let filling : Memo String RelayLimits := {
    asking with
    fetches := Function.update asking.fetches "wss://relay" 1
    calls := [.filling "wss://relay"] }
  let filled : Memo String RelayLimits := {
    filling with
    entries := Function.update filling.entries "wss://relay" (some .defaults)
    calls := [.answered "wss://relay" .defaults] }
  have asks : CacheStep (fun _ => .error "") Memo.empty asking := .call "wss://relay"
  have misses : CacheStep (fun _ => .error "") asking filling :=
    .miss (show asking.calls[0]? = some (.asking "wss://relay") from rfl) rfl
  have fills : CacheStep (fun _ => .error "") filling filled :=
    .fill (show filling.calls[0]? = some (.filling "wss://relay") from rfl) unreachable_fetched
  refine ⟨filled, ?_, ⟨rfl, rfl, rfl⟩, List.mem_singleton.mpr rfl⟩
  exact ((Relation.ReflTransGen.single ⟨asks, few _ le_rfl⟩).tail ⟨misses, few _ le_rfl⟩).tail ⟨fills, few _ le_rfl⟩

/-- The theorem after that call. -/
theorem limitCache_settles_first : ∃ memo : Memo String RelayLimits, memo.fetches "wss://relay" ≤ 1 ∧
    ∀ later, Relation.ReflTransGen (CacheStep fun _ => .error "") memo later →
      later.entries "wss://relay" = some .defaults := by
  obtain ⟨memo, run, ⟨entry, quiet, kept⟩, _⟩ := unreachable_answered
  obtain ⟨_, fetches, settles⟩ := limitCache_settles run
  refine ⟨memo, (fetches "wss://relay").trans_eq (by rw [kept]), ?_⟩
  intro later further
  exact ((settles later further "wss://relay" .defaults entry).2.2 quiet).1

end Example

end WotCrawler.Relay
