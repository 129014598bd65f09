import WotCrawler.Daemon.Fallback
import WotCrawler.Relay.Coverage

/-! Where the fallback looks: every window goes to the client's pool, which holds the curated
relays and no others. -/

namespace WotCrawler.Daemon

open Effect Effect.Prog Ingest Relay

/-- What every relay stores. Copies of one event agree wherever they are stored. -/
structure Placement where
  stores : String → Finset Event
  distinct : ∀ left right, ∀ a ∈ stores left, ∀ b ∈ stores right, a.id = b.id → a = b

/-- `connect_curated`: the pool of the client holds the curated relays. -/
def connectCurated (placement : Placement) (curated : List String) : ClientPool where
  relays := curated.map (fun url => ⟨url, placement.stores url⟩)
  distinct := by
    intro left leftMember right rightMember a aStored b bStored same
    obtain ⟨first, _, rfl⟩ := List.mem_map.mp leftMember
    obtain ⟨second, _, rfl⟩ := List.mem_map.mp rightMember
    exact placement.distinct first second a aStored b bStored same

def maxAuthorsPerReq : Nat := 500

/-- The daemon's fetch from one relay, given the window caps that relays advertise. -/
def relayFetch (maxLimit : Nat → String → Nat) (timeout : Duration) : RelayFetch (Prog Net) :=
  fun visit relay authors kind =>
    fetchCompleteWithTimeout relay authors kind (maxLimit visit relay) maxAuthorsPerReq timeout

/-- The window cap and the first `until` of every visit. -/
def visits (clock : Nat → Timestamp) (maxLimit : Nat → String → Nat) :
    Nat → Nat → List String → List (Nat × Timestamp)
  | _, _, [] => []
  | readings, visit, relay :: rest =>
    (max (maxLimit visit relay) 1, clock readings) :: visits clock maxLimit (readings + 1) (visit + 1) rest

/-- An author's newest list on a relay. -/
def NewestOn (placement : Placement) (relay : String) (author : PublicKey) (newest : Event) : Prop :=
  Nip01Winner (fun event => event ∈ placement.stores relay ∧ event.pubkey = author ∧
    event.kind = Kind.contactList) newest

section Loop

variable {pool : ClientPool} {clock : Nat → Timestamp} {maxLimit : Nat → String → Nat} {author : PublicKey}
  {timeout : Duration} {kind : Kind} {relays : List String}

private theorem chunks_singleton (size : Nat) (item : α) : chunks (max size 1) [item] = [[item]] := by
  have positive : 0 < max size 1 := lt_of_lt_of_le Nat.one_pos (le_max_right _ _)
  have single : ([item].length + max size 1 - 1) / max size 1 = 1 := by
    rw [List.length_singleton, Nat.add_sub_cancel_left, Nat.div_self positive]
  rw [chunks, single]
  simp [List.take_of_length_le]

/-- An `Ok` of the loop holds everything that some visit's boundaries reach. -/
theorem fetchEach_reaches (union : List Event) (visit readings : Nat) :
    Must (poolNet pool clock)
      (fetchEach (fun visit relay => relayFetch maxLimit timeout visit relay [author] kind) union visit relays)
      readings (fun result _ => ∀ all, result = .ok all → (∀ event ∈ union, event ∈ all) ∧
        (timeout = 0 → relays = []) ∧
        ∀ start ∈ visits clock maxLimit readings visit relays,
          (∃ moments, Boundaries pool [author] kind start.1 maxPagesPerChunk start.2 moments) ∧
          ∀ event, Reaches pool kind start.1 ([author], start.2) event → event ∈ all) := by
  induction relays generalizing union visit readings with
  | nil =>
    refine must_ret.mpr ?_
    intro all same
    obtain rfl := Except.ok.inj same
    exact ⟨fun _ member => member, fun _ => rfl, fun _ member => by cases member⟩
  | cons relay rest ih =>
    rw [fetchEach, must_bind]
    refine (fetchComplete_reaches relay [author] kind (maxLimit visit relay) maxAuthorsPerReq timeout
      readings).mono ?_
    intro result after reaches
    cases result with
    | error error =>
      refine must_ret.mpr ?_
      intro all impossible
      cases impossible
    | ok events =>
      obtain ⟨rfl, late, reached⟩ := reaches events rfl
      rw [chunks_singleton] at reached ⊢
      refine (ih (union ++ events) (visit + 1) _).mono ?_
      intro result after collected all same
      obtain ⟨kept, _, others⟩ := collected all same
      refine ⟨fun event member => kept event (List.mem_append_left _ member), ?_, ?_⟩
      · intro zero
        cases late zero
      · intro start listed
        cases List.mem_cons.mp listed with
        | inl first =>
          rw [first]
          obtain ⟨boundaries, stored⟩ := reached ([author], clock readings) (List.mem_singleton_self _)
          exact ⟨boundaries, fun event reach => kept event (List.mem_append_right _ (stored event reach))⟩
        | inr later => exact others start later

/-- The loop can return without an event that no visit reaches. -/
theorem fetchEach_misses (inTime : 0 < timeout) (union : List Event) (absent : event ∉ union)
    (visit readings : Nat)
    (missed : ∀ start ∈ visits clock maxLimit readings visit relays,
      (∃ moments, Boundaries pool [author] kind start.1 maxPagesPerChunk start.2 moments) ∧
        ¬ Reaches pool kind start.1 ([author], start.2) event) :
    May (poolNet pool clock)
      (fetchEach (fun visit relay => relayFetch maxLimit timeout visit relay [author] kind) union visit relays)
      readings (fun result _ => ∃ all, result = .ok all ∧ event ∉ all) := by
  induction relays generalizing union visit readings with
  | nil => exact may_ret.mpr ⟨union, rfl, absent⟩
  | cons relay rest ih =>
    have first : ∀ start ∈ starts clock readings (chunks (max maxAuthorsPerReq 1) [author]),
        (∃ moments, Boundaries pool start.1 kind (max (maxLimit visit relay) 1) maxPagesPerChunk start.2 moments) ∧
          ¬ Reaches pool kind (max (maxLimit visit relay) 1) start event := by
      rw [chunks_singleton]
      intro start listed
      obtain rfl := List.mem_singleton.mp listed
      exact missed _ (List.mem_cons_self ..)
    rw [fetchEach, may_bind]
    refine (fetchComplete_misses relay [author] kind (maxLimit visit relay) maxAuthorsPerReq inTime readings
      first).mono ?_
    intro result after holds
    obtain ⟨rfl, events, rfl, without⟩ := holds
    rw [chunks_singleton]
    apply ih (union ++ events)
    · exact fun inside => (List.mem_append.mp inside).elim absent without
    · exact fun start later => missed start (List.mem_cons_of_mem _ later)

end Loop

/-- Whatever the windows look like, an `Ok` fallback holds each write relay's newest list. -/
def ReachesWriteRelays (pool : ClientPool) (placement : Placement) (clock : Nat → Timestamp)
    (readings : Nat) (maxLimit : Nat → String → Nat) (timeout : Duration) (author : PublicKey)
    (writeRelays : List String) : Prop :=
  Must (poolNet pool clock) (fallbackFetch (relayFetch maxLimit timeout) author writeRelays) readings
    (fun result _ => ∀ union, result = .ok union → ∀ relay ∈ writeRelays, ∀ newest,
      NewestOn placement relay author newest → newest ∈ union)

/-- The fallback reaches an author's write relays exactly when no window can be in time, or some
visit's boundaries never come to an end, or the curated pool itself holds each write relay's
newest list within reach. -/
theorem reachesWriteRelays_iff (placement : Placement) (curated : List String) (clock : Nat → Timestamp)
    (readings : Nat) (maxLimit : Nat → String → Nat) (timeout : Duration) (author : PublicKey)
    (writeRelays : List String) :
    ReachesWriteRelays (connectCurated placement curated) placement clock readings maxLimit timeout author
        writeRelays ↔
      timeout = 0 ∨
      (∃ start ∈ visits clock maxLimit readings 0 writeRelays, ∀ moments, ¬ Boundaries
        (connectCurated placement curated) [author] Kind.contactList start.1 maxPagesPerChunk start.2 moments) ∨
      ∀ relay ∈ writeRelays, ∀ newest, NewestOn placement relay author newest →
        ∃ start ∈ visits clock maxLimit readings 0 writeRelays,
          Reaches (connectCurated placement curated) Kind.contactList start.1 ([author], start.2) newest := by
  constructor
  · intro reaches
    by_cases late : timeout = 0
    · exact .inl late
    right
    by_cases endless : ∃ start ∈ visits clock maxLimit readings 0 writeRelays, ∀ moments, ¬ Boundaries
        (connectCurated placement curated) [author] Kind.contactList start.1 maxPagesPerChunk start.2 moments
    · exact .inl endless
    right
    push Not at endless
    intro relay member newest newestOn
    by_contra missed
    push Not at missed
    obtain ⟨result, after, run, all, same, absent⟩ := fetchEach_misses (Nat.pos_of_ne_zero late) []
      List.not_mem_nil 0 readings fun start listed => ⟨endless start listed, missed start listed⟩
    exact absent (reaches result after run all same relay member newest newestOn)
  · intro condition result after run union same relay member newest newestOn
    obtain ⟨_, late, reached⟩ := fetchEach_reaches [] 0 readings result after run union same
    cases condition with
    | inl zero =>
      rw [late zero] at member
      cases member
    | inr condition =>
      cases condition with
      | inl endless =>
        obtain ⟨start, listed, endless⟩ := endless
        obtain ⟨moments, boundaries⟩ := (reached start listed).1
        exact absurd boundaries (endless moments)
      | inr covered =>
        obtain ⟨start, listed, reach⟩ := covered relay member newest newestOn
        exact (reached start listed).2 newest reach

/-- An author's list on its write relay alone. -/
def onWriteRelay : Placement where
  stores := fun url => if url = "wss://write" then {sampleEvent 1 20 ""} else ∅
  distinct := by
    intro left right a aStored b bStored _
    by_cases first : left = "wss://write"
    · by_cases second : right = "wss://write"
      · simp only [first, second, if_true, Finset.mem_singleton] at aStored bStored
        exact aStored.trans bStored.symm
      · simp [second] at bStored
    · simp [first] at aStored

/-- The fallback is handed the write relay, asks only the curated one, and returns without the list. -/
theorem fallback_misses_writeRelay : NewestOn onWriteRelay "wss://write" sampleAuthor (sampleEvent 1 20 "") ∧
    May (poolNet (connectCurated onWriteRelay ["wss://curated"]) (fun _ => 100))
      (fallbackFetch (relayFetch (fun _ _ => 500) defaultFetchTimeout) sampleAuthor ["wss://write"]) 0
      (fun result _ => ∃ union, result = .ok union ∧ sampleEvent 1 20 "" ∉ union) ∧
    ¬ ReachesWriteRelays (connectCurated onWriteRelay ["wss://curated"]) onWriteRelay (fun _ => 100) 0
      (fun _ _ => 500) defaultFetchTimeout sampleAuthor ["wss://write"] := by
  have newest : NewestOn onWriteRelay "wss://write" sampleAuthor (sampleEvent 1 20 "") := by
    refine ⟨⟨by simp [onWriteRelay], rfl, rfl⟩, ?_⟩
    intro event stored
    have same : event = sampleEvent 1 20 "" := by simpa [onWriteRelay] using stored.1
    exact .inl (congrArg Event.id same)
  have misses : May (poolNet (connectCurated onWriteRelay ["wss://curated"]) (fun _ => 100))
      (fallbackFetch (relayFetch (fun _ _ => 500) defaultFetchTimeout) sampleAuthor ["wss://write"]) 0
      (fun result _ => ∃ union, result = .ok union ∧ sampleEvent 1 20 "" ∉ union) := by
    apply fetchEach_misses (by decide) [] List.not_mem_nil
    intro start listed
    obtain rfl := List.mem_singleton.mp listed
    refine ⟨⟨[100], .last ?_⟩, ?_⟩
    · unfold Exhausted
      decide
    · intro reach
      obtain ⟨moments, _, moment, _, relay, present, stored, _⟩ := reach
      obtain rfl : relay = ⟨"wss://curated", ∅⟩ := by simpa [connectCurated, onWriteRelay] using present
      cases stored
  refine ⟨newest, misses, ?_⟩
  intro reaches
  obtain ⟨result, after, run, union, same, absent⟩ := misses
  exact absent (reaches result after run union same "wss://write" (List.mem_singleton_self _) _ newest)

end WotCrawler.Daemon
