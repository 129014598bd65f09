import WotCrawler.Relay.Fetch
import WotCrawler.Sequence.Window

/-! The surroundings of a fetch: a client whose pool of honest relays answers every request
with the union of the relays' newest windows. -/

namespace WotCrawler.Relay

open Effect Effect.Prog Sequence

/-- A set of events. Two events are the same event when their ids are. -/
structure EventSet where
  events : Finset Event
  distinct : ∀ left ∈ events, ∀ right ∈ events, left.id = right.id → left = right

/-- A relay of the pool and the events it stores. -/
structure RelayStore where
  url : String
  events : Finset Event

/-- The relays of a client's pool. Copies of one event agree wherever they are stored. -/
structure ClientPool where
  relays : List RelayStore
  distinct : ∀ left ∈ relays, ∀ right ∈ relays, ∀ a ∈ left.events, ∀ b ∈ right.events,
    a.id = b.id → a = b

/-- The events of a relay that a filter's authors and kind select. -/
def RelayStore.selected (relay : RelayStore) (filter : Filter) : Finset Event :=
  relay.events.filter filter.selects

/-- The events of a relay that a chunk asks for. -/
def RelayStore.chunkEvents (relay : RelayStore) (authors : List PublicKey) (kind : Kind) : Finset Event :=
  relay.events.filter (windowFilter authors kind 0 0).selects

/-- One relay's answer: its newest `limit` selected events dated at or before `until`. -/
def RelayStore.Answers (filter : Filter) (relay : RelayStore) (window : Finset Event) : Prop :=
  Newest (relay.selected filter) Event.createdAt filter.limit filter.untilTs window

/-- The client's answer: the union of one answer of each relay, each event once. -/
def ClientPool.Answers (pool : ClientPool) (filter : Filter) (events : List Event) : Prop :=
  events.Nodup ∧ ∃ windows, List.Forall₂ (RelayStore.Answers filter) pool.relays windows ∧
    ∀ event, event ∈ events ↔ ∃ window ∈ windows, event ∈ window

/-- The surroundings of a fetch. The state counts the readings of the wall clock; the monotonic
clock and the rate limiter reply as they like. -/
def poolNet (pool : ClientPool) (clock : Nat → Timestamp) : Machine Net Nat where
  exec
    | .timestampNow, readings, reply, after => reply = clock readings ∧ after = readings + 1
    | .instantNow, readings, _, after => after = readings
    | .acquire _, readings, _, after => after = readings
    | .fetchEvents filter _, readings, reply, after =>
      (∃ events, reply = .ok events ∧ pool.Answers filter events) ∧ after = readings
    | .poolRelays, readings, reply, after => reply = pool.relays.map RelayStore.url ∧ after = readings

variable {pool : ClientPool} {clock : Nat → Timestamp}

theorem must_timestampNow {post : Timestamp → Nat → Prop} :
    Must (poolNet pool clock) timestampNow readings post ↔ post (clock readings) (readings + 1) := by
  rw [timestampNow, must_perform]
  simp [poolNet]

theorem may_timestampNow {post : Timestamp → Nat → Prop} :
    May (poolNet pool clock) timestampNow readings post ↔ post (clock readings) (readings + 1) := by
  rw [timestampNow, may_perform]
  simp [poolNet]

theorem must_clientFetch {post : Except RelayError (List Event) → Nat → Prop} :
    Must (poolNet pool clock) (clientFetch timeout filter) readings post ↔
      ∀ events, pool.Answers filter events → post (.ok events) readings := by
  rw [clientFetch, must_bind, fetchEvents, must_perform]
  constructor
  · intro must events answers
    simpa using must (.ok events) readings ⟨⟨events, rfl, answers⟩, rfl⟩
  · rintro holds reply between ⟨⟨events, rfl, answers⟩, rfl⟩
    simpa using holds events answers

theorem may_clientFetch {post : Except RelayError (List Event) → Nat → Prop} :
    May (poolNet pool clock) (clientFetch timeout filter) readings post ↔
      ∃ events, pool.Answers filter events ∧ post (.ok events) readings := by
  rw [clientFetch, may_bind, fetchEvents, may_perform]
  constructor
  · rintro ⟨reply, between, ⟨⟨events, rfl, answers⟩, rfl⟩, holds⟩
    exact ⟨events, answers, by simpa using holds⟩
  · rintro ⟨events, answers, holds⟩
    exact ⟨.ok events, readings, ⟨⟨events, rfl, answers⟩, rfl⟩, by simpa using holds⟩

/-- The request of one window in production: gated, and under a deadline. -/
abbrev windowFetch (relayUrl label : String) (timeout : Duration) :
    Filter → Prog Net (Except RelayError (List Event)) :=
  gated relayUrl (fun filter => fetchWindowWithDeadline filter timeout label (clientFetch timeout))

theorem must_windowFetch {post : Except RelayError (List Event) → Nat → Prop}
    (answered : ∀ events, 0 < timeout → pool.Answers filter events → post (.ok events) readings)
    (failed : ∀ error, post (.error error) readings) :
    Must (poolNet pool clock) (windowFetch relayUrl label timeout filter) readings post := by
  rw [windowFetch, gated, must_bind, acquire, must_perform]
  rintro token after rfl
  cases token with
  | error error => exact must_ret.mpr (failed error)
  | ok token =>
    simp only [fetchWindowWithDeadline]
    rw [must_bind, instantNow, must_perform]
    rintro started after rfl
    rw [must_bind, must_clientFetch]
    intro events answers
    dsimp only
    rw [must_bind, must_perform]
    rintro ended after rfl
    split
    · exact must_ret.mpr (failed _)
    · rename_i inTime
      have positive : 0 < timeout := lt_of_le_of_lt (Nat.zero_le _) (not_le.mp inTime)
      exact must_ret.mpr (answered events positive answers)

/-- A request can be answered at once with any answer of the pool. -/
theorem may_windowFetch {post : Except RelayError (List Event) → Nat → Prop}
    (positive : 0 < timeout) (answers : pool.Answers filter events) (holds : post (.ok events) readings) :
    May (poolNet pool clock) (windowFetch relayUrl label timeout filter) readings post := by
  rw [windowFetch, gated, may_bind, acquire, may_perform]
  refine ⟨.ok (), readings, rfl, ?_⟩
  simp only [fetchWindowWithDeadline]
  rw [may_bind, instantNow, may_perform]
  refine ⟨(0 : Nat), readings, rfl, ?_⟩
  rw [may_bind, may_clientFetch]
  refine ⟨events, answers, ?_⟩
  dsimp only
  rw [may_bind, may_perform]
  refine ⟨(0 : Nat), readings, rfl, ?_⟩
  have inTime : ¬ ((0 : Nat) - 0 ≥ timeout) := not_le.mpr positive
  rw [if_neg inTime]
  exact may_ret.mpr holds

theorem exists_forall₂ {related : α → β → Prop} {items : List α}
    (total : ∀ item ∈ items, ∃ image, related item image) : ∃ images, List.Forall₂ related items images := by
  induction items with
  | nil => exact ⟨[], .nil⟩
  | cons head rest ih =>
    obtain ⟨image, found⟩ := total head List.mem_cons_self
    obtain ⟨images, others⟩ := ih (fun item member => total item (List.mem_cons_of_mem _ member))
    exact ⟨image :: images, .cons found others⟩

theorem exists_of_mem_left {related : α → β → Prop} (zipped : List.Forall₂ related items images)
    (member : item ∈ items) : ∃ image ∈ images, related item image := by
  induction zipped with
  | nil => simp at member
  | cons head rest ih =>
    rcases List.mem_cons.mp member with rfl | later
    · exact ⟨_, List.mem_cons_self, head⟩
    · obtain ⟨image, found, holds⟩ := ih later
      exact ⟨image, List.mem_cons_of_mem _ found, holds⟩

theorem exists_of_mem_right {related : α → β → Prop} (zipped : List.Forall₂ related items images)
    (member : image ∈ images) : ∃ item ∈ items, related item image :=
  exists_of_mem_left zipped.flip member

/-- Windows of every relay make an answer of the pool. -/
theorem ClientPool.answers_of_windows
    (windows : List.Forall₂ (RelayStore.Answers filter) pool.relays images) :
    ∃ events, pool.Answers filter events ∧
      ∀ event, event ∈ events ↔ ∃ window ∈ images, event ∈ window := by
  let merged : Finset Event := images.toFinset.biUnion id
  refine ⟨merged.toList, ⟨Finset.nodup_toList _, images, windows, ?_⟩, ?_⟩ <;>
    simp [merged]

theorem ClientPool.exists_answer (pool : ClientPool) (filter : Filter) :
    ∃ events, pool.Answers filter events := by
  have windowed : ∀ relay ∈ pool.relays, ∃ window, RelayStore.Answers filter relay window :=
    fun relay _ => exists_newest (relay.selected filter) Event.createdAt filter.limit filter.untilTs
  obtain ⟨images, windows⟩ := exists_forall₂ windowed
  obtain ⟨events, answers, _⟩ := ClientPool.answers_of_windows windows
  exact ⟨events, answers⟩

end WotCrawler.Relay
