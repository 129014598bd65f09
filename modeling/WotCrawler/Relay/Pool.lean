import WotCrawler.Relay.Pagination

/-! Pagination over a pool of relays: the cursor follows the oldest event of the merged window,
so it can pass events of a relay whose own window did not reach as far. -/

namespace WotCrawler.Relay

open Effect Effect.Prog Sequence

/-- The union of what each relay contributes. -/
def ClientPool.gather (pool : ClientPool) (contribute : RelayStore → Finset Event) : Finset Event :=
  (pool.relays.map contribute).foldr (· ∪ ·) ∅

theorem ClientPool.mem_gather {pool : ClientPool} {contribute : RelayStore → Finset Event} :
    event ∈ pool.gather contribute ↔ ∃ relay ∈ pool.relays, event ∈ contribute relay := by
  unfold ClientPool.gather
  induction pool.relays with
  | nil => simp
  | cons relay rest ih => simp [ih]

section Chunk

variable (pool : ClientPool) (authors : List PublicKey) (kind : Kind) (cap : Nat)

/-- The events a chunk asks for that any relay stores. -/
def ClientPool.chunkEvents : Finset Event :=
  pool.gather (fun relay => relay.chunkEvents authors kind)

/-- Fewer than `cap` of these remain at or before a moment. -/
def Exhausted (moment : Timestamp) : Prop :=
  (upTo (pool.chunkEvents authors kind) Event.createdAt moment).card < cap

/-- The events the merged window of a moment can reach: in some relay, fewer than `cap` events
are strictly newer. -/
def ClientPool.shown (moment : Timestamp) : Finset Event :=
  pool.gather (fun relay => Sequence.shown (relay.chunkEvents authors kind) Event.createdAt cap moment)

/-- The oldest second the merged window reaches, which becomes the next `until`. -/
structure OldestShown (moment oldest : Timestamp) : Prop where
  attained : ∃ event ∈ pool.shown authors kind cap moment, event.createdAt = oldest
  least : ∀ event ∈ pool.shown authors kind cap moment, oldest ≤ event.createdAt

/-- The `until` of every window of a chunk, within a page budget: from each the loop pages back
to the oldest second shown, until few enough events remain. A chunk whose boundaries stop at a
full second, or exceed the budget, has none. -/
inductive Boundaries : Nat → Timestamp → List Timestamp → Prop where
  | last (few : Exhausted pool authors kind cap moment) : Boundaries (pages + 1) moment [moment]
  | back (many : ¬ Exhausted pool authors kind cap moment)
      (oldest : OldestShown pool authors kind cap moment older) (earlier : older < moment)
      (rest : Boundaries pages older moments) : Boundaries (pages + 1) moment (moment :: moments)

/-- Some relay holds the event with at most `cap` events from it up to the moment. -/
def ReachedFrom (moment : Timestamp) (event : Event) : Prop :=
  ∃ relay ∈ pool.relays, event ∈ relay.chunkEvents authors kind ∧ event.createdAt ≤ moment ∧
    (since (relay.chunkEvents authors kind) Event.createdAt moment event).card ≤ cap

end Chunk

variable {pool : ClientPool} {authors : List PublicKey} {kind : Kind} {cap : Nat}

theorem ClientPool.mem_chunkEvents : event ∈ pool.chunkEvents authors kind ↔
    ∃ relay ∈ pool.relays, event ∈ relay.chunkEvents authors kind := ClientPool.mem_gather

theorem ClientPool.chunkEvents_distinct : ∀ left ∈ pool.chunkEvents authors kind,
    ∀ right ∈ pool.chunkEvents authors kind, left.id = right.id → left = right := by
  intro left leftMember right rightMember same
  obtain ⟨first, firstMember, leftStored⟩ := mem_chunkEvents.mp leftMember
  obtain ⟨second, secondMember, rightStored⟩ := mem_chunkEvents.mp rightMember
  exact pool.distinct first firstMember second secondMember left (Finset.mem_filter.mp leftStored).1
    right (Finset.mem_filter.mp rightStored).1 same

/-- A chunk's events in the whole pool, as a set of events. -/
def ClientPool.chunkSet (pool : ClientPool) (authors : List PublicKey) (kind : Kind) : EventSet :=
  ⟨pool.chunkEvents authors kind, pool.chunkEvents_distinct⟩

theorem OldestShown.unique (left : OldestShown pool authors kind cap moment first)
    (right : OldestShown pool authors kind cap moment second) : first = second := by
  obtain ⟨event, shown, rfl⟩ := left.attained
  obtain ⟨other, otherShown, rfl⟩ := right.attained
  exact le_antisymm (left.least other otherShown) (right.least event shown)

theorem Boundaries.unique (left : Boundaries pool authors kind cap pages moment first)
    (right : Boundaries pool authors kind cap pages moment second) : first = second := by
  induction left generalizing second with
  | last few =>
    cases right with
    | last _ => rfl
    | back many _ _ _ => exact absurd few many
  | back many oldest earlier rest ih =>
    cases right with
    | last few => exact absurd few many
    | back _ otherOldest _ otherRest =>
      obtain rfl := oldest.unique otherOldest
      rw [ih otherRest]

section Answer

variable {events : List Event} {moment : Timestamp}

/-- Every event of an answer is the pool's and in time. -/
theorem answer_stored (answers : pool.Answers (windowFilter authors kind cap moment) events)
    (member : event ∈ events) :
    event ∈ upTo (pool.chunkEvents authors kind) Event.createdAt moment := by
  obtain ⟨_, windows, answered, merged⟩ := answers
  obtain ⟨window, inWindows, inWindow⟩ := (merged event).mp member
  obtain ⟨relay, present, newest⟩ := exists_of_mem_right answered inWindows
  obtain ⟨stored, inTime⟩ := mem_upTo.mp (Newest.subset newest inWindow)
  exact mem_upTo.mpr ⟨ClientPool.mem_chunkEvents.mpr ⟨relay, present, stored⟩, inTime⟩

/-- An answer below every relay's cap is all that remains. -/
private theorem mem_answer_of_short
    (answers : pool.Answers (windowFilter authors kind cap moment) events)
    (short : ∀ relay ∈ pool.relays, ∀ window,
      Newest (relay.chunkEvents authors kind) Event.createdAt cap moment window →
        (∀ event ∈ window, event ∈ events) → window.card < cap)
    (remains : event ∈ upTo (pool.chunkEvents authors kind) Event.createdAt moment) :
    event ∈ events := by
  obtain ⟨_, windows, answered, merged⟩ := answers
  obtain ⟨stored, inTime⟩ := mem_upTo.mp remains
  obtain ⟨relay, present, kept⟩ := ClientPool.mem_chunkEvents.mp stored
  obtain ⟨window, inWindows, newest⟩ := exists_of_mem_left answered present
  have inside : ∀ event ∈ window, event ∈ events := fun event inWindow =>
    (merged event).mpr ⟨window, inWindows, inWindow⟩
  have whole := Newest.complete newest (short relay present window newest inside)
  exact inside event (whole ▸ mem_upTo.mpr ⟨kept, inTime⟩)

/-- The answer's length tells whether fewer than `cap` events remain. -/
theorem answer_length_lt_iff (answers : pool.Answers (windowFilter authors kind cap moment) events) :
    events.length < cap ↔ Exhausted pool authors kind cap moment := by
  have size := List.toFinset_card_of_nodup answers.1
  constructor
  · intro short
    have whole : upTo (pool.chunkEvents authors kind) Event.createdAt moment ⊆ events.toFinset := by
      intro event remains
      refine List.mem_toFinset.mpr (mem_answer_of_short answers ?_ remains)
      intro relay present window newest inside
      have within := Finset.card_le_card
        (fun event inWindow => List.mem_toFinset.mpr (inside event inWindow) : window ⊆ events.toFinset)
      omega
    have within := Finset.card_le_card whole
    unfold Exhausted
    omega
  · intro few
    have within : events.toFinset ⊆ upTo (pool.chunkEvents authors kind) Event.createdAt moment :=
      fun event member => answer_stored answers (List.mem_toFinset.mp member)
    have bounded := Finset.card_le_card within
    unfold Exhausted at few
    omega

/-- The oldest event of an answer is the oldest shown, however ties are broken. -/
theorem answer_oldest (answers : pool.Answers (windowFilter authors kind cap moment) events)
    (oldest : Event) (member : oldest ∈ events)
    (least : ∀ event ∈ events, oldest.createdAt ≤ event.createdAt) :
    OldestShown pool authors kind cap moment oldest.createdAt := by
  obtain ⟨_, windows, answered, merged⟩ := answers
  constructor
  · obtain ⟨window, inWindows, inWindow⟩ := (merged oldest).mp member
    obtain ⟨relay, present, newest⟩ := exists_of_mem_right answered inWindows
    exact ⟨oldest, ClientPool.mem_gather.mpr ⟨relay, present, Newest.subset_shown newest inWindow⟩, rfl⟩
  · intro event shown
    obtain ⟨relay, present, visible⟩ := ClientPool.mem_gather.mp shown
    obtain ⟨window, inWindows, newest⟩ := exists_of_mem_left answered present
    obtain ⟨kept, inWindow, older⟩ := Newest.exists_le_of_shown newest visible
    exact (least kept ((merged kept).mpr ⟨window, inWindows, inWindow⟩)).trans older

theorem mem_answer_of_reached (answers : pool.Answers (windowFilter authors kind cap moment) events)
    (reached : ReachedFrom pool authors kind cap moment event) : event ∈ events := by
  obtain ⟨_, windows, answered, merged⟩ := answers
  obtain ⟨relay, present, stored, inTime, few⟩ := reached
  obtain ⟨window, inWindows, newest⟩ := exists_of_mem_left answered present
  exact (merged event).mpr ⟨window, inWindows,
    Newest.mem_of_since_card_le newest (mem_upTo.mpr ⟨stored, inTime⟩) few⟩

/-- An event that a moment does not reach is missing from some answer. -/
theorem exists_answer_without (missed : ¬ ReachedFrom pool authors kind cap moment event) :
    ∃ events, pool.Answers (windowFilter authors kind cap moment) events ∧ event ∉ events := by
  have without : ∀ relay ∈ pool.relays, ∃ window,
      RelayStore.Answers (windowFilter authors kind cap moment) relay window ∧ event ∉ window := by
    intro relay present
    by_cases remains : event ∈ upTo (relay.chunkEvents authors kind) Event.createdAt moment
    · obtain ⟨stored, inTime⟩ := mem_upTo.mp remains
      have many : cap < (since (relay.chunkEvents authors kind) Event.createdAt moment event).card :=
        not_le.mp (fun few => missed ⟨relay, present, stored, inTime, few⟩)
      exact exists_newest_without many
    · obtain ⟨window, newest⟩ :=
        exists_newest (relay.chunkEvents authors kind) Event.createdAt cap moment
      exact ⟨window, newest, fun inWindow => remains (newest.subset inWindow)⟩
  obtain ⟨windows, answered⟩ := exists_forall₂ without
  obtain ⟨events, answers, merged⟩ := ClientPool.answers_of_windows (answered.imp fun _ _ both => both.1)
  refine ⟨events, answers, fun member => ?_⟩
  obtain ⟨window, inWindows, inWindow⟩ := (merged event).mp member
  obtain ⟨_, _, _, absent⟩ := exists_of_mem_right answered inWindows
  exact absent inWindow

end Answer

end WotCrawler.Relay
