import WotCrawler.Relay.Pool

/-! What a fetch over the whole pool returns of one relay's events. -/

namespace WotCrawler.Relay

open Effect Effect.Prog Sequence

variable {pool : ClientPool} {clock : Nat → Timestamp} {authors : List PublicKey} {kind : Kind}
  {cap : Nat}

/-- What the loop keeps over a pool: its events are the pool's, and none is older than `until`. -/
structure PoolInvariant (pool : ClientPool) (authors : List PublicKey) (kind : Kind)
    (state : PageState) : Prop where
  seen : state.seen = (state.out.map Event.id).toFinset
  stored : ∀ event ∈ state.out, event ∈ pool.chunkEvents authors kind
  below : ∀ event ∈ state.out, state.untilTs ≤ event.createdAt

private theorem mem_append_fresh_iff (valid : PoolInvariant pool authors kind state)
    (answers : pool.Answers (windowFilter authors kind cap state.untilTs) events) :
    event ∈ state.out ++ keepFirst Event.id state.seen events ↔ event ∈ state.out ∨ event ∈ events := by
  have stored : ∀ event ∈ events, event ∈ (pool.chunkSet authors kind).events :=
    fun event member => (mem_upTo.mp (answer_stored answers member)).1
  rw [List.mem_append, mem_fresh_iff (pool.chunkSet authors kind) valid.seen valid.stored stored]
  by_cases held : event ∈ state.out <;> simp [held]

private theorem poolInvariant_page_back (valid : PoolInvariant pool authors kind state)
    (answers : pool.Answers (windowFilter authors kind cap state.untilTs) events)
    (oldest : Event) (member : oldest ∈ events)
    (least : ∀ event ∈ events, oldest.createdAt ≤ event.createdAt) :
    PoolInvariant pool authors kind {
      out := state.out ++ keepFirst Event.id state.seen events
      seen := state.seen ∪ (events.map Event.id).toFinset
      untilTs := oldest.createdAt
      prevUntil := some state.untilTs } := by
  have stored : ∀ event ∈ events, event ∈ (pool.chunkSet authors kind).events :=
    fun event member => (mem_upTo.mp (answer_stored answers member)).1
  have earlier : oldest.createdAt ≤ state.untilTs := (mem_upTo.mp (answer_stored answers member)).2
  refine ⟨seen_union_eq (pool.chunkSet authors kind) valid.seen valid.stored stored, ?_, ?_⟩
  · intro event inside
    rcases (mem_append_fresh_iff valid answers).mp inside with held | received
    · exact valid.stored event held
    · exact stored event received
  · intro event inside
    rcases (mem_append_fresh_iff valid answers).mp inside with held | received
    · exact earlier.trans (valid.below event held)
    · exact least event received

/-- What one merged window makes of the loop: completion where few events remain, else a page
back to the oldest second shown, or a stall when that is `until` itself. -/
theorem pageStep_pool (positive : 0 < cap) (valid : PoolInvariant pool authors kind state)
    (answers : pool.Answers (windowFilter authors kind cap state.untilTs) events) :
    (Exhausted pool authors kind cap state.untilTs ∧
      ∃ out, pageStep cap state events = .done (.ok out) ∧
        ∀ event, event ∈ out ↔ event ∈ state.out ∨ event ∈ events) ∨
    (¬ Exhausted pool authors kind cap state.untilTs ∧
      ∃ older ≤ state.untilTs, OldestShown pool authors kind cap state.untilTs older ∧
        ((∃ next, pageStep cap state events = .next next ∧ next.untilTs = older ∧
            PoolInvariant pool authors kind next ∧
            ∀ event, event ∈ next.out ↔ event ∈ state.out ∨ event ∈ events) ∨
          (older = state.untilTs ∧ ∃ error, pageStep cap state events = .done (.error error)))) := by
  by_cases few : Exhausted pool authors kind cap state.untilTs
  · left
    have short : ¬ events.length ≥ cap := not_le.mpr ((answer_length_lt_iff answers).mpr few)
    refine ⟨few, state.out ++ keepFirst Event.id state.seen events, ?_, fun event =>
      mem_append_fresh_iff valid answers⟩
    simp [pageStep, pageBack, short]
  · right
    have full : cap ≤ events.length := not_lt.mp (fun short => few ((answer_length_lt_iff answers).mp short))
    have inhabited : events ≠ [] := by
      rintro rfl
      simp at full
      omega
    obtain ⟨oldest, member, least, minimal⟩ := min?_createdAt inhabited
    have earlier : oldest.createdAt ≤ state.untilTs := (mem_upTo.mp (answer_stored answers member)).2
    refine ⟨few, oldest.createdAt, earlier, answer_oldest answers oldest member minimal, ?_⟩
    by_cases stale : keepFirst Event.id state.seen events = []
    · right
      -- Without a new event the oldest is held already, so it is not older than `until`.
      have held : oldest ∈ state.out := by
        have kept := (mem_append_fresh_iff valid answers).mpr (Or.inr member)
        simpa [stale] using kept
      have pinned : oldest.createdAt = state.untilTs :=
        le_antisymm earlier (valid.below oldest held)
      refine ⟨pinned, boundaryStall state.untilTs, ?_⟩
      simp [pageStep, stale, pageBack, full, least, pinned]
    · left
      refine ⟨_, ?_, rfl, poolInvariant_page_back valid answers oldest member minimal, fun event =>
        mem_append_fresh_iff valid answers⟩
      simp [pageStep, stale, pageBack, full, least]

section Loop

variable {relayUrl label : String} {timeout : Duration}

/-- A full window within one second is never left. -/
private theorem pageLoop_pinned (clock : Nat → Timestamp) (relayUrl label : String)
    (timeout : Duration) (positive : 0 < cap)
    (full : ¬ Exhausted pool authors kind cap moment)
    (pinned : OldestShown pool authors kind cap moment moment) (pages : Nat) (state : PageState)
    (current : state.untilTs = moment) (valid : PoolInvariant pool authors kind state)
    (readings : Nat) :
    Must (poolNet pool clock)
      (pageLoop authors kind cap (windowFetch relayUrl label timeout) pages state) readings
      (fun result _ => ∀ out, result ≠ .ok out) := by
  induction pages generalizing state with
  | zero => simp [pageLoop]
  | succ pages ih =>
    rw [pageLoop, must_bind]
    subst current
    refine must_windowFetch ?_ (fun error => must_ret.mpr (by simp))
    intro events _ answers
    rcases pageStep_pool positive valid answers with
      ⟨few, _⟩ | ⟨_, older, _, oldest, ⟨next, stepped, atOlder, invariant, _⟩ | ⟨_, error, stepped⟩⟩
    · exact absurd few full
    · simp only [stepped]
      exact ih next (atOlder.trans (oldest.unique pinned)) invariant
    · simp [stepped]

/-- An `Ok` result followed the boundaries and holds all they reach. -/
private theorem pageLoop_reaches (positive : 0 < cap) (pages : Nat) (state : PageState)
    (valid : PoolInvariant pool authors kind state) (readings : Nat) :
    Must (poolNet pool clock)
      (pageLoop authors kind cap (windowFetch relayUrl label timeout) pages state) readings
      (fun result after => after = readings ∧ ∀ out, result = .ok out → ∃ moments,
        Boundaries pool authors kind cap pages state.untilTs moments ∧
        (∀ event ∈ state.out, event ∈ out) ∧
        ∀ moment ∈ moments, ∀ event, ReachedFrom pool authors kind cap moment event → event ∈ out) := by
  induction pages generalizing state with
  | zero => simp [pageLoop]
  | succ pages ih =>
    rw [pageLoop, must_bind]
    refine must_windowFetch ?_ (fun error => must_ret.mpr ⟨rfl, by simp⟩)
    intro events _ answers
    rcases pageStep_pool positive valid answers with
      ⟨few, result, stepped, members⟩ |
      ⟨full, older, earlier, oldest, ⟨next, stepped, atOlder, invariant, members⟩ | ⟨_, error, stepped⟩⟩
    · simp only [stepped, pure_eq, must_ret, true_and]
      rintro out same
      obtain rfl := Except.ok.inj same
      refine ⟨[state.untilTs], .last few, fun event held => (members event).mpr (Or.inl held), ?_⟩
      intro moment single event reached
      obtain rfl := List.mem_singleton.mp single
      exact (members event).mpr (Or.inr (mem_answer_of_reached answers reached))
    · simp only [stepped]
      rcases earlier.eq_or_lt with pinned | earlier
      · have stuck := pageLoop_pinned clock relayUrl label timeout positive full (pinned ▸ oldest)
          pages next (atOlder.trans pinned) invariant readings
        intro result after run
        refine ⟨(ih next invariant result after run).1, fun out same => ?_⟩
        exact absurd same (stuck result after run out)
      · refine (ih next invariant).mono ?_
        rintro result after ⟨rfl, reaches⟩
        refine ⟨rfl, fun out same => ?_⟩
        obtain ⟨moments, boundaries, kept, reached⟩ := reaches out same
        refine ⟨state.untilTs :: moments, .back full oldest earlier (atOlder ▸ boundaries), ?_, ?_⟩
        · exact fun event held => kept event ((members event).mpr (Or.inl held))
        · intro moment listed event reach
          rcases List.mem_cons.mp listed with rfl | later
          · exact kept event ((members event).mpr (Or.inr (mem_answer_of_reached answers reach)))
          · exact reached moment later event reach
    · simp [stepped]

/-- Along its boundaries the loop can return without an event that none of them reaches. -/
private theorem pageLoop_misses (positive : 0 < cap) (inTime : 0 < timeout)
    (boundaries : Boundaries pool authors kind cap pages moment moments) (state : PageState)
    (current : state.untilTs = moment) (valid : PoolInvariant pool authors kind state)
    (absent : event ∉ state.out)
    (missed : ∀ moment ∈ moments, ¬ ReachedFrom pool authors kind cap moment event) (readings : Nat) :
    May (poolNet pool clock)
      (pageLoop authors kind cap (windowFetch relayUrl label timeout) pages state) readings
      (fun result after => after = readings ∧ ∃ out, result = .ok out ∧ event ∉ out) := by
  induction boundaries generalizing state with
  | last few =>
    subst current
    obtain ⟨events, answers, without⟩ := exists_answer_without (missed _ List.mem_cons_self)
    rw [pageLoop, may_bind]
    refine may_windowFetch inTime answers ?_
    rcases pageStep_pool positive valid answers with ⟨_, out, stepped, members⟩ | ⟨full, _⟩
    · simp only [stepped, pure_eq, may_ret, true_and]
      exact ⟨out, rfl, fun inside => ((members event).mp inside).elim absent without⟩
    · exact absurd few full
  | back full oldest earlier rest ih =>
    subst current
    obtain ⟨events, answers, without⟩ := exists_answer_without (missed _ List.mem_cons_self)
    rw [pageLoop, may_bind]
    refine may_windowFetch inTime answers ?_
    rcases pageStep_pool positive valid answers with
      ⟨few, _⟩ | ⟨_, shown, _, shownOldest, ⟨next, stepped, atShown, invariant, members⟩ | ⟨pinned, _⟩⟩
    · exact absurd few full
    · simp only [stepped]
      refine ih next (atShown.trans (shownOldest.unique oldest)) invariant ?_ ?_
      · exact fun inside => ((members event).mp inside).elim absent without
      · exact fun moment listed => missed moment (List.mem_cons_of_mem _ listed)
    · exact absurd ((oldest.unique shownOldest).trans pinned) earlier.ne

end Loop

/-- Each chunk with the first `until` its pagination reads from the clock. -/
def starts (clock : Nat → Timestamp) : Nat → List (List PublicKey) → List (List PublicKey × Timestamp)
  | _, [] => []
  | readings, chunk :: rest => (chunk, clock readings) :: starts clock (readings + 1) rest

/-- A boundary of the chunk reaches the event. -/
def Reaches (pool : ClientPool) (kind : Kind) (cap : Nat) (start : List PublicKey × Timestamp)
    (event : Event) : Prop :=
  ∃ moments, Boundaries pool start.1 kind cap maxPagesPerChunk start.2 moments ∧
    ∃ moment ∈ moments, ReachedFrom pool start.1 kind cap moment event

private theorem poolInvariant_initial (pool : ClientPool) (authors : List PublicKey) (kind : Kind)
    (now : Timestamp) :
    PoolInvariant pool authors kind { out := [], seen := ∅, untilTs := now, prevUntil := none } :=
  ⟨rfl, by simp, by simp⟩

section Chunks

variable (relayUrl label : String) (timeout : Duration)

/-- The pagination of one chunk in production. -/
abbrev chunkFetch (kind : Kind) (cap : Nat) (chunk : List PublicKey) :
    Prog Net (Except RelayError (List Event)) :=
  paginateChunkGated chunk kind cap relayUrl (fun filter =>
    fetchWindowWithDeadline filter timeout label (clientFetch timeout))

private theorem fetchChunks_reaches (positive : 0 < cap) (remaining : List (List PublicKey))
    (all : List Event) (readings : Nat) :
    Must (poolNet pool clock) (fetchChunks (chunkFetch relayUrl label timeout kind cap) all remaining)
      readings (fun result after => ∀ out, result = .ok out → after = readings + remaining.length ∧
        (∀ event ∈ all, event ∈ out) ∧
        ∀ start ∈ starts clock readings remaining,
          (∃ moments, Boundaries pool start.1 kind cap maxPagesPerChunk start.2 moments) ∧
          ∀ event, Reaches pool kind cap start event → event ∈ out) := by
  induction remaining generalizing all readings with
  | nil => simp [fetchChunks, starts]
  | cons chunk rest ih =>
    rw [fetchChunks, must_bind, chunkFetch, paginateChunkGated, paginateChunk, must_bind,
      must_timestampNow]
    refine (pageLoop_reaches positive maxPagesPerChunk _
      (poolInvariant_initial pool chunk kind (clock readings)) (readings + 1)).mono ?_
    rintro result after ⟨rfl, reaches⟩
    cases result with
    | error error => simp
    | ok events =>
      obtain ⟨moments, boundaries, _, reached⟩ := reaches events rfl
      refine (ih (all ++ events) (readings + 1)).mono ?_
      intro result after collected out same
      obtain ⟨counted, kept, others⟩ := collected out same
      refine ⟨by rw [counted, List.length_cons]; omega,
        fun event held => kept event (List.mem_append_left _ held), ?_⟩
      intro start listed
      rcases List.mem_cons.mp listed with rfl | later
      · refine ⟨⟨moments, boundaries⟩, ?_⟩
        rintro event ⟨others, sameBoundaries, moment, listed, reach⟩
        obtain rfl := boundaries.unique sameBoundaries
        exact kept event (List.mem_append_right _ (reached moment listed event reach))
      · exact others start later

private theorem fetchChunks_misses (positive : 0 < cap) (inTime : 0 < timeout)
    (remaining : List (List PublicKey)) (all : List Event) (readings : Nat) (absent : event ∉ all)
    (missed : ∀ start ∈ starts clock readings remaining,
      (∃ moments, Boundaries pool start.1 kind cap maxPagesPerChunk start.2 moments) ∧
        ¬ Reaches pool kind cap start event) :
    May (poolNet pool clock) (fetchChunks (chunkFetch relayUrl label timeout kind cap) all remaining)
      readings (fun result after => after = readings + remaining.length ∧
        ∃ out, result = .ok out ∧ event ∉ out) := by
  induction remaining generalizing all readings with
  | nil => simpa [fetchChunks] using absent
  | cons chunk rest ih =>
    obtain ⟨⟨moments, boundaries⟩, unreached⟩ := missed _ List.mem_cons_self
    rw [fetchChunks, may_bind, chunkFetch, paginateChunkGated, paginateChunk, may_bind,
      may_timestampNow]
    have missing : ∀ moment ∈ moments, ¬ ReachedFrom pool chunk kind cap moment event :=
      fun moment listed reach => unreached ⟨moments, boundaries, moment, listed, reach⟩
    refine (pageLoop_misses positive inTime boundaries _ rfl
      (poolInvariant_initial pool chunk kind (clock readings)) (by simp) missing (readings + 1)).mono ?_
    · rintro result after ⟨rfl, events, rfl, without⟩
      refine (ih (all ++ events) (readings + 1) ?_ (fun start later =>
        missed start (List.mem_cons_of_mem _ later))).mono ?_
      · exact fun inside => (List.mem_append.mp inside).elim absent without
      · rintro result after ⟨rfl, holds⟩
        exact ⟨by rw [List.length_cons]; omega, holds⟩

end Chunks

/-- Under a zero timeout every window is late. -/
private theorem chunkFetch_zero (chunk : List PublicKey) (readings : Nat) :
    Must (poolNet pool clock) (chunkFetch relayUrl label 0 kind cap chunk) readings
      (fun result _ => ∀ out, result ≠ .ok out) := by
  rw [chunkFetch, paginateChunkGated, paginateChunk, must_bind, must_timestampNow,
    show maxPagesPerChunk = 9999 + 1 from rfl, pageLoop, must_bind]
  refine must_windowFetch ?_ (fun error => must_ret.mpr (by simp))
  intro events late
  exact absurd late (lt_irrefl 0)

theorem chunks_eq_nil_iff (positive : 0 < size) {items : List α} : chunks size items = [] ↔ items = [] := by
  rw [chunks, List.map_eq_nil_iff, List.range_eq_nil, Nat.div_eq_zero_iff_lt positive]
  cases items with
  | nil => simpa using positive
  | cons head rest => simp

private theorem must_poolLabel {post : String → Nat → Prop} (holds : ∀ label, post label readings) :
    Must (poolNet pool clock) poolLabel readings post := by
  rw [poolLabel, must_bind, poolRelays, must_perform]
  rintro relays after ⟨_, rfl⟩
  split
  · exact must_ret.mpr (holds _)
  · exact must_ret.mpr (holds _)

private theorem may_poolLabel {post : String → Nat → Prop} (holds : ∀ label, post label readings) :
    May (poolNet pool clock) poolLabel readings post := by
  rw [poolLabel, may_bind, poolRelays, may_perform]
  refine ⟨_, readings, ⟨rfl, rfl⟩, ?_⟩
  split
  · exact may_ret.mpr (holds _)
  · exact may_ret.mpr (holds _)

/-- An `Ok` fetch over the pool was in time, followed each chunk's boundaries, and holds all they reach. -/
theorem fetchComplete_reaches (relayUrl : String) (authors : List PublicKey) (kind : Kind)
    (maxLimit maxAuthors : Nat) (timeout : Duration) (readings : Nat) :
    Must (poolNet pool clock)
      (fetchCompleteWithTimeout relayUrl authors kind maxLimit maxAuthors timeout) readings
      (fun result after => ∀ out, result = .ok out →
        after = readings + (chunks (max maxAuthors 1) authors).length ∧ (timeout = 0 → authors = []) ∧
        ∀ start ∈ starts clock readings (chunks (max maxAuthors 1) authors),
          (∃ moments, Boundaries pool start.1 kind (max maxLimit 1) maxPagesPerChunk start.2 moments) ∧
          ∀ event, Reaches pool kind (max maxLimit 1) start event → event ∈ out) := by
  have positive : 0 < max maxLimit 1 := lt_of_lt_of_le Nat.one_pos (le_max_right _ _)
  rw [fetchCompleteWithTimeout, must_bind]
  refine must_poolLabel fun label => ?_
  intro result after run out same
  obtain ⟨counted, _, starts⟩ := fetchChunks_reaches relayUrl _ timeout positive _ [] readings _ _ run out same
  refine ⟨counted, ?_, starts⟩
  rintro rfl
  cases split : chunks (max maxAuthors 1) authors with
  | nil => exact (chunks_eq_nil_iff (lt_of_lt_of_le Nat.one_pos (le_max_right _ _))).mp split
  | cons chunk rest =>
    rw [split, fetchChunks] at run
    obtain ⟨middle, between, first, second⟩ := runs_bind_iff.mp run
    cases middle with
    | error error =>
      obtain ⟨failed, _⟩ := runs_ret_iff.mp second
      rw [same] at failed
      cases failed
    | ok events => exact absurd rfl (chunkFetch_zero chunk readings _ _ first events)

/-- A fetch in time can return without an event that no boundary reaches. -/
theorem fetchComplete_misses (relayUrl : String) (authors : List PublicKey) (kind : Kind)
    (maxLimit maxAuthors : Nat) (inTime : 0 < timeout) (readings : Nat)
    (missed : ∀ start ∈ starts clock readings (chunks (max maxAuthors 1) authors),
      (∃ moments, Boundaries pool start.1 kind (max maxLimit 1) maxPagesPerChunk start.2 moments) ∧
        ¬ Reaches pool kind (max maxLimit 1) start event) :
    May (poolNet pool clock)
      (fetchCompleteWithTimeout relayUrl authors kind maxLimit maxAuthors timeout) readings
      (fun result after => after = readings + (chunks (max maxAuthors 1) authors).length ∧
        ∃ out, result = .ok out ∧ event ∉ out) := by
  have positive : 0 < max maxLimit 1 := lt_of_lt_of_le Nat.one_pos (le_max_right _ _)
  rw [fetchCompleteWithTimeout, may_bind]
  exact may_poolLabel fun label =>
    fetchChunks_misses relayUrl _ timeout positive inTime _ [] readings (by simp) missed

/-- A fetch over the pool returns every event of the relay, dated at or before its first `until`,
exactly when no window can be in time, or some chunk's boundaries never come to an end, or a
boundary of some chunk reaches each of these events. -/
theorem fetchComplete_covers_iff (pool : ClientPool) (clock : Nat → Timestamp) (relayUrl : String)
    (authors : List PublicKey) (kind : Kind) (maxLimit maxAuthors : Nat) (timeout : Duration)
    (readings : Nat) :
    Must (poolNet pool clock)
      (fetchCompleteWithTimeout relayUrl authors kind maxLimit maxAuthors timeout) readings
      (fun result _ => ∀ out, result = .ok out → ∀ relay ∈ pool.relays, relay.url = relayUrl →
        ∀ event ∈ relay.chunkEvents authors kind, event.createdAt ≤ clock readings → event ∈ out) ↔
    (timeout = 0 ∨
      (∃ start ∈ starts clock readings (chunks (max maxAuthors 1) authors), ∀ moments,
        ¬ Boundaries pool start.1 kind (max maxLimit 1) maxPagesPerChunk start.2 moments) ∨
      ∀ relay ∈ pool.relays, relay.url = relayUrl → ∀ event ∈ relay.chunkEvents authors kind,
        event.createdAt ≤ clock readings →
        ∃ start ∈ starts clock readings (chunks (max maxAuthors 1) authors),
          Reaches pool kind (max maxLimit 1) start event) := by
  constructor
  · intro covers
    by_cases late : timeout = 0
    · exact Or.inl late
    right
    by_cases endless : ∃ start ∈ starts clock readings (chunks (max maxAuthors 1) authors), ∀ moments,
        ¬ Boundaries pool start.1 kind (max maxLimit 1) maxPagesPerChunk start.2 moments
    · exact Or.inl endless
    right
    push Not at endless
    intro relay present url event stored inTime
    by_contra missed
    push Not at missed
    obtain ⟨result, after, run, _, out, same, absent⟩ := fetchComplete_misses relayUrl authors kind maxLimit
      maxAuthors (Nat.pos_of_ne_zero late) readings
      fun start listed => ⟨endless start listed, missed start listed⟩
    exact absent (covers result after run out same relay present url event stored inTime)
  · intro condition
    refine (fetchComplete_reaches relayUrl authors kind maxLimit maxAuthors timeout readings).mono ?_
    intro result after reaches out same relay present url event stored inTime
    obtain ⟨_, late, reached⟩ := reaches out same
    cases condition with
    | inl zero =>
      have author := (Finset.mem_filter.mp stored).2.1
      rw [late zero] at author
      cases author
    | inr condition =>
      cases condition with
      | inl endless =>
        obtain ⟨start, listed, endless⟩ := endless
        obtain ⟨moments, boundaries⟩ := (reached start listed).1
        exact absurd boundaries (endless moments)
      | inr covered =>
        obtain ⟨start, listed, reach⟩ := covered relay present url event stored inTime
        exact (reached start listed).2 event reach

/-- A relay whose window of two is full within its newest second, and one with an older event. -/
def deepStore : RelayStore :=
  ⟨"wss://deep.example", {sampleEvent 1 20 "", sampleEvent 2 20 "", sampleEvent 3 10 ""}⟩

def shallowStore : RelayStore := ⟨"wss://shallow.example", {sampleEvent 4 5 ""}⟩

def twoRelays : ClientPool := ⟨[deepStore, shallowStore], by decide⟩

private theorem twoRelays_boundaries :
    Boundaries twoRelays [sampleAuthor] Kind.contactList 2 maxPagesPerChunk 100 [100, 5] := by
  have budget : maxPagesPerChunk = 9998 + 1 + 1 := rfl
  rw [budget]
  refine .back (by unfold Exhausted; decide) ⟨?_, ?_⟩ (by decide) (.last (by unfold Exhausted; decide))
  · exact ⟨sampleEvent 4 5 "", by decide, rfl⟩
  · decide

/-- The second relay's old event drags the cursor past what the first relay's window cut off. -/
theorem fetchComplete_loses :
    May (poolNet twoRelays (fun _ => 100))
      (fetchCompleteWithTimeout "wss://deep.example" [sampleAuthor] Kind.contactList 2 1
        defaultFetchTimeout) 0
      (fun result _ => ∃ out, result = .ok out ∧
        ∃ event ∈ deepStore.chunkEvents [sampleAuthor] Kind.contactList,
          event.createdAt ≤ 100 ∧ event ∉ out) := by
  have missed : ∀ moment ∈ [(100 : Timestamp), 5],
      ¬ ReachedFrom twoRelays [sampleAuthor] Kind.contactList 2 moment (sampleEvent 3 10 "") := by
    rintro moment listed ⟨relay, present, stored, inTime, few⟩
    have relays : relay = deepStore ∨ relay = shallowStore := by simpa [twoRelays] using present
    have moments : moment = 100 ∨ moment = 5 := by simpa using listed
    rcases relays with rfl | rfl
    · rcases moments with rfl | rfl
      · exact absurd few (by decide)
      · exact absurd inTime (by decide)
    · exact absurd stored (by decide)
  have lost : May (poolNet twoRelays (fun _ => 100))
      (fetchCompleteWithTimeout "wss://deep.example" [sampleAuthor] Kind.contactList 2 1
        defaultFetchTimeout) 0
      (fun result after => after = 0 + (chunks (max 1 1) [sampleAuthor]).length ∧
        ∃ out, result = .ok out ∧ sampleEvent 3 10 "" ∉ out) := by
    apply fetchComplete_misses _ _ _ _ _ (by decide)
    intro start listed
    obtain rfl : start = ([sampleAuthor], 100) := by
      simpa [chunks, starts] using listed
    refine ⟨⟨_, twoRelays_boundaries⟩, ?_⟩
    rintro ⟨moments, boundaries, moment, member, reach⟩
    obtain rfl := boundaries.unique twoRelays_boundaries
    exact missed moment member reach
  refine lost.mono ?_
  rintro result after ⟨_, out, same, absent⟩
  exact ⟨out, same, sampleEvent 3 10 "", by decide, by decide, absent⟩

end WotCrawler.Relay
