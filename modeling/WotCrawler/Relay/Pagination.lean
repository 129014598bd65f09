import WotCrawler.Relay.Client

/-! Pagination against one honest relay: an `Ok` result holds the relay's events exactly once. -/

namespace WotCrawler.Relay

open Effect Effect.Prog Sequence

/-- No second holds `cap` or more events. -/
def Sparse (pool : Finset Event) (cap : Nat) : Prop :=
  ∀ second, (tied pool Event.createdAt second).card < cap

/-- The list holds every event of the pool exactly once. -/
def Complete (pool : Finset Event) (out : List Event) : Prop :=
  out.Nodup ∧ ∀ event, event ∈ out ↔ event ∈ pool

/-- A relay answers a chunk's requests honestly: always, and with a newest-first window of its
events, ties at the oldest second broken at will. -/
structure HonestRelay (machine : Machine sig State)
    (fetch : Filter → Prog sig (Except RelayError (List Event))) (pool : Finset Event)
    (authors : List PublicKey) (kind : Kind) (cap : Nat) : Prop where
  answers : ∀ moment state, May machine (fetch (windowFilter authors kind cap moment)) state
    (fun _ _ => True)
  newest : ∀ moment state, Must machine (fetch (windowFilter authors kind cap moment)) state
    (fun reply _ => ∃ window : List Event, reply = .ok window ∧ window.Nodup ∧
      Newest pool Event.createdAt cap moment window.toFinset)

/-- The same for the requests up to a moment. A loop that starts there makes no others. -/
structure HonestUpTo (machine : Machine sig State)
    (fetch : Filter → Prog sig (Except RelayError (List Event))) (pool : Finset Event)
    (authors : List PublicKey) (kind : Kind) (cap : Nat) (first : Timestamp) : Prop where
  newest : ∀ moment ≤ first, ∀ state, Must machine (fetch (windowFilter authors kind cap moment)) state
    (fun reply _ => ∃ window : List Event, reply = .ok window ∧ window.Nodup ∧
      Newest pool Event.createdAt cap moment window.toFinset)

/-- The events of a relay that are dated by a moment. -/
def EventSet.upTo (pool : EventSet) (first : Timestamp) : EventSet where
  events := Sequence.upTo pool.events Event.createdAt first
  distinct := by
    intro left leftEarly right rightEarly
    exact pool.distinct left (mem_upTo.mp leftEarly).1 right (mem_upTo.mp rightEarly).1

/-- What the loop knows before each window: it holds everything newer than `until`, nothing
older, and no second it passed was overfull. -/
structure PageInvariant (pool : Finset Event) (cap : Nat) (state : PageState) : Prop where
  nodup : state.out.Nodup
  seen : state.seen = (state.out.map Event.id).toFinset
  stored : ∀ event ∈ state.out, event ∈ pool
  above : ∀ event ∈ pool, state.untilTs < event.createdAt → event ∈ state.out
  below : ∀ event ∈ state.out, state.untilTs ≤ event.createdAt
  sparse : ∀ second, state.untilTs < second → (tied pool Event.createdAt second).card < cap

section Step

variable {pool : EventSet} {cap : Nat} {state : PageState} {window : List Event}

/-- The seen-set lets exactly the events through that are not held yet. -/
theorem mem_fresh_iff (pool : EventSet) (known : state.seen = (state.out.map Event.id).toFinset)
    (held : ∀ event ∈ state.out, event ∈ pool.events)
    (stored : ∀ event ∈ window, event ∈ pool.events) :
    event ∈ keepFirst Event.id state.seen window ↔ event ∈ window ∧ event ∉ state.out := by
  constructor
  · intro fresh
    refine ⟨(keepFirst_sublist Event.id _ _).subset fresh, fun old => ?_⟩
    apply not_mem_seen_of_mem_keepFirst fresh
    rw [known, List.mem_toFinset]
    exact List.mem_map_of_mem old
  · rintro ⟨member, new⟩
    rcases exists_mem_keepFirst Event.id state.seen member with old | ⟨kept, fresh, same⟩
    · rw [known, List.mem_toFinset] at old
      obtain ⟨copy, copyHeld, same⟩ := List.mem_map.mp old
      have copied := pool.distinct copy (held copy copyHeld) event (stored event member) same
      exact absurd (copied ▸ copyHeld) new
    · have received := (keepFirst_sublist Event.id _ _).subset fresh
      have copied := pool.distinct kept (stored kept received) event (stored event member) same
      exact copied ▸ fresh

/-- The ids of a window join the seen-set whether or not they are new. -/
theorem seen_union_eq (pool : EventSet) (known : state.seen = (state.out.map Event.id).toFinset)
    (held : ∀ event ∈ state.out, event ∈ pool.events)
    (stored : ∀ event ∈ window, event ∈ pool.events) :
    state.seen ∪ (window.map Event.id).toFinset =
      ((state.out ++ keepFirst Event.id state.seen window).map Event.id).toFinset := by
  ext id
  have member : id ∈ state.seen ↔ id ∈ state.out.map Event.id := by
    rw [known, List.mem_toFinset]
  simp only [List.map_append, List.toFinset_append, Finset.mem_union, List.mem_toFinset, member]
  refine or_congr_right' fun old => ?_
  constructor
  · intro inside
    obtain ⟨event, eventMember, rfl⟩ := List.mem_map.mp inside
    refine List.mem_map_of_mem ((mem_fresh_iff pool known held stored).mpr ⟨eventMember, fun already => ?_⟩)
    exact old (List.mem_map_of_mem already)
  · intro inside
    obtain ⟨event, fresh, rfl⟩ := List.mem_map.mp inside
    exact List.mem_map_of_mem ((keepFirst_sublist Event.id _ _).subset fresh)

private theorem nodup_append_fresh (valid : PageInvariant pool.events cap state)
    (stored : ∀ event ∈ window, event ∈ pool.events) :
    (state.out ++ keepFirst Event.id state.seen window).Nodup := by
  refine List.nodup_append.mpr ⟨valid.nodup, (keepFirst_nodup Event.id _ _).of_map _, ?_⟩
  rintro event held other fresh rfl
  exact ((mem_fresh_iff pool valid.seen valid.stored stored).mp fresh).2 held

/-- After a window below the cap the loop holds the whole pool. -/
private theorem complete_of_short (valid : PageInvariant pool.events cap state)
    (newest : Newest pool.events Event.createdAt cap state.untilTs window.toFinset)
    (nodup : window.Nodup) (short : window.length < cap) :
    Complete pool.events (state.out ++ keepFirst Event.id state.seen window) ∧
      Sparse pool.events cap := by
  have stored : ∀ event ∈ window, event ∈ pool.events := fun event member =>
    (mem_upTo.mp (newest.subset (List.mem_toFinset.mpr member))).1
  have size := List.toFinset_card_of_nodup nodup
  have whole := newest.complete (size ▸ short)
  refine ⟨⟨nodup_append_fresh valid stored, ?_⟩, ?_⟩
  · intro event
    rw [List.mem_append, mem_fresh_iff pool valid.seen valid.stored stored]
    constructor
    · rintro (held | ⟨member, _⟩)
      · exact valid.stored event held
      · exact stored event member
    · intro present
      by_cases held : event ∈ state.out
      · exact Or.inl held
      · refine Or.inr ⟨?_, held⟩
        have early : event.createdAt ≤ state.untilTs :=
          not_lt.mp (fun later => held (valid.above event present later))
        rw [← List.mem_toFinset, whole]
        exact mem_upTo.mpr ⟨present, early⟩
  · intro second
    by_cases passed : state.untilTs < second
    · exact valid.sparse second passed
    · refine lt_of_le_of_lt (Finset.card_le_card ?_) (size ▸ short)
      intro event member
      obtain ⟨present, rfl⟩ := mem_tied.mp member
      rw [whole]
      exact mem_upTo.mpr ⟨present, not_lt.mp passed⟩

/-- A capped window without new events lies within the second `until`. -/
private theorem overfull_of_stall (valid : PageInvariant pool.events cap state)
    (newest : Newest pool.events Event.createdAt cap state.untilTs window.toFinset)
    (nodup : window.Nodup) (full : cap ≤ window.length)
    (stale : keepFirst Event.id state.seen window = []) :
    (∀ event ∈ window, event.createdAt = state.untilTs) ∧
      cap ≤ (tied pool.events Event.createdAt state.untilTs).card := by
  have stored : ∀ event ∈ window, event ∈ pool.events := fun event member =>
    (mem_upTo.mp (newest.subset (List.mem_toFinset.mpr member))).1
  have pinned : ∀ event ∈ window, event.createdAt = state.untilTs := by
    intro event member
    have held : event ∈ state.out := by
      by_contra new
      have fresh := (mem_fresh_iff pool valid.seen valid.stored stored).mpr ⟨member, new⟩
      simp [stale] at fresh
    exact le_antisymm (mem_upTo.mp (newest.subset (List.mem_toFinset.mpr member))).2
      (valid.below event held)
  refine ⟨pinned, ?_⟩
  have size := List.toFinset_card_of_nodup nodup
  have within := newest.card_le_tied (fun event member => pinned event (List.mem_toFinset.mp member))
  omega

/-- Paging back to the oldest second of a capped window keeps the invariant. -/
private theorem invariant_page_back (valid : PageInvariant pool.events cap state)
    (newest : Newest pool.events Event.createdAt cap state.untilTs window.toFinset)
    (oldest : Event) (member : oldest ∈ window)
    (least : ∀ event ∈ window, oldest.createdAt ≤ event.createdAt) :
    PageInvariant pool.events cap {
      out := state.out ++ keepFirst Event.id state.seen window
      seen := state.seen ∪ (window.map Event.id).toFinset
      untilTs := oldest.createdAt
      prevUntil := some state.untilTs } := by
  have received : ∀ event ∈ window, event ∈ upTo pool.events Event.createdAt state.untilTs :=
    fun event inside => newest.subset (List.mem_toFinset.mpr inside)
  have stored : ∀ event ∈ window, event ∈ pool.events := fun event inside =>
    (mem_upTo.mp (received event inside)).1
  have earlier : oldest.createdAt ≤ state.untilTs := (mem_upTo.mp (received oldest member)).2
  refine ⟨nodup_append_fresh valid stored, ?_, ?_, ?_, ?_, ?_⟩
  · exact seen_union_eq pool valid.seen valid.stored stored
  · intro event inside
    rcases List.mem_append.mp inside with held | fresh
    · exact valid.stored event held
    · exact stored event ((mem_fresh_iff pool valid.seen valid.stored stored).mp fresh).1
  · intro event present later
    rw [List.mem_append, mem_fresh_iff pool valid.seen valid.stored stored]
    by_cases held : event ∈ state.out
    · exact Or.inl held
    · refine Or.inr ⟨?_, held⟩
      have early : event.createdAt ≤ state.untilTs :=
        not_lt.mp (fun newer => held (valid.above event present newer))
      exact List.mem_toFinset.mp (newest.above (List.mem_toFinset.mpr member)
        (mem_upTo.mpr ⟨present, early⟩) later)
  · intro event inside
    rcases List.mem_append.mp inside with held | fresh
    · exact earlier.trans (valid.below event held)
    · exact least event ((mem_fresh_iff pool valid.seen valid.stored stored).mp fresh).1
  · intro second later
    by_cases passed : state.untilTs < second
    · exact valid.sparse second passed
    · exact newest.tied_card_lt (List.mem_toFinset.mpr member) later (not_lt.mp passed)

theorem min?_createdAt (inhabited : window ≠ []) :
    ∃ oldest ∈ window, (window.map Event.createdAt).min? = some oldest.createdAt ∧
      ∀ event ∈ window, oldest.createdAt ≤ event.createdAt := by
  cases least : (window.map Event.createdAt).min? with
  | none => simp [inhabited] at least
  | some second =>
    obtain ⟨member, minimal⟩ := List.min?_eq_some_iff.mp least
    obtain ⟨oldest, present, rfl⟩ := List.mem_map.mp member
    exact ⟨oldest, present, rfl, fun event inside => minimal _ (List.mem_map_of_mem inside)⟩

/-- The loop pages backwards. -/
theorem pageStep_untilTs_le (within : ∀ event ∈ window, event.createdAt ≤ state.untilTs)
    (stepped : pageStep cap state window = .next next) : next.untilTs ≤ state.untilTs := by
  unfold pageStep at stepped
  dsimp only at stepped
  split at stepped
  · split at stepped <;> cases stepped
  · split at stepped
    · rename_i second back
      obtain rfl := PageOutcome.next.inj stepped
      unfold pageBack at back
      split at back
      · rename_i oldest _ least
        obtain rfl := Option.some.inj back
        obtain ⟨member, _⟩ := List.min?_eq_some_iff.mp least
        obtain ⟨event, present, rfl⟩ := List.mem_map.mp member
        exact within event present
      · cases back
    · cases stepped

/-- The pool's seconds older than a moment. -/
def secondsBelow (pool : Finset Event) (moment : Timestamp) : Finset Timestamp :=
  (pool.image Event.createdAt).filter (fun second => second < moment)

/-- What one honest window makes of the loop: completion of a sparse pool, a stall in an
overfull second, or a page back that passes a second unless it is overfull. -/
theorem pageStep_honest (positive : 0 < cap) (valid : PageInvariant pool.events cap state)
    (nodup : window.Nodup)
    (newest : Newest pool.events Event.createdAt cap state.untilTs window.toFinset) :
    (∃ out, pageStep cap state window = .done (.ok out) ∧ Complete pool.events out ∧
      Sparse pool.events cap) ∨
    (∃ error, pageStep cap state window = .done (.error error) ∧ ¬ Sparse pool.events cap) ∨
    (∃ next, pageStep cap state window = .next next ∧ PageInvariant pool.events cap next ∧
      (Sparse pool.events cap →
        secondsBelow pool.events next.untilTs ⊂ secondsBelow pool.events state.untilTs)) := by
  by_cases short : window.length < cap
  · left
    obtain ⟨complete, sparse⟩ := complete_of_short valid newest nodup short
    refine ⟨_, ?_, complete, sparse⟩
    have under : ¬ window.length ≥ cap := not_le.mpr short
    simp [pageStep, pageBack, under]
  · right
    have full : cap ≤ window.length := not_lt.mp short
    have inhabited : window ≠ [] := by
      rintro rfl
      simp at full
      omega
    obtain ⟨oldest, member, least, minimal⟩ := min?_createdAt inhabited
    by_cases stale : keepFirst Event.id state.seen window = []
    · left
      obtain ⟨pinned, overfull⟩ := overfull_of_stall valid newest nodup full stale
      refine ⟨boundaryStall state.untilTs, ?_, fun sparse => not_le.mpr (sparse _) overfull⟩
      simp [pageStep, stale, pageBack, full, least, pinned oldest member]
    · right
      have invariant := invariant_page_back valid newest oldest member minimal
      refine ⟨_, ?_, invariant, ?_⟩
      · simp [pageStep, stale, pageBack, full, least]
      · intro sparse
        have earlier : oldest.createdAt ≤ state.untilTs :=
          (mem_upTo.mp (newest.subset (List.mem_toFinset.mpr member))).2
        have strictly : oldest.createdAt < state.untilTs := by
          refine lt_of_le_of_ne earlier fun same => not_le.mpr (sparse state.untilTs) ?_
          have pinned : ∀ event ∈ window.toFinset, event.createdAt = state.untilTs := fun event inside =>
            le_antisymm (mem_upTo.mp (newest.subset inside)).2
              (same ▸ minimal event (List.mem_toFinset.mp inside))
          have within := newest.card_le_tied pinned
          have size := List.toFinset_card_of_nodup nodup
          omega
        have present : oldest ∈ pool.events :=
          (mem_upTo.mp (newest.subset (List.mem_toFinset.mpr member))).1
        refine (Finset.ssubset_iff_of_subset ?_).mpr ⟨oldest.createdAt, ?_, ?_⟩
        · intro second inside
          obtain ⟨known, older⟩ := Finset.mem_filter.mp inside
          exact Finset.mem_filter.mpr ⟨known, lt_trans older strictly⟩
        · exact Finset.mem_filter.mpr ⟨Finset.mem_image_of_mem _ present, strictly⟩
        · simp [secondsBelow]

end Step

section Run

variable {machine : Machine sig State} {fetch : Filter → Prog sig (Except RelayError (List Event))}
  {pool : EventSet} {authors : List PublicKey} {kind : Kind} {cap : Nat}

/-- Only what was dated by then counts for the requests up to a moment. -/
theorem HonestRelay.upTo_first (honest : HonestRelay machine fetch pool.events authors kind cap) (first : Timestamp) :
    HonestUpTo machine fetch (pool.upTo first).events authors kind cap first := by
  constructor
  intro moment within state
  refine (honest.newest moment state).mono ?_
  intro reply _ ⟨window, answered, nodup, newest⟩
  exact ⟨window, answered, nodup, newest.upTo_bound within⟩

/-- Against an honest relay the loop completes a sparse pool within its budget, and completes
nothing else. -/
private theorem pageLoop_honest {first : Timestamp} (positive : 0 < cap)
    (honest : HonestUpTo machine fetch pool.events authors kind cap first) (pages : Nat)
    (page : PageState) (valid : PageInvariant pool.events cap page) (begun : page.untilTs ≤ first) (state : State) :
    Must machine (pageLoop authors kind cap fetch pages page) state (fun result _ =>
      (∀ out, result = .ok out → Complete pool.events out ∧ Sparse pool.events cap) ∧
      (Sparse pool.events cap → (secondsBelow pool.events page.untilTs).card < pages →
        ∃ out, result = .ok out)) := by
  induction pages generalizing page state with
  | zero => simp [pageLoop]
  | succ pages ih =>
    rw [pageLoop, must_bind]
    refine (honest.newest page.untilTs begun state).mono ?_
    rintro reply between ⟨window, rfl, nodup, newest⟩
    rcases pageStep_honest positive valid nodup newest with
      ⟨out, stepped, complete, sparse⟩ | ⟨error, stepped, dense⟩ | ⟨next, stepped, invariant, progress⟩
    · simp only [stepped, pure_eq, must_ret]
      refine ⟨?_, fun _ _ => ⟨out, rfl⟩⟩
      rintro other same
      obtain rfl := Except.ok.inj same
      exact ⟨complete, sparse⟩
    · simp only [stepped, pure_eq, must_ret]
      exact ⟨by simp, fun sparse => absurd sparse dense⟩
    · simp only [stepped]
      have earlier : next.untilTs ≤ page.untilTs := by
        apply pageStep_untilTs_le _ stepped
        intro event member
        exact (mem_upTo.mp (newest.subset (List.mem_toFinset.mpr member))).2
      refine (ih next invariant (earlier.trans begun) between).mono ?_
      rintro result after ⟨exactly, returns⟩
      refine ⟨exactly, fun sparse within => returns sparse ?_⟩
      have fewer := Finset.card_lt_card (progress sparse)
      omega

private theorem pageLoop_returns
    (answers : ∀ moment state, May machine (fetch (windowFilter authors kind cap moment)) state
      (fun _ _ => True)) (pages : Nat) (page : PageState) (state : State) :
    May machine (pageLoop authors kind cap fetch pages page) state (fun _ _ => True) := by
  induction pages generalizing page state with
  | zero => simp [pageLoop]
  | succ pages ih =>
    rw [pageLoop, may_bind]
    refine (answers page.untilTs state).mono ?_
    intro reply between _
    cases reply with
    | error error => simp
    | ok events =>
      cases stepped : pageStep cap page events with
      | done result => simp [stepped]
      | next following => simpa [stepped] using ih following between

theorem paginateChunk_returns {timestampNow : Prog sig Timestamp}
    (clock : May machine timestampNow state (fun _ _ => True))
    (answers : ∀ moment state, May machine (fetch (windowFilter authors kind cap moment)) state
      (fun _ _ => True)) :
    May machine (paginateChunk timestampNow authors kind cap fetch) state (fun _ _ => True) := by
  rw [paginateChunk, may_bind]
  exact clock.mono fun now between _ => pageLoop_returns answers _ _ between

/-- An `Ok` result of pagination holds what an honest relay stores up to the first `until`. -/
theorem paginateChunk_upTo (positive : 1 ≤ cap) {timestampNow : Prog sig Timestamp} (first : Timestamp)
    (started : Must machine timestampNow state (fun now _ => now = first))
    (dated : ∀ event ∈ pool.events, event.createdAt ≤ first)
    (honest : HonestUpTo machine fetch pool.events authors kind cap first) :
    Must machine (paginateChunk timestampNow authors kind cap fetch) state (fun result _ =>
      (∀ out, result = .ok out → Complete pool.events out) ∧
      ((pool.events.image Event.createdAt).card ≤ maxPagesPerChunk - 1 →
        ((∃ out, result = .ok out) ↔ Sparse pool.events cap))) := by
  rw [paginateChunk, must_bind]
  refine started.mono ?_
  rintro now between rfl
  have initial : PageInvariant pool.events cap
      { out := [], seen := ∅, untilTs := now, prevUntil := none } := by
    refine ⟨List.nodup_nil, rfl, by simp, ?_, by simp, ?_⟩
    · exact fun event present later => absurd (dated event present) (not_le.mpr later)
    · intro second later
      have absent : tied pool.events Event.createdAt second = ∅ := by
        refine Finset.filter_eq_empty_iff.mpr fun event present same => ?_
        exact not_le.mpr later (same ▸ dated event present)
      rw [absent]
      exact positive
  refine (pageLoop_honest positive honest maxPagesPerChunk _ initial le_rfl between).mono ?_
  rintro result after ⟨exactly, returns⟩
  refine ⟨fun out same => (exactly out same).1, fun few => ⟨?_, fun sparse => returns sparse ?_⟩⟩
  · rintro ⟨out, same⟩
    exact (exactly out same).2
  · have below := Finset.card_filter_le (pool.events.image Event.createdAt) (fun second => second < now)
    have budget : 0 < maxPagesPerChunk := by decide
    exact lt_of_le_of_lt (below.trans few) (by omega)

/-- Pagination of an honest relay returns. An `Ok` result holds every event dated at or before
the first `until` exactly once, and when those span fewer seconds than the page budget the result
is `Ok` exactly when no second holds `cap` or more of them. -/
theorem paginateChunk_honest (positive : 1 ≤ cap) {timestampNow : Prog sig Timestamp}
    (first : Timestamp) (clock : May machine timestampNow state (fun _ _ => True))
    (started : Must machine timestampNow state (fun now _ => now = first))
    (dated : ∀ event ∈ pool.events, event.createdAt ≤ first)
    (honest : HonestRelay machine fetch pool.events authors kind cap) :
    May machine (paginateChunk timestampNow authors kind cap fetch) state (fun _ _ => True) ∧
    Must machine (paginateChunk timestampNow authors kind cap fetch) state (fun result _ =>
      (∀ out, result = .ok out → Complete pool.events out) ∧
      ((pool.events.image Event.createdAt).card ≤ maxPagesPerChunk - 1 →
        ((∃ out, result = .ok out) ↔ Sparse pool.events cap))) := by
  refine ⟨paginateChunk_returns clock honest.answers, ?_⟩
  exact paginateChunk_upTo positive first started dated ⟨fun moment _ => honest.newest moment⟩

end Run

/-- A client connected to one relay is an honest relay. -/
theorem honestRelay_of_single {pool : ClientPool} (single : pool.relays = [relay])
    (clock : Nat → Timestamp) (timeout : Duration) (authors : List PublicKey) (kind : Kind) (cap : Nat) :
    HonestRelay (poolNet pool clock) (clientFetch timeout) (relay.chunkEvents authors kind)
      authors kind cap := by
  constructor
  · intro moment readings
    rw [may_clientFetch]
    obtain ⟨events, answers⟩ := pool.exists_answer (windowFilter authors kind cap moment)
    exact ⟨events, answers, trivial⟩
  · intro moment readings
    rw [must_clientFetch]
    rintro events ⟨nodup, windows, answered, merged⟩
    rw [single] at answered
    obtain ⟨window, _, newest, others, rfl⟩ := List.forall₂_cons_left_iff.mp answered
    obtain rfl := List.forall₂_nil_left_iff.mp others
    refine ⟨events, rfl, nodup, ?_⟩
    have same : events.toFinset = window := by
      ext event
      simp [merged]
    exact same ▸ newest

def sampleStore : RelayStore := ⟨"wss://relay.example", {sampleEvent 1 20 "", sampleEvent 2 20 "", sampleEvent 3 10 ""}⟩

def samplePool : ClientPool := ⟨[sampleStore], by decide⟩

def sampleEvents : EventSet := ⟨sampleStore.chunkEvents [sampleAuthor] Kind.contactList, by decide⟩

/-- Three events on two seconds fit a window of three. -/
theorem paginateChunk_honest_sample :
    May (poolNet samplePool (fun _ => 100))
      (paginateChunk timestampNow [sampleAuthor] Kind.contactList 3 (clientFetch defaultFetchTimeout)) 0
      (fun result _ => ∃ out, result = .ok out ∧ Complete sampleEvents.events out) := by
  have honest : HonestRelay (poolNet samplePool (fun _ => 100)) (clientFetch defaultFetchTimeout)
      sampleEvents.events [sampleAuthor] Kind.contactList 3 :=
    honestRelay_of_single rfl _ _ _ _ _
  have clock : Must (poolNet samplePool (fun _ => 100)) timestampNow 0 (fun now _ => now = 100) :=
    must_timestampNow.mpr rfl
  obtain ⟨returns, exactly⟩ := paginateChunk_honest (by decide) 100
    (may_timestampNow.mpr trivial) clock (by decide) honest
  refine (returns.and_must exactly).mono ?_
  rintro result after ⟨_, complete, okIff⟩
  have sparse : Sparse sampleEvents.events 3 := by
    intro second
    by_cases top : second = 20
    · subst top
      decide
    · have few : tied sampleEvents.events Event.createdAt second ⊆ {sampleEvent 3 10 ""} := by
        intro event member
        obtain ⟨present, rfl⟩ := mem_tied.mp member
        have listed : event = sampleEvent 1 20 "" ∨ event = sampleEvent 2 20 "" ∨
            event = sampleEvent 3 10 "" := by
          simpa [sampleStore] using (Finset.mem_filter.mp present).1
        rcases listed with rfl | rfl | rfl
        · exact absurd rfl top
        · exact absurd rfl top
        · exact Finset.mem_singleton_self _
      have size := Finset.card_le_card few
      rw [Finset.card_singleton] at size
      omega
  obtain ⟨out, same⟩ := (okIff (by decide)).mpr sparse
  exact ⟨out, same, complete out same⟩

end WotCrawler.Relay
