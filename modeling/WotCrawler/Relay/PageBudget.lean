import WotCrawler.Relay.Pagination

/-! Pagination against any relay: what one chunk requests and holds, whatever the answers are. -/

namespace WotCrawler.Relay

open Effect Effect.Prog Sequence

/-- What a chunk did: its result, the requests it made, the windows it received, and its `out`
before each request and at the end. -/
structure ChunkReport where
  result : Except RelayError (List Event)
  requests : Nat
  windows : List (List Event)
  held : List (List Event)

/-- `out` once the new events of a window are in it. -/
def collected (page : PageState) (window : List Event) : List Event :=
  page.out ++ keepFirst Event.id page.seen window

/-- The loop with a report of what it did. -/
def reportedLoop (authors : List PublicKey) (kind : Kind) (cap : Nat)
    (fetch : Filter → Prog sig (Except RelayError (List Event))) :
    Nat → PageState → Prog sig ChunkReport
  | 0, page => return ⟨.error budgetExceeded, 0, [], [page.out]⟩
  | pages + 1, page => do
    match ← fetch (windowFilter authors kind cap page.untilTs) with
    | .error error => return ⟨.error error, 1, [], [page.out]⟩
    | .ok window =>
      match pageStep cap page window with
      | .done result => return ⟨result, 1, [window], [page.out, collected page window]⟩
      | .next following => do
        let rest ← reportedLoop authors kind cap fetch pages following
        return ⟨rest.result, rest.requests + 1, window :: rest.windows, page.out :: rest.held⟩

def reportedChunk (timestampNow : Prog sig Timestamp) (authors : List PublicKey) (kind : Kind) (cap : Nat)
    (fetch : Filter → Prog sig (Except RelayError (List Event))) : Prog sig ChunkReport := do
  let now ← timestampNow
  reportedLoop authors kind cap fetch maxPagesPerChunk { out := [], seen := ∅, untilTs := now, prevUntil := none }

section Report

variable {sig : Signature} {fetch : Filter → Prog sig (Except RelayError (List Event))}

/-- The report changes nothing about the loop. -/
theorem reportedLoop_result (authors : List PublicKey) (kind : Kind) (cap pages : Nat) (page : PageState) :
    (reportedLoop authors kind cap fetch pages page >>= fun report => return report.result) =
      pageLoop authors kind cap fetch pages page := by
  induction pages generalizing page with
  | zero => rfl
  | succ pages ih =>
    rw [reportedLoop, pageLoop, bind_assoc]
    congr 1
    funext reply
    cases reply with
    | error error => rfl
    | ok window =>
      cases stepped : pageStep cap page window with
      | done result => simp only [stepped, pure_eq, ret_bind]
      | next following =>
        simp only [stepped, bind_assoc]
        exact ih following

theorem reportedChunk_result (timestampNow : Prog sig Timestamp) (authors : List PublicKey) (kind : Kind) (cap : Nat) :
    (reportedChunk timestampNow authors kind cap fetch >>= fun report => return report.result) =
      paginateChunk timestampNow authors kind cap fetch := by
  rw [reportedChunk, paginateChunk, bind_assoc]
  congr 1
  funext now
  exact reportedLoop_result authors kind cap maxPagesPerChunk _

end Report

/-- The loop holds each id once, and has seen what it holds. -/
structure Deduplicated (page : PageState) : Prop where
  distinct : (page.out.map Event.id).Nodup
  seen : ∀ event ∈ page.out, event.id ∈ page.seen

/-- What a chunk of some pages reports when no window it received holds more than `most` events. -/
structure ChunkReport.Within (report : ChunkReport) (pages most start : Nat) : Prop where
  requests : report.requests ≤ pages
  distinct : ∀ out ∈ report.held, (out.map Event.id).Nodup
  returned : ∀ out, report.result = .ok out → out ∈ report.held
  size : (∀ window ∈ report.windows, window.length ≤ most) → ∀ out ∈ report.held, out.length ≤ start + pages * most

section Bound

variable {page following : PageState} {window : List Event} {cap : Nat}

theorem Deduplicated.collected_nodup (valid : Deduplicated page) (window : List Event) :
    ((collected page window).map Event.id).Nodup := by
  rw [collected, List.map_append]
  refine List.nodup_append.mpr ⟨valid.distinct, keepFirst_nodup Event.id _ _, ?_⟩
  intro id old other new same
  obtain ⟨event, held, rfl⟩ := List.mem_map.mp old
  obtain ⟨copy, fresh, rfl⟩ := List.mem_map.mp new
  exact not_mem_seen_of_mem_keepFirst fresh (same ▸ valid.seen event held)

theorem collected_length_le (page : PageState) (window : List Event) :
    (collected page window).length ≤ page.out.length + window.length := by
  rw [collected, List.length_append]
  exact Nat.add_le_add_left (keepFirst_sublist Event.id page.seen window).length_le _

/-- Paging on keeps the seen-set complete. -/
theorem Deduplicated.next (valid : Deduplicated page) (stepped : pageStep cap page window = .next following) :
    Deduplicated following ∧ following.out = collected page window := by
  obtain ⟨out, seen⟩ := pageStep_next stepped
  refine ⟨⟨?_, ?_⟩, out⟩
  · rw [out]
    exact valid.collected_nodup window
  · intro event member
    rw [out] at member
    rw [seen, Finset.mem_union]
    rcases List.mem_append.mp member with held | fresh
    · exact .inl (valid.seen event held)
    · have received := (keepFirst_sublist Event.id _ _).subset fresh
      exact .inr (List.mem_toFinset.mpr (List.mem_map_of_mem received))

/-- The loop that stops before a window holds what it held. -/
theorem Deduplicated.within_failed (valid : Deduplicated page) (error : RelayError) (few : requests ≤ pages) (most : Nat) :
    (ChunkReport.mk (.error error) requests [] [page.out]).Within pages most page.out.length where
  requests := few
  distinct := by simpa using valid.distinct
  returned := nofun
  size := by simp

theorem Deduplicated.within_done (valid : Deduplicated page) (stepped : pageStep cap page window = .done result)
    (pages most : Nat) : (ChunkReport.mk result 1 [window] [page.out, collected page window]).Within
      (pages + 1) most page.out.length where
  requests := Nat.le_add_left 1 pages
  distinct := by simpa using ⟨valid.distinct, valid.collected_nodup window⟩
  returned := by
    rintro out rfl
    simp [pageStep_ok stepped, collected]
  size := by
    intro small
    have held := collected_length_le page window
    have room := small window (List.mem_singleton_self _)
    have scaled : most ≤ (pages + 1) * most := Nat.le_mul_of_pos_left _ (Nat.succ_pos pages)
    simp only [List.mem_cons, List.not_mem_nil, or_false]
    rintro out (rfl | rfl) <;> omega

/-- A window and the report of the rest. -/
theorem ChunkReport.Within.cons {rest : ChunkReport} (within : rest.Within pages most following.out.length)
    (valid : Deduplicated page) (out : following.out = collected page window) :
    (ChunkReport.mk rest.result (rest.requests + 1) (window :: rest.windows) (page.out :: rest.held)).Within
      (pages + 1) most page.out.length where
  requests := Nat.succ_le_succ within.requests
  distinct := by simpa using ⟨valid.distinct, within.distinct⟩
  returned := fun out returned => List.mem_cons_of_mem _ (within.returned out returned)
  size := by
    intro small held member
    rcases List.mem_cons.mp member with rfl | later
    · exact Nat.le_add_right _ _
    · have bounded := within.size (fun window inside => small window (List.mem_cons_of_mem _ inside)) held later
      have room := small window (List.mem_cons_self ..)
      have start := collected_length_le page window
      rw [out] at bounded
      rw [Nat.succ_mul]
      omega

/-- However the requests are answered, a loop with some pages left stays within them. -/
theorem reportedLoop_within {machine : Machine sig State} {fetch : Filter → Prog sig (Except RelayError (List Event))}
    (authors : List PublicKey) (kind : Kind) (most pages : Nat) (valid : Deduplicated page) (state : State) :
    Must machine (reportedLoop authors kind cap fetch pages page) state
      (fun report _ => report.Within pages most page.out.length) := by
  induction pages generalizing page state with
  | zero => exact must_ret.mpr (valid.within_failed budgetExceeded (le_refl 0) most)
  | succ pages ih =>
    rw [reportedLoop, must_bind]
    intro reply between _
    cases reply with
    | error error => exact must_ret.mpr (valid.within_failed error (Nat.le_add_left 1 pages) most)
    | ok window =>
      cases stepped : pageStep cap page window with
      | done result =>
        simp only [stepped]
        exact must_ret.mpr (valid.within_done stepped pages most)
      | next following =>
        simp only [stepped, must_bind]
        obtain ⟨kept, out⟩ := valid.next stepped
        refine (ih kept between).mono ?_
        intro rest _ within
        exact must_ret.mpr (within.cons valid out)

theorem reportedChunk_within {machine : Machine sig State} {fetch : Filter → Prog sig (Except RelayError (List Event))}
    (timestampNow : Prog sig Timestamp) (authors : List PublicKey) (kind : Kind) (most : Nat) (state : State) :
    Must machine (reportedChunk timestampNow authors kind cap fetch) state
      (fun report _ => report.Within maxPagesPerChunk most 0) := by
  rw [reportedChunk, must_bind]
  intro now between _
  have fresh : Deduplicated { out := [], seen := ∅, untilTs := now, prevUntil := none } :=
    ⟨List.nodup_nil, fun event member => by cases member⟩
  exact reportedLoop_within authors kind most maxPagesPerChunk fresh between

end Bound

section Flood

/-- The 32 bytes of a number. -/
def numberBytes (number : Nat) : Bytes := (List.range 32).map fun digit => Fin.ofNat 256 (number / 256 ^ digit)

theorem numberBytes_width (number : Nat) : (numberBytes number).length = 32 := by
  rw [numberBytes, List.length_map, List.length_range]

theorem numberBytes_inj {left right : Nat} (leftFits : left < 256 ^ 32) (rightFits : right < 256 ^ 32)
    (same : numberBytes left = numberBytes right) : left = right := by
  have digits : ∀ digit < 32, left / 256 ^ digit % 256 = right / 256 ^ digit % 256 := by
    intro digit small
    have equal := List.map_inj_left.mp same digit (List.mem_range.mpr small)
    exact congrArg Fin.val equal
  have low : ∀ count ≤ 32, left % 256 ^ count = right % 256 ^ count := by
    intro count
    induction count with
    | zero => simp [Nat.mod_one]
    | succ count ih =>
      intro within
      rw [Nat.mod_pow_succ, Nat.mod_pow_succ, ih (by omega), digits count within]
  have whole := low 32 (le_refl 32)
  rwa [Nat.mod_eq_of_lt leftFits, Nat.mod_eq_of_lt rightFits] at whole

def numberedEvent (number : Nat) : Event :=
  { sampleEvent 0 0 "" with id := ⟨numberBytes number, numberBytes_width number⟩ }

/-- The requests of a chunk alone. -/
abbrev Requests : Signature where
  Op := Filter
  Ret := fun _ => Except RelayError (List Event)

def floodWindow (size count : Nat) : List Event := (List.range' (count * size) size).map numberedEvent

/-- A relay that answers every request with as many new events, all of one second. -/
def flood (size : Nat) : Machine Requests Nat where
  exec := fun _ count reply after => reply = .ok (floodWindow size count) ∧ after = count + 1

/-- The loop in the middle of a flood: every id it has seen is a number that was served. -/
structure Flooded (size count : Nat) (page : PageState) : Prop where
  length : page.out.length = count * size
  seen : ∀ id ∈ page.seen, ∃ number < count * size, id = (numberedEvent number).id

variable {size count cap : Nat} {page : PageState}

theorem numberedEvent_id_inj {left right : Nat} (leftFits : left < 256 ^ 32) (rightFits : right < 256 ^ 32)
    (same : (numberedEvent left).id = (numberedEvent right).id) : left = right :=
  numberBytes_inj leftFits rightFits (congrArg EventId.bytes same)

/-- A flood's window is new from end to end. -/
theorem Flooded.keepFirst_eq (flooded : Flooded size count page) (room : (count + 1) * size ≤ 256 ^ 32) :
    keepFirst Event.id page.seen (floodWindow size count) = floodWindow size count := by
  rw [Nat.succ_mul] at room
  apply keepFirst_eq_self
  · intro event member old
    obtain ⟨number, inside, rfl⟩ := List.mem_map.mp member
    obtain ⟨served, earlier, same⟩ := flooded.seen _ old
    rw [List.mem_range'_1] at inside
    have equal := numberedEvent_id_inj (by omega) (by omega) same
    omega
  · rw [floodWindow, List.map_map]
    refine List.Nodup.map_on ?_ (List.nodup_range' 1 Nat.one_pos)
    intro left leftInside right rightInside same
    rw [List.mem_range'_1] at leftInside rightInside
    exact numberedEvent_id_inj (by omega) (by omega) same

/-- A capped window of a flood is paged back from, and the loop is as deep in the flood. -/
theorem Flooded.next (flooded : Flooded size count page) (room : (count + 1) * size ≤ 256 ^ 32) (beyond : cap < size) :
    ∃ following, pageStep cap page (floodWindow size count) = .next following ∧
      Flooded size (count + 1) following := by
  have fresh := flooded.keepFirst_eq room
  have length : (floodWindow size count).length = size := by simp [floodWindow]
  have inhabited : floodWindow size count ≠ [] := by
    intro empty
    rw [empty, List.length_nil] at length
    omega
  obtain ⟨oldest, _, least, _⟩ := min?_createdAt inhabited
  let following : PageState := {
    out := page.out ++ floodWindow size count
    seen := page.seen ∪ ((floodWindow size count).map Event.id).toFinset
    untilTs := oldest.createdAt
    prevUntil := some page.untilTs }
  refine ⟨following, ?_, ?_, ?_⟩
  · simp only [pageStep, fresh, length, least, pageBack]
    rw [if_neg (by omega), decide_eq_true (le_of_lt beyond)]
  · rw [List.length_append, flooded.length, length, Nat.succ_mul]
  · intro id member
    rw [Nat.succ_mul]
    rcases Finset.mem_union.mp member with old | new
    · obtain ⟨number, earlier, same⟩ := flooded.seen id old
      exact ⟨number, earlier.trans_le (Nat.le_add_right _ _), same⟩
    · obtain ⟨event, inside, rfl⟩ := List.mem_map.mp (List.mem_toFinset.mp new)
      obtain ⟨number, served, rfl⟩ := List.mem_map.mp inside
      exact ⟨number, (List.mem_range'_1.mp served).2, rfl⟩

/-- A flood fills every page that is left. -/
theorem Flooded.fills (flooded : Flooded size count page) (room : (count + pages) * size ≤ 256 ^ 32) (beyond : cap < size)
    (authors : List PublicKey) (kind : Kind) :
    May (flood size) (reportedLoop authors kind cap (fun filter => @perform Requests filter) pages page) count
      (fun report _ => report.result = .error budgetExceeded ∧ (∀ window ∈ report.windows, window.length = size) ∧
        ∃ out ∈ report.held, out.length = (count + pages) * size) := by
  induction pages generalizing page count with
  | zero => exact may_ret.mpr ⟨rfl, nofun, page.out, List.mem_singleton_self _, flooded.length⟩
  | succ pages ih =>
    have first : (count + 1) * size ≤ (count + (pages + 1)) * size := Nat.mul_le_mul_right size (by omega)
    obtain ⟨following, stepped, deeper⟩ := flooded.next (first.trans room) beyond
    rw [reportedLoop, may_bind, may_perform]
    refine ⟨.ok (floodWindow size count), count + 1, ⟨rfl, rfl⟩, ?_⟩
    simp only [stepped, may_bind]
    have shifted : count + 1 + pages = count + (pages + 1) := by omega
    refine (ih deeper (by rwa [shifted])).mono ?_
    rintro rest after ⟨failed, windows, out, held, length⟩
    refine may_ret.mpr ⟨failed, ?_, out, List.mem_cons_of_mem _ held, shifted ▸ length⟩
    intro window member
    rcases List.mem_cons.mp member with rfl | later
    · simp [floodWindow]
    · exact windows window later

/-- A relay whose windows hold one event more than the cap overfills a chunk. -/
theorem flood_overflows (fits : cap < 2 ^ 64) (authors : List PublicKey) (kind : Kind) :
    May (flood (cap + 1)) (reportedChunk (return 0) authors kind cap (fun filter => @perform Requests filter)) 0
      (fun report _ => report.result = .error budgetExceeded ∧ (∀ window ∈ report.windows, window.length = cap + 1) ∧
        ∃ out ∈ report.held, maxPagesPerChunk * cap < out.length) := by
  have room : (0 + maxPagesPerChunk) * (cap + 1) ≤ 256 ^ 32 := by
    unfold maxPagesPerChunk
    omega
  have fresh : Flooded (cap + 1) 0 { out := [], seen := ∅, untilTs := 0, prevUntil := none } :=
    ⟨(Nat.zero_mul _).symm, fun id member => by cases member⟩
  rw [reportedChunk, pure_eq, ret_bind]
  refine (fresh.fills room (Nat.lt_succ_self cap) authors kind).mono ?_
  rintro report after ⟨failed, windows, out, held, length⟩
  refine ⟨failed, windows, out, held, ?_⟩
  rw [length]
  unfold maxPagesPerChunk
  omega

end Flood

/-- Whatever answers its requests, a chunk returns when they are answered, within the page budget
and with each id once; and where no window it received holds more events than the cap, it never
holds more than the budget times the cap. One event more for each window is too many. -/
theorem paginateChunk_bounded (cap : Nat) :
    (∀ {sig : Signature} {State : Type} (machine : Machine sig State) (timestampNow : Prog sig Timestamp)
        (authors : List PublicKey) (kind : Kind) (fetch : Filter → Prog sig (Except RelayError (List Event)))
        (state : State),
      (reportedChunk timestampNow authors kind cap fetch >>= fun report => return report.result) =
        paginateChunk timestampNow authors kind cap fetch ∧
      (May machine timestampNow state (fun _ _ => True) →
        (∀ moment state, May machine (fetch (windowFilter authors kind cap moment)) state (fun _ _ => True)) →
        May machine (paginateChunk timestampNow authors kind cap fetch) state (fun _ _ => True)) ∧
      Must machine (reportedChunk timestampNow authors kind cap fetch) state (fun report _ =>
        report.requests ≤ maxPagesPerChunk ∧ (∀ out ∈ report.held, (out.map Event.id).Nodup) ∧
        (∀ out, report.result = .ok out → out ∈ report.held) ∧
        ((∀ window ∈ report.windows, window.length ≤ cap) →
          ∀ out ∈ report.held, out.length ≤ maxPagesPerChunk * cap))) ∧
    (cap < 2 ^ 64 → ∀ authors kind,
      May (flood (cap + 1)) (reportedChunk (return 0) authors kind cap (fun filter => @perform Requests filter)) 0
        (fun report _ => report.result = .error budgetExceeded ∧
          (∀ window ∈ report.windows, window.length = cap + 1) ∧
          ∃ out ∈ report.held, maxPagesPerChunk * cap < out.length)) := by
  refine ⟨?_, fun fits authors kind => flood_overflows fits authors kind⟩
  intro sig State machine timestampNow authors kind fetch state
  refine ⟨reportedChunk_result timestampNow authors kind cap, paginateChunk_returns, ?_⟩
  refine (reportedChunk_within timestampNow authors kind cap state).mono ?_
  intro report _ within
  refine ⟨within.requests, within.distinct, within.returned, fun small out held => ?_⟩
  have bounded := within.size small out held
  rwa [Nat.zero_add] at bounded

/-- At a cap of two a relay that sends three new events at a time leaves 30000 of them, not 20000. -/
theorem paginateChunk_overflows :
    May (flood 3) (reportedChunk (return 0) [sampleAuthor] Kind.contactList 2 (fun filter => @perform Requests filter)) 0
      (fun report _ => report.result = .error budgetExceeded ∧ ∃ out ∈ report.held, maxPagesPerChunk * 2 < out.length) := by
  refine (flood_overflows (by decide) [sampleAuthor] Kind.contactList).mono ?_
  intro report _ overflow
  exact ⟨overflow.1, overflow.2.2⟩

end WotCrawler.Relay
