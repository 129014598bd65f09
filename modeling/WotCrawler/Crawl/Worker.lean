import WotCrawler.Crawl.Lease
import WotCrawler.Crawl.Recover

/-! A worker's whole batch: whatever it is given, it writes the outcomes of its own pending rows
and of no others. -/

namespace WotCrawler.Crawl

open Effect Store Ingest Relay

variable {possible : Finset Nat → Prop} {gate : GateParams} {fallback : Fallback}
  {claimed : ClaimedAuthor} {rest batch : List ClaimedAuthor} {author : PublicKey} {state : Desk}

/-- What each statement of a worker does. -/
structure Worked (stmt : Stmt) (before after : Desk) : Prop where
  framed : Framed stmt before.1 after.1
  released : after.2 = release stmt before.1 before.2
  single : stmt.ranges = false
  owned : ∀ id, stmt.outcome = some id → id ∈ before.2

/-- The authors of a batch that a worker has yet to resolve: each row is pending under its key. -/
def Ready (batch : List ClaimedAuthor) (state : Desk) : Prop :=
  ∀ claimed ∈ batch, claimed.id ∈ state.2 ∧ state.1.keyed claimed.id claimed.pubkey

theorem Ready.later {before after : Desk} (ready : Ready batch before) (continues : Continues before after) :
    Ready batch after := by
  intro claimed member
  obtain ⟨pending, keyed⟩ := ready claimed member
  exact ⟨continues.1 ▸ pending, continues.2.keyed keyed⟩

theorem Ready.tail (ready : Ready (claimed :: rest) state) : Ready rest state :=
  fun other member => ready other (List.mem_cons_of_mem _ member)

/-- Resolving one author leaves the others of its batch pending. -/
theorem Ready.resolve {stmt : Stmt} {before after : Desk} (ready : Ready rest before)
    (apart : claimed.id ∉ rest.map ClaimedAuthor.id) (persists : Persists before.1 after.1)
    (released : after.2 = release stmt before.1 before.2)
    (outcome : ∀ id, stmt.outcome = some id → id = claimed.id) : Ready rest after := by
  intro other member
  obtain ⟨pending, keyed⟩ := ready other member
  refine ⟨?_, persists.keyed keyed⟩
  rw [released]
  refine ⟨pending, ?_⟩
  intro writes
  have same := outcome other.id writes
  exact apart (same ▸ List.mem_map_of_mem member)

/-- A result that is an error, or a value as described. -/
def mayFail (middle : α → Desk → Prop) : Except StoreError α → Desk → Prop
  | .ok value, state => middle value state
  | .error _, _ => True

/-- The rule of sequence for computations that may fail. -/
theorem mayFail_bind {first : StoreM α} {next : α → StoreM β} {middle : α → Desk → Prop}
    {final : β → Desk → Prop}
    (safe : Safe (leasing possible) leased Worked (mayFail middle) first.run state)
    (rest : ∀ value later, middle value later →
      Safe (leasing possible) leased Worked (mayFail final) (next value).run later) :
    Safe (leasing possible) leased Worked (mayFail final) (first >>= next).run state := by
  have settled : Safe (leasing possible) leased Worked (Safe.orFails middle (mayFail final)) first.run state := by
    apply safe.mono
    intro result later holds
    cases result with
    | ok value => exact holds
    | error error => trivial
  exact settled.except_bind rest

theorem leased_continues {before after : Desk} (moved : leased.rely before after) :
    Continues before after := ⟨moved.1, moved.2.1⟩

/-- A computation that resolves no row, whether it fails or not. -/
def Quiet (possible : Finset Nat → Prop) (prog : StoreM α) (state : Desk) (result : α → Prop) : Prop :=
  Safe (leasing possible) leased Worked
    (mayFail fun value later => Continues state later ∧ result value) prog.run state

theorem Quiet.ret {result : α → Prop} {value : α} (holds : result value) :
    Quiet possible (pure value) state result :=
  Safe.ret fun _ moved => ⟨leased_continues moved, holds⟩

theorem Quiet.skip {value : α} : Quiet possible (pure value) state (fun _ => True) :=
  Quiet.ret trivial

theorem Quiet.query {stmt : Stmt} (quiet : stmt.outcome = none) (single : stmt.ranges = false) :
    Quiet possible (query stmt) state (fun _ => True) := by
  apply query_safe
  intro before reply after now locked moved executes framed released
  refine ⟨⟨framed, released, single, fun id writes => by rw [quiet] at writes; cases writes⟩, ?_⟩
  intro later rest
  cases reply with
  | error error => trivial
  | ok value =>
    have kept : Continues before after :=
      ⟨released.trans (release_of_none quiet _ _), framed.persists⟩
    exact ⟨((leased_continues moved).trans kept).trans (leased_continues rest), trivial⟩

theorem Quiet.bind {first : StoreM α} {next : α → StoreM β} {middle : α → Prop} {result : β → Prop}
    (quiet : Quiet possible first state middle)
    (rest : ∀ value later, middle value → Quiet possible (next value) later result) :
    Quiet possible (first >>= next) state result := by
  apply mayFail_bind quiet
  rintro value later ⟨continues, holds⟩
  apply (rest value later holds).mono
  intro answer final ended
  cases answer with
  | error error => trivial
  | ok answer => exact ⟨continues.trans ended.1, ended.2⟩

theorem upsertPubkey_quiet (pubkey : Bytes) : Quiet possible (upsertPubkey pubkey) state (fun _ => True) := by
  unfold upsertPubkey
  split
  · exact Safe.ret fun _ _ => trivial
  · exact Quiet.query rfl rfl

theorem applyRelayList_quiet (pubkeyId : Nat) (relays : List (String × Marker)) (seenAt : DateTime) :
    Quiet possible (applyRelayList pubkeyId relays seenAt) state (fun _ => True) := Quiet.query rfl rfl

theorem lookupWriteRelays_quiet (pubkeyId : Nat) :
    Quiet possible (lookupWriteRelays pubkeyId) state (fun _ => True) := Quiet.query rfl rfl

theorem resolveWriteRelays_quiet :
    Quiet possible (resolveWriteRelays gate fallback claimed author) state (fun _ => True) := by
  have reread (persisted : List String) (state : Desk) : Quiet possible
      (if persisted = [] then lookupWriteRelays claimed.id else pure persisted) state (fun _ => True) := by
    split
    · exact lookupWriteRelays_quiet claimed.id
    · exact Quiet.skip
  unfold resolveWriteRelays
  dsimp only
  split
  · exact Quiet.skip.bind fun persisted later _ => reread persisted later
  · split
    · exact Quiet.skip.bind fun persisted later _ => reread persisted later
    · apply (upsertPubkey_quiet author.bytes).bind
      intro pubkeyId between _
      apply (applyRelayList_quiet pubkeyId _ _).bind
      intro _ later _
      exact (lookupWriteRelays_quiet pubkeyId).bind fun persisted final _ => reread persisted final

theorem knownRelays_quiet :
    Quiet possible (knownRelays gate fallback claimed author) state (fun _ => True) := by
  unfold knownRelays
  apply (lookupWriteRelays_quiet claimed.id).bind
  intro stored between _
  split
  · exact resolveWriteRelays_quiet
  · exact Quiet.skip

/-- A recovered list is its author's. -/
theorem fallbackRecover_quiet :
    Quiet possible (fallbackRecover gate fallback claimed author) state
      (fun recovered => ∀ vfl, recovered = some vfl → vfl.followerPubkey = author) := by
  rw [fallbackRecover_eq]
  apply knownRelays_quiet.bind
  intro writeRelays between _
  exact Quiet.ret fun vfl found => recoverFrom_follower found

/-- A statement that writes one author's outcome. -/
theorem outcome_worked {stmt : Stmt} (outcome : stmt.outcome = some claimed.id)
    (single : stmt.ranges = false) (ready : Ready (claimed :: rest) state)
    (apart : claimed.id ∉ rest.map ClaimedAuthor.id) :
    Safe (leasing possible) leased Worked (mayFail fun _ later => Ready rest later) (query stmt).run state := by
  apply query_safe
  intro before reply after now locked moved executes framed released
  have mine (id : Nat) (writes : stmt.outcome = some id) : id = claimed.id :=
    Option.some.inj (writes.symm.trans outcome)
  have present := ready.later (leased_continues moved)
  refine ⟨⟨framed, released, single, ?_⟩, ?_⟩
  · intro id writes
    rw [mine id writes]
    exact (present claimed (List.mem_cons_self ..)).1
  · intro later rest
    cases reply with
    | error error => trivial
    | ok value =>
      have left := present.tail.resolve apart framed.persists released mine
      exact left.later (leased_continues rest)

/-- Applying the list of a batch's first author writes that author's outcome alone, and leaves the
others pending. -/
theorem applyValidated_readies {reliance : Reliance Desk} {vfl : ValidatedFollowList}
    (within : ∀ {before after}, reliance.rely before after → leased.rely before after)
    (same : vfl.followerPubkey.bytes = claimed.pubkey) (ready : Ready (claimed :: rest) state)
    (apart : claimed.id ∉ rest.map ClaimedAuthor.id) :
    Safe (leasing possible) reliance
      (fun stmt before after => Applies vfl stmt before after ∧ ∀ id, stmt.outcome = some id → id = claimed.id)
      (succeeds fun changed later => Closed reliance vfl changed later ∧
        later.1.keyed claimed.id claimed.pubkey ∧ Ready rest later) (applyValidated vfl).run state := by
  obtain ⟨pending, keyed⟩ := ready claimed (List.mem_cons_self ..)
  have owns : Owns vfl.followerPubkey.bytes state := Owns.of_keyed (same ▸ keyed) pending
  have applied : Safe (leasing possible) reliance (Applies vfl) (succeeds (Closed reliance vfl))
      (applyValidated vfl).run state := applyValidated_closes within owns
  apply applied.consequence (fun state => state.1.keyed claimed.id claimed.pubkey ∧ Ready rest state)
    ⟨keyed, ready.tail⟩
  · intro before after moved kept
    exact ⟨moved, (within moved).2.1.keyed kept.1, kept.2.later (leased_continues (within moved))⟩
  · intro stmt before after kept applies
    have mine (id : Nat) (writes : stmt.outcome = some id) : id = claimed.id :=
      Database.keyed_unique (same ▸ (applies.owned id writes).2) kept.1
    refine ⟨⟨applies, mine⟩, applies.framed.persists.keyed kept.1, ?_⟩
    exact kept.2.resolve apart applies.framed.persists applies.released mine
  · intro result later kept closed
    cases result with
    | error error => exact closed
    | ok changed => exact ⟨closed, kept⟩

/-- So a worker applies an author's list. -/
theorem applyValidated_worked {vfl : ValidatedFollowList} (same : vfl.followerPubkey.bytes = claimed.pubkey)
    (ready : Ready (claimed :: rest) state) (apart : claimed.id ∉ rest.map ClaimedAuthor.id) :
    Safe (leasing possible) leased Worked (mayFail fun _ later => Ready rest later)
      (applyValidated vfl).run state := by
  apply (applyValidated_readies (fun moved => moved) same ready apart).imp
  · intro stmt before after applies
    exact ⟨applies.1.framed, applies.1.released, applies.1.single, fun id writes => (applies.1.owned id writes).1⟩
  · intro result later holds
    cases result with
    | error error => trivial
    | ok changed => exact holds.2.2

private theorem hit_worked {vfl : ValidatedFollowList} (same : vfl.followerPubkey.bytes = claimed.pubkey)
    (ready : Ready (claimed :: rest) state) (apart : claimed.id ∉ rest.map ClaimedAuthor.id) :
    Safe (leasing possible) leased Worked (mayFail fun _ later => Ready rest later)
      (do
        let _ ← applyValidated vfl
        return 1 : StoreM Nat).run state := by
  apply mayFail_bind (applyValidated_worked same ready apart)
  intro _ later left
  exact Safe.ret fun _ moved => left.later (leased_continues moved)

private theorem miss_worked (ready : Ready (claimed :: rest) state)
    (apart : claimed.id ∉ rest.map ClaimedAuthor.id) :
    Safe (leasing possible) leased Worked (mayFail fun _ later => Ready rest later)
      (do
        setFetchStatus claimed.id .notFound stamp
        return 0 : StoreM Nat).run state := by
  have stamped : Safe (leasing possible) leased Worked (mayFail fun _ later => Ready rest later)
      (setFetchStatus claimed.id .notFound stamp).run state := outcome_worked rfl rfl ready apart
  apply mayFail_bind stamped
  intro _ later left
  exact Safe.ret fun _ moved => left.later (leased_continues moved)

/-- One author of a batch: its outcome is written, and the rest stays pending. -/
theorem resolveAuthor_worked {byAuthor : PublicKey → Option ValidatedFollowList}
    (indexed : ∀ author vfl, byAuthor author = some vfl → vfl.followerPubkey = author)
    (ready : Ready (claimed :: rest) state) (apart : claimed.id ∉ rest.map ClaimedAuthor.id) :
    Safe (leasing possible) leased Worked (mayFail fun _ later => Ready rest later)
      (resolveAuthor gate fallback stamp byAuthor claimed).run state := by
  unfold resolveAuthor
  split
  · exact miss_worked ready apart
  · rename_i author parsed
    have key := PublicKey.fromSlice_eq_some_iff.mp parsed
    split
    · rename_i vfl listed
      exact hit_worked (by rw [indexed author vfl listed, key]) ready apart
    · dsimp only
      split
      · apply mayFail_bind fallbackRecover_quiet
        rintro recovered later ⟨continues, theirs⟩
        split
        · rename_i vfl
          exact hit_worked (by rw [theirs vfl rfl, key]) (ready.later continues) apart
        · exact miss_worked (ready.later continues) apart
      · exact miss_worked ready apart

theorem resolveAll_worked {byAuthor : PublicKey → Option ValidatedFollowList} {applied : Nat}
    (indexed : ∀ author vfl, byAuthor author = some vfl → vfl.followerPubkey = author)
    (nodup : (batch.map ClaimedAuthor.id).Nodup) (ready : Ready batch state) :
    Safe (leasing possible) leased Worked (mayFail fun _ _ => True)
      (resolveAll gate fallback stamp byAuthor applied batch).run state := by
  induction batch generalizing applied state with
  | nil => exact Safe.ret fun _ _ => trivial
  | cons claimed rest ih =>
    obtain ⟨apart, distinct⟩ := List.nodup_cons.mp nodup
    unfold resolveAll
    apply mayFail_bind (resolveAuthor_worked indexed ready apart)
    intro counted later left
    exact ih distinct left

theorem requeueAll_worked (nodup : (batch.map ClaimedAuthor.id).Nodup) (ready : Ready batch state) :
    Safe (leasing possible) leased Worked (mayFail fun _ _ => True)
      (requeueAll maxAttempts stamp batch).run state := by
  induction batch generalizing state with
  | nil => exact Safe.ret fun _ _ => trivial
  | cons claimed rest ih =>
    obtain ⟨apart, distinct⟩ := List.nodup_cons.mp nodup
    have requeued : Safe (leasing possible) leased Worked (mayFail fun _ later => Ready rest later)
        (requeueOrFail claimed.id maxAttempts stamp).run state := outcome_worked rfl rfl ready apart
    unfold requeueAll
    apply mayFail_bind requeued
    intro _ later left
    exact ih distinct left

theorem indexByAuthor_follower {validated : List ValidatedFollowList} {vfl : ValidatedFollowList}
    (found : indexByAuthor validated author = some vfl) : vfl.followerPubkey = author := by
  have holds := List.find?_some found
  simpa using holds

/-- A worker's whole batch, whatever its fetches returned and whatever others do meanwhile. -/
theorem processBatch_worked (nodup : (batch.map ClaimedAuthor.id).Nodup) (ready : Ready batch state) :
    Safe (leasing possible) leased Worked (mayFail fun _ _ => True)
      (processBatch gate maxAttempts fallback batch unionFetch).run state := by
  unfold processBatch
  split
  · exact Safe.ret fun _ _ => trivial
  · dsimp only
    split
    · apply mayFail_bind (requeueAll_worked nodup ready)
      intro _ _ _
      exact Safe.ret fun _ _ => trivial
    · exact resolveAll_worked (fun _ _ found => indexByAuthor_follower found) nodup ready

end WotCrawler.Crawl
