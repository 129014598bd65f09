import WotCrawler.Crawl.Worker

/-! What a batch comes to when no fallback is tried: each of its rows is resolved once, by the
list its author has in the union or by `not_found`. -/

namespace WotCrawler.Crawl

open Effect Store Ingest Relay

variable {possible : Finset Nat → Prop} {gate : GateParams} {fallback : Fallback}
  {claimed : ClaimedAuthor} {rest batch : List ClaimedAuthor} {state : Desk} {stamp : DateTime}
  {byAuthor : PublicKey → Option ValidatedFollowList}

/-- The list that resolves an author, if there is one. -/
def listOf (byAuthor : PublicKey → Option ValidatedFollowList) (claimed : ClaimedAuthor) :
    Option ValidatedFollowList :=
  (PublicKey.fromSlice claimed.pubkey).bind byAuthor

/-- What the statement that resolves a row leaves there. -/
def Settles (list : Option ValidatedFollowList) (stamp : DateTime) (stmt : Stmt) (id : Nat)
    (before after : Database) : Prop :=
  match list with
  | some vfl => (∃ row, after.rows id = some row ∧ row.columns.status = .fetched ∧
      row.columns.appliedEventId = some vfl.eventId.bytes) ∧ (stmt.edits = some id → Lists after id vfl)
  | none => stmt.edits = none ∧ ∀ row, before.rows id = some row →
      after.rows id = some ⟨row.pubkey, row.columns.setStatus .notFound stamp⟩

/-- What each statement of a batch without fallback does. -/
structure Resolves (lists : ClaimedAuthor → Option ValidatedFollowList) (stamp : DateTime)
    (batch : List ClaimedAuthor) (stmt : Stmt) (before after : Desk) : Prop where
  framed : Framed stmt before.1 after.1
  released : after.2 = release stmt before.1 before.2
  single : stmt.ranges = false
  named : ∀ key, stmt = .upsertPubkey key → ∃ claimed ∈ batch, ∃ vfl, lists claimed = some vfl ∧
    (key = claimed.pubkey ∨ ∃ followee ∈ vfl.followeePubkeys, followee.bytes = key)
  owned : ∀ id, stmt.outcome = some id → id ∈ before.2 ∧ ∃ claimed ∈ batch, claimed.id = id ∧
    Settles (lists claimed) stamp stmt id before.1 after.1

/-- The number of authors that a list resolves. -/
def resolvedCount (lists : ClaimedAuthor → Option ValidatedFollowList) (batch : List ClaimedAuthor) : Nat :=
  (batch.filter (fun claimed => (lists claimed).isSome)).length

private theorem resolvedCount_cons (lists : ClaimedAuthor → Option ValidatedFollowList)
    (claimed : ClaimedAuthor) (rest : List ClaimedAuthor) :
    resolvedCount lists (claimed :: rest) = resolvedCount lists [claimed] + resolvedCount lists rest := by
  unfold resolvedCount
  rw [← List.singleton_append, List.filter_append, List.length_append]

section Walk

variable {reliance : Reliance Desk}
  (within : ∀ {before after}, reliance.rely before after → leased.rely before after)

include within

private theorem rely_ready {before after : Desk} (moved : reliance.rely before after)
    (ready : Ready batch before) : Ready batch after :=
  ready.later (leased_continues (within moved))

/-- Applying an author's list resolves that author. -/
private theorem applyValidated_resolves {vfl : ValidatedFollowList}
    {lists : ClaimedAuthor → Option ValidatedFollowList} (member : claimed ∈ batch)
    (listed : lists claimed = some vfl) (same : vfl.followerPubkey.bytes = claimed.pubkey)
    (ready : Ready (claimed :: rest) state) (apart : claimed.id ∉ rest.map ClaimedAuthor.id) :
    Safe (leasing possible) reliance (Resolves lists stamp batch)
      (succeeds fun _ later => Ready rest later ∧ claimed.id ∉ later.2) (applyValidated vfl).run state := by
  apply (applyValidated_readies within same ready apart).imp
  · intro stmt before after applies
    obtain ⟨applies, mine⟩ := applies
    refine ⟨applies.framed, applies.released, applies.single, ?_, ?_⟩
    · intro key upserts
      refine ⟨claimed, member, vfl, listed, ?_⟩
      exact (applies.named key upserts).imp_left fun follower => follower.trans same
    · intro id writes
      refine ⟨(applies.owned id writes).1, claimed, member, (mine id writes).symm, ?_⟩
      rw [listed]
      exact ⟨applies.fetched id writes, applies.lists id⟩
  · intro result later holds
    cases result with
    | error error => exact holds
    | ok changed =>
      obtain ⟨⟨settled, id, moved, stands, released, _⟩, known, left⟩ := holds
      have continues := leased_continues (within moved)
      have mine : id = claimed.id :=
        Database.keyed_unique (same ▸ continues.2.keyed stands) known
      refine ⟨left, ?_⟩
      rw [continues.1, ← mine]
      exact released

/-- Stamping `not_found` resolves an author without a list. -/
private theorem setFetchStatus_resolves {lists : ClaimedAuthor → Option ValidatedFollowList}
    (member : claimed ∈ batch) (listless : lists claimed = none) (ready : Ready (claimed :: rest) state)
    (apart : claimed.id ∉ rest.map ClaimedAuthor.id) :
    Safe (leasing possible) reliance (Resolves lists stamp batch)
      (succeeds fun _ later => Ready rest later ∧ claimed.id ∉ later.2)
      (setFetchStatus claimed.id .notFound stamp).run state := by
  apply query_safe
  intro before reply after now locked moved executes framed released
  have present := rely_ready within moved ready
  have mine (id : Nat) (writes : (Stmt.updateStatus claimed.id .notFound stamp).outcome = some id) :
      id = claimed.id := (Option.some.inj writes).symm
  obtain ⟨rfl, written⟩ := executes
  refine ⟨⟨framed, released, rfl, (fun _ other => by cases other), ?_⟩, ?_⟩
  · intro id writes
    obtain rfl := mine id writes
    refine ⟨(present claimed (List.mem_cons_self ..)).1, claimed, member, rfl, ?_⟩
    rw [listless]
    refine ⟨rfl, ?_⟩
    intro row found
    rw [written]
    simp [found]
  · intro later moved
    have left := present.tail.resolve apart framed.persists released mine
    refine ⟨rely_ready within moved left, ?_⟩
    rw [(within moved).1, released]
    exact release_of_outcome rfl _ _

/-- One author of a batch is resolved, and the rest stays pending. -/
private theorem resolveAuthor_resolves (disabled : fallback.enabled = false) (member : claimed ∈ batch)
    (indexed : ∀ author vfl, byAuthor author = some vfl → vfl.followerPubkey = author)
    (ready : Ready (claimed :: rest) state) (apart : claimed.id ∉ rest.map ClaimedAuthor.id) :
    Safe (leasing possible) reliance (Resolves (listOf byAuthor) stamp batch)
      (succeeds fun counted later => (Ready rest later ∧ claimed.id ∉ later.2) ∧
        counted = resolvedCount (listOf byAuthor) [claimed])
      (resolveAuthor gate fallback stamp byAuthor claimed).run state := by
  have missed (listless : listOf byAuthor claimed = none) :
      Safe (leasing possible) reliance (Resolves (listOf byAuthor) stamp batch)
        (succeeds fun counted later => (Ready rest later ∧ claimed.id ∉ later.2) ∧
          counted = resolvedCount (listOf byAuthor) [claimed])
        (do
          setFetchStatus claimed.id .notFound stamp
          return 0 : StoreM Nat).run state := by
    apply succeeds_bind (setFetchStatus_resolves within member listless ready apart)
    rintro _ later ⟨left, done⟩
    apply Safe.ret
    intro final moved
    have note : final.2 = later.2 := (within moved).1
    exact ⟨⟨rely_ready within moved left, note ▸ done⟩, by simp [resolvedCount, listless]⟩
  unfold resolveAuthor
  split
  · rename_i malformed
    exact missed (by simp [listOf, malformed])
  · rename_i author parsed
    have key := PublicKey.fromSlice_eq_some_iff.mp parsed
    split
    · rename_i vfl found
      have listed : listOf byAuthor claimed = some vfl := by simp [listOf, parsed, found]
      have same : vfl.followerPubkey.bytes = claimed.pubkey := by rw [indexed author vfl found, key]
      apply succeeds_bind (applyValidated_resolves within member listed same ready apart)
      rintro _ later ⟨left, done⟩
      apply Safe.ret
      intro final moved
      have note : final.2 = later.2 := (within moved).1
      exact ⟨⟨rely_ready within moved left, note ▸ done⟩, by simp [resolvedCount, listed]⟩
    · rename_i absent
      dsimp only
      rw [disabled]
      exact missed (by simp [listOf, parsed, absent])

/-- Every author is resolved, and those with a list are counted. -/
private theorem resolveAll_resolves {applied : Nat} (disabled : fallback.enabled = false)
    (indexed : ∀ author vfl, byAuthor author = some vfl → vfl.followerPubkey = author)
    (inside : rest ⊆ batch) (nodup : (rest.map ClaimedAuthor.id).Nodup) (ready : Ready rest state) :
    Safe (leasing possible) reliance (Resolves (listOf byAuthor) stamp batch)
      (succeeds fun count later => (∀ claimed ∈ rest, claimed.id ∉ later.2) ∧
        count = applied + resolvedCount (listOf byAuthor) rest)
      (resolveAll gate fallback stamp byAuthor applied rest).run state := by
  induction rest generalizing applied state with
  | nil =>
    apply Safe.ret
    intro later moved
    exact ⟨(fun _ member => by cases member), rfl⟩
  | cons claimed rest ih =>
    obtain ⟨apart, distinct⟩ := List.nodup_cons.mp nodup
    unfold resolveAll
    apply succeeds_bind (resolveAuthor_resolves within disabled (inside (List.mem_cons_self ..)) indexed
      ready apart)
    rintro counted later ⟨⟨left, done⟩, rfl⟩
    have others : Safe (leasing possible) reliance (Resolves (listOf byAuthor) stamp batch)
        (succeeds fun count final => (∀ other ∈ rest, other.id ∉ final.2) ∧
          count = applied + resolvedCount (listOf byAuthor) [claimed] + resolvedCount (listOf byAuthor) rest)
        (resolveAll gate fallback stamp byAuthor (applied + resolvedCount (listOf byAuthor) [claimed])
          rest).run later :=
      ih (fun other member => inside (List.mem_cons_of_mem _ member)) distinct left
    have kept := others.remember (fun state => claimed.id ∉ state.2) done
      (fun moved gone => (within moved).1 ▸ gone)
      (fun resolves gone member => by
        rw [resolves.released] at member
        exact gone member.1)
    apply kept.mono
    rintro result final ⟨gone, holds⟩
    cases result with
    | error error => exact holds
    | ok count =>
      refine ⟨?_, ?_⟩
      · intro other member
        cases List.mem_cons.mp member with
        | inl head => exact head ▸ gone
        | inr tail => exact holds.1 other tail
      · rw [holds.2, resolvedCount_cons _ claimed rest, Nat.add_assoc]

/-- The list the gate emits for a claimed author of a batch. -/
def GateParams.listFor (gate : GateParams) (batch : List ClaimedAuthor) (events : List Event) :
    ClaimedAuthor → Option ValidatedFollowList :=
  listOf (indexByAuthor (ingestEvents gate.verify events gate.wantKind (requestedAuthors batch).toFinset
    gate.now gate.futureClampSecs gate.followCap))

/-- A batch whose union was fetched resolves every author, whatever others do meanwhile. -/
theorem processBatch_resolves (disabled : fallback.enabled = false)
    (nodup : (batch.map ClaimedAuthor.id).Nodup) (ready : Ready batch state) (events : List Event) :
    Safe (leasing possible) reliance
      (Resolves (gate.listFor batch events) (timestampToDatetime gate.now) batch)
      (succeeds fun count later => (∀ claimed ∈ batch, claimed.id ∉ later.2) ∧
        count = resolvedCount (gate.listFor batch events) batch)
      (processBatch gate maxAttempts fallback batch (.ok events)).run state := by
  unfold processBatch
  split
  · rename_i empty
    subst empty
    apply Safe.ret
    intro later moved
    exact ⟨(fun _ member => by cases member), rfl⟩
  · apply Safe.mono (resolveAll_resolves within disabled (fun _ _ found => indexByAuthor_follower found)
      (List.Subset.refl batch) nodup ready)
    intro result later holds
    cases result with
    | error error => exact holds
    | ok count => exact ⟨holds.1, holds.2.trans (Nat.zero_add _)⟩

end Walk

section Lists

variable (verifier : Verifier) {events : List Event}

/-- An author's NIP-01 winner in the union, within the cap. -/
def Wins (verifier : Verifier) (gate : GateParams) (events : List Event) (claimed : ClaimedAuthor)
    (winner : Event) : Prop :=
  ∃ author, PublicKey.fromSlice claimed.pubkey = some author ∧
    Nip01Winner (Admissible verifier.verify events gate.wantKind gate.now gate.futureClampSecs author)
      winner ∧ (followeeSet winner).card ≤ gate.followCap

/-- A claimed author's list is that of its winner. -/
theorem listFor_eq_some (verified : gate.verify = verifier.verify) {vfl : ValidatedFollowList}
    (listed : gate.listFor batch events claimed = some vfl) :
    ∃ winner followees, Wins verifier gate events claimed winner ∧
      winner.pubkey.bytes = claimed.pubkey ∧ followeePubkeys winner gate.followCap = some followees ∧
      vfl = .fromEvent winner followees := by
  obtain ⟨author, parsed, found⟩ := Option.bind_eq_some_iff.mp listed
  have same := indexByAuthor_follower found
  have emitted := List.mem_reverse.mp (List.mem_of_find?_eq_some found)
  rw [verified] at emitted
  obtain ⟨winner, followees, _, wins, extracted, rfl⟩ := (mem_ingestEvents_iff verifier events
    gate.wantKind _ gate.now gate.futureClampSecs gate.followCap).mp emitted
  obtain rfl : winner.pubkey = author := same
  have key := PublicKey.fromSlice_eq_some_iff.mp parsed
  exact ⟨winner, followees, ⟨_, parsed, wins, (followeePubkeys_spec extracted).2.2⟩, key, extracted, rfl⟩

/-- A claimed author with a winner has a list. -/
theorem listFor_isSome (verified : gate.verify = verifier.verify) (member : claimed ∈ batch)
    (wins : Wins verifier gate events claimed winner) : ∃ vfl, gate.listFor batch events claimed = some vfl := by
  obtain ⟨author, parsed, best, small⟩ := wins
  have requested : author ∈ (requestedAuthors batch).toFinset :=
    List.mem_toFinset.mpr (List.mem_filterMap.mpr ⟨claimed, member, parsed⟩)
  have owner : winner.pubkey = author := best.member.2.2.1
  obtain ⟨followees, extracted⟩ := followeePubkeys_isSome small
  have emitted := (mem_ingestEvents_iff verifier events gate.wantKind (requestedAuthors batch).toFinset
    gate.now gate.futureClampSecs gate.followCap).mpr
    ⟨winner, followees, owner ▸ requested, owner ▸ best, extracted, rfl⟩
  rw [← verified] at emitted
  cases found : indexByAuthor (ingestEvents gate.verify events gate.wantKind
      (requestedAuthors batch).toFinset gate.now gate.futureClampSecs gate.followCap) author with
  | some vfl => exact ⟨vfl, by simp [GateParams.listFor, listOf, parsed, found]⟩
  | none =>
    have absent := List.find?_eq_none.mp found _ (List.mem_reverse.mpr emitted)
    simp [ValidatedFollowList.fromEvent, owner] at absent

end Lists

end WotCrawler.Crawl
