import WotCrawler.Crawl.Apply
import WotCrawler.Effect.Noting

/-! Which statements the parts of a batch can issue, whatever was fetched and whatever the store
replies. -/

namespace WotCrawler.Crawl

open Effect Store Ingest Relay

/-- The statements that apply a list, which upsert the given keys only. -/
def ApplyStmt (vouched : Bytes → Prop) : Stmt → Prop
  | .upsertPubkey key => vouched key
  | .selectAppliedEvent _ => True
  | .confirmFetched _ => True
  | .selectFollowees _ => True
  | .applyDiff _ _ _ _ _ _ => True
  | _ => False

/-- The statements that resolve an author: it gets a list or the `not_found` stamp. -/
def ResolveStmt (vouched : Bytes → Prop) : Stmt → Prop
  | .replaceRelays _ _ _ => True
  | .selectWriteRelays _ => True
  | .updateStatus _ status _ => status = .notFound
  | stmt => ApplyStmt vouched stmt

variable {vouched : Bytes → Prop}

theorem ApplyStmt.resolve {stmt : Stmt} (applies : ApplyStmt vouched stmt) : ResolveStmt vouched stmt := by
  cases stmt with
  | replaceRelays pubkeyId relays seenAt => trivial
  | selectWriteRelays pubkeyId => trivial
  | updateStatus id status ts => cases applies
  | _ => exact applies

section Kinds

variable {kind : Stmt → Prop}

theorem query_issues {stmt : Stmt} (holds : kind stmt) : (query stmt).run.Issues kind :=
  ⟨holds, fun _ => trivial⟩

theorem upsertPubkey_issues (upserts : kind (.upsertPubkey pubkey)) : (upsertPubkey pubkey).run.Issues kind := by
  unfold upsertPubkey
  split
  · trivial
  · exact query_issues upserts

theorem upsertAll_issues (keys : List PublicKey) (upserts : ∀ key ∈ keys, kind (.upsertPubkey key.bytes)) :
    (upsertAll keys).run.Issues kind := by
  induction keys with
  | nil => trivial
  | cons key rest ih =>
    have first : (upsertPubkey key.bytes).run.Issues kind :=
      upsertPubkey_issues (upserts key (List.mem_cons_self ..))
    unfold upsertAll
    apply first.except_bind
    intro id
    apply (ih fun other member => upserts other (List.mem_cons_of_mem _ member)).except_bind
    intro ids
    trivial

/-- A kind to which the statements belong that put an event's list in place. -/
structure Permits (kind : Stmt → Prop) (eventId : Bytes) : Prop where
  reads : ∀ id, kind (.selectAppliedEvent id)
  confirms : ∀ id, kind (.confirmFetched id)
  compares : ∀ id, kind (.selectFollowees id)
  applies : ∀ id removed added createdAt changed, kind (.applyDiff id removed added eventId createdAt changed)

theorem applyFollowList_issues (permits : Permits kind eventId) (followerId : Nat) (createdAt : DateTime)
    (followeeIds : List Nat) : (applyFollowList followerId eventId createdAt followeeIds).run.Issues kind := by
  have single {stmt : Stmt} (holds : kind stmt) : (query stmt).run.Issues kind := query_issues holds
  unfold applyFollowList
  apply (single (permits.reads followerId)).except_bind
  intro currentEvent
  split
  · exact (single (permits.confirms followerId)).except_bind fun _ => trivial
  · apply (single (permits.compares followerId)).except_bind
    intro currentSet
    exact (single (permits.applies ..)).except_bind fun _ => trivial

theorem applyValidated_issues {vfl : ValidatedFollowList} (permits : Permits kind vfl.eventId.bytes)
    (follower : kind (.upsertPubkey vfl.followerPubkey.bytes))
    (followees : ∀ key ∈ vfl.followeePubkeys, kind (.upsertPubkey key.bytes)) :
    (applyValidated vfl).run.Issues kind := by
  have first : (upsertPubkey vfl.followerPubkey.bytes).run.Issues kind := upsertPubkey_issues follower
  unfold applyValidated
  apply first.except_bind
  intro followerId
  apply (upsertAll_issues vfl.followeePubkeys followees).except_bind
  intro followeeIds
  exact applyFollowList_issues permits followerId _ followeeIds

end Kinds

theorem applyStmt_permits : Permits (ApplyStmt vouched) eventId :=
  ⟨fun _ => trivial, fun _ => trivial, fun _ => trivial, fun _ _ _ _ _ => trivial⟩

/-- A batch whose fetch failed requeues its authors. -/
def RequeueStmt (maxAttempts : Int) (batch : List ClaimedAuthor) (stmt : Stmt) : Prop :=
  ∃ claimed ∈ batch, ∃ ts, stmt = .requeueOrFail claimed.id maxAttempts ts

theorem requeueAll_issues (maxAttempts : Int) (stamp : DateTime) {rest batch : List ClaimedAuthor}
    (inside : rest ⊆ batch) : (requeueAll maxAttempts stamp rest).run.Issues (RequeueStmt maxAttempts batch) := by
  induction rest with
  | nil => trivial
  | cons claimed rest ih =>
    have requeues : (requeueOrFail claimed.id maxAttempts stamp).run.Issues (RequeueStmt maxAttempts batch) :=
      query_issues ⟨claimed, inside (List.mem_cons_self ..), stamp, rfl⟩
    unfold requeueAll
    apply requeues.except_bind
    intro _
    exact ih fun other member => inside (List.mem_cons_of_mem _ member)

theorem processBatch_error_issues (gate : GateParams) (maxAttempts : Int) (fallback : Fallback)
    (batch : List ClaimedAuthor) (error : RelayError) :
    (processBatch gate maxAttempts fallback batch (.error error)).run.Issues (RequeueStmt maxAttempts batch) := by
  unfold processBatch
  split
  · trivial
  · exact (requeueAll_issues maxAttempts _ (List.Subset.refl batch)).except_bind fun _ => trivial

end WotCrawler.Crawl
