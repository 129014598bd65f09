import WotCrawler.Crawl.Recover
import WotCrawler.Effect.Duty

/-! What a batch has from its statements, whatever was fetched and whatever was done before: the first
statement that fails ends it, and nothing else does. -/

namespace WotCrawler.Crawl

open Effect Store Ingest Relay

/-- A property that a computation has from its statements. -/
structure Inherited (holds : ∀ {α : Type}, StoreM α → Prop) : Prop where
  ret : ∀ {α : Type} (value : α), holds (pure value : StoreM α)
  bind : ∀ {α β : Type} {first : StoreM α} {next : α → StoreM β}, holds first → (∀ value, holds (next value)) →
    holds (first >>= next)
  query : ∀ stmt, holds (query stmt)

namespace Inherited

variable {gate : GateParams} {fallback : Fallback} {claimed : ClaimedAuthor} {author : PublicKey}
  {holds : ∀ {α : Type}, StoreM α → Prop} (inherited : Inherited @holds)

include inherited

theorem upsertPubkey (author : PublicKey) : holds (upsertPubkey author.bytes) := by
  have wide : ¬ author.bytes.length ≠ pubkeyLen := not_not_intro author.width
  rw [Store.upsertPubkey, if_neg wide]
  exact inherited.query _

theorem upsertAll (keys : List PublicKey) : holds (upsertAll keys) := by
  induction keys with
  | nil => exact inherited.ret []
  | cons key rest ih =>
    unfold Crawl.upsertAll
    exact inherited.bind (inherited.upsertPubkey key) fun _ => inherited.bind ih fun _ => inherited.ret _

theorem applyFollowList (followerId : Nat) (eventId : Bytes) (createdAt : DateTime) (followeeIds : List Nat) :
    holds (applyFollowList followerId eventId createdAt followeeIds) := by
  unfold Store.applyFollowList
  apply inherited.bind (inherited.query _)
  intro currentEvent
  split
  · exact inherited.bind (inherited.query _) fun _ => inherited.ret _
  · apply inherited.bind (inherited.query _)
    intro currentSet
    exact inherited.bind (inherited.query _) fun _ => inherited.ret _

theorem applyValidated (vfl : ValidatedFollowList) : holds (applyValidated vfl) := by
  unfold Crawl.applyValidated
  apply inherited.bind (inherited.upsertPubkey vfl.followerPubkey)
  intro followerId
  apply inherited.bind (inherited.upsertAll vfl.followeePubkeys)
  intro followeeIds
  exact inherited.applyFollowList followerId _ _ followeeIds

theorem resolveWriteRelays : holds (resolveWriteRelays gate fallback claimed author) := by
  have reread (persisted : List String) :
      holds (if persisted = [] then lookupWriteRelays claimed.id else pure persisted) := by
    split
    · exact inherited.query _
    · exact inherited.ret persisted
  unfold Crawl.resolveWriteRelays
  dsimp only
  split
  · exact inherited.bind (inherited.ret []) reread
  · split
    · exact inherited.bind (inherited.ret []) reread
    · apply inherited.bind (inherited.upsertPubkey author)
      intro pubkeyId
      apply inherited.bind (inherited.query _)
      intro _
      exact inherited.bind (inherited.query _) reread

theorem fallbackRecover : holds (fallbackRecover gate fallback claimed author) := by
  have known : holds (knownRelays gate fallback claimed author) := by
    unfold knownRelays
    apply inherited.bind (inherited.query _)
    intro stored
    split
    · exact inherited.resolveWriteRelays
    · exact inherited.ret stored
  rw [fallbackRecover_eq]
  exact inherited.bind known fun writeRelays => inherited.ret _

theorem resolveAuthor {byAuthor : PublicKey → Option ValidatedFollowList} :
    holds (resolveAuthor gate fallback stamp byAuthor claimed) := by
  have miss : holds (do
      setFetchStatus claimed.id .notFound stamp
      return 0 : StoreM Nat) := inherited.bind (inherited.query _) fun _ => inherited.ret 0
  have hit (vfl : ValidatedFollowList) : holds (do
      let _ ← Crawl.applyValidated vfl
      return 1 : StoreM Nat) := inherited.bind (inherited.applyValidated vfl) fun _ => inherited.ret 1
  unfold Crawl.resolveAuthor
  split
  · exact miss
  · split
    · exact hit _
    · dsimp only
      split
      · apply inherited.bind inherited.fallbackRecover
        intro recovered
        cases recovered with
        | some vfl => exact hit vfl
        | none => exact miss
      · exact miss

theorem resolveAll {byAuthor : PublicKey → Option ValidatedFollowList} (applied : Nat)
    (batch : List ClaimedAuthor) : holds (resolveAll gate fallback stamp byAuthor applied batch) := by
  induction batch generalizing applied with
  | nil => exact inherited.ret applied
  | cons claimed rest ih =>
    unfold Crawl.resolveAll
    exact inherited.bind inherited.resolveAuthor fun counted => ih (applied + counted)

theorem requeueAll (maxAttempts : Int) (stamp : DateTime) (batch : List ClaimedAuthor) :
    holds (requeueAll maxAttempts stamp batch) := by
  induction batch with
  | nil => exact inherited.ret ()
  | cons claimed rest ih =>
    unfold Crawl.requeueAll
    exact inherited.bind (inherited.query _) fun _ => ih

/-- A batch has it, too. -/
theorem processBatch (gate : GateParams) (maxAttempts : Int) (fallback : Fallback) (batch : List ClaimedAuthor)
    (unionFetch : Except RelayError (List Event)) :
    holds (processBatch gate maxAttempts fallback batch unionFetch) := by
  unfold Crawl.processBatch
  split
  · exact inherited.ret 0
  · dsimp only
    split
    · exact inherited.bind (inherited.requeueAll maxAttempts _ batch) fun _ => inherited.ret 0
    · exact inherited.resolveAll 0 batch

end Inherited

/-- The statement failed. -/
def Refused (stmt : Stmt) (reply : Except StoreError stmt.Ret) : Prop := ∃ error, reply = .error error

/-- The statement answered. -/
def Answers (stmt : Stmt) (reply : Except StoreError stmt.Ret) : Prop := ∃ value, reply = .ok value

private theorem strict : Inherited fun prog => prog.run.Stops Refused where
  ret := fun _ => trivial
  bind := Prog.Stops.bind
  query := by
    intro stmt reply
    refine ⟨?_, trivial⟩
    intro refused
    obtain ⟨error, rfl⟩ := refused
    exact ⟨error, rfl⟩

private theorem earnest : Inherited fun prog => prog.run.Succeeds Answers where
  ret := fun value => ⟨value, rfl⟩
  bind := Prog.Succeeds.bind
  query := fun _ _ answered => answered

/-- A failed statement ends its batch. -/
theorem processBatch_strict (gate : GateParams) (maxAttempts : Int) (fallback : Fallback)
    (batch : List ClaimedAuthor) (unionFetch : Except RelayError (List Event)) :
    (processBatch gate maxAttempts fallback batch unionFetch).run.Stops Refused :=
  strict.processBatch gate maxAttempts fallback batch unionFetch

/-- A batch whose statements answer does not end in an error. -/
theorem processBatch_succeeds (gate : GateParams) (maxAttempts : Int) (fallback : Fallback)
    (batch : List ClaimedAuthor) (unionFetch : Except RelayError (List Event)) :
    (processBatch gate maxAttempts fallback batch unionFetch).run.Succeeds Answers :=
  earnest.processBatch gate maxAttempts fallback batch unionFetch

end WotCrawler.Crawl
