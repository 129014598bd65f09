import WotCrawler.Crawl.Provenance
import WotCrawler.Crawl.Worker
import WotCrawler.Effect.Duty

/-! A batch does not end well before it has written the outcome of each of its rows, whatever was
fetched and whatever others do meanwhile. -/

namespace WotCrawler.Crawl

open Effect Store Ingest Relay

/-- The replies of a store where a key stands under an id. -/
def Standing (id : Nat) (key : Bytes) : (stmt : Stmt) → Except StoreError stmt.Ret → Prop
  | .upsertPubkey pubkey, reply => pubkey = key → ∀ found, reply = .ok found → found = id
  | _, _ => True

/-- The row's outcome was written. -/
def Settled (id : Nat) (stmt : Stmt) (reply : Except StoreError stmt.Ret) : Prop :=
  stmt.outcome = some id ∧ ∃ value, reply = .ok value

/-- The row's outcome is written before the program returns a value. -/
def Owing (id : Nat) (key : Bytes) (prog : Prog Sql (Except StoreError α)) : Prop :=
  prog.Owes (Standing id key) (Settled id)

variable {gate : GateParams} {fallback : Fallback} {claimed : ClaimedAuthor} {batch rest : List ClaimedAuthor}
  {id : Nat} {key : Bytes}

/-- A statement that writes the outcome, or fails. -/
private theorem query_owing {stmt : Stmt} (outcome : stmt.outcome = some id) : Owing id key (query stmt).run := by
  intro reply _
  cases reply with
  | ok value => exact .inl ⟨outcome, value, rfl⟩
  | error error => exact .inr ⟨error, rfl⟩

theorem applyFollowList_owing (id : Nat) (key : Bytes) (eventId : Bytes) (createdAt : DateTime)
    (followeeIds : List Nat) : Owing id key (applyFollowList id eventId createdAt followeeIds).run := by
  have confirms : Owing id key (query (.confirmFetched id)).run := query_owing rfl
  unfold applyFollowList
  apply Prog.Owes.later
  intro current
  split
  · exact confirms.bind
  · apply Prog.Owes.later
    intro edges
    have diffs (removed added : List Nat) (changed : Bool) :
        Owing id key (query (.applyDiff id removed added eventId createdAt changed)).run := query_owing rfl
    exact (diffs _ _ _).bind

theorem applyValidated_owing {vfl : ValidatedFollowList} (same : vfl.followerPubkey.bytes = key) :
    Owing id key (applyValidated vfl).run := by
  have wide : ¬ vfl.followerPubkey.bytes.length ≠ pubkeyLen := fun differs => differs vfl.followerPubkey.width
  have rest (followerId : Nat) : Owing followerId key (do
      let followeeIds ← upsertAll vfl.followeePubkeys
      applyFollowList followerId vfl.eventId.bytes vfl.createdAt followeeIds).run :=
    Prog.Owes.later fun followeeIds => applyFollowList_owing followerId key _ _ followeeIds
  unfold applyValidated upsertPubkey
  rw [if_neg wide]
  intro reply standing
  right
  cases reply with
  | error error => exact ⟨error, rfl⟩
  | ok followerId =>
    obtain rfl : followerId = id := standing same followerId rfl
    exact rest followerId

private theorem stamp_owing (claimed : ClaimedAuthor) (stamp : DateTime) : Owing claimed.id claimed.pubkey (do
      setFetchStatus claimed.id .notFound stamp
      return 0 : StoreM Nat).run := by
  have stamps : Owing claimed.id claimed.pubkey (setFetchStatus claimed.id .notFound stamp).run := query_owing rfl
  exact stamps.bind

private theorem outcome_owing {author : PublicKey} (parsed : author.bytes = claimed.pubkey)
    (recovered : Option ValidatedFollowList) :
    (∀ vfl, recovered = some vfl → vfl.followerPubkey = author) →
      Owing claimed.id claimed.pubkey (match recovered with
        | some vfl => do
          let _ ← applyValidated vfl
          return 1
        | none => do
          setFetchStatus claimed.id .notFound stamp
          return 0 : StoreM Nat).run := by
  intro own
  cases recovered with
  | some vfl =>
    have applies : Owing claimed.id claimed.pubkey (applyValidated vfl).run :=
      applyValidated_owing (by rw [own vfl rfl, parsed])
    exact applies.bind
  | none => exact stamp_owing claimed stamp

/-- Each branch of an author ends in an outcome of the author's row. -/
theorem resolveAuthor_owing {byAuthor : PublicKey → Option ValidatedFollowList}
    (indexed : ∀ author vfl, byAuthor author = some vfl → vfl.followerPubkey = author) :
    Owing claimed.id claimed.pubkey (resolveAuthor gate fallback stamp byAuthor claimed).run := by
  unfold resolveAuthor
  split
  · exact stamp_owing claimed stamp
  · rename_i author found
    have parsed := PublicKey.fromSlice_eq_some_iff.mp found
    split
    · rename_i vfl listed
      have applies : Owing claimed.id claimed.pubkey (applyValidated vfl).run :=
        applyValidated_owing (by rw [indexed author vfl listed, parsed])
      exact applies.bind
    · dsimp only
      split
      · apply Prog.Owes.after (fallbackRecover_yields (List.mem_singleton_self claimed) parsed)
        intro recovered genuine
        exact outcome_owing parsed recovered fun vfl same => (genuine vfl same).1
      · exact outcome_owing parsed none fun _ absent => by cases absent

theorem resolveAll_owing {byAuthor : PublicKey → Option ValidatedFollowList} {applied : Nat}
    (indexed : ∀ author vfl, byAuthor author = some vfl → vfl.followerPubkey = author) (member : claimed ∈ rest) :
    Owing claimed.id claimed.pubkey (resolveAll gate fallback stamp byAuthor applied rest).run := by
  induction rest generalizing applied with
  | nil => cases member
  | cons head tail ih =>
    unfold resolveAll
    rcases List.mem_cons.mp member with rfl | inside
    · have first : Owing claimed.id claimed.pubkey
          (resolveAuthor gate fallback stamp byAuthor claimed).run := resolveAuthor_owing indexed
      exact first.bind
    · exact Prog.Owes.later fun counted => ih inside

theorem requeueAll_owing (member : claimed ∈ rest) :
    Owing claimed.id claimed.pubkey (requeueAll maxAttempts stamp rest).run := by
  induction rest with
  | nil => cases member
  | cons head tail ih =>
    unfold requeueAll
    rcases List.mem_cons.mp member with rfl | inside
    · have first : Owing claimed.id claimed.pubkey (requeueOrFail claimed.id maxAttempts stamp).run := query_owing rfl
      exact first.bind
    · exact Prog.Owes.later fun _ => ih inside

/-- A batch owes the outcome of each of its rows. -/
theorem processBatch_owing (gate : GateParams) (maxAttempts : Int) (fallback : Fallback)
    (unionFetch : Except RelayError (List Event)) (member : claimed ∈ batch) :
    Owing claimed.id claimed.pubkey (processBatch gate maxAttempts fallback batch unionFetch).run := by
  unfold processBatch
  rw [if_neg (List.ne_nil_of_mem member)]
  dsimp only
  split
  · have requeues : Owing claimed.id claimed.pubkey
        (requeueAll maxAttempts (timestampToDatetime gate.now) batch).run := requeueAll_owing member
    exact requeues.bind
  · exact resolveAll_owing (fun _ _ found => indexByAuthor_follower found) member

end WotCrawler.Crawl
