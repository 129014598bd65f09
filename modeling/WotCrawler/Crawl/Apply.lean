import WotCrawler.Crawl.Frontier
import WotCrawler.Relay.Fetch

/-! The composition for one claimed batch: one gate pass over the fetched union, then the
outcome of every author. -/

namespace WotCrawler.Crawl

open Store Ingest Relay

def upsertAll : List PublicKey → StoreM (List Nat)
  | [] => return []
  | key :: rest => do
    let id ← upsertPubkey key.bytes
    let ids ← upsertAll rest
    return id :: ids

/-- Bridge a validated list into the edge writer. The upsert of each followee discovers it. -/
def applyValidated (vfl : ValidatedFollowList) : StoreM Bool := do
  let followerId ← upsertPubkey vfl.followerPubkey.bytes
  let followeeIds ← upsertAll vfl.followeePubkeys
  applyFollowList followerId vfl.eventId.bytes vfl.createdAt followeeIds

/-- The parameters every gate pass of a batch shares. -/
structure GateParams where
  verify : Event → Bool
  wantKind : Kind
  now : Timestamp
  futureClampSecs : Timestamp
  followCap : Nat

/-- `acquire_validated_lists` over a fetch that has completed. -/
def GateParams.acquire (gate : GateParams) (requested : Finset PublicKey)
    (fetched : Except RelayError (List Event)) : Except RelayError (List ValidatedFollowList) :=
  fetched.map (fun events =>
    ingestEvents gate.verify events gate.wantKind requested gate.now gate.futureClampSecs gate.followCap)

/-- The write-relay fallback a batch is given: its switch and cap, the health score of a relay
as read while sorting one author's relays, and the two injected fetches. -/
structure Fallback where
  enabled : Bool
  maxWriteRelays : Nat
  score : PublicKey → String → Rat
  fallbackFetch : PublicKey → List String → Except RelayError (List Event)
  relayListFetch : PublicKey → Except RelayError (List Event)

/-- Fetch, persist and read back an author's relay list when no write relay is stored. -/
def resolveWriteRelays (gate : GateParams) (fallback : Fallback) (claimed : ClaimedAuthor)
    (author : PublicKey) : StoreM (List String) := do
  let persisted ← match fallback.relayListFetch author with
    | .error _ => pure []
    | .ok raw =>
      match resolveRelayList gate.verify raw author gate.now gate.futureClampSecs with
      | none => pure []
      | some vrl => do
        let pubkeyId ← upsertPubkey author.bytes
        applyRelayList pubkeyId vrl.relays vrl.createdAt
        lookupWriteRelays pubkeyId
  if persisted = [] then lookupWriteRelays claimed.id else return persisted

/-- Stable sort by descending score, then truncation. -/
def selectRelays (fallback : Fallback) (author : PublicKey) (writeRelays : List String) : List String :=
  (writeRelays.insertionSort (fun a b => fallback.score author b ≤ fallback.score author a)).take
    fallback.maxWriteRelays

def fallbackRecover (gate : GateParams) (fallback : Fallback) (claimed : ClaimedAuthor)
    (author : PublicKey) : StoreM (Option ValidatedFollowList) := do
  let stored ← lookupWriteRelays claimed.id
  let writeRelays ← if stored = [] then resolveWriteRelays gate fallback claimed author else pure stored
  if writeRelays = [] then return none
  else
    match fallback.fallbackFetch author (selectRelays fallback author writeRelays) with
    | .error _ => return none
    | .ok raw =>
      match gate.acquire {author} (.ok raw) with
      | .error _ => return none
      | .ok lists => return lists.getLast?

def requeueAll (maxAttempts : Int) (stamp : DateTime) : List ClaimedAuthor → StoreM Unit
  | [] => return ()
  | claimed :: rest => do
    requeueOrFail claimed.id maxAttempts stamp
    requeueAll maxAttempts stamp rest

/-- The outcome of one claimed author; the result counts it when a list was applied. -/
def resolveAuthor (gate : GateParams) (fallback : Fallback) (stamp : DateTime)
    (byAuthor : PublicKey → Option ValidatedFollowList) (claimed : ClaimedAuthor) : StoreM Nat := do
  match PublicKey.fromSlice claimed.pubkey with
  | none =>
    setFetchStatus claimed.id .notFound stamp
    return 0
  | some author =>
    match byAuthor author with
    | some vfl =>
      let _ ← applyValidated vfl
      return 1
    | none =>
      let recovered ← if fallback.enabled then fallbackRecover gate fallback claimed author else pure none
      match recovered with
      | some vfl =>
        let _ ← applyValidated vfl
        return 1
      | none =>
        setFetchStatus claimed.id .notFound stamp
        return 0

def resolveAll (gate : GateParams) (fallback : Fallback) (stamp : DateTime)
    (byAuthor : PublicKey → Option ValidatedFollowList) : Nat → List ClaimedAuthor → StoreM Nat
  | applied, [] => return applied
  | applied, claimed :: rest => do
    let counted ← resolveAuthor gate fallback stamp byAuthor claimed
    resolveAll gate fallback stamp byAuthor (applied + counted) rest

/-- The keys of a batch that are well formed. -/
def requestedAuthors (batch : List ClaimedAuthor) : List PublicKey :=
  batch.filterMap (fun claimed => PublicKey.fromSlice claimed.pubkey)

/-- The winning lists by author, a later list of an author over an earlier one. -/
def indexByAuthor (validated : List ValidatedFollowList) (author : PublicKey) :
    Option ValidatedFollowList :=
  validated.reverse.find? (fun vfl => vfl.followerPubkey = author)

/-- Process one claimed batch, given what its fetch of the curated union returned. -/
def processBatch (gate : GateParams) (maxAttempts : Int) (fallback : Fallback)
    (batch : List ClaimedAuthor) (unionFetch : Except RelayError (List Event)) : StoreM Nat := do
  if batch = [] then return 0
  else
    let requested := (requestedAuthors batch).toFinset
    let stamp := timestampToDatetime gate.now
    match gate.acquire requested unionFetch with
    | .error _ =>
      requeueAll maxAttempts stamp batch
      return 0
    | .ok validated => resolveAll gate fallback stamp (indexByAuthor validated) 0 batch

end WotCrawler.Crawl
