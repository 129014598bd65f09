import WotCrawler.Store.Statement

/-! The store's functions: key upsert, status stamp, and the follow and relay list writers. -/

namespace WotCrawler.Store

open Effect Effect.Prog Ingest

def pubkeyLen : Nat := 32

def upsertPubkey (pubkey : Bytes) : StoreM Nat := do
  if pubkey.length ≠ pubkeyLen then throw (.invalidPubkey pubkey.length)
  else query (.upsertPubkey pubkey)

def setFetchStatus (id : Nat) (status : FetchStatus) (ts : DateTime) : StoreM Unit :=
  query (.updateStatus id status ts)

/-- The idempotent edge writer. It compares event ids only: an older event replaces a newer one. -/
def applyFollowList (followerId : Nat) (eventId : Bytes) (createdAt : DateTime)
    (followeeIds : List Nat) : StoreM Bool := do
  let currentEvent ← query (.selectAppliedEvent followerId)
  if currentEvent = some eventId then
    query (.confirmFetched followerId)
    return false
  else
    let newSet := (followeeIds.filter (fun id => id ≠ followerId)).dedup
    let currentSet ← query (.selectFollowees followerId)
    let added := newSet.filter (fun id => id ∉ currentSet)
    let removed := currentSet.filter (fun id => id ∉ newSet)
    let changed := !added.isEmpty || !removed.isEmpty
    query (.applyDiff followerId removed added eventId createdAt changed)
    return true

def applyRelayList (pubkeyId : Nat) (relays : List (String × Marker)) (seenAt : DateTime) : StoreM Unit :=
  query (.replaceRelays pubkeyId relays seenAt)

def lookupWriteRelays (pubkeyId : Nat) : StoreM (List String) :=
  query (.selectWriteRelays pubkeyId)

end WotCrawler.Store
