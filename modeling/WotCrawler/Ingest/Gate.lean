import WotCrawler.Nostr.Event
import WotCrawler.Sequence.MaxBy
import WotCrawler.Sequence.KeepFirst
import WotCrawler.Sequence.Grouping

/-! The validation gate: verification, kind and author match, deduplication, replaceable
resolution and extraction of the followees. -/

namespace WotCrawler.Ingest

open Sequence

/-- A verified, newest-wins follow list ready for the store. -/
structure ValidatedFollowList where
  followerPubkey : PublicKey
  eventId : EventId
  createdAt : DateTime
  followeePubkeys : List PublicKey
deriving DecidableEq

/-- The marker stored with a relay of a relay list. -/
inductive Marker where
  | read
  | write
  | both
deriving DecidableEq

/-- A verified, newest-wins relay list ready for the store. -/
structure ValidatedRelayList where
  pubkey : PublicKey
  eventId : EventId
  createdAt : DateTime
  relays : List (String × Marker)

def ValidatedFollowList.fromEvent (event : Event) (followeePubkeys : List PublicKey) :
    ValidatedFollowList where
  followerPubkey := event.pubkey
  eventId := event.id
  createdAt := timestampToDatetime event.createdAt
  followeePubkeys := followeePubkeys

/-- The gate of one event: it verifies and answers what was asked. -/
def accept (verify : Event → Bool) (event : Event) (wantKind : Kind)
    (requested : Finset PublicKey) : Bool :=
  if !verify event then false
  else if event.kind ≠ wantKind ∨ event.pubkey ∉ requested then false
  else true

/-- The comparator of `pick_winner`: by time, then by descending id. -/
def compareVersions (a b : Event) : Ordering :=
  (compare a.createdAt b.createdAt).then (compare b.id a.id)

/-- The newest event not dated past the clamp, the lowest id within one second. -/
def pickWinner (events : List Event) (now futureClampSecs : Timestamp) : Option Event :=
  let cutoff := now.saturatingAdd futureClampSecs
  maxBy compareVersions (events.filter (fun event => ¬ event.createdAt > cutoff))

/-- The distinct followees other than the author, unless they exceed the cap. -/
def followeePubkeys (event : Event) (followCap : Nat) : Option (List PublicKey) :=
  let others := (publicKeys event.tags).filter (fun key => key ≠ event.pubkey)
  let followees := keepFirst id ∅ others
  if followees.length > followCap then none else some followees

/-- The accepted events, one for each id: only a verified event takes an id in the seen-set. -/
def acceptedEvents (verify : Event → Bool) (events : List Event) (wantKind : Kind)
    (requested : Finset PublicKey) : List Event :=
  keepFirst Event.id ∅ (events.filter (fun event => accept verify event wantKind requested))

/-- The list one author's group resolves to. -/
def resolveGroup (now futureClampSecs : Timestamp) (followCap : Nat) (group : List Event) :
    Option ValidatedFollowList := do
  let winner ← pickWinner group now futureClampSecs
  let followees ← followeePubkeys winner followCap
  return ValidatedFollowList.fromEvent winner followees

/-- The whole gate. The source groups in a `HashMap`, whose order is unspecified; here the
groups stand in the order their authors are first met. -/
def ingestEvents (verify : Event → Bool) (events : List Event) (wantKind : Kind)
    (requested : Finset PublicKey) (now futureClampSecs : Timestamp) (followCap : Nat) :
    List ValidatedFollowList :=
  let byAuthor := groupBy Event.pubkey (acceptedEvents verify events wantKind requested)
  byAuthor.filterMap (fun entry => resolveGroup now futureClampSecs followCap entry.2)

/-- A bare `r` tag advertises both directions. -/
def markerOf : Option RelayMetadata → Marker
  | some .read => .read
  | some .write => .write
  | none => .both

/-- `nip65::extract_relay_list`: the well-formed `r` tags, in order. -/
def extractRelayList (event : Event) : List (RelayUrl × Option RelayMetadata) :=
  event.tags.filterMap (fun
    | .relayMetadata url metadata => some (url, metadata)
    | _ => none)

def extractRelayPairs (event : Event) : List (String × Marker) :=
  (extractRelayList event).map (fun (url, metadata) =>
    (url.asStrWithoutTrailingSlash, markerOf metadata))

def ValidatedRelayList.fromEvent (event : Event) : ValidatedRelayList where
  pubkey := event.pubkey
  eventId := event.id
  createdAt := timestampToDatetime event.createdAt
  relays := extractRelayPairs event

/-- The winning relay list of one author. -/
def resolveRelayList (verify : Event → Bool) (events : List Event) (author : PublicKey)
    (now futureClampSecs : Timestamp) : Option ValidatedRelayList := do
  let candidates := acceptedEvents verify events Kind.relayList {author}
  let winner ← pickWinner candidates now futureClampSecs
  return ValidatedRelayList.fromEvent winner

theorem accept_iff : accept verify event wantKind requested = true ↔
    verify event = true ∧ event.kind = wantKind ∧ event.pubkey ∈ requested := by
  unfold accept
  by_cases verified : verify event = true
  · by_cases kind : event.kind = wantKind <;> by_cases author : event.pubkey ∈ requested <;>
      simp [verified, kind, author]
  · simp [verified]

/-- The time of an event, then its id reversed: the order in which versions win. -/
def version (event : Event) : Timestamp ×ₗ EventIdᵒᵈ :=
  toLex (event.createdAt, OrderDual.toDual event.id)

theorem version_le_iff : version older ≤ version newer ↔
    older.createdAt < newer.createdAt ∨
      (older.createdAt = newer.createdAt ∧ newer.id ≤ older.id) := by
  simp [version, Prod.Lex.le_iff]

theorem compareVersions_gt_iff (a b : Event) :
    compareVersions a b = .gt ↔ version b < version a := by
  have apart : version b < version a ↔ b.createdAt < a.createdAt ∨
      (b.createdAt = a.createdAt ∧ a.id < b.id) := by
    simp [version, Prod.Lex.lt_iff]
  rw [apart, compareVersions]
  rcases lt_trichotomy a.createdAt b.createdAt with less | same | greater
  · simp [compare_lt_iff_lt.mpr less, Ordering.then, less.not_gt, less.ne']
  · simp [same, Ordering.then, compare_gt_iff_gt]
  · simp [compare_gt_iff_gt.mpr greater, Ordering.then, greater]

/-- The winner passes the clamp, and no other event that does has a greater version. -/
theorem pickWinner_spec (found : pickWinner events now futureClampSecs = some winner) :
    (winner ∈ events ∧ winner.createdAt ≤ now.saturatingAdd futureClampSecs) ∧
      ∀ event ∈ events, event.createdAt ≤ now.saturatingAdd futureClampSecs →
        version event ≤ version winner := by
  refine ⟨?_, ?_⟩
  · simpa using maxBy_mem found
  · intro event member inTime
    exact le_maxBy compareVersions_gt_iff found (by simpa using ⟨member, inTime⟩)

theorem pickWinner_eq_none_iff : pickWinner events now futureClampSecs = none ↔
    ∀ event ∈ events, now.saturatingAdd futureClampSecs < event.createdAt := by
  simp [pickWinner, maxBy_eq_none_iff]

theorem followeePubkeys_eq_some_iff : followeePubkeys event followCap = some followees ↔
    followees = keepFirst id ∅ ((publicKeys event.tags).filter (fun key => key ≠ event.pubkey)) ∧
      followees.length ≤ followCap := by
  unfold followeePubkeys
  dsimp only
  split
  · rename_i exceeds
    constructor
    · intro absent
      cases absent
    · rintro ⟨rfl, within⟩
      omega
  · rename_i within
    constructor
    · intro same
      obtain rfl := Option.some.inj same
      exact ⟨rfl, not_lt.mp within⟩
    · rintro ⟨rfl, _⟩
      rfl

end WotCrawler.Ingest
