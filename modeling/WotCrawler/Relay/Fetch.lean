import WotCrawler.Effect.Program
import WotCrawler.Nostr.Event
import WotCrawler.Sequence.KeepFirst

/-! The author-chunked pagination loop, and the production stack of closures around it. -/

namespace WotCrawler.Relay

open Effect Effect.Prog Sequence

/-- A `std::time::Duration`, in nanoseconds. -/
abbrev Duration := Nat

/-- A `std::time::Instant`, in nanoseconds of the monotonic clock. -/
abbrev Instant := Nat

def secs (seconds : Nat) : Duration := seconds * 1000000000

/-- An error of the nostr-sdk client, known by its message alone. -/
structure ClientError where
  message : String
deriving DecidableEq

inductive RelayError where
  | client (error : ClientError)
  | relayNotFound (relay : String)
  | nip11Fetch (relay reason : String)
  | fetchTimeout (label : String)
deriving DecidableEq

abbrev defaultFetchTimeout : Duration := secs 30

/-- The page budget of one author chunk. -/
def maxPagesPerChunk : Nat := 10000

/-- A capped window is paged back to its oldest second; any other window is complete. -/
def pageBack (returned cap : Nat) (oldest : Option Timestamp) : Option Timestamp :=
  match decide (returned ≥ cap), oldest with
  | true, some ts => some ts
  | _, _ => none

def budgetExceeded : RelayError :=
  .fetchTimeout ("page budget (" ++ toString maxPagesPerChunk ++ ") exceeded for author chunk")

def boundaryStall (currentUntil : Timestamp) : RelayError :=
  .fetchTimeout ("boundary-second stall: relay re-served the same cap-sized prefix for pinned until=" ++
    toString currentUntil.val ++ " with more events remaining")

/-- The variables `paginate_chunk` carries from one window to the next. -/
structure PageState where
  out : List Event
  seen : Finset EventId
  untilTs : Timestamp
  prevUntil : Option Timestamp

def windowFilter (authors : List PublicKey) (kind : Kind) (cap : Nat) (untilTs : Timestamp) : Filter where
  authors := authors
  kind := kind
  untilTs := untilTs
  limit := cap

/-- What the loop does with one window: stop with a result, or page on. -/
inductive PageOutcome where
  | done (result : Except RelayError (List Event))
  | next (state : PageState)

/-- The body of the loop after the fetch. -/
def pageStep (cap : Nat) (state : PageState) (events : List Event) : PageOutcome :=
  let currentUntil := state.untilTs
  let returned := events.length
  let oldest := (events.map Event.createdAt).min?
  let fresh := keepFirst Event.id state.seen events
  let newIds := fresh.length
  let out := state.out ++ fresh
  if newIds = 0 then
    if returned ≥ cap ∧ (state.prevUntil = some currentUntil ∨
        pageBack returned cap oldest = some currentUntil) then
      .done (.error (boundaryStall currentUntil))
    else .done (.ok out)
  else
    match pageBack returned cap oldest with
    | some next => .next {
        out := out
        seen := state.seen ∪ (events.map Event.id).toFinset
        untilTs := next
        prevUntil := some currentUntil }
    | none => .done (.ok out)

/-- A window that ends the loop well leaves the new events behind the old ones. -/
theorem pageStep_ok (stepped : pageStep cap page window = .done (.ok out)) :
    out = page.out ++ keepFirst Event.id page.seen window := by
  unfold pageStep at stepped
  dsimp only at stepped
  split at stepped
  · split at stepped
    · cases stepped
    · cases stepped
      rfl
  · split at stepped
    · cases stepped
    · cases stepped
      rfl

theorem pageStep_next (stepped : pageStep cap page window = .next following) :
    following.out = page.out ++ keepFirst Event.id page.seen window ∧
      following.seen = page.seen ∪ (window.map Event.id).toFinset := by
  unfold pageStep at stepped
  dsimp only at stepped
  split at stepped
  · split at stepped <;> cases stepped
  · split at stepped
    · cases stepped
      exact ⟨rfl, rfl⟩
    · cases stepped

/-- The loop of `paginate_chunk`, counting the page budget down. -/
def pageLoop (authors : List PublicKey) (kind : Kind) (cap : Nat)
    (fetch : Filter → Prog sig (Except RelayError (List Event))) :
    Nat → PageState → Prog sig (Except RelayError (List Event))
  | 0, _ => return .error budgetExceeded
  | pages + 1, state => do
    match ← fetch (windowFilter authors kind cap state.untilTs) with
    | .error error => return .error error
    | .ok events =>
      match pageStep cap state events with
      | .done result => return result
      | .next state => pageLoop authors kind cap fetch pages state

/-- Paginate one author chunk over an injected fetch. -/
def paginateChunk (timestampNow : Prog sig Timestamp) (authors : List PublicKey) (kind : Kind)
    (cap : Nat) (fetch : Filter → Prog sig (Except RelayError (List Event))) :
    Prog sig (Except RelayError (List Event)) := do
  let now ← timestampNow
  pageLoop authors kind cap fetch maxPagesPerChunk
    { out := [], seen := ∅, untilTs := now, prevUntil := none }

/-- What the relay layer asks of its surroundings: clocks, the rate limiter and the client. -/
inductive NetOp where
  | timestampNow
  | instantNow
  | acquire (relayUrl : String)
  | fetchEvents (filter : Filter) (timeout : Duration)
  | poolRelays

/-- `Events` holds each id once and is read newest first. -/
abbrev NetOp.Ret : NetOp → Type
  | .timestampNow => Timestamp
  | .instantNow => Instant
  | .acquire _ => Except RelayError Unit
  | .fetchEvents _ _ => Except ClientError (List Event)
  | .poolRelays => List String

abbrev Net : Signature where
  Op := NetOp
  Ret := NetOp.Ret

def timestampNow : Prog Net Timestamp := @perform Net .timestampNow

def instantNow : Prog Net Instant := @perform Net .instantNow

def acquire (relayUrl : String) : Prog Net (Except RelayError Unit) :=
  @perform Net (.acquire relayUrl)

def fetchEvents (filter : Filter) (timeout : Duration) : Prog Net (Except ClientError (List Event)) :=
  @perform Net (.fetchEvents filter timeout)

def poolRelays : Prog Net (List String) := @perform Net .poolRelays

/-- Every window waits for a token of the relay before its request. -/
def gated (relayUrl : String) (fetch : Filter → Prog Net (Except RelayError (List Event)))
    (filter : Filter) : Prog Net (Except RelayError (List Event)) := do
  match ← acquire relayUrl with
  | .error error => return .error error
  | .ok () => fetch filter

def paginateChunkGated (authors : List PublicKey) (kind : Kind) (cap : Nat) (relayUrl : String)
    (fetch : Filter → Prog Net (Except RelayError (List Event))) :
    Prog Net (Except RelayError (List Event)) :=
  paginateChunk timestampNow authors kind cap (gated relayUrl fetch)

/-- A window that took its whole deadline may be partial and becomes a timeout. -/
def fetchWindowWithDeadline (filter : Filter) (timeout : Duration) (label : String)
    (fetch : Filter → Prog Net (Except RelayError (List Event))) :
    Prog Net (Except RelayError (List Event)) := do
  let started ← instantNow
  match ← fetch filter with
  | .error error => return .error error
  | .ok events =>
    let ended ← instantNow
    if ended - started ≥ timeout then return .error (.fetchTimeout label)
    else return .ok events

/-- A label of the connected pool, for diagnostics only. -/
def poolLabel : Prog Net String := do
  let relays ← poolRelays
  if relays = [] then return "pool (no connected relays)"
  else return String.intercalate ", " relays

/-- `Client::fetch_events` with its error wrapped. -/
def clientFetch (timeout : Duration) (filter : Filter) :
    Prog Net (Except RelayError (List Event)) := do
  match ← fetchEvents filter timeout with
  | .error error => return .error (.client error)
  | .ok events => return .ok events

/-- `slice::chunks`: consecutive runs of at most `size` items. -/
def chunks (size : Nat) (items : List α) : List (List α) :=
  (List.range ((items.length + size - 1) / size)).map (fun index =>
    (items.drop (index * size)).take size)

/-- One chunk after another, stopping at the first error. -/
def fetchChunks (chunk : List PublicKey → Prog Net (Except RelayError (List Event))) :
    List Event → List (List PublicKey) → Prog Net (Except RelayError (List Event))
  | all, [] => return .ok all
  | all, authors :: rest => do
    match ← chunk authors with
    | .error error => return .error error
    | .ok events => fetchChunks chunk (all ++ events) rest

def fetchCompleteWithTimeout (relayUrl : String) (authors : List PublicKey) (kind : Kind)
    (maxLimit maxAuthors : Nat) (timeout : Duration) :
    Prog Net (Except RelayError (List Event)) := do
  let cap := max maxLimit 1
  let chunkSize := max maxAuthors 1
  let poolDiag ← poolLabel
  let timeoutLabel := relayUrl ++ " (pool: " ++ poolDiag ++ ")"
  fetchChunks (fun chunk => paginateChunkGated chunk kind cap relayUrl (fun filter =>
    fetchWindowWithDeadline filter timeout timeoutLabel (clientFetch timeout))) []
    (chunks chunkSize authors)

def fetchComplete (relayUrl : String) (authors : List PublicKey) (kind : Kind)
    (maxLimit maxAuthors : Nat) : Prog Net (Except RelayError (List Event)) :=
  fetchCompleteWithTimeout relayUrl authors kind maxLimit maxAuthors defaultFetchTimeout

end WotCrawler.Relay
