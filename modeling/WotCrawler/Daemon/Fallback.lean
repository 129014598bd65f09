import WotCrawler.Ingest.Winner
import WotCrawler.Relay.Fetch

/-! The daemon's two fetches beside the fan-out: an author's write relays for its list, and the
curated relays for its relay list. -/

namespace WotCrawler.Daemon

open Ingest Relay

/-- `fetch_complete_with_timeout` behind the admission gate, at each visit of a relay, with the
window cap that the relay advertises. -/
abbrev RelayFetch (m : Type → Type) :=
  Nat → String → List PublicKey → Kind → m (Except RelayError (List Event))

/-- The loop of both fetches. The first error ends it, whatever was fetched before. -/
def fetchEach {m : Type → Type} [Monad m] (fetch : Nat → String → m (Except RelayError (List Event))) :
    List Event → Nat → List String → m (Except RelayError (List Event))
  | union, _, [] => return .ok union
  | union, visit, relay :: rest => do
    match ← fetch visit relay with
    | .error error => return .error error
    | .ok events => fetchEach fetch (union ++ events) (visit + 1) rest

def fallbackFetch {m : Type → Type} [Monad m] (fetch : RelayFetch m) (author : PublicKey)
    (writeRelays : List String) : m (Except RelayError (List Event)) :=
  fetchEach (fun visit relay => fetch visit relay [author] Kind.contactList) [] 0 writeRelays

def relayListFetch {m : Type → Type} [Monad m] (fetch : RelayFetch m) (relays : List String)
    (author : PublicKey) : m (Except RelayError (List Event)) :=
  fetchEach (fun visit relay => fetch visit relay [author] Kind.relayList) [] 0 relays

section Outcomes

variable {fetch : Nat → String → Id (Except RelayError (List Event))} {relays : List String}

/-- The outcome of each per-relay fetch of one call, whether or not the loop gets there. -/
def outcomes (fetch : Nat → String → Id (Except RelayError (List Event))) :
    Nat → List String → List (Except RelayError (List Event))
  | _, [] => []
  | visit, relay :: rest => fetch visit relay :: outcomes fetch (visit + 1) rest

/-- Everything the relays returned. -/
def returned (outcomes : List (Except RelayError (List Event))) : List Event :=
  outcomes.flatMap fun
    | .ok events => events
    | .error _ => []

/-- No relay erred. -/
def AllAnswer (outcomes : List (Except RelayError (List Event))) : Prop :=
  ∀ outcome ∈ outcomes, ∃ events, outcome = .ok events

private theorem fetchEach_error (fetched : fetch visit relay = .error error) (union : List Event)
    (rest : List String) : fetchEach fetch union visit (relay :: rest) = .error error := by
  rw [fetchEach, fetched]
  rfl

private theorem fetchEach_ok (fetched : fetch visit relay = .ok events) (union : List Event)
    (rest : List String) :
    fetchEach fetch union visit (relay :: rest) = fetchEach fetch (union ++ events) (visit + 1) rest := by
  rw [fetchEach, fetched]
  rfl

/-- The loop returns what the relays returned, when none of them erred. -/
theorem fetchEach_eq_ok_iff (union : List Event) (visit : Nat) :
    fetchEach fetch union visit relays = .ok all ↔
      AllAnswer (outcomes fetch visit relays) ∧ all = union ++ returned (outcomes fetch visit relays) := by
  induction relays generalizing union visit with
  | nil =>
    have empty : AllAnswer (outcomes fetch visit []) := fun _ member => by cases member
    constructor
    · intro done
      obtain rfl := Except.ok.inj done
      exact ⟨empty, (List.append_nil union).symm⟩
    · intro condition
      exact congrArg Except.ok (condition.2.trans (List.append_nil union)).symm
  | cons relay rest ih =>
    cases fetched : fetch visit relay with
    | error error =>
      rw [fetchEach_error fetched]
      constructor
      · intro impossible
        cases impossible
      · intro condition
        obtain ⟨events, answered⟩ := condition.1 (fetch visit relay) (List.mem_cons_self ..)
        rw [fetched] at answered
        cases answered
    | ok events =>
      rw [fetchEach_ok fetched, ih]
      simp [outcomes, returned, AllAnswer, fetched, List.append_assoc]

/-- What some relay returned of a kind is in the result. -/
def Keeps (result : Except RelayError (List Event)) (kind : Kind)
    (outcomes : List (Except RelayError (List Event))) : Prop :=
  ∀ event ∈ returned outcomes, event.kind = kind → ∃ union, result = .ok union ∧ event ∈ union

/-- The loop keeps the events of a kind exactly when there are none, or no relay errs. -/
theorem fetchEach_keeps_iff (kind : Kind) :
    Keeps (fetchEach fetch [] 0 relays) kind (outcomes fetch 0 relays) ↔
      ((∃ event ∈ returned (outcomes fetch 0 relays), event.kind = kind) →
        AllAnswer (outcomes fetch 0 relays)) := by
  constructor
  · intro keeps offered
    obtain ⟨event, member, same⟩ := offered
    obtain ⟨union, done, _⟩ := keeps event member same
    exact ((fetchEach_eq_ok_iff [] 0).mp done).1
  · intro condition event member same
    have answered := condition ⟨event, member, same⟩
    exact ⟨_, (fetchEach_eq_ok_iff [] 0).mpr ⟨answered, rfl⟩, by simpa using member⟩

end Outcomes

end WotCrawler.Daemon
