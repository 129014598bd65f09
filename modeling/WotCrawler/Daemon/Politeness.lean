import WotCrawler.Daemon.FanOut
import WotCrawler.Daemon.WriteRelays
import WotCrawler.Relay.Traffic

/-! What the relays of the pool receive from the daemon's fetches together, beside the tokens that
their limiters gave out. -/

namespace WotCrawler.Daemon

open Effect Effect.Prog Crawl Ingest Relay

section Loop

variable {m : Type → Type} [Monad m]

/-- The loop of `fetch_union`, where the health gate decides at each visit. -/
def visitEach (gate : Nat → String → Bool) (fetch : Nat → String → m (Except RelayError (List Event))) :
    List Event → Nat → List String → m (Except RelayError (List Event))
  | union, _, [] => return .ok union
  | union, visit, relay :: rest =>
    if gate visit relay then do
      match ← fetch visit relay with
      | .error error => return .error error
      | .ok events => visitEach gate fetch (union ++ events) (visit + 1) rest
    else visitEach gate fetch union (visit + 1) rest

/-- The relays that the gate lets through. -/
def admitted (gate : Nat → String → Bool) : Nat → List String → List String
  | _, [] => []
  | visit, relay :: rest =>
    if gate visit relay then relay :: admitted gate (visit + 1) rest else admitted gate (visit + 1) rest

def fanOutFetch (gate : Nat → String → Bool) (fetch : RelayFetch m) (relays : List String)
    (authors : List PublicKey) : m (Except RelayError (List Event)) :=
  if authors = [] then return .ok []
  else visitEach gate (fun visit relay => fetch visit relay authors Kind.contactList) [] 0 relays

variable {fetch : Nat → String → m (Except RelayError (List Event))} {gate other : Nat → String → Bool}

/-- Decisions before a visit do not matter to it. -/
theorem visitEach_congr (union : List Event) (relays : List String)
    (same : ∀ later relay, visit ≤ later → gate later relay = other later relay) :
    visitEach gate fetch union visit relays = visitEach other fetch union visit relays := by
  induction relays generalizing union visit with
  | nil => rfl
  | cons relay rest ih =>
    have rest (union : List Event) : visitEach gate fetch union (visit + 1) rest =
        visitEach other fetch union (visit + 1) rest :=
      ih union fun later relay after => same later relay ((Nat.le_succ visit).trans after)
    simp only [visitEach, same visit relay (le_refl visit), rest]

/-- Without a gate the loop is that of the other two fetches. -/
theorem visitEach_open (union : List Event) (visit : Nat) (relays : List String) :
    visitEach (fun _ _ => true) fetch union visit relays = fetchEach fetch union visit relays := by
  induction relays generalizing union visit with
  | nil => rfl
  | cons relay rest ih =>
    rw [visitEach, fetchEach, if_pos rfl]
    apply bind_congr
    intro outcome
    cases outcome with
    | error error => rfl
    | ok events => exact ih (union ++ events) (visit + 1)

theorem admitted_open (visit : Nat) (relays : List String) : admitted (fun _ _ => true) visit relays = relays := by
  induction relays generalizing visit with
  | nil => rfl
  | cons relay rest ih => simp only [admitted, if_true, ih]

end Loop

/-- A visit of the fan-out, as it comes out. -/
def Network.visited (network : Network) (authors : List PublicKey) (visit : Nat) (relay : String) :
    Id (Except RelayError (List Event)) :=
  network.fetchComplete visit relay authors (network.maxLimit visit relay)

/-- The loop of the fan-out, with the decisions of the health registry as its gate. -/
theorem visitRelays_outcome (threshold : Rat) (around : Surroundings) (network : Network)
    (authors : List PublicKey) (relays : List String) (registry : RelayHealthRegistry) (union : List Event)
    (visit : Nat) : ∃ gate, visitEach gate (network.visited authors) union visit relays =
      (visitRelays threshold around network authors visit relays registry).outcome.map (union ++ ·) := by
  induction relays generalizing registry union visit with
  | nil => exact ⟨fun _ _ => true, congrArg Except.ok (List.append_nil union).symm⟩
  | cons relay rest ih =>
    have extend (decision : Bool) (gate : Nat → String → Bool) (union : List Event) :
        visitEach (fun later relay => if later = visit then decision else gate later relay)
          (network.visited authors) union (visit + 1) rest =
        visitEach gate (network.visited authors) union (visit + 1) rest := by
      apply visitEach_congr
      intro later relay after
      exact if_neg (Nat.ne_of_gt after)
    cases allowed : (around.others visit registry).routeAllowed relay threshold (around.clock visit) with
    | false =>
      rw [visitRelays_skip allowed]
      obtain ⟨gate, same⟩ := ih (around.others visit registry) union (visit + 1)
      refine ⟨fun later relay => if later = visit then false else gate later relay, ?_⟩
      rw [visitEach, if_neg (by simp), extend, same]
    | true =>
      cases fetched : network.fetchComplete visit relay authors (network.maxLimit visit relay) with
      | error error =>
        refine ⟨fun _ _ => true, ?_⟩
        rw [visitRelays_error allowed fetched, visitEach, if_pos rfl, Network.visited, fetched]
        rfl
      | ok events =>
        rw [visitRelays_ok allowed fetched]
        obtain ⟨gate, same⟩ := ih (((around.others visit registry).markAttempt relay
          (around.clock visit)).recordSuccess relay (network.latency visit)) (union ++ events) (visit + 1)
        refine ⟨fun later relay => if later = visit then true else gate later relay, ?_⟩
        rw [visitEach, if_pos (by simp), Network.visited, fetched]
        refine (extend true gate _).trans (same.trans ?_)
        generalize (visitRelays threshold around network authors (visit + 1) rest _).outcome = later
        cases later with
        | error error => rfl
        | ok more => exact congrArg Except.ok (List.append_assoc union events more)

/-- What the three closures are called for. The gate is what the health registry decides at each visit. -/
inductive Request where
  | fetchUnion (gate : Nat → String → Bool) (authors : List PublicKey)
  | fallbackFetch (author : PublicKey) (writeRelays : List String)
  | relayListFetch (author : PublicKey)

/-- A fetch of the daemon, with the window caps that the relays advertise at its visits. -/
structure DaemonFetch where
  maxLimit : Nat → String → Nat
  request : Request

def DaemonFetch.prog (curated : List String) (timeout : Duration) (fetch : DaemonFetch) :
    Prog Net (Except RelayError (List Event)) :=
  match fetch.request with
  | .fetchUnion gate authors => fanOutFetch gate (relayFetch fetch.maxLimit timeout) curated authors
  | .fallbackFetch author writeRelays => Daemon.fallbackFetch (relayFetch fetch.maxLimit timeout) author writeRelays
  | .relayListFetch author => Daemon.relayListFetch (relayFetch fetch.maxLimit timeout) curated author

/-- The relays that a fetch visits in turn. -/
def DaemonFetch.visits (curated : List String) (fetch : DaemonFetch) : List String :=
  match fetch.request with
  | .fetchUnion gate authors => if authors = [] then [] else admitted gate 0 curated
  | .fallbackFetch _ writeRelays => writeRelays
  | .relayListFetch _ => curated

/-- The visits of a loop that can ask: without a deadline the first one ends it. -/
def asking (timeout : Duration) (visits : List String) : List String :=
  if timeout = 0 then visits.take 1 else visits

/-- The keys under which a fetch can ask. -/
def DaemonFetch.keys (curated : List String) (timeout : Duration) (fetch : DaemonFetch) : List String :=
  asking timeout (fetch.visits curated)

/-- The fetches that run, each at its next call, and the traffic so far. -/
abbrev Fetches := Pool Net Traffic DaemonFetch (Except RelayError (List Event))

def quiet : Fetches := ⟨⟨fun _ => 0, fun _ => 0⟩, []⟩

/-- The steps of the daemon's fetches: one starts, makes its next call, or is abandoned. -/
inductive FetchStep (curated : List String) (timeout : Duration) (starts : DaemonFetch → Prop)
    (running : Fetches) : Fetches → Prop where
  | start (fetch : DaemonFetch) (may : starts fetch) :
      FetchStep curated timeout starts running (running.spawn ⟨fetch, fetch.prog curated timeout⟩)
  | work (step : running.Calls (wire curated).silent index op note noted after) :
      FetchStep curated timeout starts running after
  | abandon (found : running.tasks[index]? = some task) (outcome : Except RelayError (List Event)) :
      FetchStep curated timeout starts running (running.drop index task.note outcome)

/-- No relay of the pool has received more requests than its limiter gave out tokens. -/
def Polite (curated : List String) (running : Fetches) : Prop :=
  ∀ relay ∈ curated, running.shared.reqs relay ≤ running.shared.tokens relay

section Visits

variable {curated : List String} {timeout : Duration} {authors : List PublicKey} {kind : Kind}
  {maxLimit : Nat → String → Nat} {gate : Nat → String → Bool}

theorem asking_subset (timeout : Duration) (relay : String) (rest : List String) :
    asking timeout (relay :: rest) ⊆ relay :: asking timeout rest := by
  unfold asking
  split
  · exact List.cons_subset_cons relay (List.nil_subset _)
  · exact List.Subset.refl _

theorem visitEach_affords (asks : authors ≠ []) (union : List Event) (visit : Nat) (relays : List String)
    (own : ∀ key ∈ asking timeout (admitted gate visit relays), relay = key) :
    (visitEach gate (fun visit relay => relayFetch maxLimit timeout visit relay authors kind) union visit
      relays).Affords (tokenTariff relay) (fun _ => True) 0 := by
  induction relays generalizing union visit with
  | nil => trivial
  | cons next rest ih =>
    rw [visitEach]
    rw [admitted] at own
    split at own
    · rename_i opens
      rw [if_pos opens]
      obtain rfl : relay = next := by
        apply own
        unfold asking
        split
        · exact List.mem_singleton_self _
        · exact List.mem_cons_self ..
      apply (fetchCompleteWithTimeout_affords asks _ _).before
      intro result inTime
      cases result with
      | error error => trivial
      | ok events =>
        apply ih
        have positive : timeout ≠ 0 := Nat.ne_of_gt inTime
        intro key member
        unfold asking at own member
        rw [if_neg positive] at own member
        exact own key (List.mem_cons_of_mem _ member)
    · rename_i skips
      rw [if_neg skips]
      exact ih union (visit + 1) own

/-- A loop can strain the pool under every key that it asks with. -/
theorem visitEach_strains (asks : authors ≠ []) (union : List Event) (visit : Nat) (relays : List String)
    (traffic : Traffic) :
    May (wire curated) (visitEach gate (fun visit relay => relayFetch maxLimit timeout visit relay authors kind)
      union visit relays) traffic
      (fun _ after => Strains curated (asking timeout (admitted gate visit relays)) traffic after) := by
  induction relays generalizing union visit traffic with
  | nil =>
    refine may_ret.mpr ((Strains.none curated traffic).mono ?_)
    unfold asking admitted
    split
    · exact List.Subset.refl _
    · exact List.Subset.refl _
  | cons next rest ih =>
    rw [visitEach, admitted]
    split
    · rw [may_bind]
      refine (fetchCompleteWithTimeout_asked asks _ _ traffic).mono ?_
      intro result between asked
      obtain ⟨strains, inTime⟩ := asked
      cases result with
      | error error =>
        have zero : timeout = 0 := by
          cases inTime with
          | inl zero => exact zero
          | inr answered =>
            obtain ⟨events, impossible⟩ := answered
            cases impossible
        unfold asking
        rw [if_pos zero]
        exact may_ret.mpr strains
      | ok events =>
        refine (ih (union ++ events) (visit + 1) between).mono ?_
        intro result after later
        exact (strains.trans later).mono (asking_subset timeout next _)
    · exact ih union (visit + 1) traffic

/-- A fetch that makes no visit makes no call; any other is one loop for some author. -/
theorem DaemonFetch.prog_loop (fetch : DaemonFetch) (curated : List String) (timeout : Duration) :
    (fetch.prog curated timeout = .ret (.ok []) ∧ fetch.visits curated = []) ∨
      ∃ gate authors kind relays, authors ≠ [] ∧ fetch.visits curated = admitted gate 0 relays ∧
        fetch.prog curated timeout = visitEach gate (fun visit relay =>
          relayFetch fetch.maxLimit timeout visit relay authors kind) [] 0 relays := by
  obtain ⟨maxLimit, request⟩ := fetch
  cases request with
  | fetchUnion gate authors =>
    by_cases none : authors = []
    · exact .inl ⟨if_pos none, if_pos none⟩
    · exact .inr ⟨gate, authors, _, curated, none, if_neg none, if_neg none⟩
  | fallbackFetch author writeRelays =>
    exact .inr ⟨_, [author], _, writeRelays, List.cons_ne_nil _ _, (admitted_open 0 writeRelays).symm,
      (visitEach_open [] 0 writeRelays).symm⟩
  | relayListFetch author =>
    exact .inr ⟨_, [author], _, curated, List.cons_ne_nil _ _, (admitted_open 0 curated).symm,
      (visitEach_open [] 0 curated).symm⟩

/-- A fetch under no key but a relay's own pays for what that relay receives. -/
theorem DaemonFetch.affords (fetch : DaemonFetch) (own : ∀ key ∈ fetch.keys curated timeout, relay = key) :
    (fetch.prog curated timeout).Affords (tokenTariff relay) (fun _ => True) 0 := by
  cases fetch.prog_loop curated timeout with
  | inl idle =>
    rw [idle.1]
    trivial
  | inr loop =>
    obtain ⟨gate, authors, kind, relays, asks, visits, prog⟩ := loop
    rw [DaemonFetch.keys, visits] at own
    rw [prog]
    exact visitEach_affords asks [] 0 relays own

theorem DaemonFetch.strains (fetch : DaemonFetch) (curated : List String) (timeout : Duration) (traffic : Traffic) :
    May (wire curated) (fetch.prog curated timeout) traffic
      (fun _ after => Strains curated (fetch.keys curated timeout) traffic after) := by
  unfold DaemonFetch.keys
  cases fetch.prog_loop curated timeout with
  | inl idle =>
    rw [idle.1, idle.2]
    refine may_ret.mpr ((Strains.none curated traffic).mono ?_)
    unfold asking
    split
    · exact List.Subset.refl _
    · exact List.Subset.refl _
  | inr loop =>
    obtain ⟨gate, authors, kind, relays, asks, visits, prog⟩ := loop
    rw [visits, prog]
    exact visitEach_strains asks [] 0 relays traffic

end Visits

section Runs

variable {curated : List String} {timeout : Duration} {starts : DaemonFetch → Prop} {running after : Fetches}

/-- The tokens of a relay cover what it received and what the running fetches have still paid for. -/
def Covered (relay : String) (running : Fetches) : Prop :=
  ∃ credit, running.Funds (tokenTariff relay) credit ∧
    running.shared.reqs relay + credit ≤ running.shared.tokens relay

theorem Covered.step (covered : Covered relay running) (listed : relay ∈ curated)
    (own : ∀ fetch, starts fetch → ∀ key ∈ fetch.keys curated timeout, relay = key)
    (step : FetchStep curated timeout starts running after) : Covered relay after := by
  obtain ⟨credit, funds, within⟩ := covered
  cases step with
  | start fetch may =>
    have started : Pool.Funds (tokenTariff relay) (credit + 0)
        (running.spawn ⟨fetch, fetch.prog curated timeout⟩) := funds.spawn (fetch.affords (own fetch may))
    exact ⟨credit, started, within⟩
  | abandon found outcome => exact ⟨credit, funds.drop, within⟩
  | work step =>
    obtain ⟨enough, rest⟩ := funds.calls step
    obtain ⟨reply, executed, _⟩ := step.executed
    obtain ⟨received, given⟩ := wire_spec listed executed
    refine ⟨_, rest, ?_⟩
    dsimp only at received given
    omega

/-- Where every fetch asks under a relay's own key alone, a run keeps that relay covered. -/
theorem Covered.run (listed : relay ∈ curated)
    (own : ∀ fetch, starts fetch → ∀ key ∈ fetch.keys curated timeout, relay = key)
    (run : Relation.ReflTransGen (FetchStep curated timeout starts) quiet running) : Covered relay running := by
  induction run with
  | refl => exact ⟨0, ⟨[], .nil, le_refl 0⟩, le_refl 0⟩
  | tail run step ih => exact ih.step listed own step

/-- A fetch that asks under a foreign key can run to its end, in debt with the relay. -/
theorem indebted (fetch : DaemonFetch) (may : starts fetch) (listed : relay ∈ curated)
    (asked : key ∈ fetch.keys curated timeout) (foreign : relay ≠ key) :
    ∃ running, Relation.ReflTransGen (FetchStep curated timeout starts) quiet running ∧
      running.notes = [fetch] ∧ running.shared.tokens relay < running.shared.reqs relay := by
  obtain ⟨outcome, traffic, run, strains⟩ := fetch.strains curated timeout quiet.shared
  let alone : Fetches := quiet.spawn ⟨fetch, fetch.prog curated timeout⟩
  have started : FetchStep curated timeout starts quiet alone := .start fetch may
  have silent : Runs (wire curated).silent (fetch.prog curated timeout) (alone.shared, fetch) outcome
      (traffic, fetch) := run.silent fetch
  have found : alone.tasks[0]? = some ⟨fetch, fetch.prog curated timeout⟩ := rfl
  have works : Relation.ReflTransGen (FetchStep curated timeout starts) alone
      ⟨traffic, [⟨fetch, .ret outcome⟩]⟩ := by
    apply Relation.ReflTransGen.mono _ _ _ (Pool.runs_calls silent found)
    intro before after step
    obtain ⟨op, old, new, step⟩ := step
    exact .work step
  refine ⟨_, .head started works, rfl, ?_⟩
  have debt := (strains relay listed).2 key asked foreign
  simp only [Traffic.owed, quiet] at debt
  dsimp only
  omega

/-- Two relays share the client, and one author is looked for. -/
def twoRelays : List String := ["wss://a", "wss://b"]

def soleFanOut : DaemonFetch := ⟨fun _ _ => 500, .fetchUnion (fun _ _ => true) [sampleAuthor]⟩

/-- Each relay's limiter bounds what it receives, in every run of the fetches, exactly if no fetch
asks under a key but that of the pool's only relay. -/
theorem polite_iff (curated : List String) (timeout : Duration) (starts : DaemonFetch → Prop) :
    (∀ running, Relation.ReflTransGen (FetchStep curated timeout starts) quiet running → Polite curated running) ↔
      ∀ fetch, starts fetch → ∀ key ∈ fetch.keys curated timeout, ∀ relay ∈ curated, relay = key := by
  constructor
  · intro polite fetch may key asked relay listed
    by_contra foreign
    obtain ⟨running, run, _, debt⟩ := indebted fetch may listed asked foreign
    exact absurd (polite running run relay listed) (not_le.mpr debt)
  · intro own running run relay listed
    have covered : Covered relay running :=
      .run listed (fun fetch may key asked => own fetch may key asked relay listed) run
    obtain ⟨credit, _, within⟩ := covered
    exact (Nat.le_add_right _ credit).trans within

/-- A fan-out to two relays sends each of them what the other's token paid for. -/
theorem fanOut_impolite : ∃ running,
    Relation.ReflTransGen (FetchStep twoRelays defaultFetchTimeout (fun _ => True)) quiet running ∧
      running.notes = [soleFanOut] ∧ ¬ Polite twoRelays running := by
  have asked : "wss://b" ∈ soleFanOut.keys twoRelays defaultFetchTimeout := by decide
  have apart : "wss://a" ≠ "wss://b" := by decide
  have debt : ∃ running, Relation.ReflTransGen (FetchStep twoRelays defaultFetchTimeout (fun _ => True)) quiet running ∧
      running.notes = [soleFanOut] ∧ running.shared.tokens "wss://a" < running.shared.reqs "wss://a" :=
    indebted soleFanOut trivial (List.mem_cons_self ..) asked apart
  obtain ⟨running, run, notes, debt⟩ := debt
  refine ⟨running, run, notes, ?_⟩
  intro polite
  exact absurd (polite "wss://a" (List.mem_cons_self ..)) (not_le.mpr debt)

end Runs

end WotCrawler.Daemon
